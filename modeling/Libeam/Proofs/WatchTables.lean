import Libeam.Monitoring.Bonds
/-!
# The tables of watches agree

A watch is in the table of the entries, in the index of the watched actor and in
the context of the watcher, or in none of them.  Every operation strikes a watch
from all of them, or adds one to all of them, or leaves them alone.
-/

namespace Libeam.Proofs.WatchTables

open Libeam.System (ActorId)
open Supervision (ActorRef)
open Monitoring Lib

variable {N : Type} {actors : Finset ActorId} {callbacks : Callbacks N}

/-! ## What leaves watches or links alone -/

/-- The tables of watches are as before. -/
structure WatchesKept (r r' : Relations N) : Prop where
  watches : r'.watches = r.watches
  watchedBy : r'.watchedBy = r.watchedBy
  remoteWatches : r'.remoteWatches = r.remoteWatches
  contextWatches : r'.contextWatches = r.contextWatches
  watchRefs : r'.watchRefs = r.watchRefs
  remoteRefs : r'.remoteRefs = r.remoteRefs

/-- The tables of links are as before. -/
structure LinksKept (r r' : Relations N) : Prop where
  links : r'.links = r.links
  linkedWith : r'.linkedWith = r.linkedWith
  remoteLinks : r'.remoteLinks = r.remoteLinks
  contextLinks : r'.contextLinks = r.contextLinks
  trapExit : r'.trapExit = r.trapExit
  linkRefs : r'.linkRefs = r.linkRefs
  localLinks : r'.localLinks = r.localLinks

namespace WatchesKept

theorem refl (r : Relations N) : WatchesKept r r := ⟨rfl, rfl, rfl, rfl, rfl, rfl⟩

theorem trans {r r' r'' : Relations N} (h : WatchesKept r r') (h' : WatchesKept r' r'') :
    WatchesKept r r'' where
  watches := h'.watches.trans h.watches
  watchedBy := h'.watchedBy.trans h.watchedBy
  remoteWatches := h'.remoteWatches.trans h.remoteWatches
  contextWatches := h'.contextWatches.trans h.contextWatches
  watchRefs := h'.watchRefs.trans h.watchRefs
  remoteRefs := h'.remoteRefs.trans h.remoteRefs

end WatchesKept

namespace LinksKept

theorem refl (r : Relations N) : LinksKept r r := ⟨rfl, rfl, rfl, rfl, rfl, rfl, rfl⟩

theorem trans {r r' r'' : Relations N} (h : LinksKept r r') (h' : LinksKept r' r'') :
    LinksKept r r'' where
  links := h'.links.trans h.links
  linkedWith := h'.linkedWith.trans h.linkedWith
  remoteLinks := h'.remoteLinks.trans h.remoteLinks
  contextLinks := h'.contextLinks.trans h.contextLinks
  trapExit := h'.trapExit.trans h.trapExit
  linkRefs := h'.linkRefs.trans h.linkRefs
  localLinks := h'.localLinks.trans h.localLinks

end LinksKept

/-! ## Agreement -/

/-- The reference has an entry, of a local watch or of a remote one. -/
def Held (r : Relations N) (watchRef : WatchRef) : Prop :=
  (∃ e, r.watches watchRef.id = some e ∧ e.watchRef = watchRef) ∨
    ∃ e ∈ r.remoteWatches, e.watchRef = watchRef

structure WatchesAgree (actors : Finset ActorId) (r : Relations N) : Prop where
  index : ∀ w a, w ∈ r.watchedBy.get a ↔ ∃ e, r.watches w = some e ∧ e.watchRef.watchedId = a
  context : ∀ a ∈ actors, ∀ ref, ref ∈ r.contextWatches a ↔ Held r ref ∧ ref.watcherId = a
  /-- Also in the contexts of actors that are gone. -/
  contextMade : ∀ a, ∀ ref ∈ r.contextWatches a, r.watchRefs ref.id = some ref
  tidy : r.watchedBy.Tidy
  entry : ∀ w e, r.watches w = some e →
    r.watchRefs w = some e.watchRef ∧ e.watcherRef.id = e.watchRef.watcherId ∧
      w ∉ r.remoteRefs
  remote : ∀ e ∈ r.remoteWatches, r.watchRefs e.watchRef.id = some e.watchRef ∧
    e.watcherRef.id = e.watchRef.watcherId ∧ e.watchRef.id ∈ r.remoteRefs
  unique : (r.remoteWatches.map fun e => e.watchRef.id).Nodup
  made : ∀ w ref, r.watchRefs w = some ref → ref.id = w ∧ w < r.nextRef
  madeRemote : ∀ w ∈ r.remoteRefs, w < r.nextRef
  contextOwn : ∀ a, ∀ ref ∈ r.contextWatches a, ref.watcherId = a

namespace WatchesAgree

variable {r r' : Relations N}

theorem of_kept (h : WatchesAgree actors r) (hkept : WatchesKept r r')
    (hnext : r.nextRef ≤ r'.nextRef) : WatchesAgree actors r' where
  index := by rw [hkept.watchedBy, hkept.watches]; exact h.index
  context := by
    unfold Held
    rw [hkept.contextWatches, hkept.watches, hkept.remoteWatches]
    exact h.context
  contextMade := by rw [hkept.contextWatches, hkept.watchRefs]; exact h.contextMade
  tidy := hkept.watchedBy ▸ h.tidy
  entry := by rw [hkept.watches, hkept.watchRefs, hkept.remoteRefs]; exact h.entry
  remote := by rw [hkept.remoteWatches, hkept.watchRefs, hkept.remoteRefs]; exact h.remote
  unique := hkept.remoteWatches ▸ h.unique
  made := by
    rw [hkept.watchRefs]
    exact fun w ref href => ⟨(h.made w ref href).1, (h.made w ref href).2.trans_le hnext⟩
  madeRemote := by
    rw [hkept.remoteRefs]
    exact fun w hw => (h.madeRemote w hw).trans_le hnext
  contextOwn := hkept.contextWatches ▸ h.contextOwn

/-- Actors leave the table. -/
theorem mono (h : WatchesAgree actors r) {actors' : Finset ActorId} (hsub : actors' ⊆ actors) :
    WatchesAgree actors' r :=
  { h with context := fun a ha => h.context a (hsub ha) }

theorem id_of_watches (h : WatchesAgree actors r) {w : RefId} {e : WatchEntry N}
    (he : r.watches w = some e) : e.watchRef.id = w :=
  (h.made w _ (h.entry w e he).1).1

theorem held_made (h : WatchesAgree actors r) {ref : WatchRef} (href : Held r ref) :
    r.watchRefs ref.id = some ref := by
  rcases href with ⟨e, he, rfl⟩ | ⟨e, he, rfl⟩
  · exact (h.entry _ e he).1
  · exact (h.remote e he).1

/-- Two references with one id are one reference. -/
theorem held_unique (h : WatchesAgree actors r) {ref ref' : WatchRef} (href : Held r ref)
    (hmade : r.watchRefs ref'.id = some ref') (hid : ref.id = ref'.id) : ref = ref' := by
  have hr := h.held_made href
  rw [hid, hmade] at hr
  exact (Option.some.inj hr).symm

end WatchesAgree

/-! ## Striking a watch -/

/-- The watch is gone from all tables, and nothing else is. -/
structure Strikes (actors : Finset ActorId) (w : RefId) (r r' : Relations N) : Prop where
  watches : ∀ v, r'.watches v = if v = w then none else r.watches v
  remoteWatches : r'.remoteWatches = r.remoteWatches.filter fun e => e.watchRef.id ≠ w
  index : ∀ a v, v ∈ r'.watchedBy.get a ↔ v ∈ r.watchedBy.get a ∧ v ≠ w
  context : ∀ a ∈ actors, ∀ ref,
    ref ∈ r'.contextWatches a ↔ ref ∈ r.contextWatches a ∧ ref.id ≠ w
  contextSub : ∀ a, ∀ ref ∈ r'.contextWatches a, ref ∈ r.contextWatches a
  tidy : r.watchedBy.Tidy → r'.watchedBy.Tidy
  watchRefs : r'.watchRefs = r.watchRefs
  remoteRefs : r'.remoteRefs = r.remoteRefs
  nextRef : r'.nextRef = r.nextRef

theorem Strikes.held {w : RefId} {r r' : Relations N} (h : Strikes actors w r r')
    (ref : WatchRef) : Held r' ref ↔ Held r ref ∧ ref.id ≠ w := by
  unfold Held
  rw [h.watches, h.remoteWatches]
  by_cases hid : ref.id = w
  · subst hid
    simp only [if_true, ne_eq, not_true, and_false, iff_false]
    rintro (⟨e, he, -⟩ | ⟨e, he, rfl⟩)
    · cases he
    · simp at he
  · simp only [hid, if_false, ne_eq, not_false_eq_true, and_true, List.mem_filter,
      decide_eq_true_eq]
    constructor
    · rintro (hl | ⟨e, ⟨he, -⟩, rfl⟩)
      · exact .inl hl
      · exact .inr ⟨e, he, rfl⟩
    · rintro (hl | ⟨e, he, rfl⟩)
      · exact .inl hl
      · exact .inr ⟨e, ⟨he, hid⟩, rfl⟩

theorem WatchesAgree.strikes {w : RefId} {r r' : Relations N} (h : WatchesAgree actors r)
    (hs : Strikes actors w r r') : WatchesAgree actors r' where
  index := by
    intro v a
    rw [hs.index, h.index, hs.watches]
    by_cases hv : v = w
    · simp [hv]
    · simp [hv]
  context := by
    intro a ha ref
    rw [hs.context a ha, h.context a ha, hs.held]
    exact and_right_comm
  contextMade := by
    rw [hs.watchRefs]
    exact fun a ref href => h.contextMade a ref (hs.contextSub a ref href)
  tidy := hs.tidy h.tidy
  entry := by
    intro v e he
    rw [hs.watches] at he
    split_ifs at he
    rw [hs.watchRefs, hs.remoteRefs]
    exact h.entry v e he
  remote := by
    intro e he
    rw [hs.remoteWatches] at he
    rw [hs.watchRefs, hs.remoteRefs]
    exact h.remote e (List.mem_of_mem_filter he)
  unique := by
    rw [hs.remoteWatches]
    exact h.unique.sublist (List.filter_sublist.map _)
  made := by rw [hs.watchRefs, hs.nextRef]; exact h.made
  madeRemote := by rw [hs.remoteRefs, hs.nextRef]; exact h.madeRemote
  contextOwn := fun a ref href => h.contextOwn a ref (hs.contextSub a ref href)

/-- Striking what no table has. -/
theorem Strikes.absent {w : RefId} {r : Relations N} (h : WatchesAgree actors r)
    (hlocal : r.watches w = none) (hremote : ∀ e ∈ r.remoteWatches, e.watchRef.id ≠ w) :
    Strikes actors w r r where
  watches := by
    intro v
    split_ifs with hv
    · rw [hv, hlocal]
    · rfl
  remoteWatches := (List.filter_eq_self.2 fun e he => by simpa using hremote e he).symm
  index := by
    intro a v
    refine (and_iff_left_of_imp fun hv => ?_).symm
    rintro rfl
    obtain ⟨e, he, -⟩ := (h.index v a).1 hv
    rw [hlocal] at he
    cases he
  context := by
    intro a ha ref
    refine (and_iff_left_of_imp fun href => ?_).symm
    rintro rfl
    rcases ((h.context a ha ref).1 href).1 with ⟨e, he, -⟩ | ⟨e, he, rfl⟩
    · rw [hlocal] at he
      cases he
    · exact hremote e he rfl
  contextSub := fun _ _ href => href
  tidy := fun htidy => htidy
  watchRefs := rfl
  remoteRefs := rfl
  nextRef := rfl

theorem contextWatches_dropWatch (r : Relations N) (id : ActorId) (w : RefId) (a : ActorId) :
    (r.dropWatch actors id w).contextWatches a =
      if a = id ∧ id ∈ actors then (r.contextWatches a).filter fun ref => ref.id ≠ w
      else r.contextWatches a := by
  unfold Relations.dropWatch
  by_cases hid : id ∈ actors
  · by_cases ha : a = id
    · subst ha
      simp [hid]
    · simp [hid, ha]
  · simp [hid]

theorem dropWatch_sub (r : Relations N) (id : ActorId) (w : RefId) (a : ActorId) :
    ∀ ref ∈ (r.dropWatch actors id w).contextWatches a, ref ∈ r.contextWatches a := by
  intro ref href
  rw [contextWatches_dropWatch] at href
  split_ifs at href
  · exact List.mem_of_mem_filter href
  · exact href

/-- The context of the watcher is the only one that has the watch. -/
theorem mem_dropWatch {r : Relations N} (h : WatchesAgree actors r) {ref : WatchRef}
    (hmade : r.watchRefs ref.id = some ref) (r₁ : Relations N)
    (hsame : r₁.contextWatches = r.contextWatches) {a : ActorId} (ha : a ∈ actors)
    (ref' : WatchRef) :
    ref' ∈ (r₁.dropWatch actors ref.watcherId ref.id).contextWatches a ↔
      ref' ∈ r.contextWatches a ∧ ref'.id ≠ ref.id := by
  rw [contextWatches_dropWatch, hsame]
  split_ifs with hwatcher
  · simp
  · refine (and_iff_left_of_imp fun href' hid => hwatcher ?_).symm
    obtain ⟨hheld, hwatch⟩ := (h.context a ha ref').1 href'
    have heq := h.held_unique hheld hmade hid
    rw [← heq, hwatch]
    exact ⟨rfl, ha⟩

theorem dropWatch_kept (r : Relations N) (id : ActorId) (w : RefId) :
    LinksKept r (r.dropWatch actors id w) := by
  unfold Relations.dropWatch
  split_ifs
  · exact ⟨rfl, rfl, rfl, rfl, rfl, rfl, rfl⟩
  · exact .refl r

/-- The tables of entries do not depend on the contexts. -/
theorem dropWatch_tables (actors : Finset ActorId) (r : Relations N) (id : ActorId)
    (w : RefId) :
    (r.dropWatch actors id w).watches = r.watches ∧
      (r.dropWatch actors id w).watchedBy = r.watchedBy ∧
      (r.dropWatch actors id w).remoteWatches = r.remoteWatches ∧
      (r.dropWatch actors id w).watchRefs = r.watchRefs ∧
      (r.dropWatch actors id w).remoteRefs = r.remoteRefs ∧
      (r.dropWatch actors id w).nextRef = r.nextRef ∧
      (r.dropWatch actors id w).events = r.events := by
  unfold Relations.dropWatch
  split_ifs <;> exact ⟨rfl, rfl, rfl, rfl, rfl, rfl, rfl⟩

theorem getRemoteWatch_some {r : Relations N} {w : RefId} {e : RemoteWatchEntry N}
    (he : r.getRemoteWatch w = some e) : e ∈ r.remoteWatches ∧ e.watchRef.id = w :=
  ⟨List.mem_of_find?_eq_some he, by simpa using List.find?_some he⟩

theorem getRemoteWatch_none {r : Relations N} {w : RefId} (hn : r.getRemoteWatch w = none) :
    ∀ e ∈ r.remoteWatches, e.watchRef.id ≠ w := fun e he => by
  simpa using List.find?_eq_none.1 hn e he

/-- The entry was made by `watch` for an actor on another node. -/
def Genuine (r : Relations N) (e : RemoteWatchEntry N) : Prop :=
  r.watchRefs e.watchRef.id = some e.watchRef ∧ e.watcherRef.id = e.watchRef.watcherId ∧
    e.watchRef.id ∈ r.remoteRefs

/-- The entry of a remote watch leaves all tables, if it is still there. -/
theorem strikes_remote {r : Relations N} (h : WatchesAgree actors r) {e : RemoteWatchEntry N}
    (he : Genuine r e) :
    Strikes actors e.watchRef.id r
      ({ r with
        remoteWatches := r.remoteWatches.filter fun e' =>
          e'.watchRef.id ≠ e.watchRef.id }.dropWatch
        actors e.watcherRef.id e.watchRef.id) := by
  obtain ⟨hmade, hwatcher, hremote⟩ := he
  have hwatches : r.watches e.watchRef.id = none := by
    by_contra hsome
    obtain ⟨e', he'⟩ := Option.ne_none_iff_exists'.1 hsome
    exact (h.entry _ e' he').2.2 hremote
  obtain ⟨t₁, t₂, t₃, t₄, t₅, t₆, -⟩ := dropWatch_tables actors
    { r with
      remoteWatches := r.remoteWatches.filter fun e' => e'.watchRef.id ≠ e.watchRef.id }
    e.watcherRef.id e.watchRef.id
  constructor
  · intro v
    rw [t₁]
    dsimp only
    split_ifs with hv
    · rw [hv, hwatches]
    · rfl
  · exact t₃
  · intro a v
    rw [t₂]
    refine (and_iff_left_of_imp fun hv => ?_).symm
    rintro rfl
    obtain ⟨e', he', -⟩ := (h.index _ a).1 hv
    rw [hwatches] at he'
    cases he'
  · intro a ha ref'
    rw [hwatcher]
    exact mem_dropWatch h hmade _ (by rfl) ha ref'
  · exact fun a => dropWatch_sub _ _ _ a
  · rw [t₂]
    exact fun htidy => htidy
  · exact t₄
  · exact t₅
  · exact t₆

theorem strikes_unwatchLocal {r : Relations N} (h : WatchesAgree actors r) {ref : WatchRef}
    (hmade : r.watchRefs ref.id = some ref)
    (hremote : ∀ e ∈ r.remoteWatches, e.watchRef.id ≠ ref.id) :
    Strikes actors ref.id r (r.unwatchLocal actors ref) := by
  unfold Relations.unwatchLocal
  split
  next hnone => exact .absent h hnone hremote
  next entry hentry =>
    have hwatched : entry.watchRef = ref :=
      Option.some.inj ((h.entry _ _ hentry).1.symm.trans hmade)
    obtain ⟨t₁, t₂, t₃, t₄, t₅, t₆, -⟩ := dropWatch_tables actors
      { r with
        watches := Function.update r.watches ref.id none
        watchedBy := r.watchedBy.remove ref.watchedId ref.id }
      ref.watcherId ref.id
    constructor
    · intro v
      rw [t₁]
      simp only [Function.update_apply]
    · rw [t₃]
      exact (List.filter_eq_self.2 fun e he => by simpa using hremote e he).symm
    · intro a v
      rw [t₂]
      dsimp only
      rw [SetMap.mem_get_remove]
      refine and_congr_right fun hv => ?_
      constructor
      · rintro hne rfl
        obtain ⟨e, he, rfl⟩ := (h.index _ a).1 hv
        rw [hentry, Option.some.injEq] at he
        subst he
        exact hne ⟨by rw [hwatched], rfl⟩
      · exact fun hne hboth => hne hboth.2
    · intro a ha ref'
      exact mem_dropWatch h hmade _ (by rfl) ha ref'
    · exact fun a => dropWatch_sub _ _ _ a
    · intro htidy
      rw [t₂]
      exact htidy.remove _ _
    · exact t₄
    · exact t₅
    · exact t₆

/-- Recording an event changes no table. -/
theorem Strikes.withEvents {w : RefId} {r r' : Relations N} (h : Strikes actors w r r')
    (events : List (Event N)) : Strikes actors w r { r' with events := events } :=
  ⟨h.watches, h.remoteWatches, h.index, h.context, h.contextSub, h.tidy, h.watchRefs,
    h.remoteRefs, h.nextRef⟩

theorem strikes_unwatch {r : Relations N} (h : WatchesAgree actors r) {ref : WatchRef}
    (hmade : r.watchRefs ref.id = some ref) :
    Strikes actors ref.id r (r.unwatch actors ref) := by
  unfold Relations.unwatch
  dsimp only
  split
  next e he =>
    obtain ⟨hmem, hid⟩ := getRemoteWatch_some he
    refine Strikes.withEvents ?_ _
    have hs := strikes_remote h (h.remote e hmem)
    rw [hid] at hs
    exact hs
  next hnone =>
    exact (strikes_unwatchLocal h hmade (getRemoteWatch_none hnone)).withEvents _

theorem unwatchRemote_kept (r : Relations N) (ref : WatchRef) (e : RemoteWatchEntry N) :
    LinksKept r (r.unwatchRemote actors ref e) := by
  refine LinksKept.trans ?_ (dropWatch_kept _ _ _)
  exact ⟨rfl, rfl, rfl, rfl, rfl, rfl, rfl⟩

theorem unwatchLocal_kept (r : Relations N) (ref : WatchRef) :
    LinksKept r (r.unwatchLocal actors ref) := by
  unfold Relations.unwatchLocal
  split
  · exact .refl r
  · refine LinksKept.trans ?_ (dropWatch_kept _ _ _)
    exact ⟨rfl, rfl, rfl, rfl, rfl, rfl, rfl⟩

theorem unwatch_kept (r : Relations N) (ref : WatchRef) :
    LinksKept r (r.unwatch actors ref) := by
  have hrecord : ∀ done : Relations N,
      LinksKept done { done with events := done.events ++ [.unwatched ref.id] } :=
    fun _ => ⟨rfl, rfl, rfl, rfl, rfl, rfl, rfl⟩
  unfold Relations.unwatch
  dsimp only
  split
  · exact (unwatchRemote_kept r ref _).trans (hrecord _)
  · exact (unwatchLocal_kept r ref).trans (hrecord _)

/-! ## Operations that only strike watches -/

/-- The watch has no entry. -/
def Absent (r : Relations N) (w : RefId) : Prop :=
  r.watches w = none ∧ ∀ e ∈ r.remoteWatches, e.watchRef.id ≠ w

theorem Strikes.absent_self {w : RefId} {r r' : Relations N} (h : Strikes actors w r r') :
    Absent r' w := by
  refine ⟨by rw [h.watches, if_pos rfl], fun e he => ?_⟩
  rw [h.remoteWatches] at he
  exact of_decide_eq_true (List.mem_filter.1 he).2

theorem Strikes.absent_kept {w : RefId} {r r' : Relations N} (h : Strikes actors w r r')
    {v : RefId} (hv : Absent r v) : Absent r' v := by
  refine ⟨?_, fun e he => ?_⟩
  · rw [h.watches, hv.1]
    split_ifs <;> rfl
  · rw [h.remoteWatches] at he
    exact hv.2 e (List.mem_of_mem_filter he)

/-- No watch or link is made, no link is touched, and the tables agree afterwards.
The watches that `unwatch` returns for have no entries any more. -/
structure Prunes (actors : Finset ActorId) (r r' : Relations N) : Prop where
  links : LinksKept r r'
  watchRefs : r'.watchRefs = r.watchRefs
  remoteRefs : r'.remoteRefs = r.remoteRefs
  nextRef : r'.nextRef = r.nextRef
  agree : WatchesAgree actors r'
  absent : ∀ w, Absent r w → Absent r' w
  unwatched : ∀ w, Event.unwatched w ∈ r'.events →
    Event.unwatched w ∈ r.events ∨ w < r.nextRef ∧ Absent r' w

namespace Prunes

variable {r r' r'' : Relations N}

theorem refl (h : WatchesAgree actors r) : Prunes actors r r :=
  ⟨.refl r, rfl, rfl, rfl, h, fun _ hw => hw, fun _ hw => .inl hw⟩

theorem trans (h : Prunes actors r r') (h' : Prunes actors r' r'') : Prunes actors r r'' where
  links := h.links.trans h'.links
  watchRefs := h'.watchRefs.trans h.watchRefs
  remoteRefs := h'.remoteRefs.trans h.remoteRefs
  nextRef := h'.nextRef.trans h.nextRef
  agree := h'.agree
  absent := fun w hw => h'.absent w (h.absent w hw)
  unwatched := fun w hw => (h'.unwatched w hw).elim
    (fun hw => (h.unwatched w hw).imp_right (And.imp_right (h'.absent w)))
    fun hw => .inr (h.nextRef ▸ hw)

/-- `handleInfo` is called. -/
theorem informed (h : WatchesAgree actors r) (id : ActorId) (message : InfoMessage N) :
    Prunes actors r { r with events := r.events ++ [.informed id message] } := by
  refine ⟨⟨rfl, rfl, rfl, rfl, rfl, rfl, rfl⟩, rfl, rfl, rfl,
    h.of_kept ⟨rfl, rfl, rfl, rfl, rfl, rfl⟩ le_rfl, fun _ hw => hw, fun w hw => ?_⟩
  rcases List.mem_append.1 hw with hold | hnew
  · exact .inl hold
  · cases List.mem_singleton.1 hnew

/-- A caller cancels a watch. -/
theorem noted (h : WatchesAgree actors r) (cancelled : List RefId) :
    Prunes actors r { r with cancelled := cancelled } :=
  ⟨⟨rfl, rfl, rfl, rfl, rfl, rfl, rfl⟩, rfl, rfl, rfl,
    h.of_kept ⟨rfl, rfl, rfl, rfl, rfl, rfl⟩ le_rfl, fun _ hw => hw, fun _ hw => .inl hw⟩

theorem genuine (h : Prunes actors r r') {e : RemoteWatchEntry N} (he : Genuine r e) :
    Genuine r' e := by
  unfold Genuine
  rw [h.watchRefs, h.remoteRefs]
  exact he

end Prunes

section
variable {r : Relations N}

theorem unwatch_refs (r : Relations N) (ref : WatchRef) :
    (r.unwatch actors ref).watchRefs = r.watchRefs ∧
      (r.unwatch actors ref).remoteRefs = r.remoteRefs ∧
      (r.unwatch actors ref).nextRef = r.nextRef := by
  unfold Relations.unwatch Relations.unwatchRemote Relations.unwatchLocal Relations.dropWatch
  dsimp only
  split
  · split_ifs <;> exact ⟨rfl, rfl, rfl⟩
  · split
    · exact ⟨rfl, rfl, rfl⟩
    · split_ifs <;> exact ⟨rfl, rfl, rfl⟩

theorem events_unwatch (actors : Finset ActorId) (r : Relations N) (ref : WatchRef) :
    (r.unwatch actors ref).events = r.events ++ [.unwatched ref.id] := by
  unfold Relations.unwatch Relations.unwatchRemote Relations.unwatchLocal Relations.dropWatch
  dsimp only
  split
  · split_ifs <;> rfl
  · split
    · rfl
    · split_ifs <;> rfl

theorem prunes_unwatch (h : WatchesAgree actors r) {ref : WatchRef}
    (hmade : r.watchRefs ref.id = some ref) : Prunes actors r (r.unwatch actors ref) where
  links := unwatch_kept r ref
  watchRefs := (unwatch_refs r ref).1
  remoteRefs := (unwatch_refs r ref).2.1
  nextRef := (unwatch_refs r ref).2.2
  agree := h.strikes (strikes_unwatch h hmade)
  absent := fun _ => (strikes_unwatch h hmade).absent_kept
  unwatched := by
    intro w hw
    rw [events_unwatch] at hw
    rcases List.mem_append.1 hw with hold | hnew
    · exact .inl hold
    · cases List.mem_singleton.1 hnew
      exact .inr ⟨(h.made _ _ hmade).2, (strikes_unwatch h hmade).absent_self⟩

theorem prunes_cancel (h : WatchesAgree actors r) (w : RefId) :
    Prunes actors r (r.cancel actors w) := by
  unfold Relations.cancel
  split
  · exact .refl h
  next ref href =>
    have hnoted := Prunes.noted h (r.cancelled ++ [w])
    refine hnoted.trans (prunes_unwatch hnoted.agree ?_)
    change r.watchRefs ref.id = some ref
    rw [(h.made w ref href).1]
    exact href

theorem prunes_cancels (h : WatchesAgree actors r) (ws : List RefId) :
    Prunes actors r (ws.foldl (fun r w => r.cancel actors w) r) := by
  induction ws generalizing r with
  | nil => exact .refl h
  | cons w ws ih =>
      have hw := prunes_cancel h w
      exact hw.trans (ih hw.agree)

theorem prunes_unwatches (h : WatchesAgree actors r) {refs : List WatchRef}
    (hmade : ∀ ref ∈ refs, r.watchRefs ref.id = some ref) :
    Prunes actors r (refs.foldl (fun r ref => r.unwatch actors ref) r) := by
  induction refs generalizing r with
  | nil => exact .refl h
  | cons ref refs ih =>
      have hp := prunes_unwatch h (hmade ref (by simp))
      refine hp.trans (ih hp.agree fun ref' href' => ?_)
      rw [hp.watchRefs]
      exact hmade ref' (by simp [href'])

theorem prunes_unwatchAll (h : WatchesAgree actors r) (id : ActorId) :
    Prunes actors r (r.unwatchAll actors id) :=
  prunes_unwatches h (h.contextMade id)

theorem prunes_inform (h : WatchesAgree actors r) (id : ActorId) (message : InfoMessage N) :
    Prunes actors r (r.inform actors callbacks id message).1 := by
  have hp := Prunes.informed h id message
  exact hp.trans (prunes_cancels hp.agree _)

theorem prunes_sendDownMessage (h : WatchesAgree actors r) (ref : WatchRef)
    (watchedRef : ActorRef N) (reason : TerminationReason) :
    Prunes actors r (r.sendDownMessage actors callbacks ref watchedRef reason).1 := by
  unfold Relations.sendDownMessage
  split_ifs
  · exact prunes_inform h _ _
  · exact .refl h

theorem prunes_sendMovedMessageToWatcher (h : WatchesAgree actors r) (ref : WatchRef)
    (move : Move N) :
    Prunes actors r (r.sendMovedMessageToWatcher actors callbacks ref move).1 := by
  unfold Relations.sendMovedMessageToWatcher
  split_ifs
  · exact prunes_inform h _ _
  · exact .refl h

/-- A watcher is told of an entry that was found, and the watch is cancelled. -/
theorem prunes_tell (h : WatchesAgree actors r) {w : RefId} {e : WatchEntry N}
    (he : r.watches w = some e) {told : Relations N × Bool} (htold : Prunes actors r told.1) :
    Prunes actors r
      (if told.2 then told else (told.1.unwatch actors e.watchRef, false)).1 := by
  split_ifs
  · exact htold
  · refine htold.trans (prunes_unwatch htold.agree ?_)
    rw [htold.watchRefs, h.id_of_watches he]
    exact (h.entry w e he).1

theorem prunes_tellWatcher (h : WatchesAgree actors r) (actorRef : ActorRef N)
    (reason : TerminationReason) (w : RefId) :
    Prunes actors r (r.tellWatcher actors callbacks actorRef reason w).1 := by
  unfold Relations.tellWatcher
  split
  · exact .refl h
  next e he => exact prunes_tell h he (prunes_sendDownMessage h _ _ _)

theorem prunes_tellWatcherOfMigration (h : WatchesAgree actors r) (move : Move N)
    (w : RefId) :
    Prunes actors r (r.tellWatcherOfMigration actors callbacks move w).1 := by
  unfold Relations.tellWatcherOfMigration
  split
  · exact .refl h
  next e he => exact prunes_tell h he (prunes_sendMovedMessageToWatcher h _ _)

theorem prunes_notifyWatchers (h : WatchesAgree actors r) (actorRef : ActorRef N)
    (reason : TerminationReason) :
    Prunes actors r (r.notifyWatchers actors callbacks actorRef reason).1 :=
  Loop.forEach_invariant
    (fun _ w _ hs => hs.trans (prunes_tellWatcher hs.agree actorRef reason w)) (.refl h)

theorem prunes_notifyWatchersOfMigration (h : WatchesAgree actors r) (actorId : ActorId)
    (move : Move N) :
    Prunes actors r (r.notifyWatchersOfMigration actors callbacks actorId move).1 :=
  Loop.forEach_invariant
    (fun _ w _ hs => hs.trans (prunes_tellWatcherOfMigration hs.agree move w)) (.refl h)

theorem prunes_endRemoteWatch (h : WatchesAgree actors r) {e : RemoteWatchEntry N}
    (he : Genuine r e) (message : InfoMessage N) :
    Prunes actors r (r.endRemoteWatch actors callbacks e message).1 := by
  have hs := strikes_remote h he
  have hp : Prunes actors r ({ r with
        remoteWatches := r.remoteWatches.filter fun e' =>
          e'.watchRef.id ≠ e.watchRef.id }.dropWatch
        actors e.watcherRef.id e.watchRef.id) := by
    refine ⟨?_, hs.watchRefs, hs.remoteRefs, hs.nextRef, h.strikes hs,
      fun _ => hs.absent_kept, fun w hw => .inl ?_⟩
    · refine LinksKept.trans ?_ (dropWatch_kept _ _ _)
      exact ⟨rfl, rfl, rfl, rfl, rfl, rfl, rfl⟩
    · rw [(dropWatch_tables _ _ _ _).2.2.2.2.2.2] at hw
      exact hw
  unfold Relations.endRemoteWatch
  dsimp only
  split_ifs with hwatcher
  · exact hp.trans (prunes_inform hp.agree _ _)
  · rw [show ∀ r' : Relations N, r'.dropWatch actors e.watcherRef.id e.watchRef.id = r' from
      fun r' => if_neg hwatcher] at hp
    exact hp

theorem prunes_handleRemoteDown (h : WatchesAgree actors r) (w : RefId)
    (watchedActorId : ActorId) (reason : TerminationReason) :
    Prunes actors r (r.handleRemoteDown actors callbacks w watchedActorId reason).1 := by
  unfold Relations.handleRemoteDown
  split
  · exact .refl h
  next e he => exact prunes_endRemoteWatch h (h.remote e (getRemoteWatch_some he).1) _

theorem prunes_handleRemoteWatcherMoved (h : WatchesAgree actors r) (w : RefId)
    (move : Move N) :
    Prunes actors r (r.handleRemoteWatcherMoved actors callbacks w move).1 := by
  unfold Relations.handleRemoteWatcherMoved
  split
  · exact .refl h
  next e he => exact prunes_endRemoteWatch h (h.remote e (getRemoteWatch_some he).1) _

/-- The entries of a failed node stay genuine, if not in the table. -/
theorem prunes_handleNodeFailureForWatches [DecidableEq N] (h : WatchesAgree actors r)
    (deadNodeId : N) :
    Prunes actors r (r.handleNodeFailureForWatches actors callbacks deadNodeId).1 := by
  refine Loop.forEach_invariant (fun s e he hs => ?_) (.refl h)
  have hgenuine := h.remote e (List.mem_of_mem_filter he)
  exact hs.trans (prunes_endRemoteWatch hs.agree (hs.genuine hgenuine) _)

/-! ## New watches and new actors -/

theorem contextWatches_putWatch (r : Relations N) (ref : WatchRef) (a : ActorId) :
    (r.putWatch actors ref).contextWatches a =
      if a = ref.watcherId ∧ ref.watcherId ∈ actors then r.contextWatches a ++ [ref]
      else r.contextWatches a := by
  unfold Relations.putWatch
  by_cases hid : ref.watcherId ∈ actors
  · by_cases ha : a = ref.watcherId
    · subst ha
      simp [hid]
    · simp [hid, ha]
  · simp [hid]

theorem of_mem_putWatch {r : Relations N} {ref ref' : WatchRef} {a : ActorId}
    (h : ref' ∈ (r.putWatch actors ref).contextWatches a) :
    ref' ∈ r.contextWatches a ∨ ref' = ref := by
  rw [contextWatches_putWatch] at h
  split_ifs at h
  · exact (List.mem_append.1 h).imp_right List.mem_singleton.1
  · exact .inl h

theorem mem_putWatch (r : Relations N) (ref : WatchRef) {a : ActorId} (ha : a ∈ actors)
    (ref' : WatchRef) :
    ref' ∈ (r.putWatch actors ref).contextWatches a ↔
      ref' ∈ r.contextWatches a ∨ ref' = ref ∧ ref.watcherId = a := by
  rw [contextWatches_putWatch]
  split_ifs with hwatcher
  · simp [hwatcher.1]
  · refine (or_iff_left ?_).symm
    rintro ⟨-, rfl⟩
    exact hwatcher ⟨rfl, ha⟩

theorem putWatch_tables (actors : Finset ActorId) (r : Relations N) (ref : WatchRef) :
    (r.putWatch actors ref).watches = r.watches ∧
      (r.putWatch actors ref).watchedBy = r.watchedBy ∧
      (r.putWatch actors ref).remoteWatches = r.remoteWatches ∧
      (r.putWatch actors ref).watchRefs = r.watchRefs ∧
      (r.putWatch actors ref).remoteRefs = r.remoteRefs ∧
      (r.putWatch actors ref).nextRef = r.nextRef ∧
      (r.putWatch actors ref).events = r.events := by
  unfold Relations.putWatch
  dsimp only
  split_ifs <;> exact ⟨rfl, rfl, rfl, rfl, rfl, rfl, rfl⟩

theorem putWatch_kept (r : Relations N) (ref : WatchRef) :
    LinksKept r (r.putWatch actors ref) := by
  unfold Relations.putWatch
  dsimp only
  split_ifs
  · exact ⟨rfl, rfl, rfl, rfl, rfl, rfl, rfl⟩
  · exact .refl r

theorem WatchesAgree.lt_of_watches (h : WatchesAgree actors r) {w : RefId}
    {e : WatchEntry N} (he : r.watches w = some e) : w < r.nextRef :=
  (h.made w _ (h.entry w e he).1).2

theorem WatchesAgree.lt_of_remote (h : WatchesAgree actors r) {e : RemoteWatchEntry N}
    (he : e ∈ r.remoteWatches) : e.watchRef.id < r.nextRef :=
  (h.made _ _ (h.remote e he).1).2

/-- The references that have been made are still known, with the new one. -/
theorem made_update (h : WatchesAgree actors r) (ref : WatchRef) (hid : ref.id = r.nextRef)
    (w : RefId) (ref' : WatchRef)
    (hmade : Function.update r.watchRefs r.nextRef (some ref) w = some ref') :
    ref'.id = w ∧ w < r.nextRef + 1 := by
  by_cases hw : w = r.nextRef
  · subst hw
    rw [Function.update_self, Option.some.injEq] at hmade
    subst hmade
    exact ⟨hid, Nat.lt_succ_self _⟩
  · rw [Function.update_of_ne hw] at hmade
    exact ⟨(h.made w ref' hmade).1, (h.made w ref' hmade).2.trans (Nat.lt_succ_self _)⟩

theorem contextMade_update (h : WatchesAgree actors r) (ref : WatchRef)
    (hid : ref.id = r.nextRef) {r₁ : Relations N}
    (hsame : r₁.contextWatches = r.contextWatches) (a : ActorId) :
    ∀ ref' ∈ (r₁.putWatch actors ref).contextWatches a,
      Function.update r.watchRefs r.nextRef (some ref) ref'.id = some ref' := by
  intro ref' href'
  rcases of_mem_putWatch href' with hold | rfl
  · rw [hsame] at hold
    have hmade := h.contextMade a ref' hold
    rw [Function.update_of_ne (Nat.ne_of_lt (h.made _ _ hmade).2)]
    exact hmade
  · rw [hid, Function.update_self]

theorem contextOwn_putWatch (h : WatchesAgree actors r) {ref : WatchRef} {r₁ : Relations N}
    (hsame : r₁.contextWatches = r.contextWatches) :
    ∀ a, ∀ ref' ∈ (r₁.putWatch actors ref).contextWatches a, ref'.watcherId = a := by
  intro a ref' href'
  rw [contextWatches_putWatch] at href'
  split_ifs at href' with hwatcher
  · rcases List.mem_append.1 href' with hold | hnew
    · exact h.contextOwn a ref' (hsame ▸ hold)
    · rw [List.mem_singleton.1 hnew]
      exact hwatcher.1.symm
  · exact h.contextOwn a ref' (hsame ▸ href')

/-- The reference that a new watch gets. -/
def newWatchRef (r : Relations N) (watcherRef watchedRef : ActorRef N) : WatchRef :=
  ⟨r.nextRef, watcherRef.id, watchedRef.id⟩

theorem establishWatch_tables (actors : Finset ActorId) (r : Relations N)
    (watcherRef watchedRef : ActorRef N) :
    (r.establishWatch actors watcherRef watchedRef).watches =
        Function.update r.watches r.nextRef
          (some ⟨newWatchRef r watcherRef watchedRef, watcherRef, watchedRef⟩) ∧
      (r.establishWatch actors watcherRef watchedRef).watchedBy =
        r.watchedBy.add watchedRef.id r.nextRef ∧
      (r.establishWatch actors watcherRef watchedRef).remoteWatches = r.remoteWatches ∧
      (r.establishWatch actors watcherRef watchedRef).watchRefs =
        Function.update r.watchRefs r.nextRef (some (newWatchRef r watcherRef watchedRef)) ∧
      (r.establishWatch actors watcherRef watchedRef).remoteRefs = r.remoteRefs ∧
      (r.establishWatch actors watcherRef watchedRef).nextRef = r.nextRef + 1 ∧
      (r.establishWatch actors watcherRef watchedRef).events = r.events :=
  putWatch_tables _ _ _

theorem setupRemoteWatch_tables (actors : Finset ActorId) (r : Relations N)
    (watcherRef watchedRef : ActorRef N) :
    (r.setupRemoteWatch actors watcherRef watchedRef).watches = r.watches ∧
      (r.setupRemoteWatch actors watcherRef watchedRef).watchedBy = r.watchedBy ∧
      (r.setupRemoteWatch actors watcherRef watchedRef).remoteWatches =
        r.remoteWatches ++ [⟨newWatchRef r watcherRef watchedRef, watcherRef,
          watchedRef.systemId, watchedRef.id⟩] ∧
      (r.setupRemoteWatch actors watcherRef watchedRef).watchRefs =
        Function.update r.watchRefs r.nextRef (some (newWatchRef r watcherRef watchedRef)) ∧
      (r.setupRemoteWatch actors watcherRef watchedRef).remoteRefs =
        r.remoteRefs ++ [r.nextRef] ∧
      (r.setupRemoteWatch actors watcherRef watchedRef).nextRef = r.nextRef + 1 ∧
      (r.setupRemoteWatch actors watcherRef watchedRef).events = r.events :=
  putWatch_tables _ _ _

theorem establishWatch_kept (r : Relations N) (watcherRef watchedRef : ActorRef N) :
    LinksKept r (r.establishWatch actors watcherRef watchedRef) := by
  refine LinksKept.trans ?_ (putWatch_kept _ _)
  exact ⟨rfl, rfl, rfl, rfl, rfl, rfl, rfl⟩

theorem setupRemoteWatch_kept (r : Relations N) (watcherRef watchedRef : ActorRef N) :
    LinksKept r (r.setupRemoteWatch actors watcherRef watchedRef) := by
  refine LinksKept.trans ?_ (putWatch_kept _ _)
  exact ⟨rfl, rfl, rfl, rfl, rfl, rfl, rfl⟩

theorem of_mem_establishWatch {r : Relations N} {watcherRef watchedRef : ActorRef N}
    {ref : WatchRef} {a : ActorId}
    (h : ref ∈ (r.establishWatch actors watcherRef watchedRef).contextWatches a) :
    ref ∈ r.contextWatches a ∨ ref = newWatchRef r watcherRef watchedRef := by
  have hput := of_mem_putWatch h
  exact hput

theorem of_mem_setupRemoteWatch {r : Relations N} {watcherRef watchedRef : ActorRef N}
    {ref : WatchRef} {a : ActorId}
    (h : ref ∈ (r.setupRemoteWatch actors watcherRef watchedRef).contextWatches a) :
    ref ∈ r.contextWatches a ∨ ref = newWatchRef r watcherRef watchedRef := by
  have hput := of_mem_putWatch h
  exact hput

theorem WatchesAgree.ne_of_held (h : WatchesAgree actors r) {ref : WatchRef}
    (href : Held r ref) : ref.id ≠ r.nextRef :=
  Nat.ne_of_lt (h.made _ _ (h.held_made href)).2

theorem held_establishWatch (h : WatchesAgree actors r) (watcherRef watchedRef : ActorRef N)
    (ref : WatchRef) :
    Held (r.establishWatch actors watcherRef watchedRef) ref ↔
      Held r ref ∨ ref = newWatchRef r watcherRef watchedRef := by
  obtain ⟨t₁, -, t₃, -⟩ := establishWatch_tables actors r watcherRef watchedRef
  constructor
  · rintro (⟨e, he, href⟩ | ⟨e, he, href⟩)
    · rw [t₁] at he
      by_cases hid : ref.id = r.nextRef
      · rw [hid, Function.update_self, Option.some.injEq] at he
        subst he
        exact .inr href.symm
      · rw [Function.update_of_ne hid] at he
        exact .inl (.inl ⟨e, he, href⟩)
    · exact .inl (.inr ⟨e, t₃ ▸ he, href⟩)
  · rintro (href | rfl)
    · refine href.imp (fun ⟨e, he, heq⟩ => ⟨e, ?_, heq⟩) fun ⟨e, he, heq⟩ => ⟨e, ?_, heq⟩
      · rw [t₁, Function.update_of_ne (h.ne_of_held href)]
        exact he
      · rw [t₃]
        exact he
    · exact .inl ⟨_, by rw [t₁]; exact Function.update_self .., rfl⟩

theorem held_setupRemoteWatch (r : Relations N) (watcherRef watchedRef : ActorRef N)
    (ref : WatchRef) :
    Held (r.setupRemoteWatch actors watcherRef watchedRef) ref ↔
      Held r ref ∨ ref = newWatchRef r watcherRef watchedRef := by
  obtain ⟨t₁, -, t₃, -⟩ := setupRemoteWatch_tables actors r watcherRef watchedRef
  unfold Held
  rw [t₁, t₃, or_assoc]
  simp only [List.mem_append, List.mem_singleton, or_and_right, exists_or, exists_eq_left]
  exact or_congr_right (or_congr_right eq_comm)

/-- The watcher of a reference gets it into its context. -/
theorem context_new (h : WatchesAgree actors r) {watcherRef watchedRef : ActorRef N}
    {r' : Relations N}
    (hheld : ∀ ref, Held r' ref ↔ Held r ref ∨ ref = newWatchRef r watcherRef watchedRef)
    (hput : ∀ a ∈ actors, ∀ ref, ref ∈ r'.contextWatches a ↔
      ref ∈ r.contextWatches a ∨
        ref = newWatchRef r watcherRef watchedRef ∧ watcherRef.id = a) :
    ∀ a ∈ actors, ∀ ref,
      ref ∈ r'.contextWatches a ↔ Held r' ref ∧ ref.watcherId = a := by
  intro a ha ref
  rw [hput a ha, h.context a ha, hheld, or_and_right]
  refine or_congr_right ?_
  constructor
  · rintro ⟨rfl, rfl⟩
    exact ⟨rfl, rfl⟩
  · rintro ⟨rfl, rfl⟩
    exact ⟨rfl, rfl⟩

/-- A local watch has been entered in all tables. -/
theorem agree_establishWatch (h : WatchesAgree actors r) (watcherRef watchedRef : ActorRef N) :
    WatchesAgree actors (r.establishWatch actors watcherRef watchedRef) := by
  have hcontext := context_new h (held_establishWatch h watcherRef watchedRef)
    fun a ha ref => mem_putWatch _ (newWatchRef r watcherRef watchedRef) ha ref
  obtain ⟨t₁, t₂, t₃, t₄, t₅, t₆, -⟩ :=
    establishWatch_tables actors r watcherRef watchedRef
  refine ⟨fun w a => ?_, hcontext, fun a => ?_, ?_, fun w e he => ?_, fun e he => ?_, ?_, ?_, ?_,
    contextOwn_putWatch h rfl⟩
  · rw [t₁, t₂, SetMap.mem_get_add, h.index]
    by_cases hw : w = r.nextRef
    · subst hw
      rw [Function.update_self]
      constructor
      · rintro (⟨e, he, -⟩ | ⟨rfl, -⟩)
        · exact absurd (h.lt_of_watches he) (lt_irrefl _)
        · exact ⟨_, rfl, rfl⟩
      · rintro ⟨e, he, rfl⟩
        cases he
        exact .inr ⟨rfl, rfl⟩
    · rw [Function.update_of_ne hw]
      exact or_iff_left fun hnew => hw hnew.2
  · rw [t₄]
    exact contextMade_update h (newWatchRef r watcherRef watchedRef) rfl (by rfl) a
  · rw [t₂]
    exact h.tidy.add _ _
  · rw [t₁] at he
    rw [t₄, t₅]
    by_cases hw : w = r.nextRef
    · subst hw
      rw [Function.update_self, Option.some.injEq] at he
      subst he
      exact ⟨Function.update_self .., rfl, fun hw => lt_irrefl _ (h.madeRemote _ hw)⟩
    · rw [Function.update_of_ne hw] at he ⊢
      exact h.entry w e he
  · rw [t₃] at he
    rw [t₄, t₅, Function.update_of_ne (Nat.ne_of_lt (h.lt_of_remote he))]
    exact h.remote e he
  · rw [t₃]
    exact h.unique
  · rw [t₄, t₆]
    exact made_update h _ rfl
  · rw [t₅, t₆]
    exact fun w hw => (h.madeRemote w hw).trans (Nat.lt_succ_self _)

/-- A watch of an actor on another node has been entered in all tables. -/
theorem agree_setupRemoteWatch (h : WatchesAgree actors r)
    (watcherRef watchedRef : ActorRef N) :
    WatchesAgree actors (r.setupRemoteWatch actors watcherRef watchedRef) := by
  have hcontext := context_new h (held_setupRemoteWatch r watcherRef watchedRef)
    fun a ha ref => mem_putWatch _ (newWatchRef r watcherRef watchedRef) ha ref
  obtain ⟨t₁, t₂, t₃, t₄, t₅, t₆, -⟩ :=
    setupRemoteWatch_tables actors r watcherRef watchedRef
  refine ⟨fun w a => ?_, hcontext, fun a => ?_, ?_, fun w e he => ?_, fun e he => ?_, ?_, ?_, ?_,
    contextOwn_putWatch h rfl⟩
  · rw [t₁, t₂]
    exact h.index w a
  · rw [t₄]
    exact contextMade_update h (newWatchRef r watcherRef watchedRef) rfl (by rfl) a
  · rw [t₂]
    exact h.tidy
  · rw [t₁] at he
    have hlt := h.lt_of_watches he
    obtain ⟨hmade, hwatcher, hlocal⟩ := h.entry w e he
    rw [t₄, t₅, Function.update_of_ne (Nat.ne_of_lt hlt)]
    refine ⟨hmade, hwatcher, fun hw => ?_⟩
    rcases List.mem_append.1 hw with hw | hw
    · exact hlocal hw
    · exact Nat.ne_of_lt hlt (List.mem_singleton.1 hw)
  · rw [t₃] at he
    rw [t₄, t₅]
    rcases List.mem_append.1 he with he | he
    · obtain ⟨hmade, hwatcher, hremote⟩ := h.remote e he
      rw [Function.update_of_ne (Nat.ne_of_lt (h.lt_of_remote he))]
      exact ⟨hmade, hwatcher, List.mem_append_left _ hremote⟩
    · rw [List.mem_singleton.1 he]
      exact ⟨Function.update_self .., rfl, by simp [newWatchRef]⟩
  · rw [t₃, List.map_append, List.nodup_append]
    refine ⟨h.unique, List.nodup_singleton _, ?_⟩
    rintro _ hold _ hnew rfl
    obtain ⟨e, he, hid⟩ := List.mem_map.1 hold
    rw [List.map_singleton, List.mem_singleton] at hnew
    exact Nat.ne_of_lt (h.lt_of_remote he) (hid.trans hnew)
  · rw [t₄, t₆]
    exact made_update h _ rfl
  · rw [t₅, t₆]
    intro w hw
    rcases List.mem_append.1 hw with hw | hw
    · exact (h.madeRemote w hw).trans (Nat.lt_succ_self _)
    · rw [List.mem_singleton.1 hw]
      exact Nat.lt_succ_self _

/-- A new watch brings no other back. -/
theorem absent_establishWatch (watcherRef watchedRef : ActorRef N) {w : RefId}
    (hlt : w < r.nextRef) (hw : Absent r w) :
    Absent (r.establishWatch actors watcherRef watchedRef) w := by
  obtain ⟨t₁, -, t₃, -⟩ := establishWatch_tables actors r watcherRef watchedRef
  refine ⟨?_, by rw [t₃]; exact hw.2⟩
  rw [t₁, Function.update_of_ne (Nat.ne_of_lt hlt)]
  exact hw.1

theorem absent_setupRemoteWatch (watcherRef watchedRef : ActorRef N) {w : RefId}
    (hlt : w < r.nextRef) (hw : Absent r w) :
    Absent (r.setupRemoteWatch actors watcherRef watchedRef) w := by
  obtain ⟨t₁, -, t₃, -⟩ := setupRemoteWatch_tables actors r watcherRef watchedRef
  refine ⟨by rw [t₁]; exact hw.1, fun e he hid => ?_⟩
  rw [t₃] at he
  rcases List.mem_append.1 he with hold | hnew
  · exact hw.2 e hold hid
  · rw [List.mem_singleton.1 hnew] at hid
    exact Nat.ne_of_lt hlt hid.symm

/-- A new actor starts with an empty context, and no watch is its. -/
theorem agree_newContext (h : WatchesAgree actors r) {id : ActorId}
    (hnone : ∀ ref, Held r ref → ref.watcherId ≠ id) :
    WatchesAgree (insert id actors) (r.newContext id) := by
  refine ⟨h.index, fun a ha ref => ?_, fun a ref href => ?_, h.tidy, h.entry, h.remote, h.unique,
    h.made, h.madeRemote, fun a ref href => ?_⟩
  · change ref ∈ Function.update r.contextWatches id [] a ↔ Held r ref ∧ ref.watcherId = a
    by_cases hid : a = id
    · subst hid
      rw [Function.update_self]
      exact iff_of_false List.not_mem_nil fun href => hnone ref href.1 href.2
    · rw [Function.update_of_ne hid]
      exact h.context a (Finset.mem_of_mem_insert_of_ne ha hid) ref
  · change ref ∈ Function.update r.contextWatches id [] a at href
    by_cases hid : a = id
    · subst hid
      rw [Function.update_self] at href
      cases href
    · rw [Function.update_of_ne hid] at href
      exact h.contextMade a ref href
  · change ref ∈ Function.update r.contextWatches id [] a at href
    by_cases hid : a = id
    · subst hid
      rw [Function.update_self] at href
      cases href
    · rw [Function.update_of_ne hid] at href
      exact h.contextOwn a ref href

end

end Libeam.Proofs.WatchTables
