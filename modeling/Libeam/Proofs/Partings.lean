import Libeam.Proofs.StopRounds
/-!
# What is left of an actor in the tables of watches and links

When an actor is stopped, its own watches end, its watchers are told and its links are
cut.  All that is recorded about other watches and links stays as it is.
-/

namespace Libeam.Proofs.Partings

open Libeam.System (ActorId)
open Supervision (ActorRef)
open Monitoring Lib WatchTables LinkTables BondsAgree StopRounds

variable {N : Type} {actors : Finset ActorId} {callbacks : Callbacks N} {r r' r'' : Relations N}
  {y : ActorId} {w : RefId} {l : RefId}

/-! ## Watches -/

/-- The watch is or was one by the actor, or one of it on this node. -/
def Regards (r : Relations N) (y : ActorId) (w : RefId) : Prop :=
  ∃ ref, r.watchRefs w = some ref ∧
    (ref.watcherId = y ∨ w ∉ r.remoteRefs ∧ ref.watchedId = y)

/-- All that is recorded about the watch is as before. -/
structure SameWatch (w : RefId) (r r' : Relations N) : Prop where
  watches : r'.watches w = r.watches w
  index : ∀ a, w ∈ r'.watchedBy.get a ↔ w ∈ r.watchedBy.get a
  remoteWatches : ∀ e : RemoteWatchEntry N, e.watchRef.id = w →
    (e ∈ r'.remoteWatches ↔ e ∈ r.remoteWatches)
  context : ∀ a, ∀ ref : WatchRef, ref.id = w →
    (ref ∈ r'.contextWatches a ↔ ref ∈ r.contextWatches a)

namespace SameWatch

theorem refl (r : Relations N) : SameWatch w r r :=
  ⟨rfl, fun _ => .rfl, fun _ _ => .rfl, fun _ _ _ => .rfl⟩

theorem trans (h : SameWatch w r r') (h' : SameWatch w r' r'') : SameWatch w r r'' where
  watches := h'.watches.trans h.watches
  index := fun a => (h'.index a).trans (h.index a)
  remoteWatches := fun e he => (h'.remoteWatches e he).trans (h.remoteWatches e he)
  context := fun a ref href => (h'.context a ref href).trans (h.context a ref href)

theorem of_kept (h : WatchesKept r r') : SameWatch w r r' where
  watches := congrFun h.watches w
  index := fun _ => by rw [h.watchedBy]
  remoteWatches := fun _ _ => by rw [h.remoteWatches]
  context := fun _ _ _ => by rw [h.contextWatches]

/-- Another watch is dropped from a context. -/
theorem dropWatch (h : SameWatch w r r') (id : ActorId) {v : RefId} (hne : w ≠ v) :
    SameWatch w r (r'.dropWatch actors id v) := by
  obtain ⟨hwatches, hindex, hremote, -⟩ := dropWatch_tables actors r' id v
  refine h.trans ⟨congrFun hwatches w, fun _ => by rw [hindex], fun _ _ => by rw [hremote],
    fun a ref href => ?_⟩
  rw [contextWatches_dropWatch]
  split_ifs
  · have hother : ref.id ≠ v := href ▸ hne
    simp [hother]
  · rfl

/-- Another watch is cancelled. -/
theorem unwatch (r : Relations N) {ref : WatchRef} (hne : w ≠ ref.id) :
    SameWatch w r (r.unwatch actors ref) := by
  have hrecord : ∀ done : Relations N, SameWatch w r done →
      SameWatch w r { done with events := done.events ++ [.unwatched ref.id] } :=
    fun done h => h.trans (.of_kept ⟨rfl, rfl, rfl, rfl, rfl, rfl⟩)
  refine hrecord _ ?_
  split
  · have hstruck : SameWatch w r { r with
        remoteWatches := r.remoteWatches.filter fun e => e.watchRef.id ≠ ref.id } := by
      refine ⟨rfl, fun _ => .rfl, fun e he => ?_, fun _ _ _ => .rfl⟩
      have hother : e.watchRef.id ≠ ref.id := he ▸ hne
      simp [hother]
    exact hstruck.dropWatch _ hne
  · unfold Relations.unwatchLocal
    split
    · exact .refl r
    · have hstruck : SameWatch w r { r with
          watches := Function.update r.watches ref.id none
          watchedBy := r.watchedBy.remove ref.watchedId ref.id } :=
        ⟨Function.update_of_ne hne _ _, fun a => by simp [hne], fun _ _ => .rfl,
          fun _ _ _ => .rfl⟩
      exact hstruck.dropWatch _ hne

end SameWatch

/-- The actor's own watches are cancelled. -/
theorem sameWatch_unwatchAll (hw : ∀ ref ∈ r.contextWatches y, w ≠ ref.id) :
    SameWatch w r (r.unwatchAll actors y) := by
  unfold Relations.unwatchAll
  generalize r.contextWatches y = refs at hw
  induction refs generalizing r with
  | nil => exact .refl r
  | cons ref refs ih =>
      exact (SameWatch.unwatch r (hw ref (by simp))).trans
        (ih fun ref' href' => hw ref' (by simp [href']))

/-- Just the watches by the actor are gone. -/
theorem watches_unwatchAll (h : WatchesAgree actors r) (hy : y ∈ actors) {e : WatchEntry N} :
    (r.unwatchAll actors y).watches w = some e ↔
      r.watches w = some e ∧ e.watchRef.watcherId ≠ y := by
  constructor
  · exact fun he => ⟨(round_unwatchAll h y).watches w e he, watcher_unwatchAll h hy he⟩
  · rintro ⟨he, hwatcher⟩
    have hother : ∀ ref ∈ r.contextWatches y, w ≠ ref.id := by
      rintro ref href rfl
      have hmade := h.contextMade y ref href
      rw [(h.entry _ e he).1, Option.some.injEq] at hmade
      exact hwatcher (hmade ▸ h.contextOwn y ref href)
    rw [(sameWatch_unwatchAll hother).watches, he]

section
variable (hquiet : ∀ id message, callbacks.cancels id message = [])
include hquiet

theorem sameWatch_tellWatcher (h : WatchesAgree actors r) (actorRef : ActorRef N)
    (reason : TerminationReason) {v : RefId} (hne : w ≠ v) :
    SameWatch w r (r.tellWatcher actors callbacks actorRef reason v).1 := by
  unfold Relations.tellWatcher
  split
  · exact .refl r
  next e he =>
    have hsend : SameWatch w r
        (r.sendDownMessage actors callbacks e.watchRef actorRef reason).1 := by
      unfold Relations.sendDownMessage
      split_ifs
      · rw [RemoteWatch.inform_eq hquiet]
        exact .of_kept ⟨rfl, rfl, rfl, rfl, rfl, rfl⟩
      · exact .refl r
    have hid := h.id_of_watches he
    dsimp only
    split_ifs
    · exact hsend
    · exact hsend.trans (.unwatch _ (hid ▸ hne))

/-- A round of notifications touches no watch outside the index of the actor. -/
theorem sameWatch_notifyWatchers (h : WatchesAgree actors r) (actorRef : ActorRef N)
    (reason : TerminationReason) (hw : w ∉ r.watchedBy.get actorRef.id) :
    SameWatch w r (r.notifyWatchers actors callbacks actorRef reason).1 := by
  have hround : WatchesAgree actors (r.notifyWatchers actors callbacks actorRef reason).1 ∧
      SameWatch w r (r.notifyWatchers actors callbacks actorRef reason).1 := by
    refine Loop.forEach_invariant (I := fun s => WatchesAgree actors s ∧ SameWatch w r s)
      (fun s v hv hs => ?_) ⟨h, .refl r⟩
    have hne : w ≠ v := fun heq => hw (heq ▸ hv)
    exact ⟨(prunes_tellWatcher hs.1 actorRef reason v).agree,
      hs.2.trans (sameWatch_tellWatcher hquiet hs.1 actorRef reason hne)⟩
  exact hround.2

theorem watches_forEach (h : WatchesAgree actors r) (actorRef : ActorRef N)
    (reason : TerminationReason) {ws : List RefId}
    (hdone : (Loop.forEach (Relations.tellWatcher actors callbacks actorRef reason) r ws).2 = false)
    (v : RefId) :
    (Loop.forEach (Relations.tellWatcher actors callbacks actorRef reason) r ws).1.watches v =
      if v ∈ ws then none else r.watches v := by
  induction ws generalizing r with
  | nil => simp
  | cons u ws ih =>
      rw [Loop.forEach_cons] at hdone ⊢
      split_ifs at hdone ⊢ with hthrew hv hv
      · exact absurd (hthrew.symm.trans hdone) nofun
      · exact absurd (hthrew.symm.trans hdone) nofun
      all_goals
        rw [ih (prunes_tellWatcher h actorRef reason u).agree hdone,
          watches_tellWatcher hquiet h actorRef reason (by simpa using hthrew)]
        simp only [List.mem_cons] at hv
        by_cases hu : v = u
        · simp_all
        · simp_all

/-- Just the watches of the actor are gone when all watchers have been told. -/
theorem watches_notifyWatchers (h : WatchesAgree actors r) (actorRef : ActorRef N)
    (reason : TerminationReason)
    (hdone : (r.notifyWatchers actors callbacks actorRef reason).2 = false) {e : WatchEntry N} :
    (r.notifyWatchers actors callbacks actorRef reason).1.watches w = some e ↔
      r.watches w = some e ∧ e.watchRef.watchedId ≠ actorRef.id := by
  unfold Relations.notifyWatchers at hdone ⊢
  rw [watches_forEach hquiet h actorRef reason hdone]
  split_ifs with hw
  · obtain ⟨e', he', hwatched⟩ := (h.index w actorRef.id).1 hw
    refine iff_of_false nofun ?_
    rintro ⟨he, hne⟩
    exact hne (Option.some.inj (he.symm.trans he') ▸ hwatched)
  · refine (and_iff_left_of_imp fun he hwatched => hw ?_).symm
    exact (h.index w actorRef.id).2 ⟨e, he, hwatched⟩

end

/-! ## Links -/

/-- All that is recorded about the link is as before. -/
structure SameLink (l : RefId) (r r' : Relations N) : Prop where
  links : r'.links l = r.links l
  index : ∀ a, l ∈ r'.linkedWith.get a ↔ l ∈ r.linkedWith.get a
  remoteLinks : ∀ e : RemoteLinkEntry N, e.linkRef.id = l →
    (e ∈ r'.remoteLinks ↔ e ∈ r.remoteLinks)
  context : ∀ a, ∀ ref : LinkRef, ref.id = l →
    (ref ∈ r'.contextLinks a ↔ ref ∈ r.contextLinks a)

namespace SameLink

theorem refl (r : Relations N) : SameLink l r r :=
  ⟨rfl, fun _ => .rfl, fun _ _ => .rfl, fun _ _ _ => .rfl⟩

theorem trans (h : SameLink l r r') (h' : SameLink l r' r'') : SameLink l r r'' where
  links := h'.links.trans h.links
  index := fun a => (h'.index a).trans (h.index a)
  remoteLinks := fun e he => (h'.remoteLinks e he).trans (h.remoteLinks e he)
  context := fun a ref href => (h'.context a ref href).trans (h.context a ref href)

theorem of_kept (h : LinksKept r r') : SameLink l r r' where
  links := congrFun h.links l
  index := fun _ => by rw [h.linkedWith]
  remoteLinks := fun _ _ => by rw [h.remoteLinks]
  context := fun _ _ _ => by rw [h.contextLinks]

/-- Another link is dropped from a context. -/
theorem dropLink (h : SameLink l r r') (id : ActorId) {m : RefId} (hne : l ≠ m) :
    SameLink l r (r'.dropLink actors id m) := by
  obtain ⟨hlinks, hindex, hremote, -⟩ := dropLink_tables actors r' id m
  refine h.trans ⟨congrFun hlinks l, fun _ => by rw [hindex], fun _ _ => by rw [hremote],
    fun a ref href => ?_⟩
  rw [contextLinks_dropLink]
  split_ifs
  · have hother : ref.id ≠ m := href ▸ hne
    simp [hother]
  · rfl

theorem forgetRemoteLink (r : Relations N) (id : ActorId) {m : RefId} (hne : l ≠ m) :
    SameLink l r (r.forgetRemoteLink m id) := by
  refine ⟨rfl, fun a => by simp [Relations.forgetRemoteLink, hne], fun e he => ?_,
    fun _ _ _ => .rfl⟩
  have hother : e.linkRef.id ≠ m := he ▸ hne
  simp [Relations.forgetRemoteLink, hother]

/-- Another link is cut. -/
theorem unlink (r : Relations N) {ref : LinkRef} (hne : l ≠ ref.id) :
    SameLink l r (r.unlink actors ref) := by
  unfold Relations.unlink
  split
  · exact (SameLink.forgetRemoteLink r _ hne).dropLink _ hne
  · unfold Relations.unlinkLocal
    split
    · exact .refl r
    · have hcut : SameLink l r { r with
          links := Function.update r.links ref.id none
          linkedWith := (r.linkedWith.remove ref.actor1Id ref.id).remove ref.actor2Id ref.id } :=
        ⟨Function.update_of_ne hne _ _, fun a => by simp [hne], fun _ _ => .rfl,
          fun _ _ _ => .rfl⟩
      exact (hcut.dropLink _ hne).dropLink _ hne

end SameLink

/-- Another of the linked actors is told. -/
theorem sameLink_tellLinked (hquiet : ∀ id message, callbacks.cancels id message = [])
    (h : LinksAgree actors r) (actorRef : ActorRef N) (reason : TerminationReason) {m : RefId}
    (hne : l ≠ m) :
    SameLink l r (r.tellLinked actors callbacks actorRef reason m).relations := by
  unfold Relations.tellLinked
  split
  next e he =>
    have hcut : SameLink l r (r.unlink actors e.linkRef) := .unlink r (h.id_of_links he ▸ hne)
    unfold Relations.exitLinked
    dsimp only
    split_ifs
    · rw [RemoteWatch.inform_eq hquiet]
      exact hcut.trans (.of_kept ⟨rfl, rfl, rfl, rfl, rfl, rfl, rfl⟩)
    · exact hcut
    · exact hcut
    · exact hcut
  next =>
    split
    next e he =>
      exact .forgetRemoteLink r _ ((getRemoteLink_some he).2 ▸ hne)
    · exact .refl r

/-- The actor at the other end of the link throws at the exit message. -/
def Jolts (actors : Finset ActorId) (callbacks : Callbacks N) (r : Relations N)
    (actorRef : ActorRef N) (reason : TerminationReason) (l : RefId) : Prop :=
  ∃ e, r.links l = some e ∧ Traps actors r (Relations.otherEnd e actorRef.id).id ∧
    callbacks.throws (Relations.otherEnd e actorRef.id).id
      (.exit (some e.linkRef) actorRef reason) = true

/-- These links of an actor are cut, and nothing is done to others. -/
structure LinksCut (rest : List RefId) (r r' : Relations N) : Prop where
  kept : WatchesKept r r'
  trapExit : r'.trapExit = r.trapExit
  linkRefs : r'.linkRefs = r.linkRefs
  localLinks : r'.localLinks = r.localLinks
  same : ∀ l ∉ rest, SameLink l r r'
  cut : ∀ l ∈ rest, r'.links l = none
  links : ∀ l e, r'.links l = some e → r.links l = some e
  events : ∃ said, r'.events = r.events ++ said

namespace LinksCut

theorem nil (r : Relations N) : LinksCut [] r r :=
  ⟨.refl r, rfl, rfl, rfl, fun _ _ => .refl r, fun _ hl => absurd hl List.not_mem_nil,
    fun _ _ h => h, [], (List.append_nil _).symm⟩

theorem cons {rest : List RefId} (h : LinksCut [l] r r') (h' : LinksCut rest r' r'') :
    LinksCut (l :: rest) r r'' where
  kept := h.kept.trans h'.kept
  trapExit := h'.trapExit.trans h.trapExit
  linkRefs := h'.linkRefs.trans h.linkRefs
  localLinks := h'.localLinks.trans h.localLinks
  same := fun m hm =>
    (h.same m fun hl => hm (List.mem_cons.2 (.inl (List.mem_singleton.1 hl)))).trans
      (h'.same m fun hrest => hm (List.mem_cons_of_mem _ hrest))
  cut := by
    intro m hm
    by_cases hrest : m ∈ rest
    · exact h'.cut m hrest
    · rw [(h'.same m hrest).links]
      exact h.cut m (List.mem_singleton.2 ((List.mem_cons.1 hm).resolve_right hrest))
  links := fun m e he => h.links m e (h'.links m e he)
  events := by
    obtain ⟨said, heq⟩ := h.events
    obtain ⟨said', heq'⟩ := h'.events
    exact ⟨said ++ said', by rw [heq', heq, List.append_assoc]⟩

end LinksCut

/-- One of the linked actors is told. -/
theorem linksCut_tellLinked (hquiet : ∀ id message, callbacks.cancels id message = [])
    (h : Agree actors r) (actorRef : ActorRef N) (reason : TerminationReason)
    (hconcerns : r.Concerns actorRef.id l) :
    LinksCut [l] r (r.tellLinked actors callbacks actorRef reason l).relations ∧
      ((r.tellLinked actors callbacks actorRef reason l).threw = true ↔
        Jolts actors callbacks r actorRef reason l) ∧
      (reason.abnormal = false →
        (r.tellLinked actors callbacks actorRef reason l).crash = none) := by
  have hk : Keeps actors r (r.tellLinked actors callbacks actorRef reason l).relations :=
    h.tellLinked actorRef reason hconcerns
  have hsame : ∀ m ∉ [l], SameLink m r
      (r.tellLinked actors callbacks actorRef reason l).relations := fun m hm =>
    sameLink_tellLinked hquiet h.links actorRef reason fun heq => hm (List.mem_singleton.2 heq)
  cases he : r.links l with
  | none =>
      obtain ⟨hround, hlinks, -, hthrew, hcrash⟩ :=
        tellLinked_gone actors callbacks actorRef.id actorRef reason he
      refine ⟨⟨hround.kept, hround.trapExit, hk.linkRefs, hk.localLinks, hsame, fun m hm => ?_,
        hround.links, hround.events⟩, ?_, fun _ => hcrash⟩
      · rw [hlinks, List.mem_singleton.1 hm, he]
      · rw [hthrew]
        refine iff_of_false nofun ?_
        rintro ⟨e, he', -⟩
        exact absurd (he'.symm.trans he) nofun
  | some e =>
      have hcut := cutsLink_tellLinked hquiet h actorRef reason he
      have hid := h.links.id_of_links he
      refine ⟨⟨hcut.kept, hcut.trapExit, hk.linkRefs, hk.localLinks, hsame, fun m hm => ?_,
        fun m e' he' => ?_, _, hcut.events⟩, ?_, fun hnormal => ?_⟩
      · rw [hcut.links, List.mem_singleton.1 hm, if_pos hid.symm]
      · rw [hcut.links] at he'
        split_ifs at he'
        exact he'
      · rw [hcut.threw]
        constructor
        · exact fun hthrows => ⟨e, he, hthrows⟩
        · rintro ⟨e', he', hthrows⟩
          obtain rfl : e = e' := Option.some.inj (he.symm.trans he')
          exact hthrows
      · obtain ⟨error, hcrash⟩ := hcut.crash
        rw [hcrash, if_neg]
        rintro ⟨-, -, habnormal⟩
        exact absurd (hnormal.symm.trans habnormal) nofun

/-! ## The actor is gone from both -/

/-- Nothing is left of the actor's watches and links, nothing is done to others, and its
watchers have been told. -/
structure Parted (actors : Finset ActorId) (actorRef : ActorRef N) (reason : TerminationReason)
    (r r' : Relations N) : Prop where
  watches : ∀ w, ¬ Regards r actorRef.id w → SameWatch w r r'
  links : ∀ l, ¬ r.Concerns actorRef.id l → SameLink l r r'
  unwatched : ∀ w e, r'.watches w = some e ↔ r.watches w = some e ∧
    e.watchRef.watcherId ≠ actorRef.id ∧ e.watchRef.watchedId ≠ actorRef.id
  unlinked : ∀ l e, r'.links l = some e ↔ r.links l = some e ∧ ¬ Ends e.linkRef actorRef.id
  trapExit : r'.trapExit = r.trapExit
  watchRefs : r'.watchRefs = r.watchRefs
  remoteRefs : r'.remoteRefs = r.remoteRefs
  linkRefs : r'.linkRefs = r.linkRefs
  localLinks : r'.localLinks = r.localLinks
  events : ∃ said, r'.events = r.events ++ said
  informed : ∀ w e, r.watches w = some e → e.watchRef.watchedId = actorRef.id →
    e.watchRef.watcherId ≠ actorRef.id → e.watchRef.watcherId ∈ actors →
      .informed e.watchRef.watcherId (.down e.watchRef actorRef reason) ∈ r'.events

/-- The watches of the actor end, its watchers are told, and all its links are cut. -/
theorem parted_leave (hquiet : ∀ id message, callbacks.cancels id message = [])
    (h : Agree actors r) {actorRef : ActorRef N} (hy : actorRef.id ∈ actors)
    {reason : TerminationReason}
    (hdone : ((r.unwatchAll actors actorRef.id).notifyWatchers actors callbacks actorRef
      reason).2 = false) {told : Relations N}
    (htold : told =
      ((r.unwatchAll actors actorRef.id).notifyWatchers actors callbacks actorRef reason).1)
    (hcut : LinksCut (told.linkedWith.get actorRef.id) told r') :
    Parted actors actorRef reason r r' := by
  have hp := prunes_unwatchAll h.watches actorRef.id
  have hp' : Prunes actors (r.unwatchAll actors actorRef.id) told :=
    htold ▸ prunes_notifyWatchers hp.agree actorRef reason
  have hkept : LinksKept r told := hp.links.trans hp'.links
  have hlinks : LinksAgree actors told :=
    h.links.of_kept hkept (hp.nextRef ▸ hp'.nextRef ▸ le_rfl)
  have hentries : ∀ w e, told.watches w = some e ↔ r.watches w = some e ∧
      e.watchRef.watcherId ≠ actorRef.id ∧ e.watchRef.watchedId ≠ actorRef.id := by
    intro w e
    rw [htold, watches_notifyWatchers hquiet hp.agree actorRef reason hdone,
      watches_unwatchAll h.watches hy, and_assoc]
  refine
    { watches := fun w hw => ?_
      links := fun l hl => ?_
      unwatched := fun w e => by rw [hcut.kept.watches]; exact hentries w e
      unlinked := fun l e => ?_
      trapExit := hcut.trapExit.trans hkept.trapExit
      watchRefs := hcut.kept.watchRefs.trans (hp'.watchRefs.trans hp.watchRefs)
      remoteRefs := hcut.kept.remoteRefs.trans (hp'.remoteRefs.trans hp.remoteRefs)
      linkRefs := hcut.linkRefs.trans hkept.linkRefs
      localLinks := hcut.localLinks.trans hkept.localLinks
      events := ?_
      informed := fun w e he hwatched hwatcher hlive => ?_ }
  · have hown : ∀ ref ∈ r.contextWatches actorRef.id, w ≠ ref.id := by
      rintro ref href rfl
      exact hw ⟨ref, h.watches.contextMade _ ref href, .inl (h.watches.contextOwn _ ref href)⟩
    have hindex : w ∉ (r.unwatchAll actors actorRef.id).watchedBy.get actorRef.id := by
      intro hmem
      obtain ⟨e, he, hwatched⟩ := (hp.agree.index w actorRef.id).1 hmem
      obtain ⟨hmade, -, hlocal⟩ := hp.agree.entry w e he
      exact hw ⟨e.watchRef, hp.watchRefs ▸ hmade, .inr ⟨hp.remoteRefs ▸ hlocal, hwatched⟩⟩
    have hround := sameWatch_notifyWatchers hquiet hp.agree actorRef reason hindex
    exact (sameWatch_unwatchAll hown).trans ((htold ▸ hround).trans (.of_kept hcut.kept))
  · refine (SameLink.of_kept hkept).trans (hcut.same l fun hmem => hl ?_)
    rw [hkept.linkedWith] at hmem
    exact h.concerns hmem
  · constructor
    · intro he
      have hold := hcut.links l e he
      refine ⟨hkept.links ▸ hold, fun hends => ?_⟩
      have hnone := hcut.cut l ((hlinks.index l _).2 (.inl ⟨e, hold, hends⟩))
      exact absurd (he.symm.trans hnone) nofun
    · rintro ⟨he, hends⟩
      rw [(hcut.same l fun hmem => ?_).links, hkept.links]
      · exact he
      · rcases (hlinks.index l _).1 hmem with ⟨e', he', hends'⟩ | ⟨e', he', rfl, -⟩
        · rw [hkept.links] at he'
          exact hends (Option.some.inj (he.symm.trans he') ▸ hends')
        · rw [hkept.remoteLinks] at he'
          exact absurd (he.symm.trans (h.links.links_remote he')) nofun
  · obtain ⟨said, heq, -⟩ := (round_unwatchAll h.watches actorRef.id).events
    obtain ⟨said', heq', -⟩ := (round_notifyWatchers hquiet hp.agree actorRef reason).events
    obtain ⟨said'', heq''⟩ := hcut.events
    exact ⟨said ++ (said' ++ said''), by rw [heq'', htold, heq', heq]; simp⟩
  · obtain ⟨said, heq⟩ := hcut.events
    rw [heq, htold]
    refine List.mem_append_left _ (notifyWatchers_informed hquiet hp.agree actorRef reason hdone
      (w := w) ?_ hwatched hlive)
    exact (watches_unwatchAll h.watches hy).2 ⟨he, hwatcher⟩

end Libeam.Proofs.Partings
