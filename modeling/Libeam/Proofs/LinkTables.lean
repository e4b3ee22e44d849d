import Libeam.Proofs.WatchTables
/-!
# The tables of links agree

A link is in the table of the entries, in the index of both of its actors and in
their contexts, or in none of them.  The index also holds the links to actors on
other nodes, under the local actor.
-/

namespace Libeam.Proofs.LinkTables

open Libeam.System (ActorId)
open Supervision (ActorRef)
open Monitoring Lib WatchTables

variable {N : Type} {actors : Finset ActorId} {r : Relations N}

/-- The actor is at one end of the link. -/
def Ends (linkRef : LinkRef) (a : ActorId) : Prop :=
  linkRef.actor1Id = a ∨ linkRef.actor2Id = a

/-- The reference has an entry of a local link. -/
def Linked (r : Relations N) (linkRef : LinkRef) : Prop :=
  ∃ e, r.links linkRef.id = some e ∧ e.linkRef = linkRef

structure LinksAgree (actors : Finset ActorId) (r : Relations N) : Prop where
  index : ∀ l a, l ∈ r.linkedWith.get a ↔
    (∃ e, r.links l = some e ∧ Ends e.linkRef a) ∨
      ∃ e ∈ r.remoteLinks, e.linkRef.id = l ∧ e.linkRef.actor1Id = a
  context : ∀ a ∈ actors, ∀ ref, ref.id ∈ r.localLinks →
    (ref ∈ r.contextLinks a ↔ Linked r ref ∧ Ends ref a)
  /-- Also in the contexts of actors that are gone. -/
  contextMade : ∀ a, ∀ ref ∈ r.contextLinks a, r.linkRefs ref.id = some ref
  tidy : r.linkedWith.Tidy
  entry : ∀ l e, r.links l = some e → r.linkRefs l = some e.linkRef ∧ l ∈ r.localLinks ∧
    e.actor1Ref.id = e.linkRef.actor1Id ∧ e.actor2Ref.id = e.linkRef.actor2Id
  remote : ∀ e ∈ r.remoteLinks, r.linkRefs e.linkRef.id = some e.linkRef ∧
    e.linkRef.id ∉ r.localLinks ∧ e.localActorRef.id = e.linkRef.actor1Id
  made : ∀ l ref, r.linkRefs l = some ref → ref.id = l ∧ l < r.nextRef
  madeLocal : ∀ l ∈ r.localLinks, l < r.nextRef

namespace LinksAgree

theorem of_kept (h : LinksAgree actors r) {r' : Relations N} (hkept : LinksKept r r')
    (hnext : r.nextRef ≤ r'.nextRef) : LinksAgree actors r' where
  index := by rw [hkept.linkedWith, hkept.links, hkept.remoteLinks]; exact h.index
  context := by
    unfold Linked
    rw [hkept.contextLinks, hkept.links, hkept.localLinks]
    exact h.context
  contextMade := by rw [hkept.contextLinks, hkept.linkRefs]; exact h.contextMade
  tidy := hkept.linkedWith ▸ h.tidy
  entry := by rw [hkept.links, hkept.linkRefs, hkept.localLinks]; exact h.entry
  remote := by rw [hkept.remoteLinks, hkept.linkRefs, hkept.localLinks]; exact h.remote
  made := by
    rw [hkept.linkRefs]
    exact fun l ref href => ⟨(h.made l ref href).1, (h.made l ref href).2.trans_le hnext⟩
  madeLocal := by
    rw [hkept.localLinks]
    exact fun l hl => (h.madeLocal l hl).trans_le hnext

theorem mono (h : LinksAgree actors r) {actors' : Finset ActorId} (hsub : actors' ⊆ actors) :
    LinksAgree actors' r :=
  { h with context := fun a ha => h.context a (hsub ha) }

theorem id_of_links (h : LinksAgree actors r) {l : RefId} {e : LinkEntry N}
    (he : r.links l = some e) : e.linkRef.id = l :=
  (h.made l _ (h.entry l e he).1).1

theorem links_remote (h : LinksAgree actors r) {e : RemoteLinkEntry N}
    (he : e ∈ r.remoteLinks) : r.links e.linkRef.id = none := by
  by_contra hsome
  obtain ⟨e', he'⟩ := Option.ne_none_iff_exists'.1 hsome
  exact (h.remote e he).2.1 (h.entry _ e' he').2.1

/-- Two references with one id are one reference. -/
theorem eq_of_linked (h : LinksAgree actors r) {ref ref' : LinkRef} (href : Linked r ref)
    (hmade : r.linkRefs ref'.id = some ref') (hid : ref.id = ref'.id) : ref = ref' := by
  obtain ⟨e, he, rfl⟩ := href
  have hr := (h.entry _ e he).1
  rw [hid, hmade] at hr
  exact (Option.some.inj hr).symm

end LinksAgree

/-! ## Cutting a link -/

/-- The link is gone from all tables, and nothing else is. -/
structure Cuts (actors : Finset ActorId) (l : RefId) (r r' : Relations N) : Prop where
  links : ∀ v, r'.links v = if v = l then none else r.links v
  remoteLinks : r'.remoteLinks = r.remoteLinks.filter fun e => e.linkRef.id ≠ l
  index : ∀ a v, v ∈ r'.linkedWith.get a ↔ v ∈ r.linkedWith.get a ∧ v ≠ l
  context : ∀ a ∈ actors, ∀ ref, ref.id ∈ r.localLinks →
    (ref ∈ r'.contextLinks a ↔ ref ∈ r.contextLinks a ∧ ref.id ≠ l)
  contextSub : ∀ a, ∀ ref ∈ r'.contextLinks a, ref ∈ r.contextLinks a
  tidy : r.linkedWith.Tidy → r'.linkedWith.Tidy
  linkRefs : r'.linkRefs = r.linkRefs
  localLinks : r'.localLinks = r.localLinks
  nextRef : r'.nextRef = r.nextRef
  kept : WatchesKept r r'
  events : r'.events = r.events

theorem Cuts.linked {l : RefId} {r' : Relations N} (h : Cuts actors l r r') (ref : LinkRef) :
    Linked r' ref ↔ Linked r ref ∧ ref.id ≠ l := by
  unfold Linked
  rw [h.links]
  by_cases hid : ref.id = l
  · simp [hid]
  · simp [hid]

theorem LinksAgree.cuts {l : RefId} {r' : Relations N} (h : LinksAgree actors r)
    (hc : Cuts actors l r r') : LinksAgree actors r' where
  index := by
    intro v a
    rw [hc.index, h.index, hc.links, hc.remoteLinks]
    by_cases hv : v = l
    · refine iff_of_false (fun hboth => hboth.2 hv) ?_
      rintro (⟨e, he, -⟩ | ⟨e, he, hid, -⟩)
      · rw [if_pos hv] at he
        cases he
      · simp [hid, hv] at he
    · simp only [hv, ne_eq, not_false_eq_true, and_true, if_false, List.mem_filter,
        decide_eq_true_eq]
      refine or_congr_right (exists_congr fun e => ?_)
      constructor
      · rintro ⟨he, hid, ha⟩
        exact ⟨⟨he, hid ▸ hv⟩, hid, ha⟩
      · rintro ⟨⟨he, -⟩, hid, ha⟩
        exact ⟨he, hid, ha⟩
  context := by
    intro a ha ref hlocal
    rw [hc.localLinks] at hlocal
    rw [hc.context a ha ref hlocal, h.context a ha ref hlocal, hc.linked]
    exact and_right_comm
  contextMade := by
    rw [hc.linkRefs]
    exact fun a ref href => h.contextMade a ref (hc.contextSub a ref href)
  tidy := hc.tidy h.tidy
  entry := by
    intro v e he
    rw [hc.links] at he
    split_ifs at he
    rw [hc.linkRefs, hc.localLinks]
    exact h.entry v e he
  remote := by
    intro e he
    rw [hc.remoteLinks] at he
    rw [hc.linkRefs, hc.localLinks]
    exact h.remote e (List.mem_of_mem_filter he)
  made := by rw [hc.linkRefs, hc.nextRef]; exact h.made
  madeLocal := by rw [hc.localLinks, hc.nextRef]; exact h.madeLocal

/-- Cutting what no table has. -/
theorem Cuts.absent {l : RefId} (h : LinksAgree actors r) (hlocal : r.links l = none)
    (hremote : ∀ e ∈ r.remoteLinks, e.linkRef.id ≠ l) : Cuts actors l r r where
  links := by
    intro v
    split_ifs with hv
    · rw [hv, hlocal]
    · rfl
  remoteLinks := (List.filter_eq_self.2 fun e he => by simpa using hremote e he).symm
  index := by
    intro a v
    refine (and_iff_left_of_imp fun hv => ?_).symm
    rintro rfl
    rcases (h.index v a).1 hv with ⟨e, he, -⟩ | ⟨e, he, hid, -⟩
    · rw [hlocal] at he
      cases he
    · exact hremote e he hid
  context := by
    intro a ha ref hmem
    refine (and_iff_left_of_imp fun href => ?_).symm
    rintro rfl
    obtain ⟨⟨e, he, -⟩, -⟩ := (h.context a ha ref hmem).1 href
    rw [hlocal] at he
    cases he
  contextSub := fun _ _ href => href
  tidy := fun htidy => htidy
  linkRefs := rfl
  localLinks := rfl
  nextRef := rfl
  kept := .refl r
  events := rfl

theorem contextLinks_dropLink (r : Relations N) (id : ActorId) (l : RefId) (a : ActorId) :
    (r.dropLink actors id l).contextLinks a =
      if a = id ∧ id ∈ actors then (r.contextLinks a).filter fun ref => ref.id ≠ l
      else r.contextLinks a := by
  unfold Relations.dropLink
  by_cases hid : id ∈ actors
  · by_cases ha : a = id
    · subst ha
      simp [hid]
    · simp [hid, ha]
  · simp [hid]

theorem dropLink_sub (r : Relations N) (id : ActorId) (l : RefId) (a : ActorId) :
    ∀ ref ∈ (r.dropLink actors id l).contextLinks a, ref ∈ r.contextLinks a := by
  intro ref href
  rw [contextLinks_dropLink] at href
  split_ifs at href
  · exact List.mem_of_mem_filter href
  · exact href

theorem dropLink_tables (actors : Finset ActorId) (r : Relations N) (id : ActorId) (l : RefId) :
    (r.dropLink actors id l).links = r.links ∧
      (r.dropLink actors id l).linkedWith = r.linkedWith ∧
      (r.dropLink actors id l).remoteLinks = r.remoteLinks ∧
      (r.dropLink actors id l).linkRefs = r.linkRefs ∧
      (r.dropLink actors id l).localLinks = r.localLinks ∧
      (r.dropLink actors id l).nextRef = r.nextRef ∧
      (r.dropLink actors id l).trapExit = r.trapExit ∧
      (r.dropLink actors id l).events = r.events := by
  unfold Relations.dropLink
  split_ifs <;> exact ⟨rfl, rfl, rfl, rfl, rfl, rfl, rfl, rfl⟩

theorem dropLink_kept (r : Relations N) (id : ActorId) (l : RefId) :
    WatchesKept r (r.dropLink actors id l) := by
  unfold Relations.dropLink
  split_ifs
  · exact ⟨rfl, rfl, rfl, rfl, rfl, rfl⟩
  · exact .refl r

theorem getRemoteLink_some {l : RefId} {e : RemoteLinkEntry N}
    (he : r.getRemoteLink l = some e) : e ∈ r.remoteLinks ∧ e.linkRef.id = l :=
  ⟨List.mem_of_find?_eq_some he, by simpa using List.find?_some he⟩

theorem getRemoteLink_none {l : RefId} (hn : r.getRemoteLink l = none) :
    ∀ e ∈ r.remoteLinks, e.linkRef.id ≠ l := fun e he => by
  simpa using List.find?_eq_none.1 hn e he

/-- A remote link leaves the tables; the context of the local actor may keep it. -/
theorem cuts_forgetRemoteLink (h : LinksAgree actors r) {e : RemoteLinkEntry N}
    (he : e ∈ r.remoteLinks) :
    Cuts actors e.linkRef.id r (r.forgetRemoteLink e.linkRef.id e.linkRef.actor1Id) where
  links := by
    intro v
    change r.links v = _
    split_ifs with hv
    · rw [hv, h.links_remote he]
    · rfl
  remoteLinks := rfl
  index := by
    intro a v
    change v ∈ (r.linkedWith.remove _ _).get a ↔ _
    rw [SetMap.mem_get_remove]
    refine and_congr_right fun hv => ?_
    constructor
    · rintro hne rfl
      rcases (h.index _ a).1 hv with ⟨e', he', -⟩ | ⟨e', he', hid, ha⟩
      · rw [h.links_remote he] at he'
        cases he'
      · -- the entries of one id have one reference
        have hsame := (h.remote e' he').1
        rw [hid, (h.remote e he).1, Option.some.injEq] at hsame
        exact hne ⟨by rw [hsame, ha], rfl⟩
    · exact fun hne hboth => hne hboth.2
  context := by
    intro a _ ref hlocal
    refine (and_iff_left_of_imp fun _ => ?_).symm
    rintro hid
    exact (h.remote e he).2.1 (hid ▸ hlocal)
  contextSub := fun _ _ href => href
  tidy := fun htidy => htidy.remove _ _
  linkRefs := rfl
  localLinks := rfl
  nextRef := rfl
  kept := ⟨rfl, rfl, rfl, rfl, rfl, rfl⟩
  events := rfl

/-- Dropping a remote link from a context after it has left the tables. -/
theorem Cuts.dropLink {l : RefId} {r' : Relations N} (h : Cuts actors l r r')
    (hlocal : l ∉ r.localLinks) (id : ActorId) : Cuts actors l r (r'.dropLink actors id l) := by
  obtain ⟨t₁, t₂, t₃, t₄, t₅, t₆, -, t₈⟩ := dropLink_tables actors r' id l
  refine ⟨by rw [t₁]; exact h.links, by rw [t₃]; exact h.remoteLinks,
    by rw [t₂]; exact h.index, fun a ha ref href => ?_,
    fun a ref href => h.contextSub a ref (dropLink_sub r' id l a ref href),
    by rw [t₂]; exact h.tidy, by rw [t₄]; exact h.linkRefs, by rw [t₅]; exact h.localLinks,
    by rw [t₆]; exact h.nextRef, h.kept.trans (dropLink_kept r' id l), t₈.trans h.events⟩
  have hne : ref.id ≠ l := fun hid => hlocal (hid ▸ href)
  rw [contextLinks_dropLink, ← h.context a ha ref href]
  split_ifs
  · simp [hne]
  · rfl

theorem cuts_unlinkLocal (h : LinksAgree actors r) {ref : LinkRef}
    (hmade : r.linkRefs ref.id = some ref)
    (hremote : ∀ e ∈ r.remoteLinks, e.linkRef.id ≠ ref.id) :
    Cuts actors ref.id r (r.unlinkLocal actors ref) := by
  unfold Relations.unlinkLocal
  split
  next hnone => exact .absent h hnone hremote
  next entry hentry =>
    have hlink : entry.linkRef = ref :=
      Option.some.inj ((h.entry _ _ hentry).1.symm.trans hmade)
    obtain ⟨s₁, s₂, s₃, s₄, s₅, s₆, -, s₈⟩ := dropLink_tables actors
      { r with
        links := Function.update r.links ref.id none
        linkedWith := (r.linkedWith.remove ref.actor1Id ref.id).remove ref.actor2Id ref.id }
      ref.actor1Id ref.id
    obtain ⟨t₁, t₂, t₃, t₄, t₅, t₆, -, t₈⟩ := dropLink_tables actors
      ({ r with
        links := Function.update r.links ref.id none
        linkedWith := (r.linkedWith.remove ref.actor1Id ref.id).remove ref.actor2Id
          ref.id }.dropLink actors ref.actor1Id ref.id) ref.actor2Id ref.id
    constructor
    · intro v
      rw [t₁, s₁]
      simp only [Function.update_apply]
    · rw [t₃, s₃]
      exact (List.filter_eq_self.2 fun e he => by simpa using hremote e he).symm
    · intro a v
      rw [t₂, s₂]
      dsimp only
      rw [SetMap.mem_get_remove, SetMap.mem_get_remove, and_assoc]
      refine and_congr_right fun hv => ?_
      constructor
      · rintro ⟨hne₁, hne₂⟩ rfl
        rcases (h.index _ a).1 hv with ⟨e, he, hends⟩ | ⟨e, he, hid, -⟩
        · rw [hentry, Option.some.injEq] at he
          subst he
          rw [hlink] at hends
          rcases hends with rfl | rfl
          · exact hne₁ ⟨rfl, rfl⟩
          · exact hne₂ ⟨rfl, rfl⟩
        · exact hremote e he hid
      · exact fun hne => ⟨fun hboth => hne hboth.2, fun hboth => hne hboth.2⟩
    · intro a ha ref' hlocal
      rw [contextLinks_dropLink, contextLinks_dropLink]
      by_cases hid : ref'.id = ref.id
      · -- the link is in the contexts of its two actors only
        refine iff_of_false (fun hmem => ?_) fun hboth => hboth.2 hid
        have hold : ref' ∈ r.contextLinks a := by
          split_ifs at hmem
          · exact List.mem_of_mem_filter (List.mem_of_mem_filter hmem)
          · exact List.mem_of_mem_filter hmem
          · exact List.mem_of_mem_filter hmem
          · exact hmem
        obtain ⟨hlinked, hends⟩ := (h.context a ha ref' hlocal).1 hold
        have heq := h.eq_of_linked hlinked hmade hid
        rw [heq] at hends
        rcases hends with rfl | rfl <;> simp [ha, heq] at hmem
      · split_ifs <;> simp [hid]
    · intro a ref' href'
      have hfirst := dropLink_sub _ _ _ a ref' href'
      have hsecond := dropLink_sub _ _ _ a ref' hfirst
      exact hsecond
    · intro htidy
      rw [t₂, s₂]
      exact (htidy.remove _ _).remove _ _
    · rw [t₄, s₄]
    · rw [t₅, s₅]
    · rw [t₆, s₆]
    · refine WatchesKept.trans ?_ (dropLink_kept _ _ _)
      refine WatchesKept.trans ?_ (dropLink_kept _ _ _)
      exact ⟨rfl, rfl, rfl, rfl, rfl, rfl⟩
    · rw [t₈, s₈]

theorem cuts_unlink (h : LinksAgree actors r) {ref : LinkRef}
    (hmade : r.linkRefs ref.id = some ref) :
    Cuts actors ref.id r (r.unlink actors ref) := by
  unfold Relations.unlink
  split
  next e he =>
    obtain ⟨hmem, hid⟩ := getRemoteLink_some he
    obtain ⟨hmade', hlocal, hactor⟩ := h.remote e hmem
    have hc := (cuts_forgetRemoteLink h hmem).dropLink hlocal e.linkRef.actor1Id
    unfold Relations.unlinkRemote
    rw [hactor, ← hid]
    exact hc
  next hnone => exact cuts_unlinkLocal h hmade (getRemoteLink_none hnone)

/-! ## What operations on links leave alone -/

/-- The tables of watches and the history are as before. -/
structure LinksOnly (r r' : Relations N) : Prop where
  kept : WatchesKept r r'
  events : r'.events = r.events
  nextRef : r.nextRef ≤ r'.nextRef
  cancelled : r'.cancelled = r.cancelled

namespace LinksOnly

variable {r' r'' : Relations N}

theorem refl (r : Relations N) : LinksOnly r r := ⟨.refl r, rfl, le_rfl, rfl⟩

theorem trans (h : LinksOnly r r') (h' : LinksOnly r' r'') : LinksOnly r r'' :=
  ⟨h.kept.trans h'.kept, h'.events.trans h.events, h.nextRef.trans h'.nextRef,
    h'.cancelled.trans h.cancelled⟩

theorem dropLink (r : Relations N) (id : ActorId) (l : RefId) :
    LinksOnly r (r.dropLink actors id l) := by
  obtain ⟨-, -, -, -, -, t₆, -, t₈⟩ := dropLink_tables actors r id l
  refine ⟨dropLink_kept r id l, t₈, t₆.ge, ?_⟩
  unfold Relations.dropLink
  split_ifs <;> rfl

theorem forgetRemoteLink (r : Relations N) (l : RefId) (id : ActorId) :
    LinksOnly r (r.forgetRemoteLink l id) := ⟨⟨rfl, rfl, rfl, rfl, rfl, rfl⟩, rfl, le_rfl, rfl⟩

theorem unlinkRemote (r : Relations N) (ref : LinkRef) (e : RemoteLinkEntry N) :
    LinksOnly r (r.unlinkRemote actors ref e) :=
  (forgetRemoteLink r ref.id e.localActorRef.id).trans (dropLink _ _ _)

theorem unlinkLocal (r : Relations N) (ref : LinkRef) :
    LinksOnly r (r.unlinkLocal actors ref) := by
  unfold Relations.unlinkLocal
  split
  · exact .refl r
  · refine LinksOnly.trans ?_ (dropLink _ _ _)
    refine LinksOnly.trans ?_ (dropLink _ _ _)
    exact ⟨⟨rfl, rfl, rfl, rfl, rfl, rfl⟩, rfl, le_rfl, rfl⟩

theorem unlink (r : Relations N) (ref : LinkRef) : LinksOnly r (r.unlink actors ref) := by
  unfold Relations.unlink
  split
  · exact unlinkRemote r ref _
  · exact unlinkLocal r ref

theorem unlinkAll (r : Relations N) (id : ActorId) : LinksOnly r (r.unlinkAll actors id) := by
  unfold Relations.unlinkAll
  generalize r.contextLinks id = refs
  induction refs generalizing r with
  | nil => exact .refl r
  | cons ref refs ih => exact (unlink r ref).trans (ih _)

theorem link [DecidableEq N] (r : Relations N) (nodeId : N) (actor1Ref actor2Ref : ActorRef N) :
    LinksOnly r (r.link actors nodeId actor1Ref actor2Ref) := by
  unfold Relations.link
  split_ifs
  · exact ⟨⟨rfl, rfl, rfl, rfl, rfl, rfl⟩, rfl, Nat.le_succ _, rfl⟩
  · exact ⟨⟨rfl, rfl, rfl, rfl, rfl, rfl⟩, rfl, Nat.le_succ _, rfl⟩
  · exact .refl r
  · exact .refl r

end LinksOnly

/-! ## New links and new actors -/

theorem mem_putLink (r : Relations N) (id : ActorId) (ref ref' : LinkRef) (a : ActorId) :
    ref' ∈ (r.putLink id ref).contextLinks a ↔
      ref' ∈ r.contextLinks a ∨ ref' = ref ∧ id = a := by
  unfold Relations.putLink
  dsimp only
  by_cases ha : a = id
  · subst ha
    rw [Function.update_self]
    split_ifs with hold
    · exact (or_iff_left_of_imp fun hnew => hnew.1 ▸ hold).symm
    · simp
  · rw [Function.update_of_ne ha]
    exact (or_iff_left fun hnew => ha hnew.2.symm).symm

theorem LinksAgree.lt_of_links (h : LinksAgree actors r) {l : RefId} {e : LinkEntry N}
    (he : r.links l = some e) : l < r.nextRef :=
  (h.made l _ (h.entry l e he).1).2

theorem LinksAgree.lt_of_remote (h : LinksAgree actors r) {e : RemoteLinkEntry N}
    (he : e ∈ r.remoteLinks) : e.linkRef.id < r.nextRef :=
  (h.made _ _ (h.remote e he).1).2

theorem linksMade_update (h : LinksAgree actors r) (ref : LinkRef) (hid : ref.id = r.nextRef)
    (l : RefId) (ref' : LinkRef)
    (hmade : Function.update r.linkRefs r.nextRef (some ref) l = some ref') :
    ref'.id = l ∧ l < r.nextRef + 1 := by
  by_cases hl : l = r.nextRef
  · subst hl
    rw [Function.update_self, Option.some.injEq] at hmade
    subst hmade
    exact ⟨hid, Nat.lt_succ_self _⟩
  · rw [Function.update_of_ne hl] at hmade
    exact ⟨(h.made l ref' hmade).1, (h.made l ref' hmade).2.trans (Nat.lt_succ_self _)⟩

theorem linkRefs_update (h : LinksAgree actors r) (ref : LinkRef) (hid : ref.id = r.nextRef)
    {ref' : LinkRef} (href' : r.linkRefs ref'.id = some ref' ∨ ref' = ref) :
    Function.update r.linkRefs r.nextRef (some ref) ref'.id = some ref' := by
  rcases href' with hmade | rfl
  · rw [Function.update_of_ne (Nat.ne_of_lt (h.made _ _ hmade).2)]
    exact hmade
  · rw [hid, Function.update_self]

/-- A local link has been entered in all tables. -/
theorem agree_linkLocal (h : LinksAgree actors r) (actor1Ref actor2Ref : ActorRef N) :
    LinksAgree actors (r.linkLocal actor1Ref actor2Ref) := by
  have hctx : ∀ a ref, ref ∈ (r.linkLocal actor1Ref actor2Ref).contextLinks a ↔
      ref ∈ r.contextLinks a ∨
        ref = ⟨r.nextRef, actor1Ref.id, actor2Ref.id⟩ ∧ Ends ref a := by
    intro a ref
    refine (mem_putLink _ _ _ _ _).trans ((or_congr_left (mem_putLink _ _ _ _ _)).trans ?_)
    rw [or_assoc, ← and_or_left]
    refine or_congr_right (and_congr_right ?_)
    rintro rfl
    rfl
  refine ⟨fun l a => ?_, fun a _ ref hlocal => ?_, fun a ref href => ?_,
    (h.tidy.add _ _).add _ _, fun l e he => ?_, fun e he => ?_, ?_, fun l hl => ?_⟩
  · change l ∈ ((r.linkedWith.add _ _).add _ _).get a ↔
      (∃ e, Function.update r.links r.nextRef _ l = some e ∧ _) ∨ _
    rw [SetMap.mem_get_add, SetMap.mem_get_add, h.index]
    by_cases hl : l = r.nextRef
    · subst hl
      rw [Function.update_self]
      constructor
      · rintro ((( ⟨e, he, -⟩ | ⟨e, he, hid, -⟩) | ⟨rfl, -⟩) | ⟨rfl, -⟩)
        · exact absurd (h.lt_of_links he) (lt_irrefl _)
        · exact absurd hid (Nat.ne_of_lt (h.lt_of_remote he))
        · exact .inl ⟨_, rfl, .inl rfl⟩
        · exact .inl ⟨_, rfl, .inr rfl⟩
      · rintro (⟨e, he, hends⟩ | ⟨e, he, hid, -⟩)
        · cases he
          rcases hends with rfl | rfl
          · exact .inl (.inr ⟨rfl, rfl⟩)
          · exact .inr ⟨rfl, rfl⟩
        · exact absurd hid (Nat.ne_of_lt (h.lt_of_remote he))
    · rw [Function.update_of_ne hl]
      exact (or_iff_left fun hnew => hl hnew.2).trans (or_iff_left fun hnew => hl hnew.2)
  · rw [hctx]
    change _ ↔ (∃ e, Function.update r.links r.nextRef _ ref.id = some e ∧ _) ∧ _
    by_cases hid : ref.id = r.nextRef
    · have hold : ref ∉ r.contextLinks a := fun hold =>
        Nat.ne_of_lt (h.made _ _ (h.contextMade a ref hold)).2 hid
      rw [hid, Function.update_self]
      constructor
      · rintro (hmem | ⟨rfl, hends⟩)
        · exact absurd hmem hold
        · exact ⟨⟨_, rfl, rfl⟩, hends⟩
      · rintro ⟨⟨e, he, rfl⟩, hends⟩
        cases he
        exact .inr ⟨rfl, hends⟩
    · have hlocal' : ref.id ∈ r.localLinks :=
        (List.mem_append.1 hlocal).resolve_right fun hnew => hid (List.mem_singleton.1 hnew)
      rw [Function.update_of_ne hid, or_iff_left fun hnew => hid (by rw [hnew.1])]
      exact h.context a ‹_› ref hlocal'
  · refine linkRefs_update h ⟨r.nextRef, actor1Ref.id, actor2Ref.id⟩ rfl ?_
    exact ((hctx a ref).1 href).imp (h.contextMade a ref) And.left
  · change Function.update r.links r.nextRef _ l = some e at he
    change Function.update r.linkRefs r.nextRef _ l = _ ∧ l ∈ r.localLinks ++ [r.nextRef] ∧ _
    by_cases hl : l = r.nextRef
    · subst hl
      rw [Function.update_self, Option.some.injEq] at he
      subst he
      exact ⟨Function.update_self .., by simp, rfl, rfl⟩
    · rw [Function.update_of_ne hl] at he ⊢
      obtain ⟨hmade, hlocal, hactors⟩ := h.entry l e he
      exact ⟨hmade, List.mem_append_left _ hlocal, hactors⟩
  · obtain ⟨hmade, hlocal, hactor⟩ := h.remote e he
    have hne := Nat.ne_of_lt (h.lt_of_remote he)
    refine ⟨(Function.update_of_ne hne ..).trans hmade, fun hmem => ?_, hactor⟩
    rcases List.mem_append.1 hmem with hold | hnew
    · exact hlocal hold
    · exact hne (List.mem_singleton.1 hnew)
  · exact linksMade_update h _ rfl
  · rcases List.mem_append.1 hl with hold | hnew
    · exact (h.madeLocal l hold).trans (Nat.lt_succ_self _)
    · rw [List.mem_singleton.1 hnew]
      exact Nat.lt_succ_self _

/-- A link to an actor on another node has been entered under the local actor. -/
theorem agree_setupRemoteLink (h : LinksAgree actors r)
    (localActorRef remoteActorRef : ActorRef N) :
    LinksAgree actors (r.setupRemoteLink localActorRef remoteActorRef) := by
  have hctx : ∀ a ref, ref ∈ (r.setupRemoteLink localActorRef remoteActorRef).contextLinks a ↔
      ref ∈ r.contextLinks a ∨
        ref = ⟨r.nextRef, localActorRef.id, remoteActorRef.id⟩ ∧ localActorRef.id = a :=
    fun a ref => mem_putLink _ _ _ _ _
  have hnew : r.nextRef ∉ r.localLinks := fun hmem => lt_irrefl _ (h.madeLocal _ hmem)
  refine ⟨fun l a => ?_, fun a ha ref hlocal => ?_, fun a ref href => ?_,
    h.tidy.add _ _, fun l e he => ?_, fun e he => ?_, ?_, fun l hl => ?_⟩
  · change l ∈ (r.linkedWith.add _ _).get a ↔ _ ∨ ∃ e ∈ r.remoteLinks ++ [_], _
    rw [SetMap.mem_get_add, h.index, or_assoc]
    refine or_congr_right ?_
    simp only [List.mem_append, List.mem_singleton, or_and_right, exists_or, exists_eq_left]
    refine or_congr_right ?_
    constructor
    · rintro ⟨rfl, rfl⟩
      exact ⟨rfl, rfl⟩
    · rintro ⟨rfl, rfl⟩
      exact ⟨rfl, rfl⟩
  · have hold : ref.id ∈ r.localLinks := hlocal
    rw [hctx, or_iff_left fun hsame => hnew (by rw [hsame.1] at hold; exact hold)]
    exact h.context a ha ref hold
  · refine linkRefs_update h ⟨r.nextRef, localActorRef.id, remoteActorRef.id⟩ rfl ?_
    exact ((hctx a ref).1 href).imp (h.contextMade a ref) And.left
  · have he' : r.links l = some e := he
    obtain ⟨hmade, hrest⟩ := h.entry l e he'
    exact ⟨(Function.update_of_ne (Nat.ne_of_lt (h.lt_of_links he')) ..).trans hmade, hrest⟩
  · rcases List.mem_append.1 he with hold | hlast
    · obtain ⟨hmade, hrest⟩ := h.remote e hold
      exact ⟨(Function.update_of_ne (Nat.ne_of_lt (h.lt_of_remote hold)) ..).trans hmade, hrest⟩
    · rw [List.mem_singleton.1 hlast]
      exact ⟨Function.update_self .., hnew, rfl⟩
  · exact linksMade_update h _ rfl
  · exact (h.madeLocal l hl).trans (Nat.lt_succ_self _)

/-- A new actor starts with an empty context, and no link is its. -/
theorem linksAgree_newContext (h : LinksAgree actors r) {id : ActorId}
    (hnone : ∀ ref, Linked r ref → ¬ Ends ref id) :
    LinksAgree (insert id actors) (r.newContext id) := by
  refine ⟨h.index, fun a ha ref hlocal => ?_, fun a ref href => ?_, h.tidy, h.entry, h.remote,
    h.made, h.madeLocal⟩
  · change ref ∈ Function.update r.contextLinks id [] a ↔ Linked r ref ∧ Ends ref a
    by_cases hid : a = id
    · subst hid
      rw [Function.update_self]
      exact iff_of_false List.not_mem_nil fun href => hnone ref href.1 href.2
    · rw [Function.update_of_ne hid]
      exact h.context a (Finset.mem_of_mem_insert_of_ne ha hid) ref hlocal
  · change ref ∈ Function.update r.contextLinks id [] a at href
    by_cases hid : a = id
    · subst hid
      rw [Function.update_self] at href
      cases href
    · rw [Function.update_of_ne hid] at href
      exact h.contextMade a ref href

end Libeam.Proofs.LinkTables
