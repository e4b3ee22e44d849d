import Libeam.Proofs.LinkTables
/-!
# The tables agree in every state

Every operation on watches and links keeps both groups of tables in agreement:
most only strike watches and cut links, `watch` and `link` add one, and actors
come with empty contexts.
-/

namespace Libeam.Proofs.BondsAgree

open Libeam.System (ActorId)
open Supervision (ActorRef)
open Monitoring Lib Lib.Transition WatchTables LinkTables

variable {N : Type} {actors : Finset ActorId} {callbacks : Callbacks N} {r r' r'' : Relations N}

structure Agree (actors : Finset ActorId) (r : Relations N) : Prop where
  watches : WatchesAgree actors r
  links : LinksAgree actors r

/-- Nothing new is made, and the tables agree afterwards. -/
structure Keeps (actors : Finset ActorId) (r r' : Relations N) : Prop where
  watchRefs : r'.watchRefs = r.watchRefs
  remoteRefs : r'.remoteRefs = r.remoteRefs
  linkRefs : r'.linkRefs = r.linkRefs
  localLinks : r'.localLinks = r.localLinks
  nextRef : r'.nextRef = r.nextRef
  agree : Agree actors r'
  absent : ∀ w, Absent r w → Absent r' w
  unwatched : ∀ w, Event.unwatched w ∈ r'.events →
    Event.unwatched w ∈ r.events ∨ w < r.nextRef ∧ Absent r' w

namespace Keeps

theorem refl (h : Agree actors r) : Keeps actors r r :=
  ⟨rfl, rfl, rfl, rfl, rfl, h, fun _ hw => hw, fun _ hw => .inl hw⟩

theorem trans (h : Keeps actors r r') (h' : Keeps actors r' r'') : Keeps actors r r'' where
  watchRefs := h'.watchRefs.trans h.watchRefs
  remoteRefs := h'.remoteRefs.trans h.remoteRefs
  linkRefs := h'.linkRefs.trans h.linkRefs
  localLinks := h'.localLinks.trans h.localLinks
  nextRef := h'.nextRef.trans h.nextRef
  agree := h'.agree
  absent := fun w hw => h'.absent w (h.absent w hw)
  unwatched := fun w hw => (h'.unwatched w hw).elim
    (fun hw => (h.unwatched w hw).imp_right (And.imp_right (h'.absent w)))
    fun hw => .inr (h.nextRef ▸ hw)

end Keeps

namespace Agree

theorem prunes (h : Agree actors r) (hp : Prunes actors r r') : Keeps actors r r' where
  watchRefs := hp.watchRefs
  remoteRefs := hp.remoteRefs
  linkRefs := hp.links.linkRefs
  localLinks := hp.links.localLinks
  nextRef := hp.nextRef
  agree := ⟨hp.agree, h.links.of_kept hp.links hp.nextRef.ge⟩
  absent := hp.absent
  unwatched := hp.unwatched

theorem cuts (h : Agree actors r) {l : RefId} (hc : Cuts actors l r r') :
    Keeps actors r r' where
  watchRefs := hc.kept.watchRefs
  remoteRefs := hc.kept.remoteRefs
  linkRefs := hc.linkRefs
  localLinks := hc.localLinks
  nextRef := hc.nextRef
  agree := ⟨h.watches.of_kept hc.kept hc.nextRef.ge, h.links.cuts hc⟩
  absent := fun w hw => by
    unfold Absent
    rw [hc.kept.watches, hc.kept.remoteWatches]
    exact hw
  unwatched := fun w hw => .inl (hc.events ▸ hw)

theorem inform (h : Agree actors r) (id : ActorId) (message : InfoMessage N) :
    Keeps actors r (r.inform actors callbacks id message).1 :=
  h.prunes (prunes_inform h.watches id message)

theorem unlink (h : Agree actors r) {ref : LinkRef} (hmade : r.linkRefs ref.id = some ref) :
    Keeps actors r (r.unlink actors ref) := h.cuts (cuts_unlink h.links hmade)

theorem unlinks (h : Agree actors r) {refs : List LinkRef}
    (hmade : ∀ ref ∈ refs, r.linkRefs ref.id = some ref) :
    Keeps actors r (refs.foldl (fun r ref => r.unlink actors ref) r) := by
  induction refs generalizing r with
  | nil => exact .refl h
  | cons ref refs ih =>
      have hk := h.unlink (hmade ref (by simp))
      refine hk.trans (ih hk.agree fun ref' href' => ?_)
      rw [hk.linkRefs]
      exact hmade ref' (by simp [href'])

theorem unlinkAll (h : Agree actors r) (id : ActorId) :
    Keeps actors r (r.unlinkAll actors id) := h.unlinks (h.links.contextMade id)

theorem exitLinked (h : Agree actors r) (ref : LinkRef) (targetRef exitedRef : ActorRef N)
    (reason : TerminationReason) (message : String) :
    Keeps actors r
      (r.exitLinked actors callbacks ref targetRef exitedRef reason message).relations := by
  unfold Relations.exitLinked
  split_ifs
  · exact h.inform _ _
  · exact .refl h
  · exact .refl h
  · exact .refl h

/-- A remote link concerns its local actor only. -/
theorem actor1_of_concerns (h : Agree actors r) {e : RemoteLinkEntry N}
    (he : e ∈ r.remoteLinks) {actorId : ActorId} (hl : r.Concerns actorId e.linkRef.id) :
    e.linkRef.actor1Id = actorId := by
  obtain ⟨ref, href, hends⟩ := hl
  obtain ⟨hmade, hlocal, -⟩ := h.links.remote e he
  rw [href, Option.some.injEq] at hmade
  rw [← hmade]
  exact hends.resolve_right fun hboth => hlocal hboth.1

theorem tellLinked (h : Agree actors r) (actorRef : ActorRef N) (reason : TerminationReason)
    {l : RefId} (hl : r.Concerns actorRef.id l) :
    Keeps actors r (r.tellLinked actors callbacks actorRef reason l).relations := by
  unfold Relations.tellLinked
  split
  next e he =>
    have hmade := (h.links.entry l e he).1
    rw [← h.links.id_of_links he] at hmade
    have hk := h.unlink hmade
    exact hk.trans (hk.agree.exitLinked _ _ _ _ _)
  next =>
    split
    next e he =>
      obtain ⟨hmem, rfl⟩ := getRemoteLink_some he
      rw [← h.actor1_of_concerns hmem hl]
      exact h.cuts (cuts_forgetRemoteLink h.links hmem)
    next => exact .refl h

/-- The links found in the index of an actor concern it. -/
theorem concerns (h : Agree actors r) {actorId : ActorId} {l : RefId}
    (hl : l ∈ r.linkedWith.get actorId) : r.Concerns actorId l := by
  rcases (h.links.index l actorId).1 hl with ⟨e, he, hends⟩ | ⟨e, he, rfl, hactor⟩
  · obtain ⟨hmade, hlocal, -⟩ := h.links.entry l e he
    exact ⟨e.linkRef, hmade, hends.imp (fun h => h) fun h => ⟨hlocal, h⟩⟩
  · exact ⟨e.linkRef, (h.links.remote e he).1, .inl hactor⟩

theorem tellLinkedOfMigration (h : Agree actors r) (actorId : ActorId) (move : Move N)
    {l : RefId} (hl : r.Concerns actorId l) :
    Keeps actors r (r.tellLinkedOfMigration actors callbacks actorId move l).1 := by
  unfold Relations.tellLinkedOfMigration
  split
  next e he =>
    have hmade := (h.links.entry l e he).1
    rw [← h.links.id_of_links he] at hmade
    dsimp only
    have htold : Keeps actors r (if (Relations.otherEnd e actorId).id ∈ actors then
        r.inform actors callbacks (Relations.otherEnd e actorId).id
          (.moved none (some e.linkRef) move.actorRef move.oldNodeId move.newNodeId
            move.newActorId)
        else (r, false)).1 := by
      split_ifs
      · exact h.inform _ _
      · exact .refl h
    split_ifs at htold ⊢
    · exact htold
    · exact htold.trans (htold.agree.unlink (htold.linkRefs ▸ hmade))
    · exact htold
    · exact h.unlink hmade
  next =>
    split
    next e he =>
      obtain ⟨hmem, rfl⟩ := getRemoteLink_some he
      rw [← h.actor1_of_concerns hmem hl]
      exact h.cuts (cuts_forgetRemoteLink h.links hmem)
    next => exact .refl h

theorem notifyLinkedActorsOfMigration (h : Agree actors r) (actorId : ActorId)
    (move : Move N) :
    Keeps actors r (r.notifyLinkedActorsOfMigration actors callbacks actorId move).1 := by
  refine Loop.forEach_invariant (fun s l hl hs => ?_) (.refl h)
  have hconcerns : s.Concerns actorId l := by
    obtain ⟨ref, href, hends⟩ := h.concerns hl
    exact ⟨ref, hs.linkRefs ▸ href, hs.localLinks ▸ hends⟩
  exact hs.trans (hs.agree.tellLinkedOfMigration actorId move hconcerns)

/-- A remote link is gone from the tables, and its context drops it. -/
theorem dropRemoteLink (h : Agree actors r) {e : RemoteLinkEntry N}
    (he : e ∈ r.remoteLinks) :
    Keeps actors r ((r.forgetRemoteLink e.linkRef.id e.localActorRef.id).dropLink actors
      e.localActorRef.id e.linkRef.id) := by
  obtain ⟨-, hlocal, hactor⟩ := h.links.remote e he
  rw [hactor]
  exact h.cuts ((cuts_forgetRemoteLink h.links he).dropLink hlocal _)

theorem handleRemoteLinkExit (h : Agree actors r) (l : RefId) (exitedActorId : ActorId)
    (reason : TerminationReason) :
    Keeps actors r
      (r.handleRemoteLinkExit actors callbacks l exitedActorId reason).relations := by
  unfold Relations.handleRemoteLinkExit
  split
  · exact .refl h
  next e he =>
    obtain ⟨hmem, rfl⟩ := getRemoteLink_some he
    have hk := h.dropRemoteLink hmem
    exact hk.trans (hk.agree.exitLinked _ _ _ _ _)

theorem handleRemoteLinkMoved (h : Agree actors r) (l : RefId) (move : Move N) :
    Keeps actors r (r.handleRemoteLinkMoved actors callbacks l move).1 := by
  unfold Relations.handleRemoteLinkMoved
  split
  · exact .refl h
  next e he =>
    obtain ⟨hmem, rfl⟩ := getRemoteLink_some he
    have hk := h.dropRemoteLink hmem
    dsimp only
    split_ifs with hactor
    · exact hk.trans (hk.agree.inform _ _)
    · rw [show ∀ r' : Relations N, r'.dropLink actors e.localActorRef.id e.linkRef.id = r' from
        fun r' => if_neg hactor] at hk
      exact hk

end Agree

/-! ## Runs -/

/-- The references that have been made belong to actors that have been spawned. -/
structure Sound (b : Bonds N) : Prop where
  agree : Agree b.actors b.toRelations
  actors : ∀ a ∈ b.actors, a < b.nextId
  watcher : ∀ w ref, b.watchRefs w = some ref → ref.watcherId < b.nextId
  linked : ∀ l ref, b.linkRefs l = some ref → ref.actor1Id < b.nextId ∧
    (l ∈ b.localLinks → ref.actor2Id < b.nextId)
  /-- A watch that has been cancelled does not come back. -/
  settled : ∀ w, Event.unwatched w ∈ b.events → w < b.nextRef ∧ Absent b.toRelations w

namespace Sound

variable {b : Bonds N}

theorem init (id : N) : Sound (Bonds.init id) where
  agree := by
    refine ⟨⟨fun w a => ?_, fun a ha => ?_, fun a ref href => ?_, SetMap.tidy_empty,
      fun w e he => ?_, fun e he => ?_, List.nodup_nil, fun w ref href => ?_, fun w hw => ?_,
      fun a ref href => ?_⟩,
      ⟨fun l a => ?_, fun a ha => ?_, fun a ref href => ?_, SetMap.tidy_empty,
      fun l e he => ?_, fun e he => ?_, fun l ref href => ?_, fun l hl => ?_⟩⟩
    · exact iff_of_false List.not_mem_nil nofun
    · cases ha
    · cases href
    · cases he
    · cases he
    · cases href
    · cases hw
    · cases href
    · exact iff_of_false List.not_mem_nil (by rintro (⟨e, he, -⟩ | ⟨e, he, -⟩) <;> cases he)
    · cases ha
    · cases href
    · cases he
    · cases he
    · cases href
    · cases hl
  actors := fun a ha => by cases ha
  watcher := fun w ref href => by cases href
  linked := fun l ref href => by cases href
  settled := fun w hw => by cases hw

theorem keeps (h : Sound b) {r' : Relations N} (hk : Keeps b.actors b.toRelations r') :
    Sound { b with toRelations := r' } where
  agree := hk.agree
  actors := h.actors
  watcher := by
    change ∀ w ref, r'.watchRefs w = some ref → _
    rw [hk.watchRefs]
    exact h.watcher
  linked := by
    change ∀ l ref, r'.linkRefs l = some ref → _ ∧ (l ∈ r'.localLinks → _)
    rw [hk.linkRefs, hk.localLinks]
    exact h.linked
  settled := by
    intro w hw
    rcases hk.unwatched w hw with hold | ⟨hlt, habsent⟩
    · exact ⟨(h.settled w hold).1.trans_le hk.nextRef.ge, hk.absent w (h.settled w hold).2⟩
    · exact ⟨hlt.trans_le hk.nextRef.ge, habsent⟩

theorem prunes (h : Sound b) {r' : Relations N} (hp : Prunes b.actors b.toRelations r') :
    Sound { b with toRelations := r' } := h.keeps (h.agree.prunes hp)

theorem spawn (h : Sound b) :
    Sound { b with
      toRelations := b.newContext b.nextId
      actors := insert b.nextId b.actors
      nextId := b.nextId + 1 } where
  agree := by
    refine ⟨agree_newContext h.agree.watches fun ref href => ?_,
      linksAgree_newContext h.agree.links fun ref href hends => ?_⟩
    · exact Nat.ne_of_lt (h.watcher _ ref (h.agree.watches.held_made href))
    · obtain ⟨e, he, rfl⟩ := href
      obtain ⟨hmade, hlocal, -⟩ := h.agree.links.entry _ e he
      obtain ⟨h₁, h₂⟩ := h.linked _ _ hmade
      rcases hends with heq | heq
      · exact Nat.ne_of_lt h₁ heq
      · exact Nat.ne_of_lt (h₂ hlocal) heq
  actors := by
    intro a ha
    rcases Finset.mem_insert.1 ha with rfl | ha
    · exact Nat.lt_succ_self _
    · exact (h.actors a ha).trans (Nat.lt_succ_self _)
  watcher := fun w ref href => (h.watcher w ref href).trans (Nat.lt_succ_self _)
  linked := fun l ref href => ⟨(h.linked l ref href).1.trans (Nat.lt_succ_self _),
    fun hl => ((h.linked l ref href).2 hl).trans (Nat.lt_succ_self _)⟩
  settled := h.settled

theorem remove (h : Sound b) (id : ActorId) :
    Sound { b with actors := b.actors.erase id } where
  agree := ⟨h.agree.watches.mono (Finset.erase_subset _ _),
    h.agree.links.mono (Finset.erase_subset _ _)⟩
  actors := fun a ha => h.actors a (Finset.mem_of_mem_erase ha)
  watcher := h.watcher
  linked := h.linked
  settled := h.settled

/-- A watch has been made, for an actor that has been spawned. -/
theorem newWatch (h : Sound b) {r' : Relations N} {ref : WatchRef}
    (hagree : WatchesAgree b.actors r') (hkept : LinksKept b.toRelations r')
    (hlt : ref.watcherId < b.nextId)
    (hmade : r'.watchRefs = Function.update b.watchRefs b.nextRef (some ref))
    (hnext : r'.nextRef = b.nextRef + 1) (hevents : r'.events = b.events)
    (habsent : ∀ w, w < b.nextRef → Absent b.toRelations w → Absent r' w) :
    Sound { b with toRelations := r' } where
  agree := ⟨hagree, h.agree.links.of_kept hkept (hnext ▸ Nat.le_succ _)⟩
  actors := h.actors
  watcher := by
    intro w ref' href'
    change r'.watchRefs w = some ref' at href'
    rw [hmade] at href'
    by_cases hw : w = b.nextRef
    · subst hw
      rw [Function.update_self, Option.some.injEq] at href'
      exact href' ▸ hlt
    · rw [Function.update_of_ne hw] at href'
      exact h.watcher w ref' href'
  linked := by
    change ∀ l ref, r'.linkRefs l = some ref → _ ∧ (l ∈ r'.localLinks → _)
    rw [hkept.linkRefs, hkept.localLinks]
    exact h.linked
  settled := by
    intro w hw
    change Event.unwatched w ∈ r'.events at hw
    rw [hevents] at hw
    obtain ⟨hold, hgone⟩ := h.settled w hw
    exact ⟨hnext ▸ hold.trans (Nat.lt_succ_self _), habsent w hold hgone⟩

/-- A link has been made, between actors that have been spawned. -/
theorem newLink (h : Sound b) {r' : Relations N} {ref : LinkRef}
    (hagree : LinksAgree b.actors r') (hkept : WatchesKept b.toRelations r')
    (hlt : ref.actor1Id < b.nextId)
    (hlocal : b.nextRef ∈ r'.localLinks → ref.actor2Id < b.nextId)
    (hmade : r'.linkRefs = Function.update b.linkRefs b.nextRef (some ref))
    (hold : ∀ l ∈ r'.localLinks, l = b.nextRef ∨ l ∈ b.localLinks)
    (hnext : r'.nextRef = b.nextRef + 1) (hevents : r'.events = b.events) :
    Sound { b with toRelations := r' } where
  agree := ⟨h.agree.watches.of_kept hkept (hnext ▸ Nat.le_succ _), hagree⟩
  actors := h.actors
  watcher := by
    change ∀ w ref, r'.watchRefs w = some ref → _
    rw [hkept.watchRefs]
    exact h.watcher
  linked := by
    intro l ref' href'
    change r'.linkRefs l = some ref' at href'
    rw [hmade] at href'
    by_cases hl : l = b.nextRef
    · subst hl
      rw [Function.update_self, Option.some.injEq] at href'
      exact href' ▸ ⟨hlt, hlocal⟩
    · rw [Function.update_of_ne hl] at href'
      obtain ⟨h₁, h₂⟩ := h.linked l ref' href'
      exact ⟨h₁, fun hmem => h₂ ((hold l hmem).resolve_left hl)⟩
  settled := by
    intro w hw
    change Event.unwatched w ∈ r'.events at hw
    rw [hevents] at hw
    obtain ⟨hold, hgone⟩ := h.settled w hw
    refine ⟨hnext ▸ hold.trans (Nat.lt_succ_self _), ?_⟩
    exact ⟨by rw [hkept.watches]; exact hgone.1, by rw [hkept.remoteWatches]; exact hgone.2⟩

theorem watch [DecidableEq N] (h : Sound b) {watcherRef : ActorRef N}
    (hlt : watcherRef.id < b.nextId) (watchedRef : ActorRef N) :
    Sound { b with
      toRelations := (b.toRelations.watch b.actors callbacks b.id watcherRef watchedRef).1 } := by
  unfold Relations.watch
  split_ifs
  · obtain ⟨-, -, -, t₄, -, t₆, t₇⟩ :=
      setupRemoteWatch_tables b.actors b.toRelations watcherRef watchedRef
    exact h.newWatch (agree_setupRemoteWatch h.agree.watches _ _) (setupRemoteWatch_kept _ _ _)
      hlt t₄ t₆ t₇ fun w => absent_setupRemoteWatch watcherRef watchedRef
  · obtain ⟨-, -, -, t₄, -, t₆, t₇⟩ :=
      establishWatch_tables b.actors b.toRelations watcherRef watchedRef
    have hs := h.newWatch (agree_establishWatch h.agree.watches watcherRef watchedRef)
      (establishWatch_kept _ _ _) hlt t₄ t₆ t₇
      fun w => absent_establishWatch watcherRef watchedRef
    unfold Relations.watchLocal
    dsimp only
    split_ifs
    · exact hs
    · exact hs.prunes (prunes_sendDownMessage hs.agree.watches _ _ _)

theorem link [DecidableEq N] (h : Sound b) (actor1Ref actor2Ref : ActorRef N) :
    Sound { b with
      toRelations := b.toRelations.link b.actors b.id actor1Ref actor2Ref } := by
  unfold Relations.link
  split_ifs with h₁ h₂ h₃
  · refine h.newLink (agree_setupRemoteLink h.agree.links _ _) ⟨rfl, rfl, rfl, rfl, rfl, rfl⟩
      (h.actors _ h₁.2) (fun hl => absurd (h.agree.links.madeLocal _ hl) (lt_irrefl _)) rfl
      (fun l hl => .inr hl) rfl rfl
  · refine h.newLink (agree_linkLocal h.agree.links _ _) ⟨rfl, rfl, rfl, rfl, rfl, rfl⟩
      (h.actors _ h₁.2) (fun _ => h.actors _ h₃) rfl (fun l hl => ?_) rfl rfl
    exact ((List.mem_append.1 hl).imp_right List.mem_singleton.1).symm
  · exact h
  · exact h

theorem step [DecidableEq N] (h : Sound b) {a : BondsAction N} {b' : Bonds N}
    (hst : b.step callbacks a = some b') : Sound b' := by
  cases a with
  | spawn => cases hst; exact h.spawn
  | remove id => cases hst; exact h.remove id
  | setTrapExit id trap =>
      cases hst
      exact ⟨⟨h.agree.watches.of_kept ⟨rfl, rfl, rfl, rfl, rfl, rfl⟩ le_rfl,
        ⟨h.agree.links.index, h.agree.links.context, h.agree.links.contextMade,
          h.agree.links.tidy, h.agree.links.entry, h.agree.links.remote, h.agree.links.made,
          h.agree.links.madeLocal⟩⟩, h.actors, h.watcher, h.linked, h.settled⟩
  | watch watcherRef watchedRef =>
      simp only [Bonds.step] at hst
      split_ifs at hst with hlt
      cases hst
      exact h.watch hlt.1 watchedRef
  | unwatch w => cases hst; exact h.prunes (prunes_cancel h.agree.watches w)
  | unwatchAll id => cases hst; exact h.prunes (prunes_unwatchAll h.agree.watches id)
  | notifyWatchers actorRef reason =>
      cases hst
      exact h.prunes (prunes_notifyWatchers h.agree.watches actorRef reason)
  | notifyWatchersOfMigration id move =>
      cases hst
      exact h.prunes (prunes_notifyWatchersOfMigration h.agree.watches id move)
  | watchDown w id reason =>
      cases hst
      exact h.prunes (prunes_handleRemoteDown h.agree.watches w id reason)
  | watchMoved w move =>
      cases hst
      exact h.prunes (prunes_handleRemoteWatcherMoved h.agree.watches w move)
  | failWatches deadNodeId =>
      cases hst
      exact h.prunes (prunes_handleNodeFailureForWatches h.agree.watches deadNodeId)
  | link actor1Ref actor2Ref => cases hst; exact h.link actor1Ref actor2Ref
  | unlink l =>
      simp only [Bonds.step] at hst
      split at hst
      · cases hst
      next ref href =>
        cases hst
        refine h.keeps (h.agree.unlink ?_)
        rw [(h.agree.links.made l ref href).1]
        exact href
  | unlinkAll id => cases hst; exact h.keeps (h.agree.unlinkAll id)
  | tellLinked actorRef reason l =>
      simp only [Bonds.step] at hst
      split_ifs at hst with hl
      cases hst
      exact h.keeps (h.agree.tellLinked actorRef reason hl)
  | notifyLinkedActorsOfMigration id move =>
      cases hst
      exact h.keeps (h.agree.notifyLinkedActorsOfMigration id move)
  | linkExit l id reason =>
      cases hst
      exact h.keeps (h.agree.handleRemoteLinkExit l id reason)
  | linkMoved l move => cases hst; exact h.keeps (h.agree.handleRemoteLinkMoved l move)

/-- The tables agree in every state that the operations reach. -/
theorem run [DecidableEq N] {id : N} {as : List (BondsAction N)} {b : Bonds N}
    (hrun : run (Bonds.step callbacks) (.init id) as = some b) : Sound b :=
  run_invariant' (fun _ _ _ h hst => h.step hst) (init id) hrun

end Sound

end Libeam.Proofs.BondsAgree
