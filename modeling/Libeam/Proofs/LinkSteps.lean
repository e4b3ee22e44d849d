import Libeam.Proofs.ExitMessages
import Libeam.Proofs.SystemSound
/-!
# What a step does to links

Only `link` makes one.  A restart cuts the links of the actor that it removes, and a
migration those of the actor that moves; `unlink` cuts its own.  Telling linked actors
apart, no step cuts any other link between local actors, and nobody gets an exit message
because of one.
-/

namespace Libeam.Proofs.LinkSteps

open Libeam.System (ActorId)
open Monitoring Supervision Lib WatchTables LinkTables BondsAgree WatchDelivery SystemSteps
open SystemSound ExitMessages

variable {N V : Type} {callbacks : Callbacks N} {stringify : List V → String}
  {actors : Finset ActorId} {r r' r'' : Relations N} {goes : RefId → Prop}

/-- Of the links between local actors only these go, and nobody is sent an exit message
because of one. -/
structure Sheds (goes : RefId → Prop) (r r' : Relations N) : Prop where
  links : ∀ l, r'.links l = r.links l ∨ r'.links l = none ∧ goes l
  silent : ∀ l, (∀ e ∈ r.remoteLinks, e.linkRef.id ≠ l) → Silent l r r'
  remoteLinks : ∀ e ∈ r'.remoteLinks, e ∈ r.remoteLinks
  linkRefs : r'.linkRefs = r.linkRefs
  localLinks : r'.localLinks = r.localLinks
  nextRef : r.nextRef ≤ r'.nextRef

namespace Sheds

theorem of_kept (hkept : LinksKept r r') (hnext : r.nextRef ≤ r'.nextRef)
    (hsilent : ∀ l, Silent l r r') : Sheds goes r r' where
  links := fun l => .inl (congrFun hkept.links l)
  silent := fun l _ => hsilent l
  remoteLinks := fun _ he => hkept.remoteLinks ▸ he
  linkRefs := hkept.linkRefs
  localLinks := hkept.localLinks
  nextRef := hnext

theorem refl (r : Relations N) : Sheds goes r r := .of_kept (.refl r) le_rfl fun _ => .refl r

theorem trans (h : Sheds goes r r') (h' : Sheds goes r' r'') : Sheds goes r r'' where
  links := fun l => by
    rcases h'.links l with heq | hgone
    · rw [heq]
      exact h.links l
    · exact .inr hgone
  silent := fun l hl => (h.silent l hl).trans (h'.silent l fun e he => hl e (h.remoteLinks e he))
  remoteLinks := fun e he => h.remoteLinks e (h'.remoteLinks e he)
  linkRefs := h'.linkRefs.trans h.linkRefs
  localLinks := h'.localLinks.trans h.localLinks
  nextRef := h.nextRef.trans h'.nextRef

theorem mono {goes' : RefId → Prop} (h : Sheds goes r r') (hgoes : ∀ l, goes l → goes' l) :
    Sheds goes' r r' :=
  { h with links := fun l => (h.links l).imp_right (And.imp_right (hgoes l)) }

theorem of_prunes (hp : Prunes actors r r') (hsilent : ∀ l, Silent l r r') : Sheds goes r r' :=
  .of_kept hp.links hp.nextRef.ge hsilent

/-- One link is cut, if it is between local actors. -/
theorem of_cuts {l : RefId} (hc : Cuts actors l r r') (hgoes : r.links l ≠ none → goes l) :
    Sheds goes r r' where
  links := fun v => by
    rw [hc.links]
    split_ifs with hv
    · subst hv
      by_cases hnone : r.links v = none
      · exact .inl hnone.symm
      · exact .inr ⟨rfl, hgoes hnone⟩
    · exact .inl rfl
  silent := fun _ _ => .of_events hc.events
  remoteLinks := fun _ he => List.mem_of_mem_filter (hc.remoteLinks ▸ he)
  linkRefs := hc.linkRefs
  localLinks := hc.localLinks
  nextRef := hc.nextRef.ge

/-- A link that is there afterwards was there before. -/
theorem there (h : Sheds goes r r') {l : RefId} (hsome : r'.links l ≠ none) :
    r'.links l = r.links l := by
  rcases h.links l with heq | ⟨hnone, -⟩
  · exact heq
  · exact absurd hnone hsome

end Sheds

/-! ## Links of an actor that leaves -/

theorem sheds_unlinks (h : Agree actors r) {refs : List LinkRef}
    (hmade : ∀ ref ∈ refs, r.linkRefs ref.id = some ref)
    (hgoes : ∀ ref ∈ refs, r.links ref.id ≠ none → goes ref.id) :
    Sheds goes r (refs.foldl (fun r ref => r.unlink actors ref) r) := by
  induction refs generalizing r with
  | nil => exact .refl r
  | cons ref refs ih =>
      have hcut := hmade ref List.mem_cons_self
      have hone : Sheds goes r (r.unlink actors ref) :=
        .of_cuts (cuts_unlink h.links hcut) (hgoes ref List.mem_cons_self)
      have hk := h.unlink hcut
      refine hone.trans (ih hk.agree (fun ref' hmem => ?_) fun ref' hmem hsome => ?_)
      · rw [hk.linkRefs]
        exact hmade ref' (List.mem_cons_of_mem _ hmem)
      · exact hgoes ref' (List.mem_cons_of_mem _ hmem) (hone.there hsome ▸ hsome)

/-- A restart cuts links of the actor. -/
theorem sheds_unlinkAll (h : Agree actors r) {id : ActorId} (hid : id ∈ actors) :
    Sheds (fun l => ∃ e, r.links l = some e ∧ Ends e.linkRef id) r (r.unlinkAll actors id) := by
  refine sheds_unlinks h (h.links.contextMade id) fun ref hmem hsome => ?_
  obtain ⟨e, he⟩ := Option.ne_none_iff_exists'.1 hsome
  obtain ⟨hmade, hlocal, -⟩ := h.links.entry _ e he
  have hends := ((h.links.context id hid ref hlocal).1 hmem).2
  rw [h.links.contextMade id ref hmem, Option.some.injEq] at hmade
  exact ⟨e, he, hmade ▸ hends⟩

theorem sheds_inform (h : Agree actors r) (id : ActorId) {message : InfoMessage N}
    (hother : ∀ l, exitFor l (.informed id message) = none) :
    Sheds goes r (r.inform actors callbacks id message).1 :=
  .of_prunes (prunes_inform h.watches id message) fun l => silent_inform r id (hother l)

theorem sheds_tellLinkedOfMigration (h : Agree actors r) (id : ActorId) (move : Move N)
    {l : RefId} (hgoes : goes l) :
    Sheds goes r (r.tellLinkedOfMigration actors callbacks id move l).1 := by
  unfold Relations.tellLinkedOfMigration
  split
  next e he =>
    have hmade := (h.links.entry l e he).1
    have hid := h.links.id_of_links he
    rw [← hid] at hmade hgoes
    let told := if (Relations.otherEnd e id).id ∈ actors then
        r.inform actors callbacks (Relations.otherEnd e id).id
          (.moved none (some e.linkRef) move.actorRef move.oldNodeId move.newNodeId
            move.newActorId)
        else (r, false)
    have htold : Sheds goes r told.1 ∧ Keeps actors r told.1 := by
      dsimp only [told]
      split_ifs
      · exact ⟨sheds_inform h _ fun _ => rfl, h.inform _ _⟩
      · exact ⟨.refl r, .refl h⟩
    have hmade' : told.1.linkRefs e.linkRef.id = some e.linkRef := by
      rw [htold.2.linkRefs]
      exact hmade
    change Sheds goes r (if told.2 then told else (told.1.unlink actors e.linkRef, false)).1
    split_ifs
    · exact htold.1
    · exact htold.1.trans (.of_cuts (cuts_unlink htold.2.agree.links hmade') fun _ => hgoes)
  next hnone =>
    split
    · exact ⟨fun _ => .inl rfl, fun _ _ => .of_events rfl,
        fun _ he => List.mem_of_mem_filter he, rfl, rfl, le_rfl⟩
    · exact .refl r

/-- A link is out of the table once the actor at its other end has been told of the
migration. -/
theorem cut_tellLinkedOfMigration (h : Agree actors r) (id : ActorId) (move : Move N) {l : RefId}
    (hround : (r.tellLinkedOfMigration actors callbacks id move l).2 = false) :
    (r.tellLinkedOfMigration actors callbacks id move l).1.links l = none := by
  have hnone : ∀ e, r.links l = some e → ∀ told : Relations N × Bool, Keeps actors r told.1 →
      (if told.2 then told else (told.1.unlink actors e.linkRef, false)).2 = false →
      (if told.2 then told else (told.1.unlink actors e.linkRef, false)).1.links l = none := by
    intro e he told htold hdone
    have hid := h.links.id_of_links he
    have hmade : told.1.linkRefs e.linkRef.id = some e.linkRef := by
      rw [htold.linkRefs, hid]
      exact (h.links.entry l e he).1
    split_ifs at hdone ⊢ with hthrew
    · exact absurd hthrew (by simp [hdone])
    · rw [(cuts_unlink htold.agree.links hmade).links, if_pos hid.symm]
  unfold Relations.tellLinkedOfMigration at hround ⊢
  cases he : r.links l with
  | some e =>
      rw [he] at hround
      refine hnone e he _ ?_ hround
      split_ifs
      · exact h.inform _ _
      · exact .refl h
  | none =>
      dsimp only
      split
      · exact he
      · exact he

theorem concerns_keeps {id : ActorId} {l : RefId} (hk : Keeps actors r r')
    (hl : r.Concerns id l) : r'.Concerns id l := (LinksGrow.of_keeps hk).concerns hl

section
variable {id : ActorId} {move : Move N} {ls : List RefId}

theorem sheds_forEach (h : Agree actors r) (hconcerns : ∀ l ∈ ls, r.Concerns id l)
    (hgoes : ∀ l ∈ ls, goes l) :
    Sheds goes r (Loop.forEach
      (fun r l => r.tellLinkedOfMigration actors callbacks id move l) r ls).1 := by
  refine (Loop.forEach_invariant (I := fun s => Keeps actors r s ∧ Sheds goes r s)
    (fun s l hmem hs => ?_) ⟨.refl h, .refl r⟩).2
  have hs' : Keeps actors s (s.tellLinkedOfMigration actors callbacks id move l).1 :=
    hs.1.agree.tellLinkedOfMigration id move (concerns_keeps hs.1 (hconcerns l hmem))
  exact ⟨hs.1.trans hs',
    hs.2.trans (sheds_tellLinkedOfMigration hs.1.agree id move (hgoes l hmem))⟩

theorem cut_forEach (h : Agree actors r) (hconcerns : ∀ l ∈ ls, r.Concerns id l)
    (hdone : (Loop.forEach
      (fun r l => r.tellLinkedOfMigration actors callbacks id move l) r ls).2 = false) :
    ∀ l ∈ ls, (Loop.forEach
      (fun r l => r.tellLinkedOfMigration actors callbacks id move l) r ls).1.links l = none := by
  induction ls generalizing r with
  | nil => exact fun _ hl => absurd hl List.not_mem_nil
  | cons l ls ih =>
      rw [Loop.forEach_cons] at hdone ⊢
      have hk : Keeps actors r (r.tellLinkedOfMigration actors callbacks id move l).1 :=
        h.tellLinkedOfMigration id move (hconcerns l List.mem_cons_self)
      have hrest : ∀ l' ∈ ls,
          (r.tellLinkedOfMigration actors callbacks id move l).1.Concerns id l' := fun l' hl' =>
        concerns_keeps hk (hconcerns l' (List.mem_cons_of_mem _ hl'))
      split_ifs at hdone ⊢ with hthrew
      · exact absurd hthrew (by simp [hdone])
      · intro l' hl'
        rcases List.mem_cons.1 hl' with rfl | hl'
        · have hcut := cut_tellLinkedOfMigration h id move (by simpa using hthrew)
          have hlater : Sheds (fun _ => True) _ (Loop.forEach
              (fun r l => r.tellLinkedOfMigration actors callbacks id move l) _ ls).1 :=
            sheds_forEach hk.agree hrest fun _ _ => trivial
          rcases hlater.links l' with heq | ⟨hnone, -⟩
          · exact heq.trans hcut
          · exact hnone
        · exact ih hk.agree hrest hdone l' hl'

end

/-! ## Links to actors on other nodes -/

theorem cuts_remoteLink (h : Agree actors r) {e : RemoteLinkEntry N} (he : e ∈ r.remoteLinks) :
    Cuts actors e.linkRef.id r ((r.forgetRemoteLink e.linkRef.id e.localActorRef.id).dropLink
      actors e.localActorRef.id e.linkRef.id) := by
  obtain ⟨-, hlocal, hactor⟩ := h.links.remote e he
  rw [hactor]
  exact (cuts_forgetRemoteLink h.links he).dropLink hlocal _

theorem exitLinked_kept (callbacks : Callbacks N) (hw : WatchesAgree actors r) (ref : LinkRef)
    (targetRef exitedRef : ActorRef N) (reason : TerminationReason) (message : String) :
    LinksKept r (r.exitLinked actors callbacks ref targetRef exitedRef reason message).relations ∧
      (r.exitLinked actors callbacks ref targetRef exitedRef reason message).relations.nextRef =
        r.nextRef := by
  unfold Relations.exitLinked
  dsimp only
  split_ifs
  · have hp : Prunes actors r (r.inform actors callbacks targetRef.id
        (.exit (some ref) exitedRef reason)).1 := prunes_inform hw _ _
    exact ⟨hp.links, hp.nextRef⟩
  · exact ⟨.refl r, rfl⟩
  · exact ⟨.refl r, rfl⟩
  · exact ⟨.refl r, rfl⟩

theorem sheds_handleRemoteLinkExit (h : Agree actors r) (l : RefId) (exitedActorId : ActorId)
    (reason : TerminationReason) :
    Sheds goes r
      (r.handleRemoteLinkExit actors callbacks l exitedActorId reason).relations := by
  have hsilent : ∀ v, (∀ e ∈ r.remoteLinks, e.linkRef.id ≠ v) → Silent v r
      (r.handleRemoteLinkExit actors callbacks l exitedActorId reason).relations := by
    intro v hv
    by_cases hl : l = v
    · subst hl
      unfold Relations.handleRemoteLinkExit
      split
      · exact .refl r
      next e he => exact absurd (getRemoteLink_some he).2 (hv e (getRemoteLink_some he).1)
    · exact silent_handleRemoteLinkExit r hl exitedActorId reason
  unfold Relations.handleRemoteLinkExit at hsilent ⊢
  cases he : r.getRemoteLink l with
  | none => exact .refl r
  | some e =>
      rw [he] at hsilent
      obtain ⟨hmem, rfl⟩ := getRemoteLink_some he
      have hcut : Sheds goes r ((r.forgetRemoteLink e.linkRef.id e.localActorRef.id).dropLink
          actors e.localActorRef.id e.linkRef.id) :=
        .of_cuts (cuts_remoteLink h hmem) fun hsome => absurd (h.links.links_remote hmem) hsome
      obtain ⟨hkept, hnext⟩ := exitLinked_kept callbacks
        (h.dropRemoteLink hmem).agree.watches ⟨e.linkRef.id, e.localActorRef.id, exitedActorId⟩
        e.localActorRef ⟨e.remoteNodeId, exitedActorId, none, 1⟩ reason
        ("Linked remote actor " ++ toString exitedActorId ++ " terminated: " ++ reason.type)
      exact ⟨fun v => hkept.links ▸ hcut.links v, hsilent,
        fun e' he' => hcut.remoteLinks e' (hkept.remoteLinks ▸ he'),
        hkept.linkRefs.trans hcut.linkRefs, hkept.localLinks.trans hcut.localLinks,
        hcut.nextRef.trans hnext.ge⟩

theorem sheds_handleRemoteLinkMoved (h : Agree actors r) (l : RefId) (move : Move N) :
    Sheds goes r (r.handleRemoteLinkMoved actors callbacks l move).1 := by
  unfold Relations.handleRemoteLinkMoved
  split
  · exact .refl r
  next e he =>
    obtain ⟨hmem, rfl⟩ := getRemoteLink_some he
    have hcut : Sheds goes r ((r.forgetRemoteLink e.linkRef.id e.localActorRef.id).dropLink
        actors e.localActorRef.id e.linkRef.id) :=
      .of_cuts (cuts_remoteLink h hmem) fun hsome => absurd (h.links.links_remote hmem) hsome
    dsimp only
    split_ifs with hactor
    · exact hcut.trans (sheds_inform (h.dropRemoteLink hmem).agree _ fun _ => rfl)
    · rw [show ∀ r' : Relations N, r'.dropLink actors e.localActorRef.id e.linkRef.id = r' from
        fun r' => if_neg hactor] at hcut
      exact hcut

/-! ## The progress of a call -/

section
variable {s : ActorSystem N V}

/-- The links between local actors that a task cuts, telling linked actors apart. -/
def Goes (s : ActorSystem N V) : Task N V → RefId → Prop
  | .tree (.stopSingle r), l => r.id ∈ s.actors ∧ ∃ e, s.links l = some e ∧ Ends e.linkRef r.id
  | .migrate id _, l => l ∈ s.linkedWith.get id
  | _, _ => False

theorem sheds_announce (s : ActorSystem N V) (hw : WatchesAgree s.actors s.toRelations)
    (r : ActorRef N) (reason : TerminationReason) (next : Task N V) :
    Sheds goes s.toRelations (s.announce callbacks r reason next).system.toRelations := by
  have hround : Sheds goes s.toRelations
      (s.toRelations.notifyWatchers s.actors callbacks r reason).1 :=
    .of_prunes (prunes_notifyWatchers hw r reason) fun _ => silent_notifyWatchers _ r reason
  unfold ActorSystem.announce
  dsimp only
  split_ifs <;> exact hround

theorem sheds_adopt (s : ActorSystem N V) (tables : Tables N V) :
    Sheds goes s.toRelations (s.adopt tables).toRelations := by
  unfold ActorSystem.adopt
  split_ifs
  · exact ⟨fun _ => .inl rfl, fun _ _ => .of_events rfl, fun _ he => he, rfl, rfl, le_rfl⟩
  · exact .refl _

theorem sheds_migrated (h : Agree s.actors s.toRelations) (id : ActorId) (move : Move N) :
    Sheds (· ∈ s.linkedWith.get id) s.toRelations
      (s.migrated callbacks id move).system.toRelations := by
  have hp : Prunes s.actors s.toRelations
      (s.toRelations.notifyWatchersOfMigration s.actors callbacks id move).1 :=
    prunes_notifyWatchersOfMigration h.watches id move
  have hk := h.prunes hp
  have hwatchers : Sheds (· ∈ s.linkedWith.get id) s.toRelations
      (s.toRelations.notifyWatchersOfMigration s.actors callbacks id move).1 :=
    .of_prunes hp fun _ => silent_notifyWatchersOfMigration _ id move
  have hlinked : Sheds (· ∈ s.linkedWith.get id) _
      (((s.toRelations.notifyWatchersOfMigration s.actors callbacks id
        move).1).notifyLinkedActorsOfMigration s.actors callbacks id move).1 :=
    sheds_forEach hk.agree (fun l hl => hk.agree.concerns hl) fun l hl =>
      hp.links.linkedWith ▸ hl
  unfold ActorSystem.migrated
  dsimp only
  split_ifs
  · exact hwatchers
  · exact hwatchers.trans hlinked
  · exact hwatchers.trans hlinked

/-- An actor that has moved has no link left. -/
theorem migrated_free (h : Agree s.actors s.toRelations) {id : ActorId} {move : Move N}
    (hid : id ∈ s.actors) (hgone : id ∉ (s.migrated callbacks id move).system.actors) :
    ∀ l e, (s.migrated callbacks id move).system.links l = some e → ¬ Ends e.linkRef id := by
  intro l e he hends
  have hsheds : Sheds (· ∈ s.linkedWith.get id) s.toRelations
      (s.migrated callbacks id move).system.toRelations := sheds_migrated h id move
  have hold : s.links l = some e := (hsheds.there (by rw [he]; nofun)).symm.trans he
  have hindexed : l ∈ s.linkedWith.get id := (h.links.index l id).2 (.inl ⟨e, hold, hends⟩)
  have hp : Prunes s.actors s.toRelations
      (s.toRelations.notifyWatchersOfMigration s.actors callbacks id move).1 :=
    prunes_notifyWatchersOfMigration h.watches id move
  have hk := h.prunes hp
  unfold ActorSystem.migrated at he hgone
  dsimp only at he hgone
  split_ifs at he hgone with hwatchers hlinked
  · exact hgone hid
  · exact hgone hid
  · have hdone : ((s.toRelations.notifyWatchersOfMigration s.actors callbacks id
        move).1.notifyLinkedActorsOfMigration s.actors callbacks id move).2 = false := by
      simpa using hlinked
    have hcut := cut_forEach hk.agree (fun l hl => hk.agree.concerns hl) hdone l
      (hp.links.linkedWith ▸ hindexed)
    exact absurd (he.symm.trans hcut) nofun

variable [DecidableEq N]

theorem sheds_does {response : Response} {task : Task N V} {p : Progress N V}
    (hs : SoundSystem s) (hdoes : Does callbacks s response task p)
    (hother : ∀ r reason rest, task ≠ .linked r reason rest) :
    Sheds (Goes s task) s.toRelations p.system.toRelations := by
  have h := hs.bonds.agree
  cases hdoes with
  | @leaves _ r _ =>
      have hp := prunes_unwatchAll h.watches r.id
      have hown : Sheds (Goes s task) s.toRelations (s.toRelations.unwatchAll s.actors r.id) :=
        .of_prunes hp fun _ => silent_unwatchAll _ r.id
      have hw : WatchesAgree (s.toTables.detach r).actors
          (s.toRelations.unwatchAll s.actors r.id) := by
        rw [TreeSteps.detach_actors]
        exact hp.agree
      exact hown.trans (sheds_announce { s with
        toTables := s.toTables.detach r
        toRelations := s.toRelations.unwatchAll s.actors r.id } hw r .normal (.finish r))
  | @leavesSingle r hr =>
      have hp := prunes_unwatchAll h.watches r.id
      have hown : Sheds (Goes s (.tree (.stopSingle r))) s.toRelations
          (s.toRelations.unwatchAll s.actors r.id) :=
        .of_prunes hp fun _ => silent_unwatchAll _ r.id
      refine hown.trans ((sheds_unlinkAll (h.prunes hp).agree hr).mono ?_)
      rintro l ⟨e, he, hends⟩
      exact ⟨hr, e, hp.links.links ▸ he, hends⟩
  | frame _ => exact sheds_adopt s _
  | @crashed r _ _ hcrash =>
      cases hcrash with
      | announced supervisor childSupervisor reason exhausted =>
          exact sheds_announce
            { s with supervisor := supervisor, childSupervisor := childSupervisor } h.watches r
            reason (.stopFor r exhausted)
      | started _ _ _ => exact .refl _
  | told => exact absurd rfl (hother _ _ _)
  | @migrated id move => exact sheds_migrated h id move
  | _ => exact .refl _

/-! ## Other steps -/

omit [DecidableEq N] in
theorem sheds_invoke {s' : ActorSystem N V} (tasks : List (Task N V))
    (hsheds : Sheds goes s.toRelations s'.toRelations) :
    Sheds goes s.toRelations (s'.invoke tasks).toRelations := hsheds

omit [DecidableEq N] in
theorem sheds_sendExit (h : Agree s.actors s.toRelations) (senderRef targetRef : ActorRef N)
    (reason : String) :
    Sheds goes s.toRelations (s.sendExit callbacks senderRef targetRef reason).toRelations := by
  unfold ActorSystem.sendExit
  split_ifs
  · exact .refl _
  · exact .refl _
  · exact sheds_inform h _ fun _ => rfl
  · exact .refl _

theorem sheds_watch (hs : SoundSystem s) (watcherRef watchedRef : ActorRef N) :
    Sheds goes s.toRelations
      (s.toRelations.watch s.actors callbacks s.id watcherRef watchedRef).1 := by
  refine .of_kept ?_ ?_ fun l => silent_watch _ s.id watcherRef watchedRef
  · unfold Relations.watch Relations.watchLocal
    dsimp only
    split_ifs
    · exact setupRemoteWatch_kept _ _ _
    · exact establishWatch_kept _ _ _
    · have hw := agree_establishWatch hs.bonds.agree.watches watcherRef watchedRef
      exact (establishWatch_kept _ _ _).trans (prunes_sendDownMessage hw _ _ _).links
  · exact (lt_nextRef_watch hs.bonds.agree.watches s.id watcherRef watchedRef).le

theorem sheds_handleRemoteChildCrash (s : ActorSystem N V) (x : ActorId) (now : Nat) :
    Sheds goes s.toRelations (s.handleRemoteChildCrash stringify x now).toRelations := by
  unfold ActorSystem.handleRemoteChildCrash
  split
  · exact .refl _
  · dsimp only
    split_ifs
    · exact sheds_invoke _ (.refl _)
    · exact .refl _
    · exact .refl _

/-- What is neither the progress of a call nor `link` cuts only the link of `unlink`. -/
theorem sheds_step {s' : ActorSystem N V} (hs : SoundSystem s) {a : SystemAction N V}
    (hst : s.step callbacks stringify a = some s')
    (hresumes : ∀ index response now, a ≠ .resumes index response now)
    (hrejects : ∀ index, a ≠ .rejects index) (hlink : ∀ x y, a ≠ .link x y) :
    Sheds (fun l => a = .unlink l) s.toRelations s'.toRelations := by
  have h := hs.bonds.agree
  cases a with
  | spawn | spawnChild =>
      simp only [ActorSystem.step] at hst
      split_ifs at hst <;> cases hst
      · exact .refl _
      · exact sheds_adopt s _
  | spawnChildRemote | mailbox | stop | childStop | restart | crash | migrate | shutdown =>
      simp only [ActorSystem.step] at hst
      split_ifs at hst <;> cases hst <;> exact .refl _
  | acceptChild actorClass options => cases hst; exact sheds_adopt s _
  | setTrapExit id trap =>
      cases hst
      exact ⟨fun _ => .inl rfl, fun _ _ => .of_events rfl, fun _ he => he, rfl, rfl, le_rfl⟩
  | watch watcherRef watchedRef =>
      simp only [ActorSystem.step] at hst
      split_ifs at hst
      cases hst
      exact sheds_watch hs watcherRef watchedRef
  | unwatch w =>
      cases hst
      exact .of_prunes (prunes_cancel h.watches w) fun _ => silent_cancel _ w
  | link actor1Ref actor2Ref => exact absurd rfl (hlink _ _)
  | unlink l =>
      obtain ⟨ref, href, rfl⟩ := Option.map_eq_some_iff.1 hst
      have hid := (h.links.made l ref href).1
      have hmade : s.linkRefs ref.id = some ref := hid.symm ▸ href
      exact .of_cuts (cuts_unlink h.links hmade) fun _ => hid ▸ rfl
  | restartRemoteChild x =>
      obtain ⟨e, -, rfl⟩ := Option.map_eq_some_iff.1 hst
      exact .refl _
  | remoteCrash x now => cases hst; exact sheds_handleRemoteChildCrash s x now
  | sendExit senderRef targetRef reason => cases hst; exact sheds_sendExit h _ _ _
  | watchDown w id reason =>
      cases hst
      exact .of_prunes (prunes_handleRemoteDown h.watches w id reason) fun _ =>
        silent_handleRemoteDown _ w id reason
  | watchMoved w move =>
      cases hst
      exact .of_prunes (prunes_handleRemoteWatcherMoved h.watches w move) fun _ =>
        silent_handleRemoteWatcherMoved _ w move
  | failWatches node =>
      cases hst
      exact .of_prunes (prunes_handleNodeFailureForWatches h.watches node) fun _ =>
        silent_handleNodeFailureForWatches _ node
  | linkExit l id reason => cases hst; exact sheds_handleRemoteLinkExit h l id reason
  | linkMoved l move => cases hst; exact sheds_handleRemoteLinkMoved h l move
  | resumes index response now => exact absurd rfl (hresumes _ _ _)
  | rejects index => exact absurd rfl (hrejects _)
  | _ =>
      cases hst
      exact .refl _

end

end Libeam.Proofs.LinkSteps
