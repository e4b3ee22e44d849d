import Libeam.Migration.Source
import Libeam.Proofs.Paused
/-!
# A failed migration restores the source

From the moment `migrate` has paused the mailbox, the messages of the actor are
those that were kept, then what was accepted meanwhile.  Until the drain they
are in the mailbox, after it the drained part is in the hands of `migrate`; the
failure exits put that part back in front.
-/

namespace Libeam.Proofs.MigrationFailure

open Libeam.System Libeam.System.Node Migration Lib.Transition Registry MailboxQueue MailboxSound
open Delivery History Paused Settlements Migration.MigrateSteps

variable {N V : Type}

/-- What may happen on the node meanwhile: no stop, pause, resume, inject or
unstash operation on the actor. -/
def Leaves (id : ActorId) : SourceAction V → Prop
  | .node (.unstash id') | .node (.unstashAll id') => id' ≠ id
  | .node a => Undisturbed id a
  | _ => True

/-- A call message that somebody waits for. -/
def isWaiting (s : Node V) (msg : StashedMessage V) : Bool :=
  msg.type = .call ∧ msg.uid ∈ s.awaited

/-- The messages kept and the messages accepted since are in the hands of
`migrate` or in the mailbox, in this order. -/
structure Keeping (kept : List (StashedMessage V)) (before : List (StashedMessage V))
    (src : Source N V) : Prop where
  split : ∃ drained q since, drainedBy src.pc = List.map some drained ∧
    Held src.host.system src.id q (src.host.system.object src.id).stash ∧
    acceptedOf src.host.system src.id = before ++ since ∧ drained ++ q = kept ++ since

/-- The actor is back, with everything in its mailbox. -/
structure Restored (kept : List (StashedMessage V)) (before : List (StashedMessage V))
    (src : Source N V) : Prop where
  actor : src.id ∈ src.host.system.actors
  mailbox : src.id ∈ src.host.system.mailboxes
  resumed : src.id ∉ src.host.system.pausedMailboxes
  messages : ∃ since, acceptedOf src.host.system src.id = before ++ since ∧
    (src.host.system.mailbox src.id).toArray = (kept ++ since).map some

/-! ## Beginning -/

theorem eq_map_of_defined {α : Type} {cells : List (Option α)} {msgs : List α}
    (h : defined cells = some msgs) : cells = msgs.map some := by
  induction cells generalizing msgs with
  | nil =>
      cases h
      rfl
  | cons cell cells ih =>
      cases cell with
      | none => cases h
      | some msg =>
          obtain ⟨rest, hrest, rfl⟩ := Option.map_eq_some_iff.1 h
          rw [ih hrest]
          rfl

/-! ## The steps of `migrate` -/

theorem held_drain {s : Node V} {id : ActorId} {q stash : List (StashedMessage V)}
    (h : Held s id q stash) :
    (drain s id).2 = q.map some ∧ Held (drain s id).1 id [] stash :=
  ⟨h.shows.toArray, h.setMailbox h.unbounded h.shows.clear.shows⟩

section
variable {src src' : Source N V} {kept before : List (StashedMessage V)}

/-- What every state of the call satisfies. -/
structure Progress (kept before : List (StashedMessage V)) (src : Source N V) : Prop where
  undecided : Undecided src.pc → Keeping kept before src
  failed : ∀ result, src.pc = .returned result → result.success = false →
    Restored kept before src

/-- The state after the step, as far as the theorem needs it. -/
structure Goes (kept before : List (StashedMessage V)) (src src' : Source N V) : Prop where
  progress : Progress kept before src'
  id_eq : src'.id = src.id
  settles : Settles src.host.system src'.host.system

theorem Keeping.progress (h : Keeping kept before src) (hpc : Undecided src.pc) :
    Progress kept before src := by
  refine ⟨fun _ => h, fun result heq => ?_⟩
  rw [heq] at hpc
  exact hpc.elim

theorem Restored.progress (h : Restored kept before src) {result : MigrationResult N}
    (hpc : src.pc = .returned result) : Progress kept before src := by
  refine ⟨fun hundecided => ?_, fun _ _ _ => h⟩
  rw [hpc] at hundecided
  exact hundecided.elim

theorem Keeping.node (h : Keeping kept before src) {a : Action V} {t : Node V}
    (ha : Leaves src.id (.node a)) (hst : src.host.system.step a = some t) :
    Keeping kept before (src.setSystem t) := by
  obtain ⟨drained, q, since, hdrained, hheld, haccepted, hsplit⟩ := h.split
  have hundisturbed : Undisturbed src.id a := by
    cases a <;> first | exact ha | trivial
  have hown : ∀ {q stash}, Held t src.id q stash →
      Held t src.id q (t.object src.id).stash := fun hheld => hheld.stash_eq ▸ hheld
  cases change_step hheld hundisturbed hst with
  | idle _ held accepted =>
      exact ⟨drained, q, since, hdrained, hown held, accepted.trans haccepted, hsplit⟩
  | accepts _ msg held accepted =>
      refine ⟨drained, q ++ [msg], since ++ [msg], hdrained, hown held, ?_, ?_⟩
      · refine accepted.trans ?_
        rw [haccepted, List.append_assoc]
      · rw [← List.append_assoc, hsplit, List.append_assoc]
  | stashes msg current held accepted =>
      exact ⟨drained, q, since, hdrained, hown held, accepted.trans haccepted, hsplit⟩
  | unstashes | unstashesAll => exact absurd rfl ha
  | clears held accepted =>
      exact ⟨drained, q, since, hdrained, hown held, accepted.trans haccepted, hsplit⟩

/-- An exit that drained nothing. -/
theorem Keeping.giveUp (h : Keeping kept before src) (hpc : drainedBy src.pc = [])
    (error : String) : Goes kept before src (src.giveUp error) := by
  obtain ⟨drained, q, since, hdrained, hheld, haccepted, hsplit⟩ := h.split
  have hnil : drained = [] := by
    rw [hpc] at hdrained
    exact List.map_eq_nil_iff.1 hdrained.symm
  rw [hnil, List.nil_append] at hsplit
  obtain ⟨hactor, hmailbox, hresumed, hmessages, hsame, hsettles⟩ := hheld.resumeMailbox
  refine ⟨Restored.progress ⟨hactor, hmailbox, hresumed, since, hsame.trans haccepted, ?_⟩
    rfl, rfl, hsettles⟩
  rw [← hsplit]
  exact hmessages

/-- An exit that puts the drained messages back. -/
theorem Keeping.restore (h : Keeping kept before src)
    {pendingMessages : List (Option (StashedMessage V))}
    (hpc : drainedBy src.pc = pendingMessages) (error : String) :
    Goes kept before src (src.restore pendingMessages error) := by
  obtain ⟨drained, q, since, hdrained, hheld, haccepted, hsplit⟩ := h.split
  rw [hpc] at hdrained
  subst hdrained
  obtain ⟨hinjected, hsame, hsettles⟩ := hheld.injectMessages drained
  obtain ⟨hactor, hmailbox, hresumed, hmessages, hsame', hsettles'⟩ := hinjected.resumeMailbox
  refine ⟨Restored.progress ⟨hactor, hmailbox, hresumed, since,
    (hsame'.trans hsame).trans haccepted, ?_⟩ rfl, rfl, hsettles.trans hsettles'⟩
  rw [← hsplit]
  exact hmessages

theorem Keeping.drainLoop (h : Keeping kept before src) (hpc : drainedBy src.pc = [])
    (reservationId : Registry.ReservationId) (timedOut : Bool) :
    Goes kept before src (src.drainLoop reservationId timedOut) := by
  obtain ⟨drained, q, since, hdrained, hheld, haccepted, hsplit⟩ := h.split
  rw [hpc] at hdrained
  unfold Source.drainLoop
  split_ifs
  · exact ⟨Keeping.progress ⟨drained, q, since, hdrained, hheld, haccepted, hsplit⟩ trivial,
      rfl, .refl _⟩
  · have hnil : drained = [] := List.map_eq_nil_iff.1 hdrained.symm
    rw [hnil, List.nil_append] at hsplit
    obtain ⟨hcells, hempty⟩ := held_drain hheld
    refine ⟨Keeping.progress ⟨q, [], since, hcells, ?_, haccepted, ?_⟩ trivial, rfl,
      .refl _⟩
    · exact hempty.stash_eq ▸ hempty
    · rw [List.append_nil, hsplit]

theorem Keeping.drainMailbox (h : Keeping kept before src) (hpc : drainedBy src.pc = [])
    (reservationId : Registry.ReservationId) (timedOut : Bool) :
    Goes kept before src (src.drainMailbox reservationId timedOut) := by
  obtain ⟨drained, q, since, hdrained, hheld, haccepted, hsplit⟩ := h.split
  obtain ⟨hpaused, hsame, hsettles⟩ := hheld.pauseMailbox
  have hkeeping : Keeping kept before
      (src.setSystem (src.host.system.pauseMailbox src.id)) :=
    ⟨drained, q, since, hdrained, hpaused.stash_eq ▸ hpaused, hsame.trans haccepted, hsplit⟩
  unfold Source.drainMailbox
  rw [if_neg (by simp [hheld.actor, hheld.mailbox])]
  have hgoes := hkeeping.drainLoop hpc reservationId timedOut
  exact ⟨hgoes.progress, hgoes.id_eq, hsettles.trans hgoes.settles⟩

theorem Keeping.execute (h : Keeping kept before src)
    {pendingMessages : List (Option (StashedMessage V))}
    (hpc : drainedBy src.pc = pendingMessages) (reservationId : Registry.ReservationId)
    (state : V) : Goes kept before src (src.execute reservationId pendingMessages state) := by
  obtain ⟨drained, q, since, hdrained, hheld, haccepted, hsplit⟩ := h.split
  rw [hpc] at hdrained
  unfold Source.execute
  split
  · exact ⟨Keeping.progress ⟨drained, q, since, hdrained, hheld, haccepted, hsplit⟩ trivial,
      rfl, .refl _⟩
  · exact ⟨Keeping.progress ⟨drained, q, since, hdrained, hheld, haccepted, hsplit⟩ trivial,
      rfl, .refl _⟩

theorem goes_step [LinearOrder N] (h : Progress kept before src) {a : SourceAction V}
    (ha : Leaves src.id a) (hst : src.step a = some src') : Goes kept before src src' := by
  have hdrained : ∀ {pc : MigratePc N V}, src.pc = pc → Undecided pc →
      Keeping kept before src := fun hpc hundecided => h.undecided (hpc ▸ hundecided)
  cases source_steps hst with
  | node b t running step eq =>
      subst eq
      refine ⟨⟨fun hundecided => (h.undecided hundecided).node ha step, ?_⟩, rfl,
        settles_step step⟩
      exact fun result hpc => absurd hpc (running result)
  | drains _ reservationId timedOut pc eq =>
      rw [eq]
      exact (hdrained pc trivial).drainMailbox (by rw [pc]; rfl) reservationId timedOut
  | givesUp _ error pc eq =>
      rw [eq]
      exact (hdrained pc trivial).giveUp (by rw [pc]; rfl) error
  | polls _ reservationId timedOut pc eq =>
      rw [eq]
      exact (hdrained pc trivial).drainLoop (by rw [pc]; rfl) reservationId timedOut
  | executes _ reservationId pendingMessages state pc eq =>
      rw [eq]
      exact (hdrained pc trivial).execute (by rw [pc]; rfl) reservationId state
  | rollsBack _ error undecided eq =>
      rw [eq]
      obtain ⟨drained, q, since, hcells, hheld, haccepted, hsplit⟩ :=
        (h.undecided undecided).split
      exact ⟨Keeping.progress ⟨drained, q, since, hcells, hheld, haccepted, hsplit⟩ trivial,
        rfl, .refl _⟩
  | restores _ error undecided eq =>
      rw [eq]
      exact (h.undecided undecided).restore rfl error
  | unregisters response pendingMessages request pc success eq =>
      rw [eq]
      exact ⟨⟨False.elim, fun _ hpc => nomatch hpc⟩, rfl, .refl _⟩
  | finishes newActorId pc eq =>
      rw [eq]
      refine ⟨⟨False.elim, fun result hpc hfailed => ?_⟩, rfl, .refl _⟩
      cases hpc
      cases hfailed

end

/-! ## The whole call -/

theorem begin_keeping {h : Host N V} {id : ActorId} {actorName targetNodeId : String}
    {s : Node V} (hfresh : Fresh h.system) (hactor : id ∈ h.system.actors)
    (hunbounded : (h.system.mailbox id).maxSize = none)
    (hreject : rejectPendingCalls (h.system.pauseMailbox id) id actorName targetNodeId =
      some s) :
    ∃ pending : List (StashedMessage V),
      (h.system.mailbox id).toArray = pending.map some ∧
      Held s id (pending.filter fun msg => ¬ isWaiting h.system msg) (s.object id).stash ∧
      acceptedOf s id = acceptedOf h.system id ∧
      ∀ msg ∈ pending, isWaiting h.system msg →
        (msg.uid, .rejected (.migrationInProgress actorName targetNodeId)) ∈ s.settled := by
  have hmailbox : id ∈ h.system.mailboxes := by rwa [hfresh.mailboxes]
  unfold Node.pauseMailbox rejectPendingCalls at hreject
  rw [if_pos hactor] at hreject
  rw [if_neg (not_not.2 hmailbox)] at hreject
  obtain ⟨pending, hpending, rfl⟩ := Option.map_eq_some_iff.1 hreject
  refine ⟨pending, eq_map_of_defined hpending, ?_, rfl, ?_⟩
  · refine ⟨hactor, hmailbox, Finset.mem_insert_self _ _, hfresh.actors id hactor, ?_, ?_, rfl⟩
    · rw [mailbox_setMailbox_self]
      exact hunbounded
    · rw [mailbox_setMailbox_self]
      have hfilter : (pending.filter fun msg => ¬ isWaiting h.system msg) =
          pending.filter fun msg => ¬ (msg.type = .call ∧ msg.uid ∈ h.system.awaited) := by
        simp [isWaiting]
      rw [hfilter]
      exact shows_replaceWith _ _
  · intro msg hmsg hwaiting
    apply List.mem_append_right
    exact List.mem_map.2 ⟨msg, List.mem_filter.2 ⟨hmsg, hwaiting⟩, rfl⟩

theorem mem_actors_of_proceeds [LinearOrder N] {h : Host N V} {actorName : String}
    {targetNodeId : N} {id : ActorId} {metadata : ActorMetadata V}
    (hcheck : h.checkMigrate actorName targetNodeId = .proceeds id metadata) :
    id ∈ h.system.actors := by
  unfold Host.checkMigrate at hcheck
  split_ifs at hcheck
  split at hcheck
  · cases hcheck
  next location hlookup =>
    split_ifs at hcheck with hnode hactor hmigratable hchildren
    split at hcheck
    · cases hcheck
    · cases hcheck
      exact hactor

theorem goes_run [LinearOrder N] {src src' : Source N V}
    {kept before : List (StashedMessage V)} {as : List (SourceAction V)}
    (hprogress : Progress kept before src) (hleaves : ∀ a ∈ as, Leaves src.id a)
    (hrun : run Source.step src as = some src') : Goes kept before src src' := by
  refine run_invariant (I := Goes kept before src) (G := fun _ a => Leaves src.id a) ?_
    ⟨hprogress, rfl, .refl _⟩ (along_of_forall_mem hleaves src) hrun
  intro src₁ a src₂ h ha hst
  have hstep := goes_step h.progress (h.id_eq.symm ▸ ha) hst
  exact ⟨hstep.progress, hstep.id_eq.trans h.id_eq, h.settles.trans hstep.settles⟩

/-- A call of `migrate` that fails after it has paused the mailbox leaves the
actor in the tables, resumed, with the messages that were pending and those
that arrived meanwhile in its mailbox; the calls it took out are rejected. -/
theorem failed_migration_restores [LinearOrder N] [ToString N] {h : Host N V}
    {actorName : String} {targetNodeId : N} {id : ActorId} {metadata : ActorMetadata V}
    {src src' : Source N V} {as : List (SourceAction V)} {result : MigrationResult N}
    (hfresh : Fresh h.system)
    (hcheck : h.checkMigrate actorName targetNodeId = .proceeds id metadata)
    (hunbounded : (h.system.mailbox id).maxSize = none)
    (hbegin : Source.begin h actorName targetNodeId id metadata = some src)
    (hleaves : ∀ a ∈ as, Leaves id a) (hrun : run Source.step src as = some src')
    (hreturned : src'.pc = .returned result) (hfailed : result.success = false) :
    ∃ pending since : List (StashedMessage V),
      (h.system.mailbox id).toArray = pending.map some ∧
      acceptedOf src'.host.system id = acceptedOf h.system id ++ since ∧
      id ∈ src'.host.system.actors ∧ id ∈ src'.host.system.mailboxes ∧
      id ∉ src'.host.system.pausedMailboxes ∧
      (src'.host.system.mailbox id).toArray =
        ((pending.filter fun msg => ¬ isWaiting h.system msg) ++ since).map some ∧
      ∀ msg ∈ pending, isWaiting h.system msg →
        (msg.uid, .rejected (.migrationInProgress actorName (toString targetNodeId))) ∈
          src'.host.system.settled := by
  obtain ⟨s, hreject, rfl⟩ := Option.map_eq_some_iff.1 hbegin
  obtain ⟨pending, hpending, hheld, haccepted, hrejected⟩ :=
    begin_keeping hfresh (mem_actors_of_proceeds hcheck) hunbounded hreject
  have hkeeping : Keeping (pending.filter fun msg => ¬ isWaiting h.system msg)
      (acceptedOf h.system id)
      { host := { h with system := s }, actorName, targetNodeId, id, metadata,
        pc := .preparing } :=
    ⟨[], _, [], rfl, hheld, by rw [List.append_nil]; exact haccepted,
      by rw [List.append_nil, List.nil_append]⟩
  obtain ⟨hprogress, hid, hsettles⟩ := goes_run (hkeeping.progress trivial) hleaves hrun
  obtain ⟨hactor, hmailbox, hresumed, since, hsince, hmessages⟩ :=
    hprogress.failed result hreturned hfailed
  rw [hid] at hactor hmailbox hresumed hsince hmessages
  exact ⟨pending, since, hpending, hsince, hactor, hmailbox, hresumed, hmessages,
    fun msg hmsg hwaiting => hsettles.subset (hrejected msg hmsg hwaiting)⟩

/-- An actor with a cast and a call in its mailbox, on node 0. -/
def queuedNode : Node Nat :=
  ((init.spawn {} false).dispatchCast 0 1).dispatchCall 0 2

def queuedHost : Host Nat Nat :=
  { (Host.new 0 {"Counter"} : Host Nat Nat) with
    system := queuedNode
    actorMetadata := fun _ => some ⟨"Counter", some "counter", []⟩
    registry := { DistributedRegistry.new 0 with
      gossip := ((RegistrySync.new 0).register "counter" 0 0 100).1 } }

def queuedSource : Source Nat Nat :=
  (Source.begin queuedHost "counter" 1 0 ⟨"Counter", some "counter", []⟩).get rfl

/-- The execute request times out, after another cast arrived. -/
def timedOutRun : List (SourceAction Nat) :=
  [.prepareReply { ready := true, reservationId := some 0 } false, .stateReady 7,
    .node (.dispatchCast 0 3), .executeFails "timeout", .rollbackEnds]

theorem failed_migration_restores_timeout :
    ∃ src', run Source.step queuedSource timedOutRun = some src' ∧
      0 ∈ src'.host.system.actors ∧ 0 ∉ src'.host.system.pausedMailboxes := by
  have hrun : run Node.step init [.spawn {} false, .dispatchCast 0 1, .dispatchCall 0 2] =
      some queuedNode := rfl
  have hfresh : Fresh queuedHost.system :=
    run_invariant' (fun _ _ _ h hst => fresh_step h hst) fresh_init hrun
  have hcheck : queuedHost.checkMigrate "counter" 1 =
      .proceeds 0 ⟨"Counter", some "counter", []⟩ := rfl
  have hbegin : Source.begin queuedHost "counter" 1 0 ⟨"Counter", some "counter", []⟩ =
      some queuedSource := rfl
  have hleaves : ∀ a ∈ timedOutRun, Leaves 0 a := by simp [timedOutRun, Leaves, Undisturbed]
  refine ⟨_, rfl, ?_⟩
  obtain ⟨_, _, -, -, hactor, -, hresumed, -⟩ :=
    failed_migration_restores hfresh hcheck rfl hbegin hleaves rfl rfl rfl
  exact ⟨hactor, hresumed⟩

end Libeam.Proofs.MigrationFailure
