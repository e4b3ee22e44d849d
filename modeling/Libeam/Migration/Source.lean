import Libeam.Migration.Host
/-!
# `migrate`, on the node that gives the actor away

`migrate` is an asynchronous function.  Between its awaits anything may happen
on the node; the answers of the target are whatever arrives.  `Source` is the
node together with the locals of one call that has paused the mailbox.
-/

namespace Libeam.Migration

open Libeam.System Registry

/-- A message as it travels: without callbacks. -/
structure TransferredMessage (V : Type) where
  type : MessageType
  message : V
  deriving DecidableEq, Repr

structure MigrateExecuteRequest (N V : Type) where
  reservationId : ReservationId
  actorName : String
  actorClassName : String
  sourceNodeId : N
  state : V
  initArgs : List V
  pendingMessages : List (TransferredMessage V)
  deriving DecidableEq, Repr

structure MigrateExecuteResponse where
  success : Bool
  newActorId : Option ActorId := none
  error : Option String := none
  deriving DecidableEq, Repr

structure MigrationResult (N : Type) where
  success : Bool
  newActorId : Option ActorId := none
  newNodeId : Option N := none
  error : Option String := none
  deriving DecidableEq, Repr

/-- How `migrate` ends before it pauses anything. -/
inductive MigrateEntry (N V : Type) where
  | proceeds (actorId : ActorId) (metadata : ActorMetadata V)
  | fails (result : MigrationResult N)
  | notMigratable (actorId : ActorId)
  | hasChildren (actorId : ActorId) (childCount : Nat)

/-- The checks of `migrate`. -/
def Host.checkMigrate {N V : Type} [LinearOrder N] (h : Host N V) (actorName : String)
    (targetNodeId : N) : MigrateEntry N V :=
  if h.isShuttingDown then
    .fails { success := false, error := some "System is shutting down" }
  else if targetNodeId = h.id then
    .fails { success := false, error := some "Cannot migrate to same node" }
  else
    match h.registry.lookup actorName with
    | none => .fails { success := false, error := some ("Actor not found: " ++ actorName) }
    | some location =>
        if location.nodeId ≠ h.id then
          .fails { success := false
                   error := some ("Actor " ++ actorName ++ " is not on this node") }
        else if location.actorId ∉ h.system.actors then
          .fails { success := false, error := some "Actor instance not found" }
        else if h.migratable location.actorId = false then
          .notMigratable location.actorId
        else if 0 < h.childCount location.actorId then
          .hasChildren location.actorId (h.childCount location.actorId)
        else
          match h.actorMetadata location.actorId with
          | none => .fails { success := false, error := some "Actor metadata not found" }
          | some metadata => .proceeds location.actorId metadata

/-- The `await` a call of `migrate` is at. -/
inductive MigratePc (N V : Type) where
  | preparing
  /-- In the waiting loop of `drainMailbox`. -/
  | draining (reservationId : ReservationId)
  | gettingState (reservationId : ReservationId)
      (pendingMessages : List (Option (StashedMessage V)))
  | executing (pendingMessages : List (Option (StashedMessage V)))
      (request : MigrateExecuteRequest N V)
  | rollingBack (pendingMessages : List (Option (StashedMessage V))) (error : String)
  /-- The target has the actor; the name is being unregistered here. -/
  | unregistering (newActorId : Option ActorId)
  | returned (result : MigrationResult N)
  deriving DecidableEq

structure Source (N V : Type) where
  host : Host N V
  actorName : String
  targetNodeId : N
  id : ActorId
  metadata : ActorMetadata V
  pc : MigratePc N V

inductive SourceAction (V : Type) where
  /-- Anything else that happens on the node. -/
  | node (a : Action V)
  /-- An answer that is ready carries its reservation. -/
  | prepareReply (response : MigratePrepareResponse) (timedOut : Bool)
  | prepareFails (error : String)
  | drainPolls (timedOut : Bool)
  | stateReady (state : V)
  | stateFails (error : String)
  | executeReply (response : MigrateExecuteResponse)
  | executeFails (error : String)
  | rollbackEnds
  | unregistered
  deriving DecidableEq

/-- `error || fallback`: the empty string counts as no error. -/
def orElse (error : Option String) (fallback : String) : String :=
  if error.getD "" = "" then fallback else error.getD ""

/-- The messages in the cells, unless one is `undefined`. -/
def defined {α : Type} : List (Option α) → Option (List α)
  | [] => some []
  | cell :: cells => cell.bind fun msg => (defined cells).map (msg :: ·)

/-! ## The mailbox during a migration -/

/-- `_rejectPendingCallsForMigration` rejects the calls somebody waits for.  On
a hole in the mailbox it throws. -/
def rejectPendingCalls {V : Type} (s : Node V) (id : ActorId)
    (actorName targetNodeId : String) : Option (Node V) :=
  if id ∉ s.mailboxes then some s
  else
    (defined (s.mailbox id).toArray).map fun msgs =>
      let waiting := fun msg : StashedMessage V => msg.type = .call ∧ msg.uid ∈ s.awaited
      let rejected := (msgs.filter waiting).map fun msg =>
        (msg.uid, Settlement.rejected (Failure.migrationInProgress actorName targetNodeId))
      let remaining := msgs.filter fun msg => ¬ waiting msg
      { s with settled := s.settled ++ rejected
        }.setMailbox id ((s.mailbox id).replaceWith (remaining.map some))

/-- The end of `drainMailbox`. -/
def drain {V : Type} (s : Node V) (id : ActorId) :
    Node V × List (Option (StashedMessage V)) :=
  let result := (s.mailbox id).drain
  (s.setMailbox id result.1, result.2)

/-- `_cleanupActorForMigration`, the part on the tables of messages. -/
def cleanupActor {V : Type} (s : Node V) (id : ActorId) : Node V :=
  { s with
    actors := s.actors.erase id
    mailboxes := s.mailboxes.erase id
    pausedMailboxes := s.pausedMailboxes.erase id
    processingActors := s.processingActors.erase id
    mailboxScheduled := s.mailboxScheduled.erase id }

namespace Source

variable {N V : Type} [LinearOrder N]

def setSystem (src : Source N V) (s : Node V) : Source N V :=
  { src with host := { src.host with system := s } }

/-- `migrate` after its checks, up to the request to prepare. -/
def begin [ToString N] (h : Host N V) (actorName : String) (targetNodeId : N) (id : ActorId)
    (metadata : ActorMetadata V) : Option (Source N V) :=
  (rejectPendingCalls (h.system.pauseMailbox id) id actorName
    (toString targetNodeId)).map fun s =>
      { host := { h with system := s }
        actorName := actorName
        targetNodeId := targetNodeId
        id := id
        metadata := metadata
        pc := .preparing }

def returns (src : Source N V) (result : MigrationResult N) : Source N V :=
  { src with pc := .returned result }

/-- The exits that give up before anything was drained. -/
def giveUp (src : Source N V) (error : String) : Source N V :=
  (src.setSystem (src.host.system.resumeMailbox src.id)).returns
    { success := false, error := some error }

/-- The exits that put the drained messages back. -/
def restore (src : Source N V) (pendingMessages : List (Option (StashedMessage V)))
    (error : String) : Source N V :=
  (src.setSystem ((src.host.system.injectMessages src.id pendingMessages).resumeMailbox
    src.id)).returns { success := false, error := some error }

/-- The waiting loop of `drainMailbox`, from the test of its condition. -/
def drainLoop (src : Source N V) (reservationId : ReservationId) (timedOut : Bool) :
    Source N V :=
  if src.id ∈ src.host.system.processingActors ∧ timedOut = false then
    { src with pc := .draining reservationId }
  else
    let result := drain src.host.system src.id
    { src.setSystem result.1 with pc := .gettingState reservationId result.2 }

/-- `drainMailbox`. -/
def drainMailbox (src : Source N V) (reservationId : ReservationId) (timedOut : Bool) :
    Source N V :=
  if src.id ∉ src.host.system.actors ∨ src.id ∉ src.host.system.mailboxes then
    { src with pc := .gettingState reservationId [] }
  else
    (src.setSystem (src.host.system.pauseMailbox src.id)).drainLoop reservationId timedOut

/-- The request to execute.  A hole among the messages throws in the `try`
block, which asks for a rollback. -/
def execute (src : Source N V) (reservationId : ReservationId)
    (pendingMessages : List (Option (StashedMessage V))) (state : V) : Source N V :=
  match defined pendingMessages with
  | none =>
      { src with
        pc := .rollingBack pendingMessages
          "Failed to execute migration: Cannot read properties of undefined (reading 'type')" }
  | some msgs =>
      let request : MigrateExecuteRequest N V :=
        { reservationId := reservationId
          actorName := src.actorName
          actorClassName := src.metadata.actorClassName
          sourceNodeId := src.host.id
          state := state
          initArgs := src.metadata.args
          pendingMessages := msgs.map fun msg => ⟨msg.type, msg.message⟩ }
      { src with pc := .executing pendingMessages request }

/-- The name leaves this node's copy of the table. -/
def unregister (src : Source N V) (newActorId : Option ActorId) : Source N V :=
  let gossip := (src.host.registry.gossip.unregister src.actorName).1
  { src with
    host := { src.host with registry := { src.host.registry with gossip := gossip } }
    pc := .unregistering newActorId }

/-- `_cleanupActorForMigration` and the return. -/
def finish (src : Source N V) (newActorId : Option ActorId) : Source N V :=
  { src with
    host := { src.host with
      system := cleanupActor src.host.system src.id
      groups := leaveAll src.host.groups src.id
      actorMetadata := Function.update src.host.actorMetadata src.id none }
    pc := .returned
      { success := true, newActorId := newActorId, newNodeId := some src.targetNodeId } }

def step (src : Source N V) (a : SourceAction V) : Option (Source N V) :=
  match src.pc, a with
  | .returned _, _ => none
  | _, .node a => (src.host.system.step a).map src.setSystem
  | .preparing, .prepareReply response timedOut =>
      if response.ready then
        response.reservationId.map fun reservationId =>
          src.drainMailbox reservationId timedOut
      else some (src.giveUp (orElse response.error "Target not ready"))
  | .preparing, .prepareFails error =>
      some (src.giveUp ("Failed to prepare migration: " ++ error))
  | .draining reservationId, .drainPolls timedOut =>
      some (src.drainLoop reservationId timedOut)
  | .gettingState reservationId pendingMessages, .stateReady state =>
      some (src.execute reservationId pendingMessages state)
  | .gettingState _ pendingMessages, .stateFails error =>
      some { src with
              pc := .rollingBack pendingMessages ("Failed to serialize state: " ++ error) }
  | .executing pendingMessages _, .executeFails error =>
      some { src with
              pc := .rollingBack pendingMessages ("Failed to execute migration: " ++ error) }
  | .executing pendingMessages _, .executeReply response =>
      if response.success then some (src.unregister response.newActorId)
      else some (src.restore pendingMessages
        (orElse response.error "Migration execution failed"))
  | .rollingBack pendingMessages error, .rollbackEnds =>
      some (src.restore pendingMessages error)
  | .unregistering newActorId, .unregistered => some (src.finish newActorId)
  | _, _ => none

end Source

/-! ## What one step of a call can do -/

namespace MigrateSteps

variable {N V : Type}

/-- What `migrate` holds of the drained messages. -/
def drainedBy : MigratePc N V → List (Option (StashedMessage V))
  | .gettingState _ pendingMessages | .executing pendingMessages _
  | .rollingBack pendingMessages _ => pendingMessages
  | _ => []

/-- The call may still fail. -/
def Undecided : MigratePc N V → Prop
  | .unregistering _ | .returned _ => False
  | _ => True

inductive Steps [LinearOrder N] (src src' : Source N V) : SourceAction V → Prop where
  | node (a : Action V) (t : Node V) (running : ∀ result, src.pc ≠ .returned result)
      (step : src.host.system.step a = some t) (eq : src' = src.setSystem t) :
      Steps src src' (.node a)
  | drains (a : SourceAction V) (reservationId : ReservationId) (timedOut : Bool)
      (pc : src.pc = .preparing) (eq : src' = src.drainMailbox reservationId timedOut) :
      Steps src src' a
  | givesUp (a : SourceAction V) (error : String) (pc : src.pc = .preparing)
      (eq : src' = src.giveUp error) : Steps src src' a
  | polls (a : SourceAction V) (reservationId : ReservationId) (timedOut : Bool)
      (pc : src.pc = .draining reservationId)
      (eq : src' = src.drainLoop reservationId timedOut) : Steps src src' a
  | executes (a : SourceAction V) (reservationId : ReservationId)
      (pendingMessages : List (Option (StashedMessage V))) (state : V)
      (pc : src.pc = .gettingState reservationId pendingMessages)
      (eq : src' = src.execute reservationId pendingMessages state) : Steps src src' a
  | rollsBack (a : SourceAction V) (error : String) (undecided : Undecided src.pc)
      (eq : src' = { src with pc := .rollingBack (drainedBy src.pc) error }) :
      Steps src src' a
  | restores (a : SourceAction V) (error : String) (undecided : Undecided src.pc)
      (eq : src' = src.restore (drainedBy src.pc) error) : Steps src src' a
  | unregisters (response : MigrateExecuteResponse)
      (pendingMessages : List (Option (StashedMessage V)))
      (request : MigrateExecuteRequest N V) (pc : src.pc = .executing pendingMessages request)
      (success : response.success = true) (eq : src' = src.unregister response.newActorId) :
      Steps src src' (.executeReply response)
  | finishes (newActorId : Option ActorId) (pc : src.pc = .unregistering newActorId)
      (eq : src' = src.finish newActorId) : Steps src src' .unregistered

theorem source_steps [LinearOrder N] {src src' : Source N V} {a : SourceAction V}
    (hst : src.step a = some src') : Steps src src' a := by
  unfold Source.step at hst
  split at hst
  next => cases hst
  next b hrunning =>
    obtain ⟨t, ht, rfl⟩ := Option.map_eq_some_iff.1 hst
    exact .node b t hrunning ht rfl
  next response timedOut hpc =>
    split_ifs at hst
    · obtain ⟨reservationId, -, rfl⟩ := Option.map_eq_some_iff.1 hst
      exact .drains _ reservationId timedOut hpc rfl
    · exact .givesUp _ _ hpc (Option.some.inj hst).symm
  next error hpc => exact .givesUp _ _ hpc (Option.some.inj hst).symm
  next reservationId timedOut hpc =>
    exact .polls _ reservationId timedOut hpc (Option.some.inj hst).symm
  next reservationId pendingMessages state hpc =>
    exact .executes _ reservationId pendingMessages state hpc (Option.some.inj hst).symm
  next pendingMessages error hpc =>
    refine .rollsBack _ ("Failed to serialize state: " ++ error) (by rw [hpc]; trivial) ?_
    rw [hpc]
    exact (Option.some.inj hst).symm
  next pendingMessages request error hpc =>
    refine .rollsBack _ ("Failed to execute migration: " ++ error) (by rw [hpc]; trivial) ?_
    rw [hpc]
    exact (Option.some.inj hst).symm
  next pendingMessages request response hpc =>
    split_ifs at hst with hsuccess
    · exact .unregisters response pendingMessages request hpc hsuccess
        (Option.some.inj hst).symm
    · refine .restores _ (orElse response.error "Migration execution failed")
        (by rw [hpc]; trivial) ?_
      rw [hpc]
      exact (Option.some.inj hst).symm
  next pendingMessages error hpc =>
    refine .restores _ error (by rw [hpc]; trivial) ?_
    rw [hpc]
    exact (Option.some.inj hst).symm
  next newActorId hpc => exact .finishes newActorId hpc (Option.some.inj hst).symm
  next => cases hst

end MigrateSteps

end Libeam.Migration
