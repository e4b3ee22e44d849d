import Mathlib.Data.Finset.Sort
import Libeam.Monitoring.Bonds
import Libeam.Supervision.Supervise
/-!
# Stops, crashes and notifications on one node

The tables of parents and children, and the tables of watches and links, with the
functions that write both.  The asynchronous calls in progress advance one task at
a time, in any order: a step begins a call, resumes the innermost function of a
call, or has it end with an exception.  The rounds of notifications run without an
`await`; after each link that is told, others may run as well, which allows more
orders than one event loop has, and all that it has.
-/

namespace Libeam.Monitoring

open Libeam.System (ActorId StashedMessage Supervisor)
open Mailbox (BoundedMailbox)
open Supervision

/-- Where a call of one of the asynchronous functions is. -/
inductive Task (N V : Type) where
  /-- What only concerns parents and children, and the stages of a stop. -/
  | tree (frame : Frame N V)
  /-- `supervisor.handleCrash` has been called. -/
  | crash (actorRef : ActorRef N) (error : String)
  /-- `_notifyLocalLinkedActors`, in its loop, before these links. -/
  | linked (actorRef : ActorRef N) (reason : TerminationReason) (rest : List RefId)
  /-- A supervisor calls `stop`, and forgets the restarts of an actor that has had
  too many. -/
  | stopFor (actorRef : ActorRef N) (exhausted : Bool)
  /-- `stop` and `stopSingle`, when all have been notified. -/
  | finish (actorRef : ActorRef N)
  /-- `migrate`, between its check of the children and the clean-up. -/
  | migrate (id : ActorId) (move : Move N)
  /-- `shutdown`, once the mailboxes are drained, and its work on one actor. -/
  | closeAll
  | closeUnregistering (id : ActorId)
  | closeTerminating (id : ActorId)
  deriving DecidableEq, Repr

structure ActorSystem (N V : Type) extends Tables N V, Relations N where
  mailboxes : ActorId → Option (BoundedMailbox (StashedMessage V))
  childSupervision : ActorId → ChildSupervisionOptions
  /-- Instances spawned on behalf of a parent on another node. -/
  remoteParents : Finset ActorId
  supervisor : Supervisor
  childSupervisor : ChildSupervisor
  isShuttingDown : Bool
  isDraining : Bool
  /-- Each call with its innermost function first. -/
  calls : List (List (Task N V))
  /-- History: the instances whose `terminate()` has been called, at each call. -/
  terminated : List ActorId
  /-- History: the instances that `stopSingle` and `shutdown` have begun to remove,
  which tells no watcher. -/
  unannounced : Finset ActorId

/-- What a task leads to. -/
structure Progress (N V : Type) where
  system : ActorSystem N V
  /-- They take the place of the task. -/
  tasks : List (Task N V)
  /-- They are not awaited. -/
  calls : List (List (Task N V))
  threw : Bool

inductive SystemAction (N V : Type) where
  | spawn (actorClass : String) (options : SpawnOptions V)
  | acceptChild (actorClass : String) (options : SpawnOptions V)
  | spawnChild (parentRef : ActorRef N) (actorClass : String) (options : SpawnOptions V)
  | spawnChildRemote (parentRef : ActorRef N) (actorClass : String) (targetNodeId : N)
      (options : SpawnOptions V)
  /-- Messages come and go. -/
  | mailbox (actorId : ActorId) (mailbox : BoundedMailbox (StashedMessage V))
  | setTrapExit (actorId : ActorId) (trap : Bool)
  | watch (watcherRef watchedRef : ActorRef N)
  | unwatch (watchRefId : RefId)
  | link (actor1Ref actor2Ref : ActorRef N)
  | unlink (linkRefId : RefId)
  | stop (actorRef : ActorRef N)
  | childStop (actorRef : ActorRef N)
  | restart (actorRef : ActorRef N)
  | stopRemoteChild (childInstanceId : ActorId)
  | restartRemoteChild (childInstanceId : ActorId)
  | removeRemoteChild (childInstanceId : ActorId) (parentRef : ActorRef N)
  | crash (actorRef : ActorRef N) (error : String)
  | remoteCrash (childInstanceId : ActorId) (now : Nat)
  | sendExit (senderRef targetRef : ActorRef N) (reason : String)
  | migrate (id : ActorId) (move : Move N)
  | drain
  | shutdown
  | watchDown (watchRefId : RefId) (watchedActorId : ActorId) (reason : TerminationReason)
  | watchMoved (watchRefId : RefId) (move : Move N)
  | failWatches (deadNodeId : N)
  | linkExit (linkRefId : RefId) (exitedActorId : ActorId) (reason : TerminationReason)
  | linkMoved (linkRefId : RefId) (move : Move N)
  | resumes (index : Nat) (response : Response) (now : Nat)
  | rejects (index : Nat)
  deriving DecidableEq, Repr

namespace ActorSystem

variable {N V : Type} [DecidableEq N]

def init (id : N) (childSupervision : ActorId → ChildSupervisionOptions)
    (supervisor : Supervisor) : ActorSystem N V where
  toTables := .init id
  toRelations := .init
  mailboxes := fun _ => none
  childSupervision := childSupervision
  remoteParents := ∅
  supervisor := supervisor
  childSupervisor := .new
  isShuttingDown := false
  isDraining := false
  calls := []
  terminated := []
  unannounced := ∅

/-- The part of the state that the tables of watches and links depend on. -/
def bonds (s : ActorSystem N V) : Bonds N := ⟨s.toRelations, s.id, s.actors, s.nextId⟩

/-- No actor is spawned for a caller any more. -/
def closed (s : ActorSystem N V) : Bool := s.isShuttingDown || s.isDraining

/-! ## Ways to go on -/

def proceed (s : ActorSystem N V) (tasks : List (Task N V)) : Progress N V :=
  ⟨s, tasks, [], false⟩

def throws (s : ActorSystem N V) : Progress N V := ⟨s, [], [], true⟩

/-- A new call, its innermost function first, if it has anything to do. -/
def invoke (s : ActorSystem N V) (tasks : List (Task N V)) : ActorSystem N V :=
  { s with calls := if tasks = [] then s.calls else s.calls ++ [tasks] }

/-- The tables with what a frame has made of them.  An instance that is new has an
empty context and an empty mailbox. -/
def adopt (s : ActorSystem N V) (tables : Tables N V) : ActorSystem N V :=
  if s.nextId ∈ tables.actors then
    { s with
      toTables := tables
      toRelations := s.toRelations.newContext s.nextId
      mailboxes := Function.update s.mailboxes s.nextId (some (.new {})) }
  else { s with toTables := tables }

/-- The deletions at the end of `stop`, `stopSingle`, `shutdown` and `migrate`. -/
def remove (s : ActorSystem N V) (id : ActorId) : ActorSystem N V :=
  { s with
    toTables := s.toTables.remove id
    mailboxes := Function.update s.mailboxes id none }

/-! ## The stages of a stop -/

section
variable (callbacks : Callbacks N)

/-- `notifyWatchers`, then `notifyLinkedActors`. -/
def announce (s : ActorSystem N V) (actorRef : ActorRef N) (reason : TerminationReason)
    (next : Task N V) : Progress N V :=
  let told := s.toRelations.notifyWatchers s.actors callbacks actorRef reason
  let announced := { s with toRelations := told.1 }
  if told.2 then announced.throws
  else announced.proceed
    [.linked actorRef reason (announced.linkedWith.get actorRef.id), next]

/-- `stop`, when the children are stopped. -/
def leave (s : ActorSystem N V) (actorRef : ActorRef N) : Progress N V :=
  { s with
    toTables := s.toTables.detach actorRef
    toRelations := s.toRelations.unwatchAll s.actors actorRef.id }.announce callbacks
      actorRef .normal (.finish actorRef)

def stopChildren (s : ActorSystem N V) (actorRef : ActorRef N) :
    List (ActorRef N) → Progress N V
  | childRef :: rest =>
      s.proceed [.tree (s.toTables.stopFrame childRef), .tree (.children actorRef rest)]
  | [] => s.leave callbacks actorRef

def leaveSingle (s : ActorSystem N V) (actorRef : ActorRef N) : Progress N V :=
  { s with
    toTables := s.toTables.detach actorRef
    toRelations := (s.toRelations.unwatchAll s.actors actorRef.id).unlinkAll s.actors
      actorRef.id
    unannounced := insert actorRef.id s.unannounced }.proceed [.finish actorRef]

/-- `terminate()` is called. -/
def terminate (s : ActorSystem N V) (actorRef : ActorRef N) : Progress N V :=
  { s with terminated := s.terminated ++ [actorRef.id] }.proceed
    [.tree (.terminating actorRef)]

/-- The empty name counts as none. -/
def finish (s : ActorSystem N V) (actorRef : ActorRef N) : Progress N V :=
  if actorRef.name.any (· ≠ "") then s.proceed [.tree (.unregistering actorRef)]
  else s.terminate actorRef

/-! ## Crashes -/

/-- Returns null when there is no metadata. -/
def restart (s : ActorSystem N V) (actorRef : ActorRef N) : List (Task N V) :=
  match s.actorMetadata actorRef.id with
  | none => []
  | some metadata => [.tree (.stopSingle actorRef), .tree (.respawn actorRef.id metadata)]

/-- The strategy for a crash of a child on this node. -/
def strategyFor (s : ActorSystem N V) (childRef : ActorRef N) (parentId : ActorId) :
    List (Task N V) :=
  match (s.childSupervision parentId).strategy with
  | .oneForOne => s.restart childRef
  | .oneForAll =>
      let allChildren := (s.context parentId).childOrder
      [.tree (.strategy (s.self parentId) allChildren.reverse false
        (s.toTables.plannedOnNode allChildren))]
  | .restForOne =>
      match s.toTables.fromCrashed parentId childRef.id with
      | [] => []
      | childrenToRestart =>
          [.tree (.strategy (s.self parentId) childrenToRestart.reverse false
            (s.toTables.plannedOnNode childrenToRestart))]

/-- The strategy for a crash of a child on another node. -/
def strategyForRemote (s : ActorSystem N V) (remoteChild : RemoteChildEntry N V) :
    List (Task N V) :=
  let parentId := remoteChild.parentRef.id
  match (s.childSupervision parentId).strategy with
  | .oneForOne => [.tree (.restartRequest remoteChild)]
  | .oneForAll =>
      let allChildren := (s.context parentId).childOrder
      let here := allChildren.filter fun ref => ref.systemId = s.id
      let elsewhere := allChildren.filter fun ref => ref.systemId ≠ s.id
      [.tree (.strategy (s.self parentId) allChildren.reverse true
        (s.toTables.plannedOnNode here ++ s.toTables.plannedRemote elsewhere))]
  | .restForOne =>
      match s.toTables.fromCrashed parentId remoteChild.childRef.id with
      | [] => []
      | childrenToRestart =>
          [.tree (.strategy (s.self parentId) childrenToRestart.reverse true
            (s.toTables.plannedInOrder childrenToRestart))]

/-- An actor that has had too many restarts keeps its record, as far as there is one,
until `stop` has been called. -/
def handleRootCrash (s : ActorSystem N V) (actorRef : ActorRef N) (error : String)
    (now : Nat) : Progress N V :=
  let id := actorRef.id
  let record := rootRecord s.supervisor id now
  if s.supervisor.maxRestarts ≤ record.count then
    { s with
      supervisor := { s.supervisor with
        restartCounts := Function.update s.supervisor.restartCounts id
          ((s.supervisor.restartCounts id).map fun _ => record) } }.announce callbacks
      actorRef .killed (.stopFor actorRef true)
  else
    let counted := { s with
      supervisor := { s.supervisor with
        restartCounts := Function.update s.supervisor.restartCounts id
          (some { record with count := record.count + 1 }) } }
    match s.supervisor.strategy with
    | .Restart => counted.proceed (s.restart actorRef)
    | .Stop => counted.announce callbacks actorRef (.error error) (.stopFor actorRef false)

section
variable (stringify : List V → String)

def handleChildCrash (s : ActorSystem N V) (childRef : ActorRef N)
    (metadata : ActorMetadata N V) (parentRef : ActorRef N) (now : Nat) : Progress N V :=
  if parentRef.id ∈ s.actors then
    let restartKey := getRestartKey stringify childRef.id parentRef.id (some metadata.options)
    let result := s.childSupervisor.canRestart restartKey (s.childSupervision parentRef.id) now
    let counted := { s with childSupervisor := result.1 }
    if result.2 then counted.proceed (s.strategyFor childRef parentRef.id)
    else counted.announce callbacks childRef .killed (.stopFor childRef false)
  else s.proceed []

/-- A crash of a child with a remote parent is reported to that parent's node. -/
def handleCrash (s : ActorSystem N V) (actorRef : ActorRef N) (error : String) (now : Nat) :
    Progress N V :=
  match s.actorMetadata actorRef.id with
  | some metadata@⟨_, _, some parentRef⟩ =>
      s.handleChildCrash callbacks stringify actorRef metadata parentRef now
  | _ =>
      if actorRef.id ∈ s.remoteParents then s.proceed []
      else s.handleRootCrash callbacks actorRef error now

def handleRemoteChildCrash (s : ActorSystem N V) (childInstanceId : ActorId) (now : Nat) :
    ActorSystem N V :=
  match s.toTables.getRemoteChild childInstanceId with
  | none => s
  | some remoteChild =>
      let parentId := remoteChild.parentRef.id
      if parentId ∈ s.actors then
        let restartKey := getRestartKeyForRemote stringify childInstanceId parentId
          remoteChild.options
        let result := s.childSupervisor.canRestart restartKey (s.childSupervision parentId) now
        let counted := { s with childSupervisor := result.1 }
        if result.2 then counted.invoke (s.strategyForRemote remoteChild)
        else
          { counted with
            toTables := s.toTables.removeRemoteChild childInstanceId remoteChild.parentRef }
      else s

end

/-! ## Migration and shutdown -/

def migrated (s : ActorSystem N V) (id : ActorId) (move : Move N) : Progress N V :=
  let watchers := s.toRelations.notifyWatchersOfMigration s.actors callbacks id move
  if watchers.2 then { s with toRelations := watchers.1 }.throws
  else
    let linked := watchers.1.notifyLinkedActorsOfMigration s.actors callbacks id move
    if linked.2 then { s with toRelations := linked.1 }.throws
    else ({ s with toRelations := linked.1 }.remove id).proceed []

def closeTerminate (s : ActorSystem N V) (id : ActorId) : Progress N V :=
  { s with terminated := s.terminated ++ [id] }.proceed [.closeTerminating id]

/-- All actors are removed at the same time, those with a name once it is
unregistered. -/
def closeAll (s : ActorSystem N V) : Progress N V :=
  let ids := s.actors.sort (· ≤ ·)
  let named := fun id =>
    ((s.actorMetadata id).bind fun metadata => metadata.options.name).any (· ≠ "")
  ⟨{ s with
      terminated := s.terminated ++ ids.filter fun id => !named id
      unannounced := s.unannounced ∪ s.actors },
    [], ids.map fun id => if named id then [.closeUnregistering id] else [.closeTerminating id],
    false⟩

/-! ## The progress of a call -/

section
variable (stringify : List V → String)

/-- The next of the linked actors is told. -/
def tellNext (s : ActorSystem N V) (actorRef : ActorRef N) (reason : TerminationReason) :
    List RefId → Progress N V
  | [] => s.proceed []
  | linkRefId :: rest =>
      let told := s.toRelations.tellLinked s.actors callbacks actorRef reason linkRefId
      let next := { s with toRelations := told.relations }
      if told.threw then next.throws
      else ⟨next, [.linked actorRef reason rest],
        told.crash.toList.map fun crash => [.crash crash.1 crash.2], false⟩

/-- A frame that only concerns parents and children. -/
def resumeFrame (s : ActorSystem N V) (response : Response) (frame : Frame N V) :
    Progress N V :=
  let result := s.toTables.resumeFrame response frame
  (s.adopt result.1).proceed (result.2.map .tree)

/-- The innermost function of a call goes on to its next `await`. -/
def resumeTask (s : ActorSystem N V) (response : Response) (now : Nat) :
    Task N V → Progress N V
  | .tree (.stop actorRef) =>
      if actorRef.id ∈ s.actors then
        s.stopChildren callbacks actorRef (s.context actorRef.id).children
      else s.proceed []
  | .tree (.children actorRef rest) => s.stopChildren callbacks actorRef rest
  | .tree (.stopSingle actorRef) =>
      if actorRef.id ∈ s.actors then s.leaveSingle actorRef else s.proceed []
  | .tree (.unregistering actorRef) => s.terminate actorRef
  | .tree (.terminating actorRef) => (s.remove actorRef.id).proceed []
  | .tree (.respawn id metadata) =>
      if s.closed then s.proceed [] else s.resumeFrame response (.respawn id metadata)
  | .tree (.strategy parent [] remote plan) =>
      if s.closed then s.proceed []
      else s.resumeFrame response (.strategy parent [] remote plan)
  | .tree frame => s.resumeFrame response frame
  | .crash actorRef error => s.handleCrash callbacks stringify actorRef error now
  | .linked actorRef reason rest => s.tellNext callbacks actorRef reason rest
  | .stopFor actorRef exhausted =>
      { s with
        supervisor :=
          if exhausted then { s.supervisor with
            restartCounts := Function.update s.supervisor.restartCounts actorRef.id none }
          else s.supervisor }.proceed [.tree (.stop actorRef)]
  | .finish actorRef => s.finish actorRef
  | .migrate id move =>
      if response = .success then s.migrated callbacks id move else s.proceed []
  | .closeAll => s.closeAll
  | .closeUnregistering id => s.closeTerminate id
  | .closeTerminating id => (s.remove id).proceed []

/-- The call at an index gives way to what has become of its first task. -/
def carryOn (index : Nat) (outer : List (Task N V)) (p : Progress N V) : ActorSystem N V :=
  let rest := if p.threw then [] else p.tasks ++ outer
  { p.system with
    calls := (if rest = [] then p.system.calls.eraseIdx index
      else p.system.calls.set index rest) ++ p.calls }

def resumes (s : ActorSystem N V) (index : Nat) (response : Response) (now : Nat) :
    Option (ActorSystem N V) :=
  match s.calls[index]? with
  | some (task :: outer) =>
      some (carryOn index outer (s.resumeTask callbacks stringify response now task))
  | _ => none

end

/-- What `registry.unregister` or `terminate()` returned is rejected, or the crash of a
linked actor ends with an exception, and with it every function that awaits the
call.  `shutdown` ignores both. -/
def rejects (s : ActorSystem N V) (index : Nat) : Option (ActorSystem N V) :=
  match s.calls[index]? with
  | some (.tree (.unregistering _) :: outer) => some (carryOn index outer s.throws)
  | some (.tree (.terminating _) :: outer) => some (carryOn index outer s.throws)
  | some (.linked _ _ _ :: outer) => some (carryOn index outer s.throws)
  | some (.closeUnregistering id :: outer) => some (carryOn index outer (s.closeTerminate id))
  | some (.closeTerminating id :: outer) =>
      some (carryOn index outer ((s.remove id).proceed []))
  | _ => none

/-- `sendExit`: only the kill signal ends an actor that traps exits. -/
def sendExit (s : ActorSystem N V) (senderRef targetRef : ActorRef N) (reason : String) :
    ActorSystem N V :=
  if targetRef.id ∉ s.actors ∨ reason = "normal" then s
  else if reason = "kill" then s.invoke [.tree (.stop targetRef)]
  else if s.trapExit targetRef.id then
    { s with
      toRelations := (s.toRelations.inform s.actors callbacks targetRef.id
        (.exit none senderRef .killed)).1 }
  else
    s.invoke [.crash targetRef
      ("Exit signal from " ++ toString senderRef.id ++ ": " ++ reason)]

/-! ## One step -/

/-- References to actors of this node name instances that have been spawned; remote
children go to other nodes; an actor that has children does not migrate. -/
def step (stringify : List V → String) (s : ActorSystem N V) :
    SystemAction N V → Option (ActorSystem N V)
  | .spawn actorClass options =>
      if s.closed then some s else some (s.adopt (s.toTables.spawn actorClass options none))
  | .acceptChild actorClass options =>
      some { s.adopt (s.toTables.spawn actorClass options none) with
        remoteParents := insert s.nextId s.remoteParents }
  | .spawnChild parentRef actorClass options =>
      if s.closed then some s
      else some (s.adopt (s.toTables.spawnChild parentRef actorClass options none))
  | .spawnChildRemote parentRef actorClass targetNodeId options =>
      if targetNodeId = s.id then none
      else if s.closed ∨ parentRef.id ∉ s.actors then some s
      else some (s.invoke [.tree (.spawnRequest parentRef actorClass targetNodeId options)])
  | .mailbox actorId mailbox =>
      if actorId ∈ s.actors then
        some { s with mailboxes := Function.update s.mailboxes actorId (some mailbox) }
      else none
  | .setTrapExit actorId trap =>
      some { s with trapExit := Function.update s.trapExit actorId trap }
  | .watch watcherRef watchedRef =>
      if watcherRef.id < s.nextId ∧ (watchedRef.systemId = s.id → watchedRef.id < s.nextId) then
        some { s with
          toRelations := (s.toRelations.watch s.actors callbacks s.id watcherRef watchedRef).1 }
      else none
  | .unwatch watchRefId =>
      some { s with toRelations := s.toRelations.cancel s.actors watchRefId }
  | .link actor1Ref actor2Ref =>
      some { s with toRelations := s.toRelations.link s.actors s.id actor1Ref actor2Ref }
  | .unlink linkRefId =>
      (s.linkRefs linkRefId).map fun linkRef =>
        { s with toRelations := s.toRelations.unlink s.actors linkRef }
  | .stop actorRef =>
      if actorRef.id < s.nextId then some (s.invoke [.tree (.stop actorRef)]) else none
  | .childStop actorRef =>
      if actorRef.id < s.nextId then
        some ({ s with remoteParents := s.remoteParents.erase actorRef.id }.invoke
          [.tree (.stop actorRef)])
      else none
  | .restart actorRef =>
      if actorRef.id < s.nextId then some (s.invoke (s.restart actorRef)) else none
  | .stopRemoteChild childInstanceId =>
      some (s.invoke [.tree (.stopRemoteChild childInstanceId)])
  | .restartRemoteChild childInstanceId =>
      (s.toTables.getRemoteChild childInstanceId).map fun remoteChild =>
        s.invoke [.tree (.restartRequest remoteChild)]
  | .removeRemoteChild childInstanceId parentRef =>
      some { s with toTables := s.toTables.removeRemoteChild childInstanceId parentRef }
  | .crash actorRef error =>
      if actorRef.id < s.nextId then some (s.invoke [.crash actorRef error]) else none
  | .remoteCrash childInstanceId now =>
      some (s.handleRemoteChildCrash stringify childInstanceId now)
  | .sendExit senderRef targetRef reason =>
      some (s.sendExit callbacks senderRef targetRef reason)
  | .migrate id move =>
      if id ∈ s.actors ∧ (s.context id).children = [] then some (s.invoke [.migrate id move])
      else none
  | .drain => some { s with isDraining := true }
  | .shutdown =>
      if s.isShuttingDown then some s
      else some ({ s with isShuttingDown := true }.invoke [.closeAll])
  | .watchDown watchRefId watchedActorId reason =>
      some { s with
        toRelations := (s.toRelations.handleRemoteDown s.actors callbacks watchRefId
          watchedActorId reason).1 }
  | .watchMoved watchRefId move =>
      some { s with
        toRelations :=
          (s.toRelations.handleRemoteWatcherMoved s.actors callbacks watchRefId move).1 }
  | .failWatches deadNodeId =>
      some { s with
        toRelations :=
          (s.toRelations.handleNodeFailureForWatches s.actors callbacks deadNodeId).1 }
  | .linkExit linkRefId exitedActorId reason =>
      let told := s.toRelations.handleRemoteLinkExit s.actors callbacks linkRefId exitedActorId
        reason
      let next := { s with toRelations := told.relations }
      some { next with
        calls := s.calls ++ told.crash.toList.map fun crash => [.crash crash.1 crash.2] }
  | .linkMoved linkRefId move =>
      some { s with
        toRelations :=
          (s.toRelations.handleRemoteLinkMoved s.actors callbacks linkRefId move).1 }
  | .resumes index response now => s.resumes callbacks stringify index response now
  | .rejects index => s.rejects index

end

end ActorSystem

end Libeam.Monitoring
