import Libeam.Supervision.Tree
/-!
# Supervision strategies and the progress of calls

`stop`, `restart` and the strategies await each other, the registry,
`terminate()` and requests to other nodes, so calls of them interleave.  A step
starts a call, resumes the innermost function of a call, or has what that
function awaits rejected.  A function that is called begins in a step of its own,
and so does each child that a strategy starts again: this allows more orders than
one event loop has, and all that it has.

A node failure is the crash notices of the children on that node and the stops of
the children whose parent was there, one after the other; a restart that another
node requests is a `childStop` and an `acceptChild`.
-/

namespace Libeam.Supervision

open Libeam.System (ActorId RestartRecord Supervisor SupervisionStrategy)

/-! ## Calls in progress -/

/-- A child that a strategy starts again once all stops are done. -/
inductive Planned (N V : Type) where
  | onNode (id : ActorId) (metadata : ActorMetadata N V)
  | remote (remoteChild : RemoteChildEntry N V)
  deriving DecidableEq, Repr

/-- Where a call of one of the asynchronous functions is. -/
inductive Frame (N V : Type) where
  /-- `stop(actorRef)` has been called. -/
  | stop (actorRef : ActorRef N)
  /-- `stop`, in the loop over the children, before these. -/
  | children (actorRef : ActorRef N) (rest : List (ActorRef N))
  /-- `stopSingle(actorRef)` has been called. -/
  | stopSingle (actorRef : ActorRef N)
  | unregistering (actorRef : ActorRef N)
  | terminating (actorRef : ActorRef N)
  /-- `restart`, after its `stopSingle`. -/
  | respawn (id : ActorId) (metadata : ActorMetadata N V)
  /-- A strategy for several children: the stops to come, whether remote children
  take part, and what is started again. -/
  | strategy (parent : ActorRef N) (stops : List (ActorRef N)) (remote : Bool)
      (plan : List (Planned N V))
  /-- `stopRemoteChild(childInstanceId)` has been called. -/
  | stopRemoteChild (childInstanceId : ActorId)
  /-- The requests await their response. -/
  | stopRequest (remoteChild : RemoteChildEntry N V)
  | restartRequest (remoteChild : RemoteChildEntry N V)
  | spawnRequest (parentRef : ActorRef N) (actorClass : String) (targetNodeId : N)
      (options : SpawnOptions V)
  /-- `migrate`, between its check of the children and the clean-up. -/
  | migrating (id : ActorId)
  deriving DecidableEq, Repr

/-- A crash that was counted under a key of a table of restart counts. -/
structure Counted (κ : Type) where
  id : ActorId
  key : κ
  /-- The record was out of date and has been reset. -/
  reset : Bool
  restarted : Bool
  deriving DecidableEq, Repr

/-- A node with its tables, its supervisors and the calls in progress. -/
structure Tree (N V : Type) extends Tables N V where
  /-- What `childSupervision()` of an actor returns. -/
  childSupervision : ActorId → ChildSupervisionOptions
  /-- Instances spawned on behalf of a parent on another node. -/
  remoteParents : Finset ActorId
  supervisor : Supervisor
  childSupervisor : ChildSupervisor
  /-- Each call with its innermost function first. -/
  calls : List (List (Frame N V))
  /-- History: the counted crashes of root actors that are there and of children,
  latest first. -/
  rootCrashes : List (Counted ActorId)
  childCrashes : List (Counted String)
  /-- History: instances whose watchers were notified with `killed`, and instances
  that a supervisor has called `stop` for. -/
  killed : List ActorId
  stopRequests : List ActorId

/-- The response to a request.  For a function that constructs an actor here,
anything but `success` means that the constructor threw, or that placement chose
another node. -/
inductive Response where
  | success
  | failure
  | error
  deriving DecidableEq, Repr

inductive TreeAction (N V : Type) where
  | spawn (actorClass : String) (options : SpawnOptions V)
  | acceptChild (actorClass : String) (options : SpawnOptions V)
  | spawnChild (parentRef : ActorRef N) (actorClass : String) (options : SpawnOptions V)
  | spawnChildRemote (parentRef : ActorRef N) (actorClass : String) (targetNodeId : N)
      (options : SpawnOptions V)
  | stop (actorRef : ActorRef N)
  | childStop (actorRef : ActorRef N)
  | restart (actorRef : ActorRef N)
  | stopRemoteChild (childInstanceId : ActorId)
  | restartRemoteChild (childInstanceId : ActorId)
  | removeRemoteChild (childInstanceId : ActorId) (parentRef : ActorRef N)
  | crash (actorRef : ActorRef N) (now : Nat)
  | remoteCrash (childInstanceId : ActorId) (now : Nat)
  | migrate (id : ActorId)
  | resumes (index : Nat) (response : Response)
  | rejects (index : Nat)
  deriving DecidableEq, Repr

/-! ## The record of a root actor -/

/-- The record that `Supervisor.handleCrash` finds, reset when its period has passed. -/
def rootRecord (v : Supervisor) (id : ActorId) (now : Nat) : RestartRecord :=
  let record := (v.restartCounts id).getD ⟨0, now⟩
  if v.periodMs < now - record.timestamp then ⟨0, now⟩ else record

def rootResets (v : Supervisor) (id : ActorId) (now : Nat) : Bool :=
  (v.restartCounts id).any fun record => v.periodMs < now - record.timestamp

namespace Tables

variable {N V : Type} [DecidableEq N]

/-! ## What a strategy starts again -/

/-- The metadata of the children on this node, collected before the stops. -/
def plannedOnNode (t : Tables N V) (refs : List (ActorRef N)) : List (Planned N V) :=
  refs.filterMap fun ref => (t.actorMetadata ref.id).map (.onNode ref.id)

def plannedRemote (t : Tables N V) (refs : List (ActorRef N)) : List (Planned N V) :=
  refs.filterMap fun ref => (t.getRemoteChild ref.id).map .remote

/-- Both, in the order of the list. -/
def plannedInOrder (t : Tables N V) (refs : List (ActorRef N)) : List (Planned N V) :=
  refs.filterMap fun ref =>
    if ref.systemId = t.id then (t.actorMetadata ref.id).map (.onNode ref.id)
    else (t.getRemoteChild ref.id).map .remote

/-- The children from the crashed one on. -/
def fromCrashed (t : Tables N V) (parentId childId : ActorId) : List (ActorRef N) :=
  (t.context parentId).childOrder.dropWhile fun ref => ref.id ≠ childId

/-! ## The progress of a call -/

/-- `stop` and `stopSingle` from leaving the parent's lists to the next `await`; the
empty name counts as none. -/
def leave (t : Tables N V) (actorRef : ActorRef N) : Tables N V × List (Frame N V) :=
  (t.detach actorRef,
    [if actorRef.name.any (· ≠ "") then .unregistering actorRef else .terminating actorRef])

/-- The stop of a child, on this node or on another. -/
def stopFrame (t : Tables N V) (childRef : ActorRef N) : Frame N V :=
  if childRef.systemId = t.id then .stop childRef else .stopRemoteChild childRef.id

def stopChildren (t : Tables N V) (actorRef : ActorRef N) :
    List (ActorRef N) → Tables N V × List (Frame N V)
  | childRef :: rest => (t, [t.stopFrame childRef, .children actorRef rest])
  | [] => t.leave actorRef

/-- The next of the children that a strategy starts again.  An error ends the
strategy, which nothing awaits. -/
def startPlanned (t : Tables N V) (response : Response) (parent : ActorRef N) (remote : Bool) :
    List (Planned N V) → Tables N V × List (Frame N V)
  | [] => (t, [])
  | .onNode id metadata :: plan =>
      if parent.id ∈ t.actors ∧ response = .success then
        (t.spawnChild parent metadata.actorClass metadata.options (some (t.lineage id)),
          [.strategy parent [] remote plan])
      else (t, [])
  | .remote remoteChild :: plan =>
      if parent.id ∈ t.actors then
        (t, [.spawnRequest parent remoteChild.actorClass remoteChild.childNodeId
          remoteChild.options, .strategy parent [] remote plan])
      else (t, [])

/-- The end of `restart`: the same options, under the same parent. -/
def startAgain (t : Tables N V) (response : Response) (id : ActorId)
    (metadata : ActorMetadata N V) : Tables N V :=
  if response = .success then
    match metadata.parent with
    | none => t.spawn metadata.actorClass metadata.options (some (t.lineage id))
    | some parentRef =>
        t.spawnChild parentRef metadata.actorClass metadata.options (some (t.lineage id))
  else t

/-- The innermost function of a call goes on to its next `await`; the frames that
take its place. -/
def resumeFrame (t : Tables N V) (response : Response) :
    Frame N V → Tables N V × List (Frame N V)
  | .stop actorRef =>
      if actorRef.id ∈ t.actors then
        t.stopChildren actorRef (t.context actorRef.id).children
      else (t, [])
  | .children actorRef rest => t.stopChildren actorRef rest
  | .stopSingle actorRef => if actorRef.id ∈ t.actors then t.leave actorRef else (t, [])
  | .unregistering actorRef => (t, [.terminating actorRef])
  | .terminating actorRef => (t.remove actorRef.id, [])
  | .respawn id metadata => (t.startAgain response id metadata, [])
  | .strategy parent (childRef :: stops) remote plan =>
      (t, [if remote then t.stopFrame childRef else .stop childRef,
        .strategy parent stops remote plan])
  | .strategy parent [] remote plan => t.startPlanned response parent remote plan
  | .stopRemoteChild childInstanceId =>
      match t.getRemoteChild childInstanceId with
      | none => (t, [])
      | some remoteChild => (t, [.stopRequest remoteChild])
  | .stopRequest remoteChild =>
      match response with
      | .error => (t.forgetRemote remoteChild.childRef.id, [])
      | _ => (t.dropRemoteChild remoteChild.childRef remoteChild.parentRef, [])
  | .restartRequest remoteChild =>
      match response with
      | .success => (t.replaceRemoteChild remoteChild, [])
      | _ => (t.forgetRemote remoteChild.childRef.id, [])
  | .spawnRequest parentRef actorClass targetNodeId options =>
      match response with
      | .success => (t.addRemoteChild parentRef actorClass targetNodeId options, [])
      | _ => (t, [])
  | .migrating id =>
      match response with
      | .success => (t.remove id, [])
      | _ => (t, [])

end Tables

/-! ## Calls -/

namespace Tree

variable {N V : Type} [DecidableEq N]

def init (id : N) (childSupervision : ActorId → ChildSupervisionOptions)
    (supervisor : Supervisor) : Tree N V where
  toTables := .init id
  childSupervision := childSupervision
  remoteParents := ∅
  supervisor := supervisor
  childSupervisor := .new
  calls := []
  rootCrashes := []
  childCrashes := []
  killed := []
  stopRequests := []

/-- A new call, its innermost function first. -/
def invoke (t : Tree N V) (frames : List (Frame N V)) : Tree N V :=
  { t with calls := t.calls ++ [frames] }

/-! ## Restarts and strategies -/

/-- Returns null when there is no metadata. -/
def restart (t : Tree N V) (actorRef : ActorRef N) : Tree N V :=
  match t.actorMetadata actorRef.id with
  | none => t
  | some metadata => t.invoke [.stopSingle actorRef, .respawn actorRef.id metadata]

/-- The strategy for a crash of a child on this node.  Stopping a remote child as if
it were on this node does nothing, and it has no metadata. -/
def applyStrategy (t : Tree N V) (childRef : ActorRef N) (parentId : ActorId) : Tree N V :=
  match (t.childSupervision parentId).strategy with
  | .oneForOne => t.restart childRef
  | .oneForAll =>
      let allChildren := (t.context parentId).childOrder
      t.invoke [.strategy (t.self parentId) allChildren.reverse false
        (t.plannedOnNode allChildren)]
  | .restForOne =>
      match t.fromCrashed parentId childRef.id with
      | [] => t
      | childrenToRestart => t.invoke [.strategy (t.self parentId) childrenToRestart.reverse
          false (t.plannedOnNode childrenToRestart)]

/-- The strategy for a crash of a child on another node. -/
def applyRemoteStrategy (t : Tree N V) (remoteChild : RemoteChildEntry N V) : Tree N V :=
  let parentId := remoteChild.parentRef.id
  match (t.childSupervision parentId).strategy with
  | .oneForOne => t.invoke [.restartRequest remoteChild]
  | .oneForAll =>
      let allChildren := (t.context parentId).childOrder
      let here := allChildren.filter fun ref => ref.systemId = t.id
      let elsewhere := allChildren.filter fun ref => ref.systemId ≠ t.id
      t.invoke [.strategy (t.self parentId) allChildren.reverse true
        (t.plannedOnNode here ++ t.plannedRemote elsewhere)]
  | .restForOne =>
      match t.fromCrashed parentId remoteChild.childRef.id with
      | [] => t
      | childrenToRestart => t.invoke [.strategy (t.self parentId) childrenToRestart.reverse
          true (t.plannedInOrder childrenToRestart)]

/-! ## Crashes -/

section
variable (stringify : List V → String)

/-- Stop an actor for good and report it killed. -/
def kill (t : Tree N V) (actorRef : ActorRef N) : Tree N V :=
  { t with
    killed := actorRef.id :: t.killed
    stopRequests := actorRef.id :: t.stopRequests }.invoke [.stop actorRef]

def handleRootCrash (t : Tree N V) (actorRef : ActorRef N) (now : Nat) : Tree N V :=
  let id := actorRef.id
  let exhausted := t.supervisor.maxRestarts ≤ (rootRecord t.supervisor id now).count
  let reset := rootResets t.supervisor id now
  let (supervisor, decision) := t.supervisor.handleCrash id now
  let t := { t with
    supervisor := supervisor
    rootCrashes :=
      if id ∈ t.actors then ⟨id, id, reset, decision = SupervisionStrategy.Restart⟩ :: t.rootCrashes
      else t.rootCrashes }
  match decision with
  | .Restart => t.restart actorRef
  | .Stop =>
      if exhausted then t.kill actorRef
      else { t with stopRequests := id :: t.stopRequests }.invoke [.stop actorRef]

def handleChildCrash (t : Tree N V) (childRef : ActorRef N) (metadata : ActorMetadata N V)
    (parentRef : ActorRef N) (now : Nat) : Tree N V :=
  if parentRef.id ∈ t.actors then
    let options := t.childSupervision parentRef.id
    let restartKey := getRestartKey stringify childRef.id parentRef.id (some metadata.options)
    let reset := t.childSupervisor.resets restartKey options.periodMs now
    let (childSupervisor, granted) := t.childSupervisor.canRestart restartKey options now
    let t := { t with
      childSupervisor := childSupervisor
      childCrashes := ⟨childRef.id, restartKey, reset, granted⟩ :: t.childCrashes }
    if granted then t.applyStrategy childRef parentRef.id else t.kill childRef
  else t

/-- A crash of a child with a remote parent is reported to that parent's node. -/
def handleCrash (t : Tree N V) (actorRef : ActorRef N) (now : Nat) : Tree N V :=
  match t.actorMetadata actorRef.id with
  | some metadata@⟨_, _, some parentRef⟩ =>
      t.handleChildCrash stringify actorRef metadata parentRef now
  | _ => if actorRef.id ∈ t.remoteParents then t else t.handleRootCrash actorRef now

def handleRemoteChildCrash (t : Tree N V) (childInstanceId : ActorId) (now : Nat) :
    Tree N V :=
  match t.getRemoteChild childInstanceId with
  | none => t
  | some remoteChild =>
      let parentId := remoteChild.parentRef.id
      if parentId ∈ t.actors then
        let options := t.childSupervision parentId
        let restartKey := getRestartKeyForRemote stringify childInstanceId parentId
          remoteChild.options
        let reset := t.childSupervisor.resets restartKey options.periodMs now
        let (childSupervisor, granted) := t.childSupervisor.canRestart restartKey options now
        let t := { t with
          childSupervisor := childSupervisor
          childCrashes := ⟨childInstanceId, restartKey, reset, granted⟩ :: t.childCrashes }
        if granted then t.applyRemoteStrategy remoteChild
        else
          { t with
            toTables := t.toTables.removeRemoteChild childInstanceId remoteChild.parentRef }
      else t

end

/-- Put frames in the place of a call; a call without frames is over. -/
def setCall (t : Tree N V) (index : Nat) (frames : List (Frame N V)) : Tree N V :=
  { t with
    calls := if frames = [] then t.calls.eraseIdx index else t.calls.set index frames }

def resumes (t : Tree N V) (index : Nat) (response : Response) : Option (Tree N V) :=
  match t.calls[index]? with
  | some (frame :: outer) =>
      let result := t.toTables.resumeFrame response frame
      some ({ t with toTables := result.1 }.setCall index (result.2 ++ outer))
  | _ => none

/-- What `registry.unregister` or `terminate()` returned is rejected, and with it
every function that awaits the stop. -/
def rejects (t : Tree N V) (index : Nat) : Option (Tree N V) :=
  match t.calls[index]? with
  | some (.unregistering _ :: _) => some (t.setCall index [])
  | some (.terminating _ :: _) => some (t.setCall index [])
  | _ => none

/-! ## One step -/

section
variable (stringify : List V → String)

/-- A reference names an instance that has been spawned; remote children go to other
nodes; an actor that has children does not migrate. -/
def step (t : Tree N V) : TreeAction N V → Option (Tree N V)
  | .spawn actorClass options =>
      some { t with toTables := t.toTables.spawn actorClass options none }
  | .acceptChild actorClass options =>
      some { t with
        toTables := t.toTables.spawn actorClass options none
        remoteParents := insert t.nextId t.remoteParents }
  | .spawnChild parentRef actorClass options =>
      some { t with toTables := t.toTables.spawnChild parentRef actorClass options none }
  | .spawnChildRemote parentRef actorClass targetNodeId options =>
      if targetNodeId = t.id then none
      else if parentRef.id ∈ t.actors then
        some (t.invoke [.spawnRequest parentRef actorClass targetNodeId options])
      else some t
  | .stop actorRef =>
      if actorRef.id < t.nextId then some (t.invoke [.stop actorRef]) else none
  | .childStop actorRef =>
      if actorRef.id < t.nextId then
        some ({ t with remoteParents := t.remoteParents.erase actorRef.id }.invoke
          [.stop actorRef])
      else none
  | .restart actorRef => some (t.restart actorRef)
  | .stopRemoteChild childInstanceId => some (t.invoke [.stopRemoteChild childInstanceId])
  | .restartRemoteChild childInstanceId =>
      (t.getRemoteChild childInstanceId).map fun remoteChild =>
        t.invoke [.restartRequest remoteChild]
  | .removeRemoteChild childInstanceId parentRef =>
      some { t with toTables := t.toTables.removeRemoteChild childInstanceId parentRef }
  | .crash actorRef now =>
      if actorRef.id < t.nextId then some (t.handleCrash stringify actorRef now) else none
  | .remoteCrash childInstanceId now =>
      some (t.handleRemoteChildCrash stringify childInstanceId now)
  | .migrate id =>
      if id ∈ t.actors ∧ (t.context id).children = [] then some (t.invoke [.migrating id])
      else none
  | .resumes index response => t.resumes index response
  | .rejects index => t.rejects index

end

end Tree

end Libeam.Supervision
