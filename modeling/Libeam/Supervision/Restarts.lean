import Libeam.Supervision.Supervise
import Libeam.Monitoring.Relations
/-!
# Restarts that run to completion

The crash of a child, what the supervisor of its parent decides, and the stops and
spawns that follow, taken as one step: every request is delivered and answered, every
`terminate()` and every registry call completes, and nothing happens in between.  The
children of a parent run on its node or on others.  Links and names are left out, and
so is what the instances on other nodes have spawned themselves.
-/

namespace Libeam.Supervision

open Libeam.System (ActorId)
open Monitoring (TerminationReason)

/-- A node, and what other nodes record of the children of its actors. -/
structure Nodes (N V : Type) extends Tables N V where
  /-- What `childSupervision()` of an actor returns. -/
  childSupervision : ActorId → ChildSupervisionOptions
  childSupervisor : ChildSupervisor
  /-- `actors` and `actorMetadata` of the other nodes, which are written together. -/
  hosted : N → ActorId → Option (ActorMetadata N V)
  /-- The instances in `remoteParents` of the other nodes. -/
  remoteParents : N → Finset ActorId
  /-- History: what the watchers of an instance have been told, in order. -/
  notified : List (ActorId × TerminationReason)
  /-- History: what `canRestart` has answered, in order. -/
  granted : List Bool
  /-- History: the instances that were started in the place of others, in order. -/
  replaced : List (ActorId × ActorId)

namespace Nodes

variable {N V : Type} [DecidableEq N]

/-- The watchers are told once and forgotten. -/
def notifyWatchers (s : Nodes N V) (id : ActorId) (reason : TerminationReason) : Nodes N V :=
  if s.notified.any (·.1 = id) then s
  else { s with notified := s.notified ++ [(id, reason)] }

/-- The next instance takes the place of another. -/
def replace (s : Nodes N V) (replaces : Option ActorId) : List (ActorId × ActorId) :=
  s.replaced ++ (replaces.map fun id => (id, s.nextId)).toList

/-! ## The nodes of remote children -/

/-- `stop` on another node. -/
def stopHosted (s : Nodes N V) (node : N) (id : ActorId) : Nodes N V :=
  if (s.hosted node id).isSome then
    { s.notifyWatchers id .normal with
      hosted := Function.update s.hosted node (Function.update (s.hosted node) id none) }
  else s

def forgetParent (s : Nodes N V) (node : N) (id : ActorId) : Nodes N V :=
  { s with
    remoteParents := Function.update s.remoteParents node ((s.remoteParents node).erase id) }

def handleRemoteChildSpawn (s : Nodes N V) (node : N) (childInstanceId : ActorId)
    (actorClass : String) (options : SpawnOptions V) : Nodes N V :=
  { s with
    hosted := Function.update s.hosted node
      (Function.update (s.hosted node) childInstanceId (some ⟨actorClass, options, none⟩))
    remoteParents := Function.update s.remoteParents node
      (insert childInstanceId (s.remoteParents node)) }

/-- Fails when there is no metadata of the old instance. -/
def handleRemoteChildRestart (s : Nodes N V) (node : N)
    (oldChildInstanceId newChildInstanceId : ActorId) : Option (Nodes N V) :=
  (s.hosted node oldChildInstanceId).map fun metadata =>
    ((s.stopHosted node oldChildInstanceId).forgetParent node oldChildInstanceId)
      |>.handleRemoteChildSpawn node newChildInstanceId metadata.actorClass metadata.options

def handleRemoteChildStop (s : Nodes N V) (node : N) (childInstanceId : ActorId) : Nodes N V :=
  (s.forgetParent node childInstanceId).stopHosted node childInstanceId

/-! ## Remote children -/

/-- Throws without effect when the parent is gone. -/
def spawnChildRemote (s : Nodes N V) (parentRef : ActorRef N) (actorClass : String)
    (targetNodeId : N) (options : SpawnOptions V) (replaces : Option ActorId) : Nodes N V :=
  if parentRef.id ∈ s.actors then
    { s.handleRemoteChildSpawn targetNodeId s.nextId actorClass options with
      toTables := s.toTables.addRemoteChild parentRef actorClass targetNodeId options
      replaced := s.replace replaces }
  else s

def restartRemoteChild (s : Nodes N V) (remoteChild : RemoteChildEntry N V) : Nodes N V :=
  let oldChildInstanceId := remoteChild.childRef.id
  match s.handleRemoteChildRestart remoteChild.childNodeId oldChildInstanceId s.nextId with
  | none => { s with toTables := s.toTables.forgetRemote oldChildInstanceId }
  | some restarted =>
      { restarted with
        toTables := s.toTables.replaceRemoteChild remoteChild
        replaced := s.replace (some oldChildInstanceId) }

def stopRemoteChild (s : Nodes N V) (childInstanceId : ActorId) : Nodes N V :=
  match s.getRemoteChild childInstanceId with
  | none => s
  | some remoteChild =>
      { s.handleRemoteChildStop remoteChild.childNodeId childInstanceId with
        toTables := s.toTables.dropRemoteChild remoteChild.childRef remoteChild.parentRef }

/-! ## Actors of this node -/

/-- `stop` once the children are stopped. -/
def terminate (s : Nodes N V) (actorRef : ActorRef N) : Nodes N V :=
  { s.notifyWatchers actorRef.id .normal with
    toTables := (s.toTables.detach actorRef).remove actorRef.id }

def stopWithin : Nat → Nodes N V → ActorRef N → Nodes N V
  | 0, s, _ => s
  | generations + 1, s, actorRef =>
      if actorRef.id ∈ s.actors then
        let stopped := (s.context actorRef.id).children.foldl
          (fun s childRef =>
            if childRef.systemId = s.id then stopWithin generations s childRef
            else s.stopRemoteChild childRef.id) s
        stopped.terminate actorRef
      else s

/-- An actor is younger than its parent, so that these are all generations. -/
def stop (s : Nodes N V) (actorRef : ActorRef N) : Nodes N V :=
  stopWithin (s.nextId + 1) s actorRef

/-- Neither cascades to the children nor tells the watchers. -/
def stopSingle (s : Nodes N V) (actorRef : ActorRef N) : Nodes N V :=
  if actorRef.id ∈ s.actors then
    { s with toTables := (s.toTables.detach actorRef).remove actorRef.id }
  else s

def spawn (s : Nodes N V) (actorClass : String) (options : SpawnOptions V)
    (replaces : Option ActorId) : Nodes N V :=
  { s with
    toTables := s.toTables.spawn actorClass options (replaces.map s.lineage)
    replaced := s.replace replaces }

def spawnChild (s : Nodes N V) (parentRef : ActorRef N) (actorClass : String)
    (options : SpawnOptions V) (replaces : Option ActorId) : Nodes N V :=
  if parentRef.id ∈ s.actors then
    { s with
      toTables := s.toTables.spawnChild parentRef actorClass options (replaces.map s.lineage)
      replaced := s.replace replaces }
  else s

/-- Returns null when there is no metadata. -/
def restart (s : Nodes N V) (actorRef : ActorRef N) : Nodes N V :=
  match s.actorMetadata actorRef.id with
  | none => s
  | some ⟨actorClass, options, some parentRef⟩ =>
      (s.stopSingle actorRef).spawnChild parentRef actorClass options (some actorRef.id)
  | some ⟨actorClass, options, none⟩ =>
      (s.stopSingle actorRef).spawn actorClass options (some actorRef.id)

/-! ## Strategies -/

/-- The stop of a child, on this node or on another. -/
def stopChild (s : Nodes N V) (childRef : ActorRef N) : Nodes N V :=
  if childRef.systemId = s.id then s.stop childRef else s.stopRemoteChild childRef.id

/-- Start a child again under its parent. -/
def startPlanned (parent : ActorRef N) (s : Nodes N V) : Planned N V → Nodes N V
  | .onNode id metadata => s.spawnChild parent metadata.actorClass metadata.options (some id)
  | .remote remoteChild =>
      s.spawnChildRemote parent remoteChild.actorClass remoteChild.childNodeId
        remoteChild.options (some remoteChild.childRef.id)

/-- Stop children in reverse order, then start what was planned before the stops. -/
def restartGroup (s : Nodes N V) (parentId : ActorId)
    (stopOne : Nodes N V → ActorRef N → Nodes N V) (childrenToRestart : List (ActorRef N))
    (plan : List (Planned N V)) : Nodes N V :=
  plan.foldl (startPlanned (s.self parentId)) (childrenToRestart.reverse.foldl stopOne s)

def handleOneForOne (s : Nodes N V) (childRef : ActorRef N) : Nodes N V := s.restart childRef

/-- Stopping a remote child as if it were on this node does nothing, and it has no
metadata here. -/
def handleOneForAll (s : Nodes N V) (parentId : ActorId) : Nodes N V :=
  let allChildren := (s.context parentId).childOrder
  s.restartGroup parentId stop allChildren (s.plannedOnNode allChildren)

/-- Does nothing when the crashed child is not on the list. -/
def handleRestForOne (s : Nodes N V) (parentId childId : ActorId) : Nodes N V :=
  let childrenToRestart := s.fromCrashed parentId childId
  s.restartGroup parentId stop childrenToRestart (s.plannedOnNode childrenToRestart)

def handleRemoteOneForOne (s : Nodes N V) (remoteChild : RemoteChildEntry N V) : Nodes N V :=
  s.restartRemoteChild remoteChild

/-- The children on this node are started first. -/
def handleRemoteOneForAll (s : Nodes N V) (parentId : ActorId) : Nodes N V :=
  let allChildren := (s.context parentId).childOrder
  let here := allChildren.filter fun ref => ref.systemId = s.id
  let elsewhere := allChildren.filter fun ref => ref.systemId ≠ s.id
  s.restartGroup parentId stopChild allChildren (s.plannedOnNode here ++ s.plannedRemote elsewhere)

def handleRemoteRestForOne (s : Nodes N V) (parentId childId : ActorId) : Nodes N V :=
  let childrenToRestart := s.fromCrashed parentId childId
  s.restartGroup parentId stopChild childrenToRestart (s.plannedInOrder childrenToRestart)

/-! ## Crashes -/

section
variable (stringify : List V → String)

def canRestart (s : Nodes N V) (restartKey : String) (options : ChildSupervisionOptions)
    (now : Nat) : Nodes N V × Bool :=
  let (childSupervisor, granted) := s.childSupervisor.canRestart restartKey options now
  ({ s with childSupervisor := childSupervisor, granted := s.granted ++ [granted] }, granted)

def handleChildCrash (s : Nodes N V) (childRef : ActorRef N) (now : Nat) : Nodes N V :=
  match s.actorMetadata childRef.id with
  | some ⟨_, spawnOptions, some parentRef⟩ =>
      let parentId := parentRef.id
      if parentId ∈ s.actors then
        let options := s.childSupervision parentId
        let restartKey := getRestartKey stringify childRef.id parentId (some spawnOptions)
        let (s, granted) := s.canRestart restartKey options now
        if granted then
          match options.strategy with
          | .oneForOne => s.handleOneForOne childRef
          | .oneForAll => s.handleOneForAll parentId
          | .restForOne => s.handleRestForOne parentId childRef.id
        else (s.notifyWatchers childRef.id .killed).stop childRef
      else s
  | _ => s

def handleRemoteChildCrash (s : Nodes N V) (childInstanceId : ActorId) (now : Nat) :
    Nodes N V :=
  match s.getRemoteChild childInstanceId with
  | none => s
  | some remoteChild =>
      let parentId := remoteChild.parentRef.id
      if parentId ∈ s.actors then
        let options := s.childSupervision parentId
        let restartKey := getRestartKeyForRemote stringify remoteChild.childRef.id parentId
          remoteChild.options
        let (s, granted) := s.canRestart restartKey options now
        if granted then
          match options.strategy with
          | .oneForOne => s.handleRemoteOneForOne remoteChild
          | .oneForAll => s.handleRemoteOneForAll parentId
          | .restForOne => s.handleRemoteRestForOne parentId remoteChild.childRef.id
        else
          { s with
            toTables :=
              s.toTables.removeRemoteChild remoteChild.childRef.id remoteChild.parentRef }
      else s

/-- An instance crashes if it is there.  Another node reports it to the parent's node,
unless it no longer knows of a parent. -/
def crash (s : Nodes N V) (node : N) (id : ActorId) (now : Nat) : Nodes N V :=
  if node = s.id then
    if id ∈ s.actors then s.handleChildCrash stringify (s.self id) now else s
  else if (s.hosted node id).isSome ∧ id ∈ s.remoteParents node then
    s.handleRemoteChildCrash stringify id now
  else s

/-! ## The crashes of one child -/

/-- The instances of a child, from its first on, with the latest at the head. -/
def instances (s : Nodes N V) (first : ActorId) : List ActorId :=
  s.replaced.foldl (fun ids r => if r.1 ∈ ids then r.2 :: ids else ids) [first]

def current (s : Nodes N V) (first : ActorId) : ActorId := (s.instances first).headD first

/-- The child on the node crashes at these times, if it is there. -/
def crashes (s : Nodes N V) (node : N) (first : ActorId) (times : List Nat) : Nodes N V :=
  times.foldl (fun s now => s.crash stringify node (s.current first) now) s

end

/-! ## A parent and its children -/

/-- What a child is started from. -/
structure ChildSpec (N V : Type) where
  node : N
  actorClass : String
  options : SpawnOptions V
  deriving DecidableEq, Repr

def startChild (parentId : ActorId) (s : Nodes N V) (child : ChildSpec N V) : Nodes N V :=
  if child.node = s.id then
    s.spawnChild (s.self parentId) child.actorClass child.options none
  else s.spawnChildRemote (s.self parentId) child.actorClass child.node child.options none

/-- An actor without children, instance 0. -/
def alone (id : N) (actorClass : String) (options : SpawnOptions V)
    (supervision : ChildSupervisionOptions) : Nodes N V where
  toTables := (Tables.init id).spawn actorClass options none
  childSupervision := fun _ => supervision
  childSupervisor := .new
  hosted := fun _ _ => none
  remoteParents := fun _ => ∅
  notified := []
  granted := []
  replaced := []

/-! ## One operation after another -/

/-- What is asked of the node, and what happens on it or on another. -/
inductive Operation (N V : Type) where
  | spawn (actorClass : String) (options : SpawnOptions V)
  | spawnChild (parentRef : ActorRef N) (child : ChildSpec N V)
  | stop (actorRef : ActorRef N)
  | restart (actorRef : ActorRef N)
  | stopRemoteChild (childInstanceId : ActorId)
  | crash (node : N) (id : ActorId) (now : Nat)
  deriving DecidableEq, Repr

/-- A node without actors. -/
def init (id : N) (childSupervision : ActorId → ChildSupervisionOptions) : Nodes N V where
  toTables := .init id
  childSupervision := childSupervision
  childSupervisor := .new
  hosted := fun _ _ => none
  remoteParents := fun _ => ∅
  notified := []
  granted := []
  replaced := []

def perform (stringify : List V → String) (s : Nodes N V) : Operation N V → Nodes N V
  | .spawn actorClass options => s.spawn actorClass options none
  | .spawnChild parentRef child =>
      if child.node = s.id then s.spawnChild parentRef child.actorClass child.options none
      else s.spawnChildRemote parentRef child.actorClass child.node child.options none
  | .stop actorRef => s.stop actorRef
  | .restart actorRef => s.restart actorRef
  | .stopRemoteChild childInstanceId => s.stopRemoteChild childInstanceId
  | .crash node id now => s.crash stringify node id now

/-- A parent with a child between its older and its younger siblings. -/
structure Setting (N V : Type) where
  nodeId : N
  parentClass : String
  parentOptions : SpawnOptions V
  supervision : ChildSupervisionOptions
  older : List (ChildSpec N V)
  younger : List (ChildSpec N V)
  actorClass : String
  options : SpawnOptions V
  deriving DecidableEq, Repr

/-- The family, with the child on the given node. -/
def family (f : Setting N V) (node : N) : Nodes N V :=
  (f.older ++ ⟨node, f.actorClass, f.options⟩ :: f.younger).foldl (startChild 0)
    (alone f.nodeId f.parentClass f.parentOptions f.supervision)

/-- What has become of a child. -/
structure Outcome where
  granted : List Bool
  /-- An instance of it runs on its node. -/
  live : Bool
  /-- The watchers of its latest instance have been told. -/
  notified : Bool
  /-- The parent has an instance of it in one of its structures. -/
  tracked : Bool
  deriving DecidableEq, Repr

/-- Does `id` run on the node? -/
def runsOn (s : Nodes N V) (node : N) (id : ActorId) : Bool :=
  if node = s.id then id ∈ s.actors else (s.hosted node id).isSome

/-- The ids in `context.children`, `context.childOrder` and `remoteChildren`. -/
def childIds (s : Nodes N V) (parentId : ActorId) : List ActorId :=
  (s.context parentId).children.map (·.id) ++ (s.context parentId).childOrder.map (·.id) ++
    s.remoteChildren.map (·.childRef.id)

def outcome (s : Nodes N V) (parentId : ActorId) (node : N) (first : ActorId) : Outcome where
  granted := s.granted
  live := (s.instances first).any (s.runsOn node)
  notified := s.notified.any (·.1 = s.current first)
  tracked := (s.instances first).any ((s.childIds parentId).contains ·)

/-- What becomes of the child on the given node when it crashes at these times. -/
def runOn (stringify : List V → String) (f : Setting N V) (times : List Nat) (node : N) :
    Outcome :=
  let first := f.older.length + 1
  ((family f node).crashes stringify node first times).outcome 0 node first

end Nodes

end Libeam.Supervision
