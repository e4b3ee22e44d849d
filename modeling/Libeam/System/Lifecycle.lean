import Libeam.System.Step
/-!
# Stopping, restarting and supervision

`stop`, `stopSingle` and `restart` are asynchronous functions: between their
awaits the instance is still in the tables.  A call in progress is a chain of
frames, because `stop` awaits the stops of the children.  Frames resume in any
order; the descent into a local child is a step of its own.  Watches, links and
timers run no message handler and are left out, the supervision of children
appears as `stop` and `restart` calls.
-/

namespace Libeam.System

open Mailbox

structure SpawnOptions where
  name : Option String := none
  mailbox : MailboxConfig := {}
  deriving DecidableEq, Repr

/-- An entry of `actorMetadata`, as far as stopping and restarting read it. -/
structure InstanceMetadata where
  options : SpawnOptions
  parent : Option ActorId
  deriving DecidableEq, Repr

/-- `context.childOrder` holds references to children on any node. -/
inductive ChildRef where
  | onNode (id : ActorId)
  | remote (id : Nat)
  deriving DecidableEq, Repr

/-- Where a call of `stop` or `stopSingle` is. -/
inductive StopPhase where
  /-- Invoked by the stop of the parent. -/
  | called
  /-- In the loop over the children, at the `await` before these. -/
  | children (rest : List ChildRef)
  | unregistering
  | terminating
  deriving DecidableEq, Repr

structure StopFrame where
  id : ActorId
  name : Option String
  phase : StopPhase
  deriving DecidableEq, Repr

structure StopCall where
  /-- The innermost call first. -/
  frames : List StopFrame
  /-- What `restart` spawns once the instance is stopped. -/
  respawn : Option InstanceMetadata
  deriving DecidableEq, Repr

/-! ## The root supervisor -/

inductive SupervisionStrategy where
  | Restart
  | Stop
  deriving DecidableEq, Repr

structure RestartRecord where
  count : Nat
  timestamp : Nat
  deriving DecidableEq, Repr

structure Supervisor where
  strategy : SupervisionStrategy
  maxRestarts : Nat
  periodMs : Nat
  restartCounts : ActorId → Option RestartRecord

namespace Supervisor

def new (strategy : SupervisionStrategy) (maxRestarts periodMs : Nat) : Supervisor :=
  ⟨strategy, maxRestarts, periodMs, fun _ => none⟩

/-- The root actor part of `handleCrash`: the counts, and whether to stop or to
restart the instance. -/
def handleCrash (v : Supervisor) (id : ActorId) (now : Nat) :
    Supervisor × SupervisionStrategy :=
  let record := (v.restartCounts id).getD ⟨0, now⟩
  let record := if v.periodMs < now - record.timestamp then ⟨0, now⟩ else record
  if v.maxRestarts ≤ record.count then
    ({ v with restartCounts := Function.update v.restartCounts id none }, .Stop)
  else
    ({ v with
        restartCounts := Function.update v.restartCounts id
          (some { record with count := record.count + 1 }) }, v.strategy)

end Supervisor

/-! ## Instances and calls -/

structure Lifecycle (V : Type) where
  node : Node V
  actorMetadata : ActorId → Option InstanceMetadata
  childOrder : ActorId → List ChildRef
  /-- Instances spawned on behalf of a parent on another node. -/
  remoteParents : Finset ActorId
  supervisor : Supervisor
  calls : List StopCall
  /-- History: an instance, and how many handlers had started, when a cast
  handler of it threw or its `terminate()` was invoked. -/
  deaths : List (ActorId × Nat)

inductive LifecycleAction (V : Type) where
  | node (a : Action V)
  | spawn (options : SpawnOptions) (initThrows : Bool)
  | spawnChild (parent : ActorId) (options : SpawnOptions) (initThrows : Bool)
  | stop (id : ActorId) (name : Option String)
  | stopSingle (id : ActorId) (name : Option String)
  | restart (id : ActorId) (name : Option String)
  | superviseCrash (now : Nat)
  | stopResumes (index : Nat) (initThrows : Bool)
  | stopRejects (index : Nat)
  deriving DecidableEq, Repr

namespace Lifecycle

variable {V : Type}

def init (supervisor : Supervisor) : Lifecycle V where
  node := .init
  actorMetadata := fun _ => none
  childOrder := fun _ => []
  remoteParents := ∅
  supervisor := supervisor
  calls := []
  deaths := []

def recordDeath (l : Lifecycle V) (id : ActorId) : Lifecycle V :=
  { l with deaths := l.deaths ++ [(id, l.node.started.length)] }

def spawn (l : Lifecycle V) (options : SpawnOptions) (initThrows : Bool) :
    Lifecycle V :=
  { l with
    node := l.node.spawn options.mailbox initThrows
    actorMetadata := Function.update l.actorMetadata l.node.nextId
      (some ⟨options, none⟩) }

/-- Throws without effect when the parent is gone. -/
def spawnChild (l : Lifecycle V) (parent : ActorId) (options : SpawnOptions)
    (initThrows : Bool) : Lifecycle V :=
  if parent ∈ l.node.actors then
    { l with
      node := l.node.spawn options.mailbox initThrows
      actorMetadata := Function.update l.actorMetadata l.node.nextId
        (some ⟨options, some parent⟩)
      childOrder := Function.update l.childOrder parent
        (l.childOrder parent ++ [.onNode l.node.nextId]) }
  else l

/-- Remove the instance from the children of its parent. -/
def detach (l : Lifecycle V) (id : ActorId) : Lifecycle V :=
  match (l.actorMetadata id).bind InstanceMetadata.parent with
  | none => l
  | some parent =>
      if parent ∈ l.node.actors then
        { l with
          childOrder := Function.update l.childOrder parent
            ((l.childOrder parent).erase (.onNode id)) }
      else l

/-- From the loop over the children of `stop` to its next `await`.  The empty
name counts as none. -/
def stopChildren (l : Lifecycle V) (id : ActorId) (name : Option String) :
    List ChildRef → Lifecycle V × List StopFrame
  | .onNode child :: rest =>
      (l, [⟨child, (l.actorMetadata child).bind (·.options.name), .called⟩,
        ⟨id, name, .children rest⟩])
  | .remote _ :: rest => (l, [⟨id, name, .children rest⟩])
  | [] =>
      let l := l.detach id
      if name.any (· ≠ "") then (l, [⟨id, name, .unregistering⟩])
      else (l.recordDeath id, [⟨id, name, .terminating⟩])

/-- The deletions at the end of `stop` and `stopSingle`. -/
def remove (l : Lifecycle V) (id : ActorId) : Lifecycle V :=
  { l with
    node := l.node.remove id
    actorMetadata := Function.update l.actorMetadata id none }

/-- The innermost frame of a call continues; the frames that take its place. -/
def resumeFrame (l : Lifecycle V) (frame : StopFrame) : Lifecycle V × List StopFrame :=
  match frame.phase with
  | .called =>
      if frame.id ∈ l.node.actors then
        l.stopChildren frame.id frame.name (l.childOrder frame.id)
      else (l, [])
  | .children rest => l.stopChildren frame.id frame.name rest
  | .unregistering => (l.recordDeath frame.id, [{ frame with phase := .terminating }])
  | .terminating => (l.remove frame.id, [])

/-- A new call, up to its first `await`. -/
def call (l : Lifecycle V) (frames : Lifecycle V × List StopFrame)
    (respawn : Option InstanceMetadata) : Lifecycle V :=
  { frames.1 with calls := l.calls ++ [⟨frames.2, respawn⟩] }

def stop (l : Lifecycle V) (id : ActorId) (name : Option String) : Lifecycle V :=
  if id ∈ l.node.actors then
    l.call (l.stopChildren id name (l.childOrder id)) none
  else l

/-- `stopSingle` leaves the children alone. -/
def stopSingle (l : Lifecycle V) (id : ActorId) (name : Option String) : Lifecycle V :=
  if id ∈ l.node.actors then l.call (l.stopChildren id name []) none else l

def restart (l : Lifecycle V) (id : ActorId) (name : Option String) : Lifecycle V :=
  match l.actorMetadata id with
  | none => l
  | some metadata =>
      if id ∈ l.node.actors then
        l.call (l.stopChildren id name []) (some metadata)
      else l.call (l, []) (some metadata)

/-- The end of `restart`: the same options, under the same parent. -/
def respawn (l : Lifecycle V) (metadata : InstanceMetadata) (initThrows : Bool) :
    Lifecycle V :=
  match metadata.parent with
  | none => l.spawn metadata.options initThrows
  | some parent => l.spawnChild parent metadata.options initThrows

/-- What the call at `index` awaits is fulfilled. -/
def stopResumes (l : Lifecycle V) (index : Nat) (initThrows : Bool) :
    Option (Lifecycle V) :=
  match l.calls[index]? with
  | none => none
  | some ⟨frame :: outer, respawn⟩ =>
      let result := l.resumeFrame frame
      some { result.1 with
        calls := l.calls.set index ⟨result.2 ++ outer, respawn⟩ }
  | some ⟨[], none⟩ => some { l with calls := l.calls.eraseIdx index }
  | some ⟨[], some metadata⟩ =>
      some ({ l with calls := l.calls.eraseIdx index }.respawn metadata initThrows)

/-- What it awaits is rejected, and so is every call that awaits the call. -/
def stopRejects (l : Lifecycle V) (index : Nat) : Option (Lifecycle V) :=
  if index < l.calls.length then
    some { l with calls := l.calls.eraseIdx index }
  else none

/-- `Supervisor.handleCrash`, called while the runner is in its crash path. -/
def superviseCrash (l : Lifecycle V) (now : Nat) : Option (Lifecycle V) :=
  match l.node.stack with
  | ⟨id, _, .crashing⟩ :: _ =>
      let metadata := l.actorMetadata id
      -- a parent decides about its children
      if (metadata.bind InstanceMetadata.parent).isSome ∨ id ∈ l.remoteParents then
        some l
      else
        let name := metadata.bind (·.options.name)
        let (supervisor, decision) := l.supervisor.handleCrash id now
        let l := { l with supervisor := supervisor }
        some (match decision with
          | .Restart => l.restart id name
          | .Stop => l.stop id name)
  | _ => none

/-- The instance whose cast handler is running now. -/
def castOnTop (s : Node V) : Option ActorId :=
  match s.stack with
  | ⟨id, _, .handling msg⟩ :: _ => if msg.type = .cast then some id else none
  | _ => none

/-- An action of the node; an error of a cast handler is a crash. -/
def nodeStep (l : Lifecycle V) (a : Action V) : Option (Lifecycle V) :=
  match a with
  | .spawn _ _ | .remove _ | .injectMessages _ _ => none
  | .handlerThrows error =>
      let crashed := match castOnTop l.node with
        | some id => l.recordDeath id
        | none => l
      (l.node.handlerThrows error).map fun s => { crashed with node := s }
  | a => (l.node.step a).map fun s => { l with node := s }

def step (l : Lifecycle V) : LifecycleAction V → Option (Lifecycle V)
  | .node a => l.nodeStep a
  | .spawn options initThrows => some (l.spawn options initThrows)
  | .spawnChild parent options initThrows => some (l.spawnChild parent options initThrows)
  | .stop id name => some (l.stop id name)
  | .stopSingle id name => some (l.stopSingle id name)
  | .restart id name => some (l.restart id name)
  | .superviseCrash now => l.superviseCrash now
  | .stopResumes index initThrows => l.stopResumes index initThrows
  | .stopRejects index => l.stopRejects index

end Lifecycle

end Libeam.System
