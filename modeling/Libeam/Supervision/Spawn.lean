import Libeam.Supervision.Tree
import Libeam.Registry.Sync
/-!
# Spawning an actor

`spawn`, `spawnChild` and the handler of a `child:spawn` request run without an
`await`.  They run code of the actor class twice: the constructor, before the
instance is in the tables, and `init`, afterwards.  What that code does to the node
is arbitrary, except that it takes no instance out of the tables before something
is awaited.
-/

namespace Libeam.Supervision

open Libeam.System (ActorId StashedMessage)
open Mailbox (MailboxConfig BoundedMailbox)
open Registry (ActorLocation)

/-- The options that `spawn` with local placement reads. -/
structure LocalSpawnOptions (V : Type) extends SpawnOptions V where
  role : Option String := none
  mailbox : MailboxConfig := {}
  deriving DecidableEq, Repr

/-- What a node has when it spawns an actor. -/
structure SpawnNode (N V : Type) where
  id : N
  isShuttingDown : Bool
  isDraining : Bool
  /-- `getMembersByRole` of the cluster, which may not have it. -/
  membersByRole : Option (String → List N)
  defaultMailboxConfig : MailboxConfig
  actors : Finset ActorId
  mailboxes : ActorId → Option (BoundedMailbox (StashedMessage V))
  context : ActorId → ActorContext N
  actorMetadata : ActorId → Option (ActorMetadata N V)
  /-- The node and the actor on whose behalf an instance was spawned. -/
  remoteParents : ActorId → Option (N × ActorId)
  /-- The bindings in this node's copy of the registry. -/
  registry : String → Option (ActorLocation N)
  pausedMailboxes : Finset ActorId
  mailboxScheduled : Finset ActorId

/-- What the code of an actor class does, and the message of what it throws. -/
structure ActorClass (N V : Type) where
  name : String
  construct : SpawnNode N V → SpawnNode N V × Option String
  init : SpawnNode N V → ActorId → List V → SpawnNode N V × Option String
  init_keeps : ∀ s id args, s.actors ⊆ (init s id args).1.actors

inductive SpawnError (N : Type) where
  | shuttingDown (operation : String)
  | noRoleMatch (role : String) (nodeId : N)
  | actorNotFound (actorId : ActorId) (nodeId : N)
  | thrown (message : String)
  deriving DecidableEq, Repr

structure ChildSpawnRequest (N V : Type) where
  childInstanceId : ActorId
  actorClassName : String
  options : LocalSpawnOptions V
  parentNodeId : N
  parentActorId : ActorId
  deriving DecidableEq, Repr

structure ChildSpawnResponse where
  success : Bool
  childActorId : Option ActorId := none
  error : Option String := none
  deriving DecidableEq, Repr

namespace SpawnNode

variable {N V : Type}

/-! ## The instance enters the tables -/

/-- `{ ...this.defaultMailboxConfig, ...options.mailbox }` -/
def mailboxConfig (s : SpawnNode N V) (config : MailboxConfig) : MailboxConfig :=
  ⟨config.maxSize.or s.defaultMailboxConfig.maxSize,
    config.overflowStrategy.or s.defaultMailboxConfig.overflowStrategy⟩

def enter (s : SpawnNode N V) (id : ActorId) (metadata : ActorMetadata N V)
    (mailbox : MailboxConfig) : SpawnNode N V :=
  { s with
    actors := insert id s.actors
    context := Function.update s.context id ⟨[], []⟩
    mailboxes := Function.update s.mailboxes id (some (.new (s.mailboxConfig mailbox)))
    actorMetadata := Function.update s.actorMetadata id (some metadata) }

def listChild (s : SpawnNode N V) (parentId : ActorId) (childRef : ActorRef N) :
    SpawnNode N V :=
  { s with
    context := Function.update s.context parentId
      ⟨(s.context parentId).children ++ [childRef],
        (s.context parentId).childOrder ++ [childRef]⟩ }

/-- The part of `registry.register` that runs at once; the empty name counts as none. -/
def register (s : SpawnNode N V) (name : Option String) (id : ActorId) : SpawnNode N V :=
  match name with
  | none => s
  | some name =>
      if name ≠ "" then
        { s with registry := Function.update s.registry name (some ⟨s.id, id⟩) }
      else s

def scheduleProcessMailbox (s : SpawnNode N V) (id : ActorId) : SpawnNode N V :=
  if id ∉ s.mailboxScheduled ∧ id ∉ s.pausedMailboxes ∧ id ∈ s.actors then
    { s with mailboxScheduled := insert id s.mailboxScheduled }
  else s

/-! ## The ways to spawn -/

/-- The constructor, what is entered for the instance, and `init`. -/
def bringUp (s : SpawnNode N V) (actorClass : ActorClass N V) (id : ActorId)
    (args : Option (List V)) (entered : SpawnNode N V → SpawnNode N V) :
    SpawnNode N V × Option String :=
  match actorClass.construct s with
  | (constructed, some message) => (constructed, some message)
  | (constructed, none) =>
      match actorClass.init (entered constructed) id (args.getD []) with
      | (started, some message) => (started, some message)
      | (started, none) => (started.scheduleProcessMailbox id, none)

/-- What `spawn` enters between the constructor and `init`. -/
def enterRoot (actorClass : ActorClass N V) (options : LocalSpawnOptions V) (id : ActorId)
    (s : SpawnNode N V) : SpawnNode N V :=
  (s.enter id ⟨actorClass.name, options.toSpawnOptions, none⟩ options.mailbox).register
    options.name id

/-- `selectNode` with the strategy `local`; the empty role counts as none. -/
def selectLocal [DecidableEq N] (s : SpawnNode N V) (role : Option String) :
    Except (SpawnError N) N :=
  match role, s.membersByRole with
  | some role, some membersByRole =>
      if role ≠ "" ∧ s.id ∉ membersByRole role then .error (.noRoleMatch role s.id)
      else .ok s.id
  | _, _ => .ok s.id

/-- What `spawn` and `spawnChild` return or throw. -/
def spawnResult (s : SpawnNode N V) (id : ActorId) (name : Option String) :
    Option String → Except (SpawnError N) (ActorRef N)
  | some message => .error (.thrown message)
  | none => .ok ⟨s.id, id, name, 0⟩

/-- `id` is what `uuidv4` returns. -/
def spawn [DecidableEq N] (s : SpawnNode N V) (actorClass : ActorClass N V)
    (options : LocalSpawnOptions V) (id : ActorId) :
    SpawnNode N V × Except (SpawnError N) (ActorRef N) :=
  if s.isShuttingDown ∨ s.isDraining then (s, .error (.shuttingDown "spawn actors"))
  else
    match s.selectLocal options.role with
    | .error error => (s, .error error)
    | .ok _ =>
        let up := s.bringUp actorClass id options.args (enterRoot actorClass options id)
        (up.1, s.spawnResult id options.name up.2)

def enterChild (parentRef : ActorRef N) (actorClass : ActorClass N V)
    (options : LocalSpawnOptions V) (id : ActorId) (s : SpawnNode N V) : SpawnNode N V :=
  ((s.enter id ⟨actorClass.name, options.toSpawnOptions, some parentRef⟩
    options.mailbox).listChild parentRef.id ⟨s.id, id, options.name, 0⟩).register options.name id

def spawnChild (s : SpawnNode N V) (parentRef : ActorRef N) (actorClass : ActorClass N V)
    (options : LocalSpawnOptions V) (id : ActorId) :
    SpawnNode N V × Except (SpawnError N) (ActorRef N) :=
  if s.isShuttingDown ∨ s.isDraining then (s, .error (.shuttingDown "spawn child actors"))
  else if parentRef.id ∉ s.actors then (s, .error (.actorNotFound parentRef.id s.id))
  else
    let up := s.bringUp actorClass id options.args
      (enterChild parentRef actorClass options id)
    (up.1, s.spawnResult id options.name up.2)

def enterRemoteChild (actorClass : ActorClass N V) (request : ChildSpawnRequest N V)
    (s : SpawnNode N V) : SpawnNode N V :=
  let id := request.childInstanceId
  let entered := s.enter id ⟨actorClass.name, request.options.toSpawnOptions, none⟩
    request.options.mailbox
  { entered with
    remoteParents := Function.update entered.remoteParents id
      (some (request.parentNodeId, request.parentActorId)) }.register request.options.name id

/-- `_handleRemoteChildSpawn`, with the classes registered on this node. -/
def handleRemoteChildSpawn (s : SpawnNode N V)
    (actorClasses : String → Option (ActorClass N V)) (request : ChildSpawnRequest N V) :
    SpawnNode N V × ChildSpawnResponse :=
  match actorClasses request.actorClassName with
  | none =>
      (s, { success := false
            error := some ("Actor class not registered: " ++ request.actorClassName) })
  | some actorClass =>
      let up := s.bringUp actorClass request.childInstanceId request.options.args
        (enterRemoteChild actorClass request)
      match up.2 with
      | some message => (up.1, { success := false, error := some message })
      | none =>
          (up.1, { success := true, childActorId := some request.childInstanceId })

end SpawnNode

end Libeam.Supervision
