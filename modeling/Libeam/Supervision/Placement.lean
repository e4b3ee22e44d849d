import Libeam.Supervision.Spawn
/-!
# Placement

`spawn` asks the placement engine for a node.  When that is another node, it sends a `spawn`
message and returns a reference; the handler of the message spawns again with the same options.
The code of an actor class runs while its instance is `constructing` and may spawn in its turn.
Identifiers come from `uuidv4`, a counter over all nodes.
-/

namespace Libeam.Supervision

open Libeam.System (ActorId)

inductive PlacementStrategy where
  | «local»
  | roundRobin
  deriving DecidableEq, Repr

/-- A `Cluster`, as one node sees it; it need not have `getMembersByRole`. -/
structure ClusterView (N : Type) where
  nodeId : N
  getMembers : List N
  getMembersByRole : Option (String → List N)

/-- `NoRoleMatchError`, with the node that lacks the role, if the strategy named one. -/
inductive PlacementError (N : Type) where
  | noRoleMatch (role : String) (nodeId : Option N)
  deriving DecidableEq, Repr

structure PlacementEngine (N : Type) where
  cluster : ClusterView N
  roundRobinCounters : String → Option Nat

namespace PlacementEngine

variable {N : Type} [DecidableEq N]

/-- `role && this.cluster.getMembersByRole`: the empty role counts as none. -/
def membersByRole (e : PlacementEngine N) (role : Option String) : Option (List N) :=
  match role, e.cluster.getMembersByRole with
  | some role, some getMembersByRole => if role ≠ "" then some (getMembersByRole role) else none
  | _, _ => none

def selectNode (e : PlacementEngine N) (strategy : PlacementStrategy) (role : Option String) :
    PlacementEngine N × Except (PlacementError N) N :=
  match strategy with
  | .local =>
      match e.membersByRole role with
      | some matching =>
          if e.cluster.nodeId ∈ matching then (e, .ok e.cluster.nodeId)
          else (e, .error (.noRoleMatch (role.getD "") (some e.cluster.nodeId)))
      | none => (e, .ok e.cluster.nodeId)
  | .roundRobin =>
      match (e.membersByRole role).getD e.cluster.getMembers with
      | [] =>
          if role.getD "" ≠ "" then (e, .error (.noRoleMatch (role.getD "") none))
          else (e, .ok e.cluster.nodeId)
      | first :: others =>
          let members := first :: others
          let counterKey := role.getD "__all__"
          let counter := (e.roundRobinCounters counterKey).elim 0 (· + 1)
          ({ e with
              roundRobinCounters :=
                Function.update e.roundRobinCounters counterKey (some counter) },
            .ok (members.get ⟨counter % members.length, Nat.mod_lt _ (Nat.succ_pos _)⟩))

end PlacementEngine

structure PlacedSpawnOptions (V : Type) extends LocalSpawnOptions V where
  strategy : PlacementStrategy := .local
  deriving DecidableEq, Repr

/-- An instance, with the reference whose `spawn` led to it on another node. -/
structure Instance (N V : Type) where
  self : ActorRef N
  actorClassName : String
  options : PlacedSpawnOptions V
  cause : Option (ActorRef N)
  deriving DecidableEq, Repr

structure PlacingNode (N V : Type) where
  placementEngine : PlacementEngine N
  isShuttingDown : Bool
  isDraining : Bool
  /-- The names under which a class is found, in the node's own table or the global one. -/
  actorClasses : Finset String
  actors : List (Instance N V)
  /-- The instances whose constructor runs, the innermost first. -/
  constructing : List (Instance N V)

/-- A `spawn` message, and the reference the first sender of the chain returned. -/
structure SpawnMessage (N V : Type) where
  targetNodeId : N
  actorClassName : String
  actorId : ActorRef N
  options : PlacedSpawnOptions V
  cause : ActorRef N
  deriving DecidableEq, Repr

structure PlacingCluster (N V : Type) where
  node : N → PlacingNode N V
  inFlight : List (SpawnMessage N V)
  nextId : ActorId
  /-- History: the references to other nodes that `spawn` returned to its callers. -/
  returned : List (ActorRef N)
  /-- History: every instance that entered a table, with the node. -/
  created : List (N × Instance N V)

inductive PlacingAction (N V : Type) where
  /-- Code on the node calls `spawn`. -/
  | spawn (n : N) (actorClassName : String) (options : PlacedSpawnOptions V)
  /-- The innermost constructor of the node returns or throws. -/
  | constructed (n : N)
  | constructorThrows (n : N)
  | deliver (index : Nat)
  | lose (index : Nat)
  /-- An instance that is not placed begins: a child, a restart, a migrated actor. -/
  | begin (n : N) (actorClassName : String) (options : PlacedSpawnOptions V)
  | stop (n : N) (id : ActorId)
  | membership (n : N) (getMembers : List N) (getMembersByRole : Option (String → List N))
  | registerActorClass (n : N) (actorClassName : String)
  | closing (n : N) (isShuttingDown isDraining : Bool)

namespace PlacingCluster

variable {N V : Type} [DecidableEq N]

/-- Nothing was spawned, and the nodes have any views of the cluster. -/
def start (getMembers : N → List N) (getMembersByRole : N → Option (String → List N))
    (actorClasses : N → Finset String) : PlacingCluster N V where
  node := fun n =>
    ⟨⟨⟨n, getMembers n, getMembersByRole n⟩, fun _ => none⟩, false, false, actorClasses n, [], []⟩
  inFlight := []
  nextId := 0
  returned := []
  created := []

def setNode (c : PlacingCluster N V) (n : N) (node : PlacingNode N V) : PlacingCluster N V :=
  { c with node := Function.update c.node n node }

/-- `new ActorId(nodeId, uuidv4(), name)` -/
def newRef (c : PlacingCluster N V) (n : N) (name : Option String) : ActorRef N :=
  ⟨n, c.nextId, name, 0⟩

/-- The constructor of a new instance begins on the node. -/
def construct (c : PlacingCluster N V) (n : N) (actorClassName : String)
    (options : PlacedSpawnOptions V) (cause : Option (ActorRef N)) : PlacingCluster N V :=
  { c.setNode n { c.node n with
      constructing := ⟨c.newRef n options.name, actorClassName, options, cause⟩ ::
        (c.node n).constructing } with
    nextId := c.nextId + 1 }

/-- `ActorSystem.spawn`, and the reference it returns, unless it throws.  `cause` is the reference
that was returned for the message being handled. -/
def spawn (c : PlacingCluster N V) (n : N) (actorClassName : String)
    (options : PlacedSpawnOptions V) (cause : Option (ActorRef N)) :
    PlacingCluster N V × Option (ActorRef N) :=
  let node := c.node n
  if node.isShuttingDown ∨ node.isDraining then (c, none)
  else
    match node.placementEngine.selectNode options.strategy options.role with
    | (_, .error _) => (c, none)
    | (placementEngine, .ok targetNodeId) =>
        let c := c.setNode n { node with placementEngine }
        let actorRef := c.newRef targetNodeId options.name
        if targetNodeId = n then
          (c.construct n actorClassName options cause, some actorRef)
        else
          ({ c with
              nextId := c.nextId + 1
              inFlight := c.inFlight ++
                [⟨targetNodeId, actorClassName, actorRef, options, cause.getD actorRef⟩] },
            some actorRef)

/-- The `spawn` branch of `_handleRpcCast`. -/
def handleSpawn (c : PlacingCluster N V) (message : SpawnMessage N V) : PlacingCluster N V :=
  if message.actorClassName ∈ (c.node message.targetNodeId).actorClasses then
    (c.spawn message.targetNodeId message.actorClassName message.options message.cause).1
  else c

def step (c : PlacingCluster N V) : PlacingAction N V → Option (PlacingCluster N V)
  | .spawn n actorClassName options =>
      let (c, actorRef) := c.spawn n actorClassName options none
      some { c with returned := c.returned ++ (actorRef.filter fun r => r.systemId ≠ n).toList }
  | .constructed n =>
      match (c.node n).constructing with
      | [] => none
      | i :: constructing =>
          some { c.setNode n { c.node n with
              constructing := constructing
              actors := (c.node n).actors ++ [i] } with
            created := c.created ++ [(n, i)] }
  | .constructorThrows n =>
      match (c.node n).constructing with
      | [] => none
      | _ :: constructing => some (c.setNode n { c.node n with constructing := constructing })
  | .deliver index =>
      match c.inFlight[index]? with
      | none => none
      | some message =>
          -- the message arrives when the node runs nothing else
          if (c.node message.targetNodeId).constructing = [] then
            some ({ c with inFlight := c.inFlight.eraseIdx index }.handleSpawn message)
          else none
  | .lose index =>
      match c.inFlight[index]? with
      | none => none
      | some _ => some { c with inFlight := c.inFlight.eraseIdx index }
  | .begin n actorClassName options => some (c.construct n actorClassName options none)
  | .stop n id =>
      some (c.setNode n { c.node n with
        actors := (c.node n).actors.filter fun i => i.self.id ≠ id })
  | .membership n getMembers getMembersByRole =>
      let placementEngine := (c.node n).placementEngine
      some (c.setNode n { c.node n with
        placementEngine := { placementEngine with
          cluster := { placementEngine.cluster with getMembers, getMembersByRole } } })
  | .registerActorClass n actorClassName =>
      some (c.setNode n { c.node n with
        actorClasses := insert actorClassName (c.node n).actorClasses })
  | .closing n isShuttingDown isDraining =>
      some (c.setNode n { c.node n with isShuttingDown, isDraining })

end PlacingCluster

end Libeam.Supervision
