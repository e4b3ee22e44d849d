import Libeam.Migration.Migrations
/-!
# Messages sent through references

A call or a cast through a named reference asks the registry of its node where the name is,
awaits the answer, and either gives the message to an instance of its own node or sends it to
the node of the answer.  `Routing` is a cluster with its dispatches: names are registered,
actors restarted, stopped and migrated as in `Migrations`.
-/

namespace Libeam.Migration

open Libeam.System Registry

/-- The `ActorId` of a reference.  Its `uuid` is the node an instance was made on and the number
it has there. -/
structure ActorRef (N : Type) where
  systemId : N
  id : N × ActorId
  name : Option String
  deriving DecidableEq, Repr

/-- The locals of `dispatchCall` and `_dispatchCastAsync`. -/
structure Dispatch (N V : Type) where
  node : N
  actorId : ActorRef N
  type : MessageType
  message : V
  /-- What the registry of the node answered. -/
  location : Option (ActorLocation N)
  deriving DecidableEq, Repr

/-- `location?.nodeId ?? systemId` -/
def Dispatch.nodeId {N V : Type} (d : Dispatch N V) : N :=
  d.location.elim d.actorId.systemId (·.nodeId)

/-- A message that a node was done with. -/
structure Delivery (N V : Type) where
  dispatch : Dispatch N V
  /-- The instance at the location was in the table of its node. -/
  live : Bool
  /-- The instance that got the message, in its mailbox or in its handler. -/
  reached : Option (N × ActorId)
  deriving DecidableEq, Repr

structure Routing (N V : Type) where
  migrations : Migrations N V
  /-- Dispatches that await the registry. -/
  awaiting : List (Dispatch N V)
  /-- RPC messages, each on its way to the `nodeId` of its dispatch. -/
  inFlight : List (Dispatch N V)
  /-- History: what became of the messages that arrived. -/
  deliveries : List (Delivery N V)

inductive RoutingAction (N V : Type) where
  | system (a : MigrationsAction N V)
  | dispatchCall (n : N) (actorId : ActorRef N) (message : V)
  | dispatchCast (n : N) (actorId : ActorRef N) (message : V)
  /-- The dispatch goes on after its `await`. -/
  | resumes (index : Nat)
  | arrives (index : Nat)
  | lost (index : Nat)

namespace Routing

variable {N V : Type} [LinearOrder N]

def start (migrations : Migrations N V) : Routing N V := ⟨migrations, [], [], []⟩

def system (c : Routing N V) (n : N) : Node V := (c.migrations.host n).system

def setSystem (c : Routing N V) (n : N) (s : Node V) : Routing N V :=
  { c with
    migrations := c.migrations.setHost n { c.migrations.host n with system := s } }

/-- `this.actors.has(id)` -/
def has (c : Routing N V) (n : N) (id : N × ActorId) : Bool :=
  id.1 = n ∧ id.2 ∈ (c.system n).actors

/-- `name ? await this.registry.lookup(name) : null`, as the empty name counts as none. -/
def lookup (c : Routing N V) (n : N) (name : Option String) : Option (ActorLocation N) :=
  match name with
  | some name => if name = "" then none else (c.migrations.host n).registry.lookup name
  | none => none

/-- Is the instance at the location live? -/
def live (c : Routing N V) (location : Option (ActorLocation N)) : Bool :=
  location.any fun location => location.actorId ∈ (c.system location.nodeId).actors

def record (c : Routing N V) (d : Dispatch N V) (live : Bool) (reached : Option (N × ActorId)) :
    Routing N V :=
  { c with deliveries := c.deliveries ++ [⟨d, live, reached⟩] }

/-- The local branch of both functions: an instance without a mailbox gets nothing. -/
def deliverLocal (c : Routing N V) (d : Dispatch N V) : Routing N V :=
  let s := c.system d.node
  let id := d.actorId.id.2
  let reached := if id ∈ s.mailboxes then some (d.node, id) else none
  (c.setSystem d.node (match d.type with
    | .call => s.dispatchCall id d.message
    | .cast => s.dispatchCast id d.message)).record d (c.live d.location) reached

/-- The actor branches of `_handleRpcCall` and `_handleRpcCast`. -/
def deliverRemote (c : Routing N V) (d : Dispatch N V) : Routing N V :=
  if c.has d.nodeId d.actorId.id then
    let s := c.system d.nodeId
    let id := d.actorId.id.2
    (c.setSystem d.nodeId (match d.type with
      | .call => s.handleRpcCall id d.message
      | .cast => s.handleRpcCast id d.message)).record d (c.live d.location)
        (some (d.nodeId, id))
  else c.record d (c.live d.location) none

/-- `dispatchCall` up to its `await`. -/
def dispatchCall (c : Routing N V) (n : N) (actorId : ActorRef N) (message : V) : Routing N V :=
  if (c.migrations.host n).isShuttingDown then c
  else
    { c with
      awaiting := c.awaiting ++ [⟨n, actorId, .call, message, c.lookup n actorId.name⟩] }

/-- `dispatchCast`, with `_dispatchCastAsync` up to its `await`. -/
def dispatchCast (c : Routing N V) (n : N) (actorId : ActorRef N) (message : V) : Routing N V :=
  let d : Dispatch N V := ⟨n, actorId, .cast, message, c.lookup n actorId.name⟩
  if actorId.name.getD "" = "" ∧ actorId.systemId = n then
    if c.has n actorId.id then c.deliverLocal d else c.record d (c.live d.location) none
  else { c with awaiting := c.awaiting ++ [d] }

/-- The rest of `dispatchCall` and of `_dispatchCastAsync`. -/
def resume (c : Routing N V) (d : Dispatch N V) : Routing N V :=
  if d.nodeId = d.node ∧ c.has d.node d.actorId.id then c.deliverLocal d
  else { c with inFlight := c.inFlight ++ [d] }

def step [ToString N] (c : Routing N V) : RoutingAction N V → Option (Routing N V)
  | .system a => (c.migrations.step a).map fun migrations => { c with migrations }
  | .dispatchCall n actorId message => some (c.dispatchCall n actorId message)
  | .dispatchCast n actorId message => some (c.dispatchCast n actorId message)
  | .resumes index =>
      c.awaiting[index]?.map fun d => { c with awaiting := c.awaiting.eraseIdx index }.resume d
  | .arrives index =>
      c.inFlight[index]?.map fun d =>
        { c with inFlight := c.inFlight.eraseIdx index }.deliverRemote d
  | .lost index =>
      c.inFlight[index]?.map fun _ => { c with inFlight := c.inFlight.eraseIdx index }

end Routing

end Libeam.Migration
