import Libeam.System.Step
/-!
# Messages that arrive by RPC

The transport hands a call or a cast of another node to `_handleRpcCall` or
`_handleRpcCast`.  `Remote` is a node with the record of what reached a live instance
this way and of every start of a message handler, with the state the handler found its
instance in.
-/

namespace Libeam.System

/-- The handler was invoked for a message that came by RPC. -/
def Task.isRpc {V : Type} : Task V → Bool
  | .rpcCall | .rpcCast => true
  | _ => false

structure HandlerStart (V : Type) where
  id : ActorId
  msg : StashedMessage V
  task : Task V
  /-- The mailbox of the instance was paused. -/
  paused : Bool
  /-- A handler of the instance had started and not finished. -/
  busy : Bool
  deriving DecidableEq, Repr

structure Remote (S V : Type) where
  node : Node V
  /-- History: sender, instance and message, in the order the RPCs were received. -/
  received : List (S × ActorId × StashedMessage V)
  starts : List (HandlerStart V)

inductive RemoteAction (S V : Type) where
  /-- Anything but an RPC. -/
  | node (a : Action V)
  | rpcCall (sender : S) (id : ActorId) (message : V)
  | rpcCast (sender : S) (id : ActorId) (message : V)
  deriving DecidableEq, Repr

namespace Remote

variable {S V : Type}

def init : Remote S V := ⟨.init, [], []⟩

/-- The handlers that start between two states, at most one in a step. -/
def newStarts (s t : Node V) : List (HandlerStart V) :=
  (t.started.drop s.started.length).filterMap fun start =>
    t.stack.head?.map fun r =>
      { id := start.1
        msg := start.2
        task := r.task
        paused := start.1 ∈ s.pausedMailboxes
        busy := s.runners.any fun r => r.id = start.1 ∧ r.isHandling }

def observe (w : Remote S V) (t : Node V) : Remote S V :=
  { w with node := t, starts := w.starts ++ newStarts w.node t }

/-- An RPC that finds no instance throws or is dropped. -/
def receive (w : Remote S V) (sender : S) (id : ActorId) (msg : StashedMessage V) :
    Remote S V :=
  { w with
    received :=
      if id ∈ w.node.actors then w.received ++ [(sender, id, msg)] else w.received }

def step (w : Remote S V) : RemoteAction S V → Option (Remote S V)
  | .node (.rpcCall _ _) | .node (.rpcCast _ _) => none
  | .node a => (w.node.step a).map w.observe
  | .rpcCall sender id message =>
      (w.node.step (.rpcCall id message)).map
        (w.receive sender id ⟨w.node.nextUid, .call, message⟩).observe
  | .rpcCast sender id message =>
      (w.node.step (.rpcCast id message)).map
        (w.receive sender id ⟨w.node.nextUid, .cast, message⟩).observe

end Remote

end Libeam.System
