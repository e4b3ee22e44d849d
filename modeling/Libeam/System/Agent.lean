import Libeam.System.Step
/-!
# Agents

`AgentActor` holds one value and runs update functions on it; `Agent` sends it the messages.  An
unnamed agent is on the node of its clients, so every method goes through the local branch of
`dispatchCall` or `dispatchCast`.  Update functions are synchronous and do not throw, and values
are not promises: a handler of the agent returns without awaiting.  While an update function runs
it may do to the system what any user code does.
-/

namespace Libeam.System

open Mailbox

inductive AgentMessage (T : Type) where
  | get
  | update (fn : T → T)
  | getAndUpdate (fn : T → T)

/-- The values of a system with an agent over `T`. -/
inductive Value (T W : Type) where
  | message (message : AgentMessage T)
  | state (state : T)
  | undefined
  | other (value : W)

namespace AgentActor

variable {T W : Type}

/-- The result, and the state afterwards. -/
def handleCall (state : T) : AgentMessage T → T × T
  | .get => (state, state)
  | .update fn => (fn state, fn state)
  | .getAndUpdate fn =>
      let oldState := state
      (oldState, fn state)

def handleCast (state : T) : AgentMessage T → T
  | .update fn => fn state
  | .get => state
  | .getAndUpdate _ => state

/-- The handler of a message; `handleCall` answers a message of no known type with the state. -/
def handle (state : T) (msg : StashedMessage (Value T W)) : Value T W × T :=
  match msg.type, msg.message with
  | .call, .message message => (.state (handleCall state message).1, (handleCall state message).2)
  | .cast, .message message => (.undefined, handleCast state message)
  | .call, _ => (.state state, state)
  | .cast, _ => (.undefined, state)

end AgentActor

/-- The methods of `Agent`. -/
inductive Operation (T : Type) where
  | get
  | update (fn : T → T)
  | getAndUpdate (fn : T → T)
  | cast (fn : T → T)

namespace Operation

variable {T W : Type}

def type : Operation T → MessageType
  | .cast _ => .cast
  | .get => .call
  | .update _ => .call
  | .getAndUpdate _ => .call

def payload : Operation T → AgentMessage T
  | .get => .get
  | .update fn => .update fn
  | .getAndUpdate fn => .getAndUpdate fn
  | .cast fn => .update fn

/-- What a method does: `actorRef.call` or `actorRef.cast`. -/
def action (id : ActorId) (op : Operation T) : Action (Value T W) :=
  match op.type with
  | .call => .dispatchCall id (.message op.payload)
  | .cast => .dispatchCast id (.message op.payload)

/-- What the methods are documented to do: the answer, for those that have one, and the new
state. -/
def apply (state : T) : Operation T → Option T × T
  | .get => (some state, state)
  | .update fn => (some (fn state), fn state)
  | .getAndUpdate fn => (some state, fn state)
  | .cast fn => (none, fn state)

end Operation

/-- A node with an agent. -/
structure AgentSystem (T W : Type) where
  node : Node (Value T W)
  id : ActorId
  state : T
  /-- What the handlers of the agent that are running found in `this.state`, innermost first. -/
  read : List T
  /-- History: the operations, each with the identity of its message object. -/
  dispatched : List (Nat × Operation T)
  /-- The calls whose timer rejected them. -/
  timedOut : Finset Nat

inductive AgentAction (T W : Type) where
  | operation (op : Operation T)
  /-- The handler of the agent on top of the stack returns. -/
  | handlerReturns
  | timeout (uid : Nat)
  /-- Whatever else happens on the node, the ticks of the agent's mailbox included. -/
  | other (a : Action (Value T W))

namespace AgentSystem

variable {T W : Type}

/-- `Agent.start`: `init` stores the initial state. -/
def start (node : Node (Value T W)) (config : MailboxConfig) (initialState : T) :
    AgentSystem T W where
  node := node.spawn config false
  id := node.nextId
  state := initialState
  read := []
  dispatched := []
  timedOut := ∅

/-- Is a handler of the agent on top of the stack? -/
def isRunning (s : AgentSystem T W) : Bool :=
  match s.node.stack with
  | [] => false
  | r :: _ => r.id == s.id

/-- The actions of the node that are not the agent's own.  Its messages come from its methods, its
handlers never await, throw or stash, and it is neither stopped nor migrated; messages are not
injected into other mailboxes. -/
def Allows (s : AgentSystem T W) : Action (Value T W) → Bool
  | .remove id | .dispatchCast id _ | .dispatchCall id _ | .rpcCall id _ | .rpcCast id _
  | .syncLocalCast id _ | .stash id | .unstash id | .unstashAll id | .clearStash id
  | .pauseMailbox id | .resumeMailbox id => id != s.id
  | .handlerAwaits | .handlerReturns _ | .handlerThrows _ | .crashHandled => !s.isRunning
  | .injectMessages _ _ => false
  | .spawn _ _ | .tick _ | .handlerResumes _ => true

/-- The node goes on; a handler of the agent that it invokes reads the state. -/
def proceed (s : AgentSystem T W) (node : Node (Value T W)) : AgentSystem T W :=
  let invoked := (node.started.drop s.node.started.length).filter fun p => p.1 = s.id
  { s with
    node := node
    read := invoked.map (fun _ => s.state) ++ s.read }

/-- The handler computes its result from the state it read, and stores the new one. -/
def handlerReturns (s : AgentSystem T W) : Option (AgentSystem T W) :=
  match s.node.stack, s.read with
  | ⟨id, _, .handling msg⟩ :: _, state :: read =>
      if id = s.id then
        let (value, newState) := AgentActor.handle state msg
        (s.node.handlerReturns value).map { s with state := newState, read := read }.proceed
      else none
  | _, _ => none

/-- The timer of a queued call fires before the call is answered, which would have cleared it. -/
def timeout (s : AgentSystem T W) (uid : Nat) : Option (AgentSystem T W) :=
  if s.node.stack = [] ∧ uid ∈ s.node.awaited ∧ uid ∈ s.dispatched.map Prod.fst ∧
      uid ∉ s.node.settled.map Prod.fst then
    some { s with timedOut := insert uid s.timedOut }
  else none

def step (s : AgentSystem T W) : AgentAction T W → Option (AgentSystem T W)
  | .operation op =>
      (s.node.step (op.action s.id)).map fun node =>
        { s.proceed node with dispatched := s.dispatched ++ [(s.node.nextUid, op)] }
  | .handlerReturns => s.handlerReturns
  | .timeout uid => s.timeout uid
  | .other a => if s.Allows a then (s.node.step a).map s.proceed else none

/-- What the callers of the agent's operations receive, in order. -/
def delivered (s : AgentSystem T W) : List (Nat × Settlement (Value T W)) :=
  s.node.settled.filter fun p => p.1 ∈ s.dispatched.map Prod.fst ∧ p.1 ∉ s.timedOut

/-- Nothing is left to do for the agent. -/
def Idle (s : AgentSystem T W) : Prop :=
  s.id ∉ s.node.immediates ∧ ∀ r ∈ s.node.stack, r.id ≠ s.id

end AgentSystem

end Libeam.System
