import Mathlib.Data.Finset.Basic
import Mathlib.Logic.Function.Basic
import Mathlib.Tactic.Simps.Basic
import Libeam.Mailbox
/-!
# The tables of an actor system

One `ActorSystem` is single threaded: at any moment there is a stack of user
callbacks in progress, the event loop underneath it, `setImmediate` callbacks
waiting for the loop, and asynchronous functions suspended at an `await`.
`Node` holds the tables and flag sets of the source together with that run-time
state.  Values of type `any` (messages, replies, errors) are an arbitrary `V`.

Instances are looked up through the key sets `actors` and `mailboxes`; the
objects themselves stay in `object`, because a runner that holds a reference
still uses them after the keys are gone.
-/

namespace Libeam.System

open Mailbox

/-- Instance identifiers; `uuidv4` never repeats, so a counter supplies them. -/
abbrev ActorId := Nat

inductive MessageType where
  | cast
  | call
  deriving DecidableEq, Repr

/-- A message object; `uid` is its identity as an object. -/
structure StashedMessage (V : Type) where
  uid : Nat
  type : MessageType
  message : V
  deriving DecidableEq, Repr

inductive Failure (V : Type) where
  | thrown (error : V)
  | mailboxFull
  | migrationInProgress (actorName targetNodeId : String)
  | discarded
  deriving DecidableEq, Repr

inductive Settlement (V : Type) where
  | resolved (value : V)
  | rejected (failure : Failure V)
  deriving DecidableEq, Repr

structure ActorObject (V : Type) where
  mailbox : BoundedMailbox (StashedMessage V)
  stash : List (StashedMessage V)
  currentMessage : Option (StashedMessage V)
  deriving DecidableEq, Repr

/-- The system function on whose behalf a handler runs, with the locals it
still needs. -/
inductive Task (V : Type) where
  | processMailbox (processed : Nat)
  | syncLocalCall (prevMessage : Option (StashedMessage V))
  | syncLocalCast (prevMessage : Option (StashedMessage V))
  /-- A handler promise that `_syncLocalCast` gave up on. -/
  | abandoned
  | rpcCall
  | rpcCast
  deriving DecidableEq, Repr

inductive Phase (V : Type) where
  | handling (msg : StashedMessage V)
  /-- `supervisor.handleCrash` is running for an error of the handler. -/
  | crashing
  deriving DecidableEq, Repr

structure Runner (V : Type) where
  id : ActorId
  task : Task V
  phase : Phase V
  deriving DecidableEq, Repr

/-- Is the handler still open? -/
def Runner.isHandling {V : Type} (r : Runner V) : Bool :=
  match r.phase with
  | .handling _ => true
  | .crashing => false

structure Node (V : Type) where
  actors : Finset ActorId
  mailboxes : Finset ActorId
  object : ActorId → ActorObject V
  pausedMailboxes : Finset ActorId
  processingActors : Finset ActorId
  mailboxScheduled : Finset ActorId
  /-- Pending `setImmediate(() => this.processMailbox(id))` callbacks. -/
  immediates : List ActorId
  /-- Handlers running now, the innermost first. -/
  stack : List (Runner V)
  /-- Handlers whose promise is awaited. -/
  suspended : List (Runner V)
  /-- Message objects that carry `resolve` and `reject`. -/
  awaited : Finset Nat
  settled : List (Nat × Settlement V)
  nextUid : Nat
  nextId : ActorId
  /-- History: every start of a message handler, in order. -/
  started : List (ActorId × StashedMessage V)
  /-- History: every message a dispatch accepted, in order. -/
  accepted : List (ActorId × StashedMessage V)

namespace Node

variable {V : Type}

def init : Node V where
  actors := ∅
  mailboxes := ∅
  object := fun _ => ⟨BoundedMailbox.new {}, [], none⟩
  pausedMailboxes := ∅
  processingActors := ∅
  mailboxScheduled := ∅
  immediates := []
  stack := []
  suspended := []
  awaited := ∅
  settled := []
  nextUid := 0
  nextId := 0
  started := []
  accepted := []

def mailbox (s : Node V) (id : ActorId) : BoundedMailbox (StashedMessage V) :=
  (s.object id).mailbox

@[simps] def setMailbox (s : Node V) (id : ActorId)
    (mb : BoundedMailbox (StashedMessage V)) : Node V :=
  { s with object := Function.update s.object id { s.object id with mailbox := mb } }

@[simps] def setCurrentMessage (s : Node V) (id : ActorId)
    (msg : Option (StashedMessage V)) : Node V :=
  { s with
    object := Function.update s.object id { s.object id with currentMessage := msg } }

@[simps] def setStash (s : Node V) (id : ActorId)
    (stash : List (StashedMessage V)) : Node V :=
  { s with object := Function.update s.object id { s.object id with stash := stash } }

@[simps] def settle (s : Node V) (uid : Nat) (r : Settlement V) : Node V :=
  { s with settled := s.settled ++ [(uid, r)] }

/-- All runners that are active: on the stack or awaiting a handler. -/
def runners (s : Node V) : List (Runner V) := s.stack ++ s.suspended

/-- Does the stash of the actor hold this very object? -/
def wasStashed (s : Node V) (id : ActorId) (msg : StashedMessage V) : Bool :=
  (s.object id).stash.any fun m => m.uid == msg.uid

@[simps] def push (s : Node V) (r : Runner V) : Node V :=
  { s with stack := r :: s.stack }

@[simps] def suspend (s : Node V) (r : Runner V) : Node V :=
  { s with suspended := s.suspended ++ [r] }

/-- Invoke `handleCall` or `handleCast` of the instance with `msg`. -/
@[simps] def startHandler (s : Node V) (id : ActorId) (task : Task V)
    (msg : StashedMessage V) : Node V :=
  { s with
    stack := ⟨id, task, .handling msg⟩ :: s.stack
    started := s.started ++ [(id, msg)] }

@[simps] def accept (s : Node V) (id : ActorId) (msg : StashedMessage V) : Node V :=
  { s with accepted := s.accepted ++ [(id, msg)] }

end Node

end Libeam.System
