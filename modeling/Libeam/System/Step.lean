import Libeam.System.Dispatch
import Libeam.Lib.Transition
/-!
# One step of an actor system

The actions are the entry points of the source, the event loop firing a
`setImmediate` callback, and the progress of a handler: it suspends at an
`await`, its awaited promise settles, it returns or throws.  What a handler
does to the system while it runs are further actions, so a handler may do
anything between its start and its end.  Callbacks and resumed functions start
on an empty stack only, which is the run-to-completion rule of the event loop.
-/

namespace Libeam.System

open Mailbox

inductive Action (V : Type) where
  | spawn (config : MailboxConfig) (initThrows : Bool)
  | remove (id : ActorId)
  | dispatchCast (id : ActorId) (message : V)
  | dispatchCall (id : ActorId) (message : V)
  | rpcCall (id : ActorId) (message : V)
  | rpcCast (id : ActorId) (message : V)
  | syncLocalCast (id : ActorId) (message : V)
  | tick (id : ActorId)
  | handlerAwaits
  | handlerResumes (index : Nat)
  | handlerReturns (value : V)
  | handlerThrows (error : V)
  | crashHandled
  | stash (id : ActorId)
  | unstash (id : ActorId)
  | unstashAll (id : ActorId)
  | clearStash (id : ActorId)
  | pauseMailbox (id : ActorId)
  | resumeMailbox (id : ActorId)
  | injectMessages (id : ActorId) (messages : List (Option (StashedMessage V)))
  deriving DecidableEq, Repr

namespace Node

variable {V : Type}

/-- The handler on top of the stack returned a promise: its runner suspends.
`_syncLocalCast` does not wait but restores its flags and reports failure. -/
def handlerAwaits (s : Node V) : Option (Node V) :=
  match s.stack with
  | ⟨id, task, .handling msg⟩ :: rest =>
      let s := { s with stack := rest }
      some (match task with
        | .syncLocalCast prevMessage =>
            (s.suspend ⟨id, .abandoned, .handling msg⟩).syncLocalCastFinally id
              prevMessage
        | task => s.suspend ⟨id, task, .handling msg⟩)
  | _ => none

/-- The promise awaited by a suspended runner settled. -/
def handlerResumes (s : Node V) (index : Nat) : Option (Node V) :=
  match s.stack, s.suspended[index]? with
  | [], some r =>
      some { s with stack := [r], suspended := s.suspended.eraseIdx index }
  | _, _ => none

/-- What the runner does with a result of its handler, once it is off the
stack. -/
def afterReturn (s : Node V) (id : ActorId) (msg : StashedMessage V) (value : V) :
    Task V → Node V
  | .processMailbox processed =>
      let s :=
        if msg.type = .call ∧ s.wasStashed id msg = false ∧ msg.uid ∈ s.awaited then
          s.settle msg.uid (.resolved value)
        else s
      (s.setCurrentMessage id none).processLoop id (processed + 1)
  | .syncLocalCall prevMessage =>
      -- a stashed call gets its callbacks now and is answered by a later batch
      let s :=
        if s.wasStashed id msg then { s with awaited := insert msg.uid s.awaited }
        else s.settle msg.uid (.resolved value)
      s.syncLocalCallFinally id prevMessage
  | .syncLocalCast prevMessage => s.syncLocalCastFinally id prevMessage
  | .abandoned => s
  | .rpcCall => s
  | .rpcCast => s

def handlerReturns (s : Node V) (value : V) : Option (Node V) :=
  match s.stack with
  | ⟨id, task, .handling msg⟩ :: rest =>
      some ({ s with stack := rest }.afterReturn id msg value task)
  | _ => none

/-- What the runner does with an error of its handler.  Errors of a cast, and
of a call nobody waits for, go to the supervisor. -/
def afterThrow (s : Node V) (id : ActorId) (msg : StashedMessage V) (error : V) :
    Task V → Node V
  | .processMailbox processed =>
      if msg.type = .call ∧ s.wasStashed id msg then
        (s.setCurrentMessage id none).processLoop id (processed + 1)
      else if msg.type = .call ∧ msg.uid ∈ s.awaited then
        ((s.settle msg.uid (.rejected (.thrown error))).setCurrentMessage id none
          ).processLoop id (processed + 1)
      else s.push ⟨id, .processMailbox processed, .crashing⟩
  | .syncLocalCall prevMessage =>
      (s.settle msg.uid (.rejected (.thrown error))).syncLocalCallFinally id
        prevMessage
  | .syncLocalCast prevMessage => s.push ⟨id, .syncLocalCast prevMessage, .crashing⟩
  | .abandoned => s
  | .rpcCall => s
  | .rpcCast => s.push ⟨id, .rpcCast, .crashing⟩

def handlerThrows (s : Node V) (error : V) : Option (Node V) :=
  match s.stack with
  | ⟨id, task, .handling msg⟩ :: rest =>
      some ({ s with stack := rest }.afterThrow id msg error task)
  | _ => none

/-- `handleCrash` returned: leave the batch loop or the `catch` block. -/
def crashHandled (s : Node V) : Option (Node V) :=
  match s.stack with
  | ⟨id, task, .crashing⟩ :: rest =>
      let s := { s with stack := rest }
      some (match task with
        | .processMailbox _ => (s.setCurrentMessage id none).processEnd id
        | .syncLocalCast prevMessage => s.syncLocalCastFinally id prevMessage
        | _ => s)
  | _ => none

/-- The event loop fires a pending `processMailbox` callback. -/
def tick (s : Node V) (id : ActorId) : Option (Node V) :=
  if s.stack = [] ∧ id ∈ s.immediates then
    some ({ s with immediates := s.immediates.erase id }.processMailbox id)
  else none

def step (s : Node V) : Action V → Option (Node V)
  | .spawn config initThrows => some (s.spawn config initThrows)
  | .remove id => some (s.remove id)
  | .dispatchCast id message => some (s.dispatchCast id message)
  | .dispatchCall id message => some (s.dispatchCall id message)
  | .rpcCall id message => some (s.handleRpcCall id message)
  | .rpcCast id message => some (s.handleRpcCast id message)
  | .syncLocalCast id message => some (s.syncLocalCast id message)
  | .tick id => s.tick id
  | .handlerAwaits => s.handlerAwaits
  | .handlerResumes index => s.handlerResumes index
  | .handlerReturns value => s.handlerReturns value
  | .handlerThrows error => s.handlerThrows error
  | .crashHandled => s.crashHandled
  | .stash id => some (s.stash id)
  | .unstash id => some (s.unstash id)
  | .unstashAll id => some (s.unstashAll id)
  | .clearStash id => some (s.clearStash id)
  | .pauseMailbox id => some (s.pauseMailbox id)
  | .resumeMailbox id => some (s.resumeMailbox id)
  | .injectMessages id messages => some (s.injectMessages id messages)

end Node

end Libeam.System
