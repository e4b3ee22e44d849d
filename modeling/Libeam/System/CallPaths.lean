import Libeam.Lib.Transition
/-!
# The two paths of a local call

`dispatchCall` hands a call to `_syncLocalCall` when its actor is idle, and queues it
otherwise.  `PendingCall` is what there is of one call from the moment its handler is
invoked: where the message object is, its callbacks, the timer of the caller and how the
promise of the caller was settled.  The handler, the other messages of the actor and the
clock act through the events.
-/

namespace Libeam.System

/-- How the promise of the caller is settled. -/
inductive Outcome (V : Type) where
  | resolved (value : V)
  | rejected (error : V)
  | timedOut
  | mailboxFull
  | discarded
  deriving DecidableEq, Repr

/-- The function that waits for the handler of the message. -/
inductive CallPath where
  | syncLocalCall
  | processMailbox
  deriving DecidableEq, Repr

structure PendingCall (V : Type) where
  timeout : Nat
  /-- The handler runs, or its promise is awaited. -/
  handling : Option CallPath
  /-- How often the message object is in `context.stash`, and in the mailbox. -/
  stash : Nat
  queued : Nat
  /-- `stashedMessage.resolve` and `stashedMessage.reject` are set. -/
  callbacks : Bool
  /-- Milliseconds until the timer fires. -/
  timer : Option Nat
  outcome : Option (Outcome V)
  deriving DecidableEq, Repr

inductive CallEvent (V : Type) where
  /-- A millisecond passes. -/
  | elapse
  | stash
  | unstash
  | unstashAll
  | clearStash
  /-- A full `drop-oldest` mailbox drops the message. -/
  | evict
  /-- `processMailbox` takes the message out of the mailbox. -/
  | rerun
  | returns (value : V)
  | throws (error : V)
  deriving DecidableEq, Repr

/-- The delay that `setTimeout` makes of its argument. -/
def timerDelay (delay : Nat) : Nat :=
  if delay < 1 ∨ 2147483647 < delay then 1 else delay

namespace PendingCall

variable {V : Type}

/-- `_syncLocalCall` has invoked the handler. -/
def startSync (timeout : Nat) : PendingCall V :=
  ⟨timeout, some .syncLocalCall, 0, 0, false, none, none⟩

/-- The call was queued and is taken at once. -/
def startQueued (timeout : Nat) : PendingCall V :=
  ⟨timeout, some .processMailbox, 0, 0, true, some (timerDelay timeout), none⟩

/-- The call was queued and waits to be taken. -/
def enqueued (timeout : Nat) : PendingCall V :=
  ⟨timeout, none, 0, 1, true, some (timerDelay timeout), none⟩

/-- A promise is settled once. -/
def settle (c : PendingCall V) (outcome : Outcome V) : PendingCall V :=
  match c.outcome with
  | none => { c with outcome := some outcome }
  | some _ => c

/-- Call `resolve` or `reject` of the message, if there is one.  The timer is cleared
before or after; it would find the promise settled. -/
def answer (c : PendingCall V) (outcome : Outcome V) : PendingCall V :=
  if c.callbacks then c.settle outcome else c

def elapse (c : PendingCall V) : PendingCall V :=
  match c.timer with
  | none => c
  | some ms =>
      if ms ≤ 1 then { c with timer := none }.settle .timedOut
      else { c with timer := some (ms - 1) }

/-- `_syncLocalCall` after its handler: a stashed call gets callbacks and a timer. -/
def syncReturns (c : PendingCall V) (value : V) : PendingCall V :=
  if 0 < c.stash then { c with callbacks := true, timer := some (timerDelay c.timeout) }
  else c.settle (.resolved value)

/-- The call branch of `processMailbox`, for a result or an error. -/
def batchEnds (c : PendingCall V) (outcome : Outcome V) : PendingCall V :=
  if 0 < c.stash then c else c.answer outcome

def step (c : PendingCall V) : CallEvent V → Option (PendingCall V)
  | .elapse => some c.elapse
  | .stash => if c.handling.isSome then some { c with stash := c.stash + 1 } else none
  | .unstash =>
      if 0 < c.stash then some { c with stash := c.stash - 1, queued := c.queued + 1 } else none
  | .unstashAll => some { c with stash := 0, queued := c.stash + c.queued }
  | .clearStash =>
      some { (if 0 < c.stash then c.answer .discarded else c) with stash := 0 }
  | .evict =>
      if 0 < c.queued then some ({ c with queued := c.queued - 1 }.answer .mailboxFull) else none
  | .rerun =>
      if 0 < c.queued ∧ c.handling = none then
        some { c with queued := c.queued - 1, handling := some .processMailbox }
      else none
  | .returns value =>
      match c.handling with
      | none => none
      | some .syncLocalCall => some ({ c with handling := none }.syncReturns value)
      | some .processMailbox => some ({ c with handling := none }.batchEnds (.resolved value))
  | .throws error =>
      match c.handling with
      | none => none
      | some .syncLocalCall => some ({ c with handling := none }.settle (.rejected error))
      | some .processMailbox => some ({ c with handling := none }.batchEnds (.rejected error))

end PendingCall

/-- The same call on both paths. -/
structure BothPaths (V : Type) where
  sync : PendingCall V
  queued : PendingCall V
  deriving DecidableEq, Repr

namespace BothPaths

variable {V : Type}

def start (timeout : Nat) : BothPaths V := ⟨.startSync timeout, .startQueued timeout⟩

/-- The same event happens to both. -/
def step (p : BothPaths V) (event : CallEvent V) : Option (BothPaths V) :=
  match p.sync.step event, p.queued.step event with
  | some sync, some queued => some ⟨sync, queued⟩
  | _, _ => none

end BothPaths

end Libeam.System
