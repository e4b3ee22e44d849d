import Libeam.System.Step
/-!
# Messages sent to one bounded mailbox

One actor with any `MailboxConfig`, the calls and casts dispatched to it and the
messages its processing loop takes.  The histories record which messages
`enqueue` refused and which it evicted; a timer of a call fires into a promise
that is settled already when the call was lost before.
-/

namespace Libeam.System

open Mailbox

/-- The instance that the first `spawn` of a node creates. -/
def receiver : ActorId := 0

structure Traffic (V : Type) where
  node : Node V
  /-- History: messages handed to a handler of the actor. -/
  taken : List (StashedMessage V)
  /-- History: messages for which `enqueue` returned `false` or threw. -/
  refused : List (StashedMessage V)
  /-- History: messages that `enqueue` dropped from the head. -/
  evicted : List (StashedMessage V)
  /-- The message for which `enqueue` returned `true` in the last action. -/
  enqueued : Option (StashedMessage V)

inductive TrafficAction (V : Type) where
  | dispatchCall (message : V)
  | dispatchCast (message : V)
  /-- The processing loop takes the next message. -/
  | dequeue
  /-- The handler of the `index`-th message taken settles it. -/
  | answer (index : Nat) (r : Settlement V)
  /-- A handler of the actor is running, or has ended. -/
  | processing (running : Bool)
  | pauseMailbox
  | resumeMailbox
  deriving DecidableEq, Repr

namespace Traffic

variable {V : Type}

def start (config : MailboxConfig) : Traffic V where
  node := Node.init.spawn config false
  taken := []
  refused := []
  evicted := []
  enqueued := none

def mailbox (t : Traffic V) : BoundedMailbox (StashedMessage V) :=
  t.node.mailbox receiver

/-- Keep account of `enqueue` for a message that led to `node`. -/
def record (t : Traffic V) (msg : StashedMessage V) (node : Node V) : Traffic V :=
  match (t.mailbox.enqueue msg).2 with
  | .accepted => { t with node := node, enqueued := some msg }
  | .evicted oldest =>
      { t with
        node := node
        evicted := t.evicted ++ oldest.toList
        enqueued := some msg }
  | .refused | .full =>
      { t with node := node, refused := t.refused ++ [msg], enqueued := none }

def dispatchCast (t : Traffic V) (message : V) : Traffic V :=
  t.record ⟨t.node.nextUid, .cast, message⟩ (t.node.dispatchCast receiver message)

/-- The fast path hands the message to the handler; the slow path enqueues it. -/
def dispatchCall (t : Traffic V) (message : V) : Traffic V :=
  let msg : StashedMessage V := ⟨t.node.nextUid, .call, message⟩
  let node := t.node.dispatchCall receiver message
  if receiver ∉ t.node.processingActors ∧ receiver ∉ t.node.pausedMailboxes ∧
      t.mailbox.length = 0 then
    { t with node := node, taken := t.taken ++ [msg], enqueued := none }
  else t.record msg node

def step (t : Traffic V) : TrafficAction V → Option (Traffic V)
  | .dispatchCall message => some (t.dispatchCall message)
  | .dispatchCast message => some (t.dispatchCast message)
  | .dequeue =>
      some { t with
        node := t.node.setMailbox receiver t.mailbox.dequeue.1
        taken := t.taken ++ t.mailbox.dequeue.2.toList
        enqueued := none }
  | .answer index r =>
      t.taken[index]?.map fun msg =>
        { t with node := t.node.settle msg.uid r, enqueued := none }
  | .processing running =>
      some { t with
        node := { t.node with
          processingActors :=
            if running then insert receiver t.node.processingActors
            else t.node.processingActors.erase receiver }
        enqueued := none }
  | .pauseMailbox =>
      some { t with node := t.node.pauseMailbox receiver, enqueued := none }
  | .resumeMailbox =>
      some { t with node := t.node.resumeMailbox receiver, enqueued := none }

/-- What became of the promise of a call, in order. -/
def settlements (t : Traffic V) (uid : Nat) : List (Settlement V) :=
  (t.node.settled.filter fun p => p.1 = uid).map Prod.snd

/-- No loss goes unreported. -/
structure Reported (config : MailboxConfig) (t : Traffic V) : Prop where
  enqueued_last : ∀ msg, t.enqueued = some msg →
    t.mailbox.toArray.getLast? = some (some msg)
  dropped_eq : t.mailbox.droppedCount = t.refused.length + t.evicted.length
  rejected_once : ∀ msg ∈ t.refused ++ t.evicted, msg.type = .call →
    t.settlements msg.uid = [.rejected .mailboxFull]
  bounded : ∀ m, config.maxSize = some m → t.mailbox.length ≤ m

end Traffic

end Libeam.System
