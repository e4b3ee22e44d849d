import Libeam.Mailbox
/-!
# The queue behind the mailbox

What a mailbox is for, without the ring: a list of messages that is appended to
at its end, taken from at its front and prepended to, and that applies the
overflow strategy when it is full.  `queueOf` reads this queue out of a
`BoundedMailbox`, and `MailboxOp` names the operations both sides perform.
-/

namespace Libeam.Mailbox

/-- The operations of `BoundedMailbox` that `Queue` specifies. -/
inductive MailboxOp (α : Type) where
  | enqueue (msg : α)
  | dequeue
  | unshift (msgs : List (Option α))
  | clear
  | drain
  | toArray
  /-- One step of an iterator whose index stands at `idx`. -/
  | next (idx : Nat)
  /-- A whole iteration. -/
  | iterate
  deriving DecidableEq, Repr

/-- What an operation gives back. -/
inductive MailboxReply (α : Type) where
  | enqueued (result : EnqueueResult α)
  | message (msg : Option α)
  | messages (msgs : List (Option α))
  | item (value : Option (Option α × Nat))
  | done
  deriving DecidableEq, Repr

namespace BoundedMailbox

variable {α : Type}

def perform (mb : BoundedMailbox α) :
    MailboxOp α → BoundedMailbox α × MailboxReply α
  | .enqueue msg => ((mb.enqueue msg).1, .enqueued (mb.enqueue msg).2)
  | .dequeue => (mb.dequeue.1, .message mb.dequeue.2)
  | .unshift msgs => (mb.unshift msgs, .done)
  | .clear => (mb.clear, .done)
  | .drain => (mb.drain.1, .messages mb.drain.2)
  | .toArray => (mb, .messages mb.toArray)
  | .next idx => (mb, .item (mb.next idx))
  | .iterate => (mb, .messages (mb.iterate (mb.size + 1) 0))

/-- The replies of a sequence of operations. -/
def replies (mb : BoundedMailbox α) : List (MailboxOp α) → List (MailboxReply α)
  | [] => []
  | op :: ops => (mb.perform op).2 :: (mb.perform op).1.replies ops

end BoundedMailbox

/-- A queue with the bound and the overflow strategy of a mailbox. -/
structure Queue (α : Type) where
  maxSize : Option Nat
  overflowStrategy : OverflowStrategy
  contents : List (Option α)
  droppedCount : Nat
  deriving DecidableEq, Repr

namespace Queue

variable {α : Type}

def isFull (q : Queue α) : Bool :=
  match q.maxSize with
  | none => false
  | some m => decide (m ≤ q.contents.length)

/-- Append, or apply the overflow strategy. -/
def enqueue (q : Queue α) (msg : α) : Queue α × EnqueueResult α :=
  if q.isFull = false then
    ({ q with contents := q.contents ++ [some msg] }, .accepted)
  else
    let q := { q with droppedCount := q.droppedCount + 1 }
    match q.overflowStrategy with
    | .dropNewest => (q, .refused)
    | .dropOldest =>
        ({ q with contents := q.contents.tail ++ [some msg] },
          .evicted q.contents.head?.join)
    | .error => (q, .full)

def perform (q : Queue α) : MailboxOp α → Queue α × MailboxReply α
  | .enqueue msg => ((q.enqueue msg).1, .enqueued (q.enqueue msg).2)
  | .dequeue =>
      ({ q with contents := q.contents.tail }, .message q.contents.head?.join)
  | .unshift msgs => ({ q with contents := msgs ++ q.contents }, .done)
  | .clear => ({ q with contents := [] }, .done)
  | .drain => ({ q with contents := [] }, .messages q.contents)
  | .toArray => (q, .messages q.contents)
  | .next idx => (q, .item (q.contents[idx]?.map fun msg => (msg, idx + 1)))
  | .iterate => (q, .messages q.contents)

def replies (q : Queue α) : List (MailboxOp α) → List (MailboxReply α)
  | [] => []
  | op :: ops => (q.perform op).2 :: (q.perform op).1.replies ops

end Queue

/-- The queue a mailbox stands for: the cells read from `head` on. -/
def queueOf {α : Type} (mb : BoundedMailbox α) : Queue α where
  maxSize := mb.maxSize
  overflowStrategy := mb.overflowStrategy
  contents := mb.toArray
  droppedCount := mb.droppedCount

end Libeam.Mailbox
