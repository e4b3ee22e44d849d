import Mathlib.Data.Nat.Basic
import Mathlib.Tactic.SplitIfs
import Libeam.Lib.Ring
/-!
# The mailbox ring buffer

`BoundedMailbox` keeps its messages in an array with a head index, a tail index
and a size.  A cell that was never written, or was released for garbage
collection, reads as `undefined`, here `none`; so every operation that hands
cells out returns optional messages.  The refinement to a plain queue is
`Holds`.
-/

namespace Libeam.Mailbox

open Lib

/-- What `enqueue` does with a message that arrives at a full mailbox. -/
inductive OverflowStrategy where
  | dropNewest
  | dropOldest
  | error
  deriving DecidableEq, Repr

/-- `MailboxConfig`; an absent `maxSize` means unbounded. -/
structure MailboxConfig where
  maxSize : Option Nat := none
  overflowStrategy : Option OverflowStrategy := none
  deriving DecidableEq, Repr

structure BoundedMailbox (α : Type) where
  maxSize : Option Nat
  overflowStrategy : OverflowStrategy
  buf : List (Option α)
  /-- Index of the first element. -/
  head : Nat
  /-- Index of the next write slot. -/
  tail : Nat
  size : Nat
  droppedCount : Nat
  deriving DecidableEq, Repr

/-- How a call of `enqueue` ends.  `accepted` and `evicted` return `true`,
`refused` returns `false` and `full` throws a `MailboxFullError`.  The evicted
head is handed out because its caller, if any, has to be rejected. -/
inductive EnqueueResult (α : Type) where
  | accepted
  | evicted (oldest : Option α)
  | refused
  | full
  deriving DecidableEq, Repr

namespace BoundedMailbox

variable {α : Type}

def new (config : MailboxConfig) : BoundedMailbox α where
  maxSize := config.maxSize
  overflowStrategy := config.overflowStrategy.getD .dropNewest
  buf := List.replicate 16 none
  head := 0
  tail := 0
  size := 0
  droppedCount := 0

def length (mb : BoundedMailbox α) : Nat := mb.size

def isFull (mb : BoundedMailbox α) : Bool :=
  match mb.maxSize with
  | none => false
  | some m => decide (m ≤ mb.size)

/-- The cells that a loop over `size` positions from `head` on reads. -/
def toArray (mb : BoundedMailbox α) : List (Option α) :=
  (List.range mb.size).map fun i => (mb.buf[(mb.head + i) % mb.buf.length]?).join

/-- One call of the iterator's `next` with its index at `idx`: the value and the
index after it, or `none` when the iteration is done. -/
def next (mb : BoundedMailbox α) (idx : Nat) : Option (Option α × Nat) :=
  if idx < mb.size then
    some ((mb.buf[(mb.head + idx) % mb.buf.length]?).join, idx + 1)
  else none

/-- The loop `for (const msg of mailbox)` from index `idx` on.  `next` ends it
after `size` rounds, so `fuel = size + 1` calls are enough. -/
def iterate (mb : BoundedMailbox α) : Nat → Nat → List (Option α)
  | 0, _ => []
  | fuel + 1, idx =>
      match mb.next idx with
      | none => []
      | some (msg, idx) => msg :: iterate mb fuel idx

/-- Double the internal buffer, keeping the order of the elements. -/
def grow (mb : BoundedMailbox α) : BoundedMailbox α :=
  { mb with
    buf := mb.toArray ++ List.replicate (mb.buf.length * 2 - mb.size) none
    head := 0
    tail := mb.size }

/-- Write at the tail and advance it, as both accepting branches of `enqueue`
do. -/
def writeTail (mb : BoundedMailbox α) (msg : α) : BoundedMailbox α :=
  let buf := Ring.writeAt mb.buf mb.tail (some msg)
  { mb with buf := buf, tail := (mb.tail + 1) % buf.length }

def enqueue (mb : BoundedMailbox α) (msg : α) :
    BoundedMailbox α × EnqueueResult α :=
  if mb.isFull = false then
    let mb := if mb.size = mb.buf.length then mb.grow else mb
    let mb := mb.writeTail msg
    ({ mb with size := mb.size + 1 }, .accepted)
  else
    let mb := { mb with droppedCount := mb.droppedCount + 1 }
    match mb.overflowStrategy with
    | .dropNewest => (mb, .refused)
    | .dropOldest =>
        let dropped := (mb.buf[mb.head]?).join
        let buf := Ring.writeAt mb.buf mb.head none
        let mb := { mb with buf := buf, head := (mb.head + 1) % buf.length }
        (mb.writeTail msg, .evicted dropped)
    | .error => (mb, .full)

def dequeue (mb : BoundedMailbox α) : BoundedMailbox α × Option α :=
  if mb.size = 0 then (mb, none)
  else
    let msg := (mb.buf[mb.head]?).join
    let buf := Ring.writeAt mb.buf mb.head none
    ({ mb with
        buf := buf
        head := (mb.head + 1) % buf.length
        size := mb.size - 1 }, msg)

/-- The loop `while (size + needed > buf.length) grow()`.  The buffer is never
empty, so `fuel = size + needed` rounds of doubling are enough
(`le_length_ensureRoom`). -/
def ensureRoom (needed : Nat) : Nat → BoundedMailbox α → BoundedMailbox α
  | 0, mb => mb
  | fuel + 1, mb =>
      if mb.buf.length < mb.size + needed then ensureRoom needed fuel mb.grow
      else mb

def pushFront (msg : Option α) (mb : BoundedMailbox α) : BoundedMailbox α :=
  let head := (mb.head + mb.buf.length - 1) % mb.buf.length
  { mb with
    buf := Ring.writeAt mb.buf head msg
    head := head
    size := mb.size + 1 }

/-- Prepend `msgs`, the last one first. -/
def unshift (mb : BoundedMailbox α) (msgs : List (Option α)) : BoundedMailbox α :=
  msgs.foldr pushFront (mb.ensureRoom msgs.length (mb.size + msgs.length))

def clear (mb : BoundedMailbox α) : BoundedMailbox α :=
  { mb with
    buf := List.replicate mb.buf.length none
    head := 0
    tail := 0
    size := 0 }

def drain (mb : BoundedMailbox α) : BoundedMailbox α × List (Option α) :=
  (mb.clear, mb.toArray)

/-- The bit-smearing loop runs on 32-bit signed integers. -/
def nextPow2 (n : Nat) : Int :=
  let v := BitVec.ofInt 32 ((n : Int) - 1)
  let v := v ||| v.sshiftRight 1
  let v := v ||| v.sshiftRight 2
  let v := v ||| v.sshiftRight 4
  let v := v ||| v.sshiftRight 8
  let v := v ||| v.sshiftRight 16
  v.toInt + 1

/-- `for (i) buf[i] = msgs[i]`, started at index `i`. -/
def load (buf : List (Option α)) (i : Nat) : List (Option α) → List (Option α)
  | [] => buf
  | m :: ms => load (Ring.writeAt buf i m) (i + 1) ms

/-- Bulk load.  The tail is set to `msgs.length` without wrapping. -/
def replaceWith (mb : BoundedMailbox α) (msgs : List (Option α)) :
    BoundedMailbox α :=
  let needed := (max 16 (nextPow2 msgs.length)).toNat
  let buf :=
    if mb.buf.length < needed then List.replicate needed none
    else List.replicate mb.buf.length none
  { mb with
    buf := load buf 0 msgs
    head := 0
    tail := msgs.length
    size := msgs.length }

end BoundedMailbox

end Libeam.Mailbox
