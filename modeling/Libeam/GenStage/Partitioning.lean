import Libeam.GenStage.Dispatcher
import Mathlib.Data.Rat.Defs
import Mathlib.Data.UInt
/-!
# Partitions by default

Without a hash function of the user, an event is assigned to a partition by the remainder of
a number: the event itself or its key, or the hash of a text.  The hash function gives a
number, and only some numbers are an index of the arrays of the dispatcher.
-/

namespace Libeam.GenStage

/-- Numbers, of which the finite ones are taken exactly; `-0` is `0`. -/
inductive Number where
  | finite (x : ℚ)
  | infinite (negative : Bool)
  | nan
  deriving DecidableEq, Repr

namespace Number

/-- `x % n`.  The remainder has the sign of the dividend and is exact: that of a fraction is the
remainder of its numerator by `n` times the denominator, over the denominator. -/
def rem (x : Number) (n : Nat) : Number :=
  match x with
  | .finite x => if n = 0 then .nan else .finite ((x.num.tmod (n * x.den) : Int) / x.den)
  | _ => .nan

/-- `x < 0`. -/
def isNegative : Number → Bool
  | .finite x => x < 0
  | .infinite negative => negative
  | .nan => false

/-- `x >= n`. -/
def atLeast (x : Number) (n : Nat) : Bool :=
  match x with
  | .finite x => (n : ℚ) ≤ x
  | .infinite negative => !negative
  | .nan => false

/-- The place in an array that a property of this name is. -/
def index : Number → Option Nat
  | .finite x => if x.den = 1 ∧ 0 ≤ x.num then some x.num.toNat else none
  | _ => none

end Number

/-! ## The default hash function -/

/-- What `typeof` finds. -/
inductive Primitive where
  | number (x : Number)
  | string (s : List UInt16)
  | other
  deriving DecidableEq, Repr

/-- An event, or an object that has a key. -/
inductive Shape where
  | plain (v : Primitive)
  | keyed (key : Primitive)
  deriving DecidableEq, Repr

/-- `x | 0`. -/
def toInt32 (x : Int) : BitVec 32 := BitVec.ofInt 32 x

def simpleHash (str : List UInt16) : Int :=
  (str.foldl (fun hash c => toInt32 ((hash <<< 5).toInt + hash.toInt + c.toNat))
    (5381 : BitVec 32)).toInt

/-- `Math.abs` takes the sign of the hash away. -/
def defaultHash (partitions : Nat) : Shape → Number
  | .plain (.number event) => event.rem partitions
  | .plain (.string event) => (Number.finite (simpleHash event).natAbs).rem partitions
  | .keyed (.number key) => key.rem partitions
  | .keyed (.string key) => (Number.finite (simpleHash key).natAbs).rem partitions
  | _ => .finite 0

/-! ## Dispatch with a hash function that gives numbers -/

inductive DispatchError where
  /-- `Hash returned invalid partition ${p}. Must be 0..${last} or null`. -/
  | invalidPartition (p : Number) (last : Int)
  /-- `TypeError`: there is no `partitionBuffers[p]` to push to. -/
  | noBuffer
  deriving DecidableEq, Repr

namespace PartitionDispatcher

variable {E : Type}

/-- `route`, before it is known that the number is an index. -/
def routeBy (hash : E → Option Number) (acc : PartitionDispatcher E × (Nat → List E)) (event : E) :
    Except DispatchError (PartitionDispatcher E × (Nat → List E)) :=
  let (q, buckets) := acc
  match hash event with
  | none => .ok acc
  | some p =>
      if p.isNegative ∨ p.atLeast q.partitionCount then
        .error (.invalidPartition p (q.partitionCount - 1))
      else
        match p.index with
        | none => .error .noBuffer
        | some p =>
            if q.demandOf p ≤ 0 then
              .ok (q.keep p (q.partitionBuffers p ++ [event]), buckets)
            else
              .ok (q.grant p (-1), Function.update buckets p (buckets p ++ [event]))

def dispatchBy (hash : E → Option Number) (q : PartitionDispatcher E) (events : List E) :
    Except DispatchError (PartitionDispatcher E × DispatchResult E) :=
  (events.foldlM (routeBy hash) (q, fun _ => [])).map fun routed =>
    let drained := (List.range q.partitionCount).foldl drainBuffer routed
    (drained.1, ⟨drained.1.batches drained.2, []⟩)

end PartitionDispatcher

end Libeam.GenStage
