import Libeam.Lib.OrderedMap
import Libeam.Supervision.Tree
/-!
# The dispatchers of a producing stage

A stage that emits events hands them to a dispatcher, which knows the subscribed
consumers and the demand of each.  The demand dispatcher gives every event to the
consumer with the highest demand, the broadcast dispatcher gives every event to all
consumers, the partition dispatcher gives an event to the consumer of the partition
it hashes to and keeps the events of a partition that cannot take them.

Events are an arbitrary `E`.  Demands are whole numbers, and a demand that a caller
sends may be negative.  An error is the text it is thrown with.
-/

namespace Libeam.GenStage

open Lib
open Supervision (ActorRef)

/-- The tag of a subscription. -/
abbrev Tag := String

/-- Producer-side tracking of a subscribed consumer. -/
structure ProducerSub where
  consumerRef : ActorRef String
  demand : Int
  maxDemand : Nat
  minDemand : Int
  deriving DecidableEq, Repr

/-- `sub.demand += demand`. -/
def ProducerSub.grant (sub : ProducerSub) (demand : Int) : ProducerSub :=
  { sub with demand := sub.demand + demand }

/-- A batch of events and the subscription it goes to. -/
structure Dispatched (E : Type) where
  consumerRef : ActorRef String
  tag : Tag
  events : List E
  deriving DecidableEq, Repr

structure DispatchResult (E : Type) where
  dispatched : List (Dispatched E)
  remaining : List E
  deriving DecidableEq, Repr

/-! ## DemandDispatcher -/

structure DemandDispatcher where
  subscribers : OrderedMap Tag ProducerSub

namespace DemandDispatcher

variable {E : Type}

def new : DemandDispatcher := ⟨.empty⟩

def subscribe (d : DemandDispatcher) (tag : Tag) (sub : ProducerSub) : DemandDispatcher :=
  ⟨d.subscribers.set tag sub⟩

def cancel (d : DemandDispatcher) (tag : Tag) : DemandDispatcher :=
  ⟨d.subscribers.delete tag⟩

def totalDemand (d : DemandDispatcher) : Int := (d.subscribers.map (·.demand)).sum

def ask (d : DemandDispatcher) (tag : Tag) (demand : Int) : DemandDispatcher × Int :=
  let asked : DemandDispatcher := ⟨d.subscribers.modify tag (·.grant demand)⟩
  (asked, asked.totalDemand)

/-- `bestDemand`. -/
def bestDemand (best : Option (Tag × ProducerSub)) : Int :=
  match best with
  | none => 0
  | some entry => entry.2.demand

/-- The scan for the subscriber with the highest demand; the first one wins a tie. -/
def best (subscribers : List (Tag × ProducerSub)) : Option (Tag × ProducerSub) :=
  subscribers.foldl
    (fun best entry => if entry.2.demand > bestDemand best then some entry else best) none

/-- The loop for several subscribers.  Every turn sends at least one event, so that
`fuel` need not exceed the number of events. -/
def dispatchLoop : Nat → OrderedMap Tag ProducerSub → List E →
    OrderedMap Tag ProducerSub × DispatchResult E
  | 0, subscribers, events => (subscribers, ⟨[], events⟩)
  | fuel + 1, subscribers, events =>
      if events.length = 0 then (subscribers, ⟨[], []⟩)
      else
        match best subscribers.entries with
        | none => (subscribers, ⟨[], events⟩)
        | some (tag, sub) =>
            let count := min sub.demand.toNat events.length
            let rest := dispatchLoop fuel (subscribers.modify tag (·.grant (-count)))
              (events.drop count)
            (rest.1, ⟨⟨sub.consumerRef, tag, events.take count⟩ :: rest.2.dispatched,
              rest.2.remaining⟩)

/-- A single subscriber is served without the loop, and is sent an empty batch when
there are no events. -/
def dispatch (d : DemandDispatcher) (events : List E) : DemandDispatcher × DispatchResult E :=
  match d.subscribers.entries with
  | [(tag, sub)] =>
      if sub.demand > 0 then
        let count := min sub.demand.toNat events.length
        (⟨d.subscribers.modify tag (·.grant (-count))⟩,
          ⟨[⟨sub.consumerRef, tag, events.take count⟩], events.drop count⟩)
      else (d, ⟨[], events⟩)
  | _ =>
      let served := dispatchLoop events.length d.subscribers events
      (⟨served.1⟩, served.2)

def hasSubscribers (d : DemandDispatcher) : Bool := d.subscribers.size > 0

def has (d : DemandDispatcher) (tag : Tag) : Bool := d.subscribers.has tag

end DemandDispatcher

/-! ## BroadcastDispatcher -/

structure BroadcastDispatcher where
  subscribers : OrderedMap Tag ProducerSub
  /-- The demand that all subscribers have in common and that is not served. -/
  waiting : Int
  /-- The part of it that was asked of the producer. -/
  requested : Int

namespace BroadcastDispatcher

variable {E : Type}

def new : BroadcastDispatcher := ⟨.empty, 0, 0⟩

/-- `waiting` goes back to those it was taken from. -/
def subscribe (b : BroadcastDispatcher) (tag : Tag) (sub : ProducerSub) : BroadcastDispatcher :=
  let subscribers :=
    if b.waiting > 0 then b.subscribers.map (·.grant b.waiting) else b.subscribers
  { b with subscribers := subscribers.set tag sub, waiting := 0 }

/-- The demand that all subscribers have is moved to `waiting`; returns what of it
is still to be asked of the producer. -/
def syncDemands (b : BroadcastDispatcher) : BroadcastDispatcher × Int :=
  match (b.subscribers.values.map (·.demand)).min? with
  | none => (b, 0)
  | some least =>
      if least ≤ 0 then (b, 0)
      else
        let waiting := b.waiting + least
        let request := max 0 (waiting - b.requested)
        (⟨b.subscribers.map (·.grant (-least)), waiting, b.requested + request⟩, request)

/-- What `syncDemands` returns is dropped here. -/
def cancel (b : BroadcastDispatcher) (tag : Tag) : BroadcastDispatcher :=
  let left : BroadcastDispatcher := { b with subscribers := b.subscribers.delete tag }
  if left.subscribers.size = 0 then { left with waiting := 0, requested := 0 }
  else left.syncDemands.1

def ask (b : BroadcastDispatcher) (tag : Tag) (demand : Int) : BroadcastDispatcher × Int :=
  if b.subscribers.has tag then
    syncDemands { b with subscribers := b.subscribers.modify tag (·.grant demand) }
  else (b, 0)

def dispatch (b : BroadcastDispatcher) (events : List E) :
    BroadcastDispatcher × DispatchResult E :=
  if b.waiting = 0 ∨ b.subscribers.size = 0 then (b, ⟨[], events⟩)
  else
    let count := min events.length b.waiting.toNat
    ({ b with waiting := b.waiting - count, requested := b.requested - count },
      ⟨b.subscribers.entries.map fun entry =>
        ⟨entry.2.consumerRef, entry.1, events.take count⟩, events.drop count⟩)

def hasSubscribers (b : BroadcastDispatcher) : Bool := b.subscribers.size > 0

def has (b : BroadcastDispatcher) (tag : Tag) : Bool := b.subscribers.has tag

end BroadcastDispatcher

/-! ## PartitionDispatcher -/

/-- The `partition` option of a subscription. -/
inductive PartitionOption where
  | number (p : Int)
  | string (s : String)
  deriving DecidableEq, Repr

/-- The white space and line ends that `parseInt` skips. -/
def isStrWhiteSpace (c : Char) : Bool :=
  c.val ∈ [0x9, 0xA, 0xB, 0xC, 0xD, 0x20, 0xA0, 0x1680, 0x2028, 0x2029, 0x202F, 0x205F, 0x3000,
    0xFEFF] || (0x2000 ≤ c.val && c.val ≤ 0x200A)

/-- `parseInt(s, 10)`, without a value for `NaN`. -/
def parseInt (s : String) : Option Int :=
  let digits (cs : List Char) : Option Int :=
    let ds := cs.takeWhile Char.isDigit
    if ds = [] then none
    else some (ds.foldl (fun n c => 10 * n + (c.val.toNat - '0'.val.toNat : Nat)) 0)
  match s.toList.dropWhile isStrWhiteSpace with
  | '-' :: cs => (digits cs).map (- ·)
  | '+' :: cs => digits cs
  | cs => digits cs

def PartitionOption.index : PartitionOption → Option Int
  | .number p => some p
  | .string s => parseInt s

def PartitionOption.text : PartitionOption → String
  | .number p => toString p
  | .string s => s

/-- The arrays are functions, and only the indices below `partitionCount` are used. -/
structure PartitionDispatcher (E : Type) where
  partitionCount : Nat
  /-- The hash function, the default one included. -/
  hash : E → Option Int
  partitions : Nat → Option (Tag × ProducerSub)
  tagToPartition : OrderedMap Tag Nat
  partitionBuffers : Nat → List E

namespace PartitionDispatcher

variable {E : Type}

def new (partitions : Nat) (hash : E → Option Int) : PartitionDispatcher E :=
  ⟨partitions, hash, fun _ => none, .empty, fun _ => []⟩

def subscribe (q : PartitionDispatcher E) (tag : Tag) (sub : ProducerSub)
    (partition : Option PartitionOption) : Except String (PartitionDispatcher E) :=
  match partition with
  | none => .error "PartitionDispatcher requires a 'partition' option on subscribe"
  | some option =>
      let last : Int := q.partitionCount - 1
      let text := option.text
      match option.index with
      | none => .error s!"Invalid partition {text}. Must be 0..{last}"
      | some p =>
          if p < 0 ∨ p ≥ q.partitionCount then
            .error s!"Invalid partition {text}. Must be 0..{last}"
          else
            match q.partitions p.toNat with
            | some existing =>
                let holder := existing.1
                .error s!"Partition {p} is already taken by subscriber {holder}"
            | none =>
                .ok { q with
                  partitions := Function.update q.partitions p.toNat (some (tag, sub))
                  tagToPartition := q.tagToPartition.set tag p.toNat }

def cancel (q : PartitionDispatcher E) (tag : Tag) : PartitionDispatcher E :=
  match q.tagToPartition.get tag with
  | none => q
  | some p =>
      { q with
        partitions := Function.update q.partitions p none
        tagToPartition := q.tagToPartition.delete tag }

/-- `this.partitions[p].sub.demand += demand`. -/
def grant (q : PartitionDispatcher E) (p : Nat) (demand : Int) : PartitionDispatcher E :=
  { q with
    partitions := Function.update q.partitions p
      ((q.partitions p).map fun entry => (entry.1, entry.2.grant demand)) }

def ask (q : PartitionDispatcher E) (tag : Tag) (demand : Int) : PartitionDispatcher E × Int :=
  match q.tagToPartition.get tag with
  | none => (q, 0)
  | some p => if (q.partitions p).isNone then (q, 0) else (q.grant p demand, demand)

/-- The demand of the subscriber of a partition, 0 where there is none. -/
def demandOf (q : PartitionDispatcher E) (p : Nat) : Int :=
  ((q.partitions p).map (·.2.demand)).getD 0

def keep (q : PartitionDispatcher E) (p : Nat) (events : List E) : PartitionDispatcher E :=
  { q with partitionBuffers := Function.update q.partitionBuffers p events }

/-- One turn of the loop over the events; a bucket that does not exist is empty. -/
def route (acc : PartitionDispatcher E × (Nat → List E)) (event : E) :
    Except String (PartitionDispatcher E × (Nat → List E)) :=
  let (q, buckets) := acc
  match q.hash event with
  | none => .ok acc
  | some p =>
      if p < 0 ∨ p ≥ q.partitionCount then
        let last : Int := q.partitionCount - 1
        .error s!"Hash returned invalid partition {p}. Must be 0..{last} or null"
      else if q.demandOf p.toNat ≤ 0 then
        .ok (q.keep p.toNat (q.partitionBuffers p.toNat ++ [event]), buckets)
      else
        .ok (q.grant p.toNat (-1),
          Function.update buckets p.toNat (buckets p.toNat ++ [event]))

/-- One turn of the loop that drains the partition buffers. -/
def drainBuffer (acc : PartitionDispatcher E × (Nat → List E)) (p : Nat) :
    PartitionDispatcher E × (Nat → List E) :=
  let (q, buckets) := acc
  if (q.partitionBuffers p).length = 0 ∨ q.demandOf p ≤ 0 then acc
  else
    let count := min (q.demandOf p).toNat (q.partitionBuffers p).length
    ((q.keep p ((q.partitionBuffers p).drop count)).grant p (-count),
      Function.update buckets p (buckets p ++ (q.partitionBuffers p).take count))

/-- The batches of the buckets that are not empty. -/
def batches (q : PartitionDispatcher E) (buckets : Nat → List E) : List (Dispatched E) :=
  (List.range q.partitionCount).filterMap fun p =>
    if (buckets p).length = 0 then none
    else (q.partitions p).map fun entry => ⟨entry.2.consumerRef, entry.1, buckets p⟩

def dispatch (q : PartitionDispatcher E) (events : List E) :
    Except String (PartitionDispatcher E × DispatchResult E) :=
  (events.foldlM route (q, fun _ => [])).map fun routed =>
    let drained := (List.range q.partitionCount).foldl drainBuffer routed
    (drained.1, ⟨drained.1.batches drained.2, []⟩)

def hasSubscribers (q : PartitionDispatcher E) : Bool :=
  (List.range q.partitionCount).any fun p => (q.partitions p).isSome

def has (q : PartitionDispatcher E) (tag : Tag) : Bool := q.tagToPartition.has tag

end PartitionDispatcher

/-! ## The interface -/

inductive Dispatcher (E : Type) where
  | demand (d : DemandDispatcher)
  | broadcast (b : BroadcastDispatcher)
  | partition (q : PartitionDispatcher E)

inductive DispatcherConfig (E : Type) where
  | demand
  | broadcast
  | partition (partitions : Nat) (hash : E → Option Int)

def createDispatcher {E : Type} : Option (DispatcherConfig E) → Dispatcher E
  | none => .demand .new
  | some .demand => .demand .new
  | some .broadcast => .broadcast .new
  | some (.partition partitions hash) => .partition (.new partitions hash)

/-- What holds of a new dispatcher of each kind holds of the one created. -/
theorem createDispatcher_cases {E : Type} {P : Dispatcher E → Prop} (hdemand : P (.demand .new))
    (hbroadcast : P (.broadcast .new))
    (hpartition : ∀ partitions hash, P (.partition (.new partitions hash)))
    (config : Option (DispatcherConfig E)) : P (createDispatcher config) := by
  cases config with
  | none => exact hdemand
  | some config =>
      cases config with
      | demand => exact hdemand
      | broadcast => exact hbroadcast
      | partition partitions hash => exact hpartition partitions hash

namespace Dispatcher

variable {E : Type}

def subscribe (d : Dispatcher E) (tag : Tag) (sub : ProducerSub)
    (partition : Option PartitionOption) : Except String (Dispatcher E) :=
  match d with
  | .demand d => .ok (.demand (d.subscribe tag sub))
  | .broadcast b => .ok (.broadcast (b.subscribe tag sub))
  | .partition q => (q.subscribe tag sub partition).map .partition

def cancel (d : Dispatcher E) (tag : Tag) : Dispatcher E :=
  match d with
  | .demand d => .demand (d.cancel tag)
  | .broadcast b => .broadcast (b.cancel tag)
  | .partition q => .partition (q.cancel tag)

def ask (d : Dispatcher E) (tag : Tag) (demand : Int) : Dispatcher E × Int :=
  match d with
  | .demand d => (.demand (d.ask tag demand).1, (d.ask tag demand).2)
  | .broadcast b => (.broadcast (b.ask tag demand).1, (b.ask tag demand).2)
  | .partition q => (.partition (q.ask tag demand).1, (q.ask tag demand).2)

def dispatch (d : Dispatcher E) (events : List E) :
    Except String (Dispatcher E × DispatchResult E) :=
  match d with
  | .demand d => .ok (.demand (d.dispatch events).1, (d.dispatch events).2)
  | .broadcast b => .ok (.broadcast (b.dispatch events).1, (b.dispatch events).2)
  | .partition q => (q.dispatch events).map fun done => (.partition done.1, done.2)

def hasSubscribers : Dispatcher E → Bool
  | .demand d => d.hasSubscribers
  | .broadcast b => b.hasSubscribers
  | .partition q => q.hasSubscribers

def has (d : Dispatcher E) (tag : Tag) : Bool :=
  match d with
  | .demand d => d.has tag
  | .broadcast b => b.has tag
  | .partition q => q.has tag

end Dispatcher

end Libeam.GenStage
