import Libeam.GenStage.Ledger
import Libeam.GenStage.Producer
import Libeam.GenStage.Consumer
/-!
# A producer and its consumers

The stages exchange messages.  What is sent and not yet handled is in flight, and any of
it may be handled next.  The ask of a consumer to a local producer is handled within the
consumer's own handler, when `_syncLocalCast` can do so, and is a message otherwise.
-/

namespace Libeam.GenStage

open Supervision (ActorRef)

/-- A message in flight, or the rest of a wrapper's `subscribe` after its call. -/
inductive Packet (E : Type) where
  | subscribe (consumerRef : ActorRef String) (tag : Tag) (maxDemand : Nat) (minDemand : Int)
      (partition : Option PartitionOption)
  /-- The reply to the call of `subscribe`. -/
  | subscribed (consumerRef : ActorRef String) (tag : Tag)
  | deferredAsk (consumerRef : ActorRef String) (tag : Tag)
  | ask (tag : Tag) (demand : Int)
  | events (consumerRef : ActorRef String) (tag : Tag) (events : List E)
  | cancel (tag : Tag) (reason : String)
  | setDemandMode
  deriving DecidableEq, Repr

structure Pipeline (E S C : Type) where
  producerRef : ActorRef String
  producer : ProducerStage E S
  consumers : ActorRef String → Option (ConsumerStage E C)
  flight : List (Packet E)

/-- What the users of the wrappers do, and what the system delivers. -/
inductive PipelineAction where
  | subscribe (consumerRef : ActorRef String) (tag : Tag) (options : SubscriptionOptions)
  | cancelSubscription (consumerRef : ActorRef String) (tag : Tag) (reason : String)
  | demand
  /-- `sync` is what `_syncLocalCast` returns, should it be called. -/
  | deliver (index : Nat) (sync : Bool)
  deriving DecidableEq, Repr

namespace Pipeline

variable {E S C : Type}

def start (producerRef : ActorRef String) (callbacks : ProducerCallbacks E S)
    (options : ProducerOptions E) (mode : Option DemandMode)
    (consumers : ActorRef String → Option (ConsumerCallbacks E C)) : Pipeline E S C where
  producerRef := producerRef
  producer := ProducerStage.init callbacks options mode
  consumers := fun consumerRef =>
    (consumers consumerRef).map (ConsumerStage.init consumerRef.systemId)
  flight := []

def send (p : Pipeline E S C) (packets : List (Packet E)) : Pipeline E S C :=
  { p with flight := p.flight ++ packets }

def setConsumer (p : Pipeline E S C) (consumerRef : ActorRef String) (c : ConsumerStage E C) :
    Pipeline E S C :=
  { p with consumers := Function.update p.consumers consumerRef (some c) }

/-- The casts of `sendDispatched`. -/
def casts (acts : Trace E) : List (Packet E) :=
  acts.batches.map fun b => .events b.consumerRef b.tag b.events

/-- The reply to a subscriber that was accepted. -/
def replies (consumerRef : ActorRef String) (acts : Trace E) : List (Packet E) :=
  acts.filterMap fun
    | .subscribed tag _ => some (.subscribed consumerRef tag)
    | _ => none

/-- The producer handles a message; what it sends, and what it does. -/
def produce (p : Pipeline E S C) (message : ProducerMessage) :
    Option (Pipeline E S C × Trace E) :=
  match p.producer.receive message with
  | .error _ => none
  | .ok (producer, acts) => some ({ p with producer := producer }.send (casts acts), acts)

/-- The last part of `askProducer`. -/
def ask (p : Pipeline E S C) (c : ConsumerStage E C) (message : Option AskProducer)
    (sync : Bool) : Option (Pipeline E S C) :=
  match message with
  | none => some p
  | some message =>
      if c.isLocal message.producerRef && sync then
        (p.produce (.ask message.tag message.demand)).map Prod.fst
      else some (p.send [.ask message.tag message.demand])

def handle (p : Pipeline E S C) (sync : Bool) : Packet E → Option (Pipeline E S C)
  | .subscribe consumerRef tag maxDemand minDemand partition =>
      (p.produce (.subscribe tag consumerRef maxDemand minDemand partition)).map
        fun (p, acts) => p.send (replies consumerRef acts)
  | .subscribed consumerRef tag => some (p.send [.deferredAsk consumerRef tag])
  | .deferredAsk consumerRef tag =>
      match p.consumers consumerRef with
      | none => some p
      | some c =>
          let (c, message) := c.deferredAsk tag
          (p.setConsumer consumerRef c).ask c message sync
  | .ask tag demand => (p.produce (.ask tag demand)).map Prod.fst
  | .events consumerRef tag events =>
      match p.consumers consumerRef with
      | none => some p
      | some c =>
          let (c, message) := c.handleEvents tag p.producerRef events
          (p.setConsumer consumerRef c).ask c message sync
  | .cancel tag reason => (p.produce (.cancel tag reason)).map Prod.fst
  | .setDemandMode => (p.produce .setDemandMode).map Prod.fst

def step (p : Pipeline E S C) : PipelineAction → Option (Pipeline E S C)
  | .subscribe consumerRef tag options =>
      match p.consumers consumerRef with
      | none => none
      | some c =>
          some ((p.setConsumer consumerRef (c.subscribeToProducer tag p.producerRef options)).send
            [.subscribe consumerRef tag options.max options.min options.partition])
  | .cancelSubscription consumerRef tag reason =>
      match (p.consumers consumerRef).bind fun c => c.cancelSubscription tag with
      | none => none
      | some (c, _) => some ((p.setConsumer consumerRef c).send [.cancel tag reason])
  | .demand => some (p.send [.setDemandMode])
  | .deliver index sync =>
      match p.flight[index]? with
      | none => none
      | some packet => { p with flight := p.flight.eraseIdx index }.handle sync packet

end Pipeline

end Libeam.GenStage
