import Libeam.GenStage.Outlet
/-!
# The ProducerConsumer stage

The stage receives events of its upstream subscriptions, transforms them and emits
the result downstream.
-/

namespace Libeam.GenStage

open Lib
open Supervision (ActorRef)

/-- Consumer-side tracking of a subscription to a producer. -/
structure ConsumerSub where
  producerRef : ActorRef String
  pendingDemand : Int
  maxDemand : Nat
  minDemand : Int
  deriving DecidableEq, Repr

/-- `sub.pendingDemand += demand`. -/
def ConsumerSub.ask (sub : ConsumerSub) (demand : Int) : ConsumerSub :=
  { sub with pendingDemand := sub.pendingDemand + demand }

/-- `sub.pendingDemand -= events.length`, and no less than 0. -/
def ConsumerSub.take (sub : ConsumerSub) (count : Nat) : ConsumerSub :=
  { sub with pendingDemand := max 0 (sub.pendingDemand - count) }

structure SubscriptionOptions where
  maxDemand : Option Nat := none
  minDemand : Option Int := none
  partition : Option PartitionOption := none
  deriving DecidableEq, Repr

def SubscriptionOptions.max (options : SubscriptionOptions) : Nat :=
  options.maxDemand.getD 1000

/-- `Math.floor(maxDemand * 0.75)` unless it is given. -/
def SubscriptionOptions.min (options : SubscriptionOptions) : Int :=
  options.minDemand.getD (options.max * 3 / 4)

/-- The entry that `subscribeToProducer` makes. -/
def SubscriptionOptions.sub (options : SubscriptionOptions) (producerRef : ActorRef String) :
    ConsumerSub :=
  ⟨producerRef, 0, options.max, options.min⟩

/-- The subscription that events come from. -/
structure From where
  tag : Tag
  producerRef : ActorRef String
  deriving DecidableEq, Repr

/-- `init` is the state that the callback returns for the spawn arguments. -/
structure ProducerConsumerCallbacks (E E' S : Type) where
  init : S
  handleEvents : List E' → From → S → List E × S

structure ProducerConsumerStage (E E' S : Type) extends Outlet E where
  callbacks : ProducerConsumerCallbacks E E' S
  userState : S
  upstreamSubs : OrderedMap Tag ConsumerSub

/-- The messages of the stage, and the calls that its wrapper makes. -/
inductive ProducerConsumerMessage (E' : Type) where
  | subscribe (tag : Tag) (consumerRef : ActorRef String) (maxDemand : Nat) (minDemand : Int)
      (partition : Option PartitionOption)
  | deferredAsk (tag : Tag)
  | events (tag : Tag) (producerRef : ActorRef String) (events : List E')
  | ask (tag : Tag) (demand : Int)
  | cancel (tag : Tag) (reason : String)
  | subscribeToProducer (tag : Tag) (producerRef : ActorRef String)
      (options : SubscriptionOptions)
  | cancelUpstream (tag : Tag) (reason : String)
  deriving DecidableEq, Repr

namespace ProducerConsumerStage

variable {E E' S : Type}

def init (callbacks : ProducerConsumerCallbacks E E' S) (options : ProducerOptions E) :
    ProducerConsumerStage E E' S where
  toOutlet := Outlet.init options
  callbacks := callbacks
  userState := callbacks.init
  upstreamSubs := .empty

def dispatchOrBuffer (p : ProducerConsumerStage E E' S) (events : List E) :
    Except String (ProducerConsumerStage E E' S × Trace E) :=
  (p.toOutlet.dispatchOrBuffer events).map fun (outlet, acts) =>
    ({ p with toOutlet := outlet }, acts)

/-- `sub.pendingDemand += demand`, and an ask for it to the producer. -/
def askUpstream (p : ProducerConsumerStage E E' S) (tag : Tag) (sub : ConsumerSub)
    (demand : Int) : ProducerConsumerStage E E' S × Trace E :=
  ({ p with upstreamSubs := p.upstreamSubs.modify tag (·.ask demand) },
    [.askedProducer sub.producerRef tag demand])

def deferredAsk (p : ProducerConsumerStage E E' S) (tag : Tag) :
    ProducerConsumerStage E E' S × Trace E :=
  match p.upstreamSubs.get tag with
  | none => (p, [])
  | some sub => p.askUpstream tag sub sub.maxDemand

/-- The re-ask at the end of `handleUpstreamEvents`. -/
def reaskUpstream (p : ProducerConsumerStage E E' S) (tag : Tag) (sub : ConsumerSub) :
    ProducerConsumerStage E E' S × Trace E :=
  if sub.pendingDemand ≤ sub.minDemand then
    p.askUpstream tag sub (sub.maxDemand - sub.pendingDemand)
  else (p, [])

def handleUpstreamEvents (p : ProducerConsumerStage E E' S) (tag : Tag)
    (producerRef : ActorRef String) (events : List E') :
    Except String (ProducerConsumerStage E E' S × Trace E) :=
  match p.upstreamSubs.get tag with
  | none => .ok (p, [])
  | some sub =>
      let sub := sub.take events.length
      let (outEvents, newState) := p.callbacks.handleEvents events ⟨tag, producerRef⟩ p.userState
      let p := { p with
        upstreamSubs := p.upstreamSubs.modify tag fun _ => sub
        userState := newState }
      (if outEvents.length > 0 then p.dispatchOrBuffer outEvents else .ok (p, [])).map
        fun (p, acts) =>
          let (p, asks) := p.reaskUpstream tag sub
          (p, .received tag events.length :: .returned outEvents :: (acts ++ asks))

def handleDownstreamAsk (p : ProducerConsumerStage E E' S) (tag : Tag) (demand : Int) :
    Except String (ProducerConsumerStage E E' S × Trace E) :=
  if demand ≤ 0 then .ok (p, [.asked tag demand])
  else
    let p := { p with toOutlet := (p.toOutlet.ask tag demand).1 }
    if p.buffer.length > 0 then
      p.toOutlet.drain.map fun (outlet, drained) =>
        ({ p with toOutlet := outlet }, .asked tag demand :: drained)
    else .ok (p, [.asked tag demand])

/-- A consumer cancels, or a producer. -/
def handleCancel (p : ProducerConsumerStage E E' S) (tag : Tag) :
    ProducerConsumerStage E E' S × Trace E :=
  if p.dispatcher.has tag then
    let (outlet, acts) := p.toOutlet.cancel tag
    ({ p with toOutlet := outlet }, acts)
  else ({ p with upstreamSubs := p.upstreamSubs.delete tag }, [])

def receive (p : ProducerConsumerStage E E' S) :
    ProducerConsumerMessage E' → Except String (ProducerConsumerStage E E' S × Trace E)
  | .subscribe tag consumerRef maxDemand minDemand partition =>
      let (outlet, acts) := p.toOutlet.subscribe tag consumerRef maxDemand minDemand partition
      .ok ({ p with toOutlet := outlet }, acts)
  | .deferredAsk tag => .ok (p.deferredAsk tag)
  | .events tag producerRef events => p.handleUpstreamEvents tag producerRef events
  | .ask tag demand => p.handleDownstreamAsk tag demand
  | .cancel tag _ => .ok (p.handleCancel tag)
  | .subscribeToProducer tag producerRef options =>
      .ok ({ p with upstreamSubs := p.upstreamSubs.set tag (options.sub producerRef) }, [])
  | .cancelUpstream tag _ =>
      .ok ({ p with upstreamSubs := p.upstreamSubs.delete tag }, [])

def start (callbacks : ProducerConsumerCallbacks E E' S) (options : ProducerOptions E) :
    Recorded (ProducerConsumerStage E E' S) E :=
  ⟨init callbacks options, []⟩

def step : Recorded (ProducerConsumerStage E E' S) E → ProducerConsumerMessage E' →
    Option (Recorded (ProducerConsumerStage E E' S) E) :=
  Recorded.step receive

end ProducerConsumerStage

end Libeam.GenStage
