import Libeam.GenStage.ProducerConsumer
/-!
# The Consumer stage

A consumer counts, for each of its subscriptions, the demand that it has asked and not
received, and asks again once it is down to `minDemand`.
-/

namespace Libeam.GenStage

open Lib
open Supervision (ActorRef)

/-- `init` is the state that the callback returns for the spawn arguments. -/
structure ConsumerCallbacks (E S : Type) where
  init : S
  handleEvents : List E → From → S → S

structure ConsumerStage (E S : Type) where
  /-- `this.context.system.id`. -/
  systemId : String
  callbacks : ConsumerCallbacks E S
  userState : S
  subscriptions : OrderedMap Tag ConsumerSub

/-- The message of `askProducer` and whom it is for. -/
structure AskProducer where
  producerRef : ActorRef String
  tag : Tag
  demand : Int
  deriving DecidableEq, Repr

namespace ConsumerStage

variable {E S : Type}

def init (systemId : String) (callbacks : ConsumerCallbacks E S) : ConsumerStage E S where
  systemId := systemId
  callbacks := callbacks
  userState := callbacks.init
  subscriptions := .empty

def subscribeToProducer (c : ConsumerStage E S) (tag : Tag) (producerRef : ActorRef String)
    (options : SubscriptionOptions) : ConsumerStage E S :=
  { c with subscriptions := c.subscriptions.set tag (options.sub producerRef) }

/-- `sub.pendingDemand += demand`, and the message to send. -/
def askProducer (c : ConsumerStage E S) (tag : Tag) (sub : ConsumerSub) (demand : Int) :
    ConsumerStage E S × Option AskProducer :=
  ({ c with subscriptions := c.subscriptions.modify tag (·.ask demand) },
    some ⟨sub.producerRef, tag, demand⟩)

def deferredAsk (c : ConsumerStage E S) (tag : Tag) : ConsumerStage E S × Option AskProducer :=
  match c.subscriptions.get tag with
  | none => (c, none)
  | some sub => c.askProducer tag sub sub.maxDemand

def handleEvents (c : ConsumerStage E S) (tag : Tag) (producerRef : ActorRef String)
    (events : List E) : ConsumerStage E S × Option AskProducer :=
  match c.subscriptions.get tag with
  | none => (c, none)
  | some sub =>
      let sub := sub.take events.length
      let c := { c with
        subscriptions := c.subscriptions.modify tag fun _ => sub
        userState := c.callbacks.handleEvents events ⟨tag, producerRef⟩ c.userState }
      if sub.pendingDemand ≤ sub.minDemand then
        c.askProducer tag sub (sub.maxDemand - sub.pendingDemand)
      else (c, none)

/-- The subscription to end, if there is one. -/
def cancelSubscription (c : ConsumerStage E S) (tag : Tag) :
    Option (ConsumerStage E S × ConsumerSub) :=
  (c.subscriptions.get tag).map fun sub =>
    ({ c with subscriptions := c.subscriptions.delete tag }, sub)

/-- The producer is known by its id, in the same system. -/
def isLocal (c : ConsumerStage E S) (producerRef : ActorRef String) : Bool :=
  producerRef.name.getD "" = "" && producerRef.systemId = c.systemId

end ConsumerStage

end Libeam.GenStage
