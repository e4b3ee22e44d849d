import Libeam.GenStage.Dispatcher
/-!
# The producing side of a stage

A `Producer` and a `ProducerConsumer` keep a dispatcher and a buffer in the same way.
What a stage takes in and gives out is recorded as a list of acts, in the order in
which it happens.
-/

namespace Libeam.GenStage

open Supervision (ActorRef)

inductive BufferKeep where
  | first
  | last
  deriving DecidableEq, Repr

/-- What a stage does while it handles a message. -/
inductive Act (E : Type) where
  | subscribed (tag : Tag) (partition : Option PartitionOption)
  /-- The call threw, and the caller's promise is rejected with the error. -/
  | rejected (tag : Tag) (error : String)
  | asked (tag : Tag) (demand : Int)
  | cancelled (tag : Tag)
  /-- A call of `callbacks.handleDemand`. -/
  | handleDemand (demand : Int)
  /-- A `ProducerConsumer` received as many events of a subscription it has. -/
  | received (tag : Tag) (count : Nat)
  /-- The events that a callback of the user returned. -/
  | returned (events : List E)
  /-- A call of `sendDispatched`: the batches cast to consumers. -/
  | sent (dispatched : List (Dispatched E))
  /-- Events that the buffer had no space for. -/
  | dropped (events : List E)
  /-- An ask to a producer, cast or handled at once. -/
  | askedProducer (producerRef : ActorRef String) (tag : Tag) (demand : Int)
  deriving DecidableEq, Repr

abbrev Trace (E : Type) := List (Act E)

/-- Demand mode aside, the fields by which both producing stages emit events. -/
structure Outlet (E : Type) where
  dispatcher : Dispatcher E
  buffer : List E
  bufferSize : Nat
  bufferKeep : BufferKeep

structure ProducerOptions (E : Type) where
  bufferSize : Option Nat := none
  bufferKeep : Option BufferKeep := none
  dispatcher : Option (DispatcherConfig E) := none

namespace Outlet

variable {E : Type}

/-- The fields at the end of `init`. -/
def init (options : ProducerOptions E) : Outlet E where
  dispatcher := createDispatcher options.dispatcher
  buffer := []
  bufferSize := options.bufferSize.getD 10000
  bufferKeep := options.bufferKeep.getD .last

def addToBuffer (o : Outlet E) (events : List E) : Outlet E × Trace E :=
  match o.bufferKeep with
  | .last =>
      let buffer := o.buffer ++ events
      if buffer.length > o.bufferSize then
        let overflow := buffer.length - o.bufferSize
        ({ o with buffer := buffer.drop overflow }, [.dropped (buffer.take overflow)])
      else ({ o with buffer := buffer }, [])
  | .first =>
      let space := o.bufferSize - o.buffer.length
      ({ o with buffer := o.buffer ++ events.take space },
        if events.length > space then [.dropped (events.drop space)] else [])

/-- `dispatcher.dispatch(buffer)`, with what remains put back. -/
def drain (o : Outlet E) : Except String (Outlet E × Trace E) :=
  (o.dispatcher.dispatch o.buffer).map fun (dispatcher, result) =>
    ({ o with dispatcher := dispatcher, buffer := result.remaining }, [.sent result.dispatched])

def dispatchOrBuffer (o : Outlet E) (events : List E) :
    Except String (Outlet E × Trace E) :=
  if !o.dispatcher.hasSubscribers then .ok (o.addToBuffer events)
  else
    (o.dispatcher.dispatch events).map fun (dispatcher, result) =>
      let o := { o with dispatcher := dispatcher }
      let (buffered, dropped) :=
        if result.remaining.length > 0 then o.addToBuffer result.remaining else (o, [])
      (buffered, .sent result.dispatched :: dropped)

/-- A subscribe call; a dispatcher that throws has changed nothing. -/
def subscribe (o : Outlet E) (tag : Tag) (consumerRef : ActorRef String) (maxDemand : Nat)
    (minDemand : Int) (partition : Option PartitionOption) : Outlet E × Trace E :=
  match o.dispatcher.subscribe tag ⟨consumerRef, 0, maxDemand, minDemand⟩ partition with
  | .ok dispatcher => ({ o with dispatcher := dispatcher }, [.subscribed tag partition])
  | .error error => (o, [.rejected tag error])

def cancel (o : Outlet E) (tag : Tag) : Outlet E × Trace E :=
  ({ o with dispatcher := o.dispatcher.cancel tag }, [.cancelled tag])

/-- `dispatcher.ask(tag, demand)`, and the demand it wants of the producer. -/
def ask (o : Outlet E) (tag : Tag) (demand : Int) : Outlet E × Int :=
  ({ o with dispatcher := (o.dispatcher.ask tag demand).1 }, (o.dispatcher.ask tag demand).2)

end Outlet

/-- A stage with all that it has done. -/
structure Recorded (σ E : Type) where
  stage : σ
  trace : Trace E

/-- One message; a handler that throws ends the stage. -/
def Recorded.step {σ E μ : Type} (receive : σ → μ → Except String (σ × Trace E))
    (r : Recorded σ E) (message : μ) : Option (Recorded σ E) :=
  match receive r.stage message with
  | .ok (stage, acts) => some ⟨stage, r.trace ++ acts⟩
  | .error _ => none

end Libeam.GenStage
