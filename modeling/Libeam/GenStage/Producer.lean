import Libeam.GenStage.Outlet
/-!
# The Producer stage
-/

namespace Libeam.GenStage

open Supervision (ActorRef)

inductive DemandMode where
  | accumulate
  | forward
  deriving DecidableEq, Repr

/-- `init` is the state that the callback returns for the spawn arguments. -/
structure ProducerCallbacks (E S : Type) where
  init : S
  handleDemand : Int → S → List E × S

structure ProducerStage (E S : Type) extends Outlet E where
  callbacks : ProducerCallbacks E S
  userState : S
  demandMode : DemandMode
  accumulatedDemand : Int

/-- The messages of a producer. -/
inductive ProducerMessage where
  | subscribe (tag : Tag) (consumerRef : ActorRef String) (maxDemand : Nat) (minDemand : Int)
      (partition : Option PartitionOption)
  | ask (tag : Tag) (demand : Int)
  | cancel (tag : Tag) (reason : String)
  /-- `demand("forward")`, the only mode that can be switched to. -/
  | setDemandMode
  deriving DecidableEq, Repr

namespace ProducerStage

variable {E S : Type}

def init (callbacks : ProducerCallbacks E S) (options : ProducerOptions E)
    (demand : Option DemandMode) : ProducerStage E S where
  toOutlet := Outlet.init options
  callbacks := callbacks
  userState := callbacks.init
  demandMode := demand.getD .forward
  accumulatedDemand := 0

def dispatchOrBuffer (p : ProducerStage E S) (events : List E) :
    Except String (ProducerStage E S × Trace E) :=
  (p.toOutlet.dispatchOrBuffer events).map fun (outlet, acts) =>
    ({ p with toOutlet := outlet }, acts)

/-- The user is asked for events, which are dispatched or buffered. -/
def demandEvents (p : ProducerStage E S) (demand : Int) :
    Except String (ProducerStage E S × Trace E) :=
  let (events, newState) := p.callbacks.handleDemand demand p.userState
  let p := { p with userState := newState }
  if events.length > 0 then
    (p.dispatchOrBuffer events).map fun (p, acts) =>
      (p, .handleDemand demand :: .returned events :: acts)
  else .ok (p, [.handleDemand demand, .returned []])

/-- Demand that the dispatcher wants of the producer: for the user, or for later. -/
def forwardDemand (p : ProducerStage E S) (upstreamDemand : Int) :
    Except String (ProducerStage E S × Trace E) :=
  if upstreamDemand > 0 then
    if p.demandMode = .accumulate then
      .ok ({ p with accumulatedDemand := p.accumulatedDemand + upstreamDemand }, [])
    else p.demandEvents upstreamDemand
  else .ok (p, [])

def handleSubscribe (p : ProducerStage E S) (tag : Tag) (consumerRef : ActorRef String)
    (maxDemand : Nat) (minDemand : Int) (partition : Option PartitionOption) :
    ProducerStage E S × Trace E :=
  let (outlet, acts) := p.toOutlet.subscribe tag consumerRef maxDemand minDemand partition
  ({ p with toOutlet := outlet }, acts)

def handleAsk (p : ProducerStage E S) (tag : Tag) (demand : Int) :
    Except String (ProducerStage E S × Trace E) :=
  if demand ≤ 0 then .ok (p, [.asked tag demand])
  else
    let (asked, upstreamDemand) := p.toOutlet.ask tag demand
    asked.drain.bind fun (outlet, drained) =>
      ({ p with toOutlet := outlet }.forwardDemand upstreamDemand).map fun (p, acts) =>
        (p, Act.asked tag demand :: (drained ++ acts))

def handleCancel (p : ProducerStage E S) (tag : Tag) : ProducerStage E S × Trace E :=
  let (outlet, acts) := p.toOutlet.cancel tag
  ({ p with toOutlet := outlet }, acts)

def switchDemandMode (p : ProducerStage E S) : Except String (ProducerStage E S × Trace E) :=
  let p := { p with demandMode := .forward }
  if p.accumulatedDemand > 0 then
    { p with accumulatedDemand := 0 }.demandEvents p.accumulatedDemand
  else .ok (p, [])

/-- `handleCall` and `handleCast`. -/
def receive (p : ProducerStage E S) :
    ProducerMessage → Except String (ProducerStage E S × Trace E)
  | .subscribe tag consumerRef maxDemand minDemand partition =>
      .ok (p.handleSubscribe tag consumerRef maxDemand minDemand partition)
  | .ask tag demand => p.handleAsk tag demand
  | .cancel tag _ => .ok (p.handleCancel tag)
  | .setDemandMode => p.switchDemandMode

/-- A producer as it starts. -/
def start (callbacks : ProducerCallbacks E S) (options : ProducerOptions E)
    (demand : Option DemandMode) : Recorded (ProducerStage E S) E :=
  ⟨init callbacks options demand, []⟩

def step : Recorded (ProducerStage E S) E → ProducerMessage →
    Option (Recorded (ProducerStage E S) E) :=
  Recorded.step receive

end ProducerStage

end Libeam.GenStage
