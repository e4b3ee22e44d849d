import Libeam.GenStage.Consumer
import Libeam.Supervision.Supervise
/-!
# The ConsumerSupervisor stage

A consumer supervisor spawns a child for every event that it receives, watches it, and asks for
one event more for every child that it is told is down.  `ConsumerSupervisor` is a node with one
such actor.  Its handlers run without an `await`, but within `handleEvents` runs the `init` of
each new worker, which may do anything to the node.
-/

namespace Libeam.GenStage

open Lib
open Libeam.System (ActorId)
open Supervision

/-! ## Whose watchers an action of the node notifies -/

section
variable {N V : Type}

/-- The actor that leaves the lists of its parent when the function goes on. -/
def departing (t : Tables N V) : Frame N V → Option ActorId
  | .stop r => if r.id ∈ t.actors ∧ (t.context r.id).children = [] then some r.id else none
  | .children r [] => some r.id
  | .stopSingle r => if r.id ∈ t.actors then some r.id else none
  | _ => none

/-- `stopSingle` notifies nobody. -/
def announced (t : Tables N V) : Frame N V → Option ActorId
  | .stopSingle _ => none
  | f => departing t f

/-- The function that an action has go on. -/
def resumedFrame (t : Tree N V) : TreeAction N V → Option (Frame N V)
  | .resumes index _ => (t.calls[index]?).bind List.head?
  | _ => none

/-- `stop` notifies the watchers of the actor, and so does a supervisor that calls it. -/
def notified [DecidableEq N] (stringify : List V → String) (t : Tree N V) (a : TreeAction N V) :
    Option ActorId :=
  match a with
  | .crash r now =>
      if (t.handleCrash stringify r now).stopRequests = t.stopRequests then none else some r.id
  | a => (resumedFrame t a).bind (announced t.toTables)

end

/-! ## The stage -/

structure ChildSpec (V : Type) where
  actorClass : String
  args : Option (List V) := none
  spawnOptions : SpawnOptions V := {}
  deriving DecidableEq, Repr

structure ConsumerSupervisorOptions where
  maxRestarts : Nat := 3
  periodMs : Nat := 5000
  deriving DecidableEq, Repr

def ConsumerSupervisorOptions.childSupervision (options : ConsumerSupervisorOptions) :
    ChildSupervisionOptions :=
  ⟨.oneForOne, options.maxRestarts, options.periodMs⟩

structure ActiveWorker (V : Type) where
  ref : ActorRef String
  event : V
  subscriptionTag : Tag
  deriving DecidableEq, Repr

/-- A call of `handleEvents`, in its loop over the events. -/
structure WorkerBatch (V : Type) where
  tag : Tag
  sub : ConsumerSub
  /-- The events still to come. -/
  events : List V
  /-- The worker that is in the tables, and whose `spawnChild` has not returned. -/
  spawning : Option (ActiveWorker V)
  deriving DecidableEq, Repr

inductive ConsumerCast where
  | ask (message : AskProducer)
  | cancel (producerRef : ActorRef String) (tag : Tag) (reason : String)
  deriving DecidableEq, Repr

structure ConsumerSupervisor (V : Type) where
  tree : Tree String V
  self : ActorRef String
  childSpec : ChildSpec V
  subscriptions : OrderedMap Tag ConsumerSub
  activeWorkers : OrderedMap ActorId (ActiveWorker V)
  releasedDemand : OrderedMap Tag Nat
  /-- The workers that the actor watches. -/
  watched : Finset ActorId
  /-- The calls of `handleEvents` in progress, the innermost first. -/
  batches : List (WorkerBatch V)
  /-- The subscriptions whose `__deferred_ask` has not been handled. -/
  unasked : Finset Tag
  /-- What has been cast to producers. -/
  sent : List ConsumerCast
  /-- History: the tags of all subscriptions. -/
  tags : Finset Tag
  /-- History: the subscription whose event a worker was spawned for. -/
  startedFor : ActorId → Option Tag

inductive ConsumerSupervisorAction (V : Type) where
  | subscribe (tag : Tag) (producerRef : ActorRef String) (options : SubscriptionOptions)
  | deferredAsk (tag : Tag)
  | events (tag : Tag) (events : List V)
  /-- `spawnChild` for the next event runs the `init` of the worker. -/
  | spawns
  /-- `spawnChild` throws before the worker is in the tables. -/
  | spawnThrows
  | initReturns
  | initThrows
  /-- The end of `handleEvents`. -/
  | batchEnds
  | cancelFromProducer (tag : Tag)
  | cancelSubscription (tag : Tag) (reason : String)
  | cancelAll (reason : String)
  /-- Anything else that happens on the node. -/
  | tree (a : TreeAction String V)
  deriving DecidableEq, Repr

namespace ConsumerSupervisor

variable {V : Type}

/-- The actor is spawned on a node. -/
def start (t : Tree String V) (childSpec : ChildSpec V) (options : ConsumerSupervisorOptions) :
    ConsumerSupervisor V where
  tree := { t with
    toTables := t.toTables.spawn "ConsumerSupervisorActor" {} none
    childSupervision := Function.update t.childSupervision t.nextId options.childSupervision }
  self := ⟨t.id, t.nextId, none, 0⟩
  childSpec := childSpec
  subscriptions := .empty
  activeWorkers := .empty
  releasedDemand := .empty
  watched := ∅
  batches := []
  unasked := ∅
  sent := []
  tags := ∅
  startedFor := fun _ => none

/-! ## Demand -/

/-- `this.releasedDemand.get(tag) || 0` -/
def released (s : ConsumerSupervisor V) (tag : Tag) : Nat := (s.releasedDemand.get tag).getD 0

def release (s : ConsumerSupervisor V) (tag : Tag) : ConsumerSupervisor V :=
  { s with releasedDemand := s.releasedDemand.set tag (s.released tag + 1) }

def askProducer (s : ConsumerSupervisor V) (tag : Tag) (sub : ConsumerSub) (demand : Int) :
    ConsumerSupervisor V :=
  { s with
    subscriptions := s.subscriptions.modify tag (·.ask demand)
    sent := s.sent ++ [.ask ⟨sub.producerRef, tag, demand⟩] }

def maybeAskForMore (s : ConsumerSupervisor V) (tag : Tag) (sub : ConsumerSub) :
    ConsumerSupervisor V :=
  if sub.minDemand ≤ s.released tag then
    { s with releasedDemand := s.releasedDemand.set tag 0 }.askProducer tag sub (s.released tag)
  else s

/-! ## Subscriptions -/

/-- A tag is made of the time and of a random number, and is new. -/
def subscribe (s : ConsumerSupervisor V) (tag : Tag) (producerRef : ActorRef String)
    (options : SubscriptionOptions) : Option (ConsumerSupervisor V) :=
  if tag ∈ s.tags then none
  else
    some { s with
      subscriptions := s.subscriptions.set tag (options.sub producerRef)
      releasedDemand := s.releasedDemand.set tag 0
      unasked := insert tag s.unasked
      tags := insert tag s.tags }

def deferredAsk (s : ConsumerSupervisor V) (tag : Tag) : Option (ConsumerSupervisor V) :=
  if tag ∈ s.unasked then
    let s := { s with unasked := s.unasked.erase tag }
    match s.subscriptions.get tag with
    | none => some s
    | some sub => some (s.askProducer tag sub sub.maxDemand)
  else none

def handleCancelFromProducer (s : ConsumerSupervisor V) (tag : Tag) : ConsumerSupervisor V :=
  { s with
    subscriptions := s.subscriptions.delete tag
    releasedDemand := s.releasedDemand.delete tag }

def cancelSubscription (s : ConsumerSupervisor V) (tag : Tag) (reason : String) :
    ConsumerSupervisor V :=
  match s.subscriptions.get tag with
  | none => s
  | some sub =>
      { s with
        subscriptions := s.subscriptions.delete tag
        releasedDemand := s.releasedDemand.delete tag
        sent := s.sent ++ [.cancel sub.producerRef tag reason] }

def cancelAll (s : ConsumerSupervisor V) (reason : String) : ConsumerSupervisor V :=
  { s with
    subscriptions := .empty
    releasedDemand := .empty
    sent := s.sent ++ s.subscriptions.entries.map fun (tag, sub) =>
      .cancel sub.producerRef tag reason }

/-! ## Events and workers -/

/-- `handleEvents` up to its loop. -/
def handleEvents (s : ConsumerSupervisor V) (tag : Tag) (events : List V) :
    ConsumerSupervisor V :=
  match s.subscriptions.get tag with
  | none => s
  | some sub =>
      let sub := sub.take events.length
      { s with
        subscriptions := s.subscriptions.modify tag fun _ => sub
        batches := ⟨tag, sub, events, none⟩ :: s.batches }

/-- The event is the last argument. -/
def workerOptions (s : ConsumerSupervisor V) (event : V) : SpawnOptions V :=
  { s.childSpec.spawnOptions with args := some (s.childSpec.args.getD [] ++ [event]) }

/-- `spawnChild` throws when the parent is gone. -/
def spawnWorker (s : ConsumerSupervisor V) (throws : Bool) : Option (ConsumerSupervisor V) :=
  match s.batches with
  | ⟨tag, sub, event :: events, none⟩ :: outer =>
      let childRef : ActorRef String := ⟨s.tree.id, s.tree.nextId, s.childSpec.spawnOptions.name, 0⟩
      if s.self.id ∈ s.tree.actors ∧ throws = false then
        some { s with
          tree := { s.tree with
            toTables := s.tree.toTables.spawnChild s.self s.childSpec.actorClass
              (s.workerOptions event) none }
          batches := ⟨tag, sub, events, some ⟨childRef, event, tag⟩⟩ :: outer
          startedFor := Function.update s.startedFor s.tree.nextId (some tag) }
      else some { s.release tag with batches := ⟨tag, sub, events, none⟩ :: outer }
  | _ => none

def initReturns (s : ConsumerSupervisor V) : Option (ConsumerSupervisor V) :=
  match s.batches with
  | ⟨tag, sub, events, some worker⟩ :: outer =>
      some { s with
        watched := insert worker.ref.id s.watched
        activeWorkers := s.activeWorkers.set worker.ref.id worker
        batches := ⟨tag, sub, events, none⟩ :: outer }
  | _ => none

def initThrows (s : ConsumerSupervisor V) : Option (ConsumerSupervisor V) :=
  match s.batches with
  | ⟨tag, sub, events, some _⟩ :: outer =>
      some { s.release tag with batches := ⟨tag, sub, events, none⟩ :: outer }
  | _ => none

def batchEnds (s : ConsumerSupervisor V) : Option (ConsumerSupervisor V) :=
  match s.batches with
  | ⟨tag, sub, [], none⟩ :: outer => some ({ s with batches := outer }.maybeAskForMore tag sub)
  | _ => none

def handleWorkerDown (s : ConsumerSupervisor V) (workerId : ActorId) : ConsumerSupervisor V :=
  match s.activeWorkers.get workerId with
  | none => s
  | some worker =>
      let tag := worker.subscriptionTag
      let s := { s with activeWorkers := s.activeWorkers.delete workerId }
      match s.subscriptions.get tag with
      | none => s
      | some sub => (s.release tag).maybeAskForMore tag sub

/-- A watch is told once, and only if the watcher is there. -/
def notify (s : ConsumerSupervisor V) (actorId : ActorId) : ConsumerSupervisor V :=
  if actorId ∈ s.watched then
    let s := { s with watched := s.watched.erase actorId }
    if s.self.id ∈ s.tree.actors then s.handleWorkerDown actorId else s
  else s

/-! ## One step -/

/-- The action spawns under the supervisor, or will, or moves one of its workers away. -/
def reaches (s : ConsumerSupervisor V) : TreeAction String V → Bool
  | .spawnChild parentRef _ _ | .spawnChildRemote parentRef _ _ _ => parentRef.id = s.self.id
  | .migrate id => (s.tree.parentOf id).any (·.id = s.self.id)
  | _ => false

section
variable (stringify : List V → String)

/-- The watches of an actor end when it leaves. -/
def stepTree (s : ConsumerSupervisor V) (a : TreeAction String V) :
    Option (ConsumerSupervisor V) :=
  (s.tree.step stringify a).map fun tree =>
    let leaves := (resumedFrame s.tree a).bind (departing s.tree.toTables) = some s.self.id
    let s' := { s with
      tree := tree
      watched := if leaves then ∅ else s.watched }
    match notified stringify s.tree a with
    | none => s'
    | some actorId => s'.notify actorId

/-- Nothing but its events and the restarts of its workers spawns under the supervisor, and its
workers stay on their node. -/
def step (s : ConsumerSupervisor V) :
    ConsumerSupervisorAction V → Option (ConsumerSupervisor V)
  | .subscribe tag producerRef options => s.subscribe tag producerRef options
  | .deferredAsk tag => s.deferredAsk tag
  | .events tag events => some (s.handleEvents tag events)
  | .spawns => s.spawnWorker false
  | .spawnThrows => s.spawnWorker true
  | .initReturns => s.initReturns
  | .initThrows => s.initThrows
  | .batchEnds => s.batchEnds
  | .cancelFromProducer tag => some (s.handleCancelFromProducer tag)
  | .cancelSubscription tag reason => some (s.cancelSubscription tag reason)
  | .cancelAll reason => some (s.cancelAll reason)
  | .tree a => if s.reaches a then none else s.stepTree stringify a

end

end ConsumerSupervisor

end Libeam.GenStage
