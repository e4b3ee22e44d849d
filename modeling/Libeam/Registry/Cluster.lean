import Mathlib.Logic.Function.Basic
import Libeam.Registry.Reservation
import Libeam.Lib.Transition
/-!
# A cluster of registries

Every node has a `DistributedRegistry`; what one publishes is delivered to each
other node in the order of publication, publishers interleaved arbitrarily.  A
system registers its own instances only, each under a new instance id.
-/

namespace Libeam.Registry

open Libeam.System

structure Cluster (N : Type) where
  node : N → DistributedRegistry N
  published : N → List (RegistryUpdate N)
  /-- How many updates of the publisher (second) the receiver (first) has
  processed. -/
  delivered : N → N → Nat
  /-- `uuidv4` for instances. -/
  nextActorId : ActorId

inductive ClusterAction (N : Type) where
  | register (n : N) (name : String) (now : Nat)
  | unregister (n : N) (name : String)
  | reserveName (n : N) (name : String) (now : Nat)
  | confirmReservation (n : N) (reservationId : ReservationId) (now : Nat)
  | releaseReservation (n : N) (reservationId : ReservationId)
  | deliver (receiver publisher : N)
  deriving DecidableEq, Repr

namespace Cluster

variable {N : Type} [LinearOrder N]

def init : Cluster N where
  node := .new
  published := fun _ => []
  delivered := fun _ _ => 0
  nextActorId := 0

def gossip (c : Cluster N) (n : N) : RegistrySync N := (c.node n).gossip

/-- A node changes its registry and publishes updates. -/
@[simps] def act (c : Cluster N) (n : N) (r : DistributedRegistry N)
    (updates : List (RegistryUpdate N)) : Cluster N :=
  { c with
    node := Function.update c.node n r
    published := Function.update c.published n (c.published n ++ updates) }

@[simps] def useActorId (c : Cluster N) : Cluster N :=
  { c with nextActorId := c.nextActorId + 1 }

def register (c : Cluster N) (n : N) (name : String) (now : Nat) : Cluster N :=
  let result := (c.gossip n).register name n c.nextActorId now
  (c.act n { c.node n with gossip := result.1 } [result.2]).useActorId

def unregister (c : Cluster N) (n : N) (name : String) : Cluster N :=
  let result := (c.gossip n).unregister name
  c.act n { c.node n with gossip := result.1 } result.2.toList

def reserveName (c : Cluster N) (n : N) (name : String) (now : Nat) : Cluster N :=
  c.act n ((c.node n).reserveName name n now).1 []

def confirmReservation (c : Cluster N) (n : N) (reservationId : ReservationId)
    (now : Nat) : Cluster N :=
  let result := (c.node n).confirmReservation reservationId c.nextActorId now
  (c.act n result.1 result.2.toList).useActorId

def releaseReservation (c : Cluster N) (n : N) (reservationId : ReservationId) :
    Cluster N :=
  c.act n ((c.node n).releaseReservation reservationId) []

/-- The next update of `publisher` reaches `receiver`. -/
def deliver (c : Cluster N) (receiver publisher : N) : Option (Cluster N) :=
  if receiver = publisher then none
  else
    match (c.published publisher)[c.delivered receiver publisher]? with
    | none => none
    | some update =>
        some { c with
          node := Function.update c.node receiver
            { c.node receiver with
              gossip := (c.gossip receiver).handleRegistryUpdate update }
          delivered := Function.update c.delivered receiver
            (Function.update (c.delivered receiver) publisher
              (c.delivered receiver publisher + 1)) }

def step (c : Cluster N) : ClusterAction N → Option (Cluster N)
  | .register n name now => some (c.register n name now)
  | .unregister n name => some (c.unregister n name)
  | .reserveName n name now => some (c.reserveName n name now)
  | .confirmReservation n reservationId now =>
      some (c.confirmReservation n reservationId now)
  | .releaseReservation n reservationId => some (c.releaseReservation n reservationId)
  | .deliver receiver publisher => c.deliver receiver publisher

end Cluster

end Libeam.Registry
