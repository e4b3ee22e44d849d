import Libeam.Registry.Sync
/-!
# Name reservations

A node that is about to receive a migrating actor reserves its name first.  The
reservation table is the same in `LocalRegistry` and `DistributedRegistry`; the
two differ in the table of names behind it.
-/

namespace Libeam.Registry

open Libeam.System

/-- `DEFAULT_RESERVATION_TTL_MS`. -/
def defaultReservationTtlMs : Nat := 30000

abbrev ReservationId := Nat

structure NameReservation (N : Type) where
  reservationId : ReservationId
  name : String
  nodeId : N
  expiresAt : Nat
  deriving DecidableEq, Repr

/-- The reservations of one node; `nextId` stands for `uuidv4`. -/
structure Reservations (N : Type) where
  entries : AList fun _ : ReservationId => NameReservation N
  nextId : ReservationId

namespace Reservations

variable {N : Type}

def empty : Reservations N := ⟨∅, 0⟩

def find (rs : Reservations N) (id : ReservationId) : Option (NameReservation N) :=
  rs.entries.lookup id

def delete (rs : Reservations N) (id : ReservationId) : Reservations N :=
  { rs with entries := rs.entries.erase id }

/-- `cleanupExpiredReservations`. -/
def cleanupExpired (rs : Reservations N) (now : Nat) : Reservations N :=
  { rs with
    entries := ⟨rs.entries.entries.filter fun e => ¬ e.2.expiresAt < now,
      rs.entries.nodupKeys.sublist List.filter_sublist⟩ }

variable [DecidableEq N]

/-- `reserveName`, given what the name table says about the name. -/
def reserveName (rs : Reservations N) (existing : Option (ActorLocation N))
    (name : String) (nodeId : N) (now ttlMs : Nat) :
    Reservations N × Option ReservationId :=
  let rs := rs.cleanupExpired now
  if existing.any fun location => location.nodeId ≠ nodeId then (rs, none)
  else if rs.entries.entries.any fun e => e.2.name = name ∧ e.2.nodeId ≠ nodeId then
    (rs, none)
  else
    let reservationId := rs.nextId
    ({ entries := rs.entries.insert reservationId
          ⟨reservationId, name, nodeId, now + ttlMs⟩
       nextId := reservationId + 1 }, some reservationId)

/-- The first half of `confirmReservation`: the reservation to register, or the
table without it when it has expired. -/
def claim (rs : Reservations N) (id : ReservationId) (now : Nat) :
    Reservations N × Option (NameReservation N) :=
  match rs.find id with
  | none => (rs, none)
  | some reservation =>
      if reservation.expiresAt < now then (rs.delete id, none)
      else (rs, some reservation)

end Reservations

/-- `DistributedRegistry`. -/
structure DistributedRegistry (N : Type) where
  nodeId : N
  gossip : RegistrySync N
  reservations : Reservations N

namespace DistributedRegistry

variable {N : Type} [LinearOrder N]

def new (nodeId : N) : DistributedRegistry N :=
  ⟨nodeId, .new nodeId, .empty⟩

def lookup (r : DistributedRegistry N) (name : String) : Option (ActorLocation N) :=
  r.gossip.lookup name

def reserveName (r : DistributedRegistry N) (name : String) (nodeId : N)
    (now : Nat) (ttlMs : Nat := defaultReservationTtlMs) :
    DistributedRegistry N × Option ReservationId :=
  let result := r.reservations.reserveName (r.lookup name) name nodeId now ttlMs
  ({ r with reservations := result.1 }, result.2)

/-- `true`, with the update it publishes, when the reservation is confirmed. -/
def confirmReservation (r : DistributedRegistry N) (reservationId : ReservationId)
    (actorId : ActorId) (now : Nat) :
    DistributedRegistry N × Option (RegistryUpdate N) :=
  match r.reservations.claim reservationId now with
  | (reservations, none) => ({ r with reservations := reservations }, none)
  | (reservations, some reservation) =>
      let registered :=
        r.gossip.register reservation.name reservation.nodeId actorId now
      ({ r with
          gossip := registered.1
          reservations := reservations.delete reservationId },
        some registered.2)

def releaseReservation (r : DistributedRegistry N) (reservationId : ReservationId) :
    DistributedRegistry N :=
  { r with reservations := r.reservations.delete reservationId }

end DistributedRegistry

end Libeam.Registry
