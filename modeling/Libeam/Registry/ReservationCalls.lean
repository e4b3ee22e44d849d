import Libeam.Registry.Reservation
import Libeam.Lib.Transition
/-!
# Reservation calls in progress

`LocalRegistry` and `DistributedRegistry` handle reservations alike, but the
distributed one awaits the lookup between cleaning up and granting, and the
registration between checking a reservation and deleting it.  Other calls run in
these gaps.  `NameTable` is what either needs of the table of names behind it.
-/

namespace Libeam.Registry

open Libeam.System

/-! ## The table of names -/

structure NameTable (T N : Type) where
  lookup : T → String → Option (ActorLocation N)
  register : T → String → N → ActorId → Nat → T
  unregister : T → String → T
  /-- An update that a peer published. -/
  receive : T → RegistryUpdate N → T
  lookup_register : ∀ t name nodeId actorId now name',
    lookup (register t name nodeId actorId now) name' =
      if name' = name then some ⟨nodeId, actorId⟩ else lookup t name'

/-- The map of `LocalRegistry`; there are no peers. -/
def localNames (N : Type) :
    NameTable (AList fun _ : String => ActorLocation N) N where
  lookup t name := t.lookup name
  register t name nodeId actorId _ := t.insert name ⟨nodeId, actorId⟩
  unregister t name := t.erase name
  receive t _ := t
  lookup_register t name nodeId actorId _ name' := by
    split_ifs with h
    · rw [h]
      exact AList.lookup_insert t
    · exact AList.lookup_insert_ne h

/-- The copy that `RegistrySync` keeps for `DistributedRegistry`. -/
def gossipNames (N : Type) [LinearOrder N] : NameTable (RegistrySync N) N where
  lookup := RegistrySync.lookup
  register t name nodeId actorId now := (t.register name nodeId actorId now).1
  unregister t name := (t.unregister name).1
  receive := RegistrySync.handleRegistryUpdate
  lookup_register t name nodeId actorId now name' := by
    unfold RegistrySync.lookup
    rw [RegistrySync.find_register]
    split_ifs <;> rfl

/-! ## Granting -/

namespace Reservations

variable {N : Type} [DecidableEq N]

/-- The part of `reserveName` after the lookup. -/
def grant (rs : Reservations N) (existing : Option (ActorLocation N))
    (name : String) (nodeId : N) (expiresAt : Nat) :
    Reservations N × Option (NameReservation N) :=
  if existing.any fun location => location.nodeId ≠ nodeId then (rs, none)
  else if rs.entries.entries.any fun e => e.2.name = name ∧ e.2.nodeId ≠ nodeId then
    (rs, none)
  else
    let reservation : NameReservation N := ⟨rs.nextId, name, nodeId, expiresAt⟩
    ({ entries := rs.entries.insert rs.nextId reservation
       nextId := rs.nextId + 1 }, some reservation)

theorem reserveName_eq (rs : Reservations N) (existing : Option (ActorLocation N))
    (name : String) (nodeId : N) (now ttlMs : Nat) :
    rs.reserveName existing name nodeId now ttlMs =
      let granted := (rs.cleanupExpired now).grant existing name nodeId (now + ttlMs)
      (granted.1, granted.2.map NameReservation.reservationId) := by
  unfold reserveName grant
  dsimp only
  split_ifs <;> rfl

end Reservations

/-! ## Calls -/

/-- A `reserveName` that awaits its lookup. -/
structure ReserveCall (N : Type) where
  name : String
  nodeId : N
  ttlMs : Int
  existing : Option (ActorLocation N)
  deriving DecidableEq, Repr

/-- Where a `confirmReservation` stands: it returned `false`, awaits the
registration, or returned `true`. -/
inductive ConfirmStatus (N : Type) where
  | refused
  | registering (reservation : NameReservation N)
  | confirmed (reservation : NameReservation N)
  deriving DecidableEq, Repr

structure ConfirmCall (N : Type) where
  reservationId : ReservationId
  actorId : ActorId
  status : ConfirmStatus N
  deriving DecidableEq, Repr

structure RegistryCalls (T N : Type) where
  table : T
  reservations : Reservations N
  now : Nat
  reserving : List (ReserveCall N)
  /-- Every call of `confirmReservation`, in order. -/
  confirms : List (ConfirmCall N)
  /-- History: the reservations granted. -/
  granted : List (NameReservation N)
  /-- History: the reservations released. -/
  released : List ReservationId

inductive RegistryAction (N : Type) where
  | reserveName (name : String) (nodeId : N) (ttlMs : Int)
  /-- The lookup of the `index`-th waiting `reserveName` has returned. -/
  | reserveResumes (index : Nat)
  | confirmReservation (reservationId : ReservationId) (actorId : ActorId)
  /-- The registration of the `index`-th `confirmReservation` has returned. -/
  | confirmResumes (index : Nat)
  | releaseReservation (reservationId : ReservationId)
  | register (name : String) (nodeId : N) (actorId : ActorId)
  | unregister (name : String)
  | receive (update : RegistryUpdate N)
  | pass (ms : Nat)

namespace RegistryCalls

variable {T N : Type} [DecidableEq N] (names : NameTable T N)

/-- Times are milliseconds after the epoch. -/
def start (table : T) : RegistryCalls T N where
  table := table
  reservations := .empty
  now := 1
  reserving := []
  confirms := []
  granted := []
  released := []

/-- `reserveName` up to the lookup. -/
def beginReserve (s : RegistryCalls T N) (name : String) (nodeId : N) (ttlMs : Int) :
    RegistryCalls T N :=
  { s with
    reservations := s.reservations.cleanupExpired s.now
    reserving := s.reserving ++ [⟨name, nodeId, ttlMs, names.lookup s.table name⟩] }

/-- `reserveName` after the lookup. -/
def resumeReserve (s : RegistryCalls T N) (index : Nat) :
    Option (RegistryCalls T N) :=
  s.reserving[index]?.map fun call =>
    let result := s.reservations.grant call.existing call.name call.nodeId
      ((s.now : Int) + call.ttlMs).toNat
    { s with
      reserving := s.reserving.eraseIdx index
      reservations := result.1
      granted := s.granted ++ result.2.toList }

/-- `confirmReservation` up to the registration, which takes effect at once. -/
def beginConfirm (s : RegistryCalls T N) (reservationId : ReservationId)
    (actorId : ActorId) : RegistryCalls T N :=
  match s.reservations.claim reservationId s.now with
  | (reservations, none) =>
      { s with
        reservations := reservations
        confirms := s.confirms ++ [⟨reservationId, actorId, .refused⟩] }
  | (reservations, some reservation) =>
      { s with
        table :=
          names.register s.table reservation.name reservation.nodeId actorId s.now
        reservations := reservations
        confirms :=
          s.confirms ++ [⟨reservationId, actorId, .registering reservation⟩] }

/-- `confirmReservation` after the registration. -/
def resumeConfirm (s : RegistryCalls T N) (index : Nat) :
    Option (RegistryCalls T N) :=
  match s.confirms[index]? with
  | some ⟨reservationId, actorId, .registering reservation⟩ =>
      some { s with
        reservations := s.reservations.delete reservationId
        confirms :=
          s.confirms.set index ⟨reservationId, actorId, .confirmed reservation⟩ }
  | _ => none

/-- An id that was not issued yet is not recorded as released. -/
def release (s : RegistryCalls T N) (reservationId : ReservationId) :
    RegistryCalls T N :=
  { s with
    reservations := s.reservations.delete reservationId
    released :=
      if reservationId < s.reservations.nextId then s.released ++ [reservationId]
      else s.released }

/-- One step of the calls to a `DistributedRegistry`. -/
def step (s : RegistryCalls T N) : RegistryAction N → Option (RegistryCalls T N)
  | .reserveName name nodeId ttlMs => some (s.beginReserve names name nodeId ttlMs)
  | .reserveResumes index => s.resumeReserve index
  | .confirmReservation reservationId actorId =>
      some (s.beginConfirm names reservationId actorId)
  | .confirmResumes index => s.resumeConfirm index
  | .releaseReservation reservationId => some (s.release reservationId)
  | .register name nodeId actorId =>
      some { s with table := names.register s.table name nodeId actorId s.now }
  | .unregister name => some { s with table := names.unregister s.table name }
  | .receive update => some { s with table := names.receive s.table update }
  | .pass ms => some { s with now := s.now + ms }

/-- One step of the calls to a `LocalRegistry`, which never awaits: each call
runs to its end. -/
def localStep (s : RegistryCalls T N) : RegistryAction N → Option (RegistryCalls T N)
  | .reserveName name nodeId ttlMs =>
      (s.beginReserve names name nodeId ttlMs).resumeReserve s.reserving.length
  | .confirmReservation reservationId actorId =>
      let t := s.beginConfirm names reservationId actorId
      some ((t.resumeConfirm s.confirms.length).getD t)
  | .reserveResumes _ | .confirmResumes _ | .receive _ => none
  | .releaseReservation reservationId => some (s.release reservationId)
  | .register name nodeId actorId =>
      some { s with table := names.register s.table name nodeId actorId s.now }
  | .unregister name => some { s with table := names.unregister s.table name }
  | .pass ms => some { s with now := s.now + ms }

end RegistryCalls

end Libeam.Registry
