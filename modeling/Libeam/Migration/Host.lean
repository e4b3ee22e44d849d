import Libeam.Registry.Reservation
import Libeam.System.Step
/-!
# A node that takes part in migrations

`Host` is an actor system together with the tables that migration touches: the
metadata of its instances, their process groups, the registry and the actor
classes it can instantiate.
-/

namespace Libeam.Migration

open Mailbox Libeam.System Registry

structure ActorMetadata (V : Type) where
  actorClassName : String
  name : Option String
  args : List V
  deriving DecidableEq, Repr

structure Host (N V : Type) where
  id : N
  system : Node V
  isShuttingDown : Bool
  /-- Which instances implement `Migratable`. -/
  migratable : ActorId → Bool
  /-- How many children an instance has. -/
  childCount : ActorId → Nat
  actorMetadata : ActorId → Option (ActorMetadata V)
  /-- Which instances are members of which process groups. -/
  groups : Finset (String × ActorId)
  registry : DistributedRegistry N
  actorClasses : Finset String
  defaultMailboxConfig : MailboxConfig

/-- `processGroups.leaveAll` of an instance. -/
def leaveAll (groups : Finset (String × ActorId)) (id : ActorId) :
    Finset (String × ActorId) :=
  groups.filter fun member => member.2 ≠ id

/-- What else happens on a node.  Instances come and go with all their tables. -/
inductive HostAction (N V : Type) where
  | node (a : Action V)
  /-- The new instance gets an id that nobody has. -/
  | spawn (id : ActorId) (config : MailboxConfig) (initThrows : Bool)
      (metadata : ActorMetadata V)
  /-- The deletions at the end of a stop. -/
  | stop (id : ActorId)
  | joinGroup (group : String) (id : ActorId)
  | leaveGroup (group : String) (id : ActorId)
  | reserveName (name : String) (nodeId : N) (now : Nat)
  | confirmReservation (reservationId : ReservationId) (actorId : ActorId) (now : Nat)
  | releaseReservation (reservationId : ReservationId)
  | handleRegistryUpdate (update : RegistryUpdate N)

/-- The part of a spawn or a stop that concerns the actor system alone. -/
def changesInstances {V : Type} : Action V → Bool
  | .spawn _ _ | .remove _ => true
  | _ => false

structure MigratePrepareRequest (N : Type) where
  actorName : String
  actorClassName : String
  sourceNodeId : N
  deriving DecidableEq, Repr

structure MigratePrepareResponse where
  ready : Bool
  reservationId : Option ReservationId := none
  error : Option String := none
  deriving DecidableEq, Repr

namespace Host

variable {N V : Type} [LinearOrder N]

def new (id : N) (actorClasses : Finset String) : Host N V where
  id := id
  system := .init
  isShuttingDown := false
  migratable := fun _ => true
  childCount := fun _ => 0
  actorMetadata := fun _ => none
  groups := ∅
  registry := .new id
  actorClasses := actorClasses
  defaultMailboxConfig := {}

/-- The instance leaves the tables and its process groups. -/
def remove (h : Host N V) (id : ActorId) : Host N V :=
  { h with
    system := h.system.remove id
    groups := leaveAll h.groups id
    actorMetadata := Function.update h.actorMetadata id none }

def setRegistry (h : Host N V) (registry : DistributedRegistry N) : Host N V :=
  { h with registry := registry }

def step (h : Host N V) : HostAction N V → Option (Host N V)
  | .node a =>
      if changesInstances a then none
      else (h.system.step a).map fun s => { h with system := s }
  | .spawn id config initThrows metadata =>
      if id = h.system.nextId then
        some { h with
          system := h.system.spawn config initThrows
          actorMetadata := Function.update h.actorMetadata id (some metadata) }
      else none
  | .stop id => some (h.remove id)
  | .joinGroup group id =>
      -- a reference is there from the creation of the instance on
      if id < h.system.nextId then some { h with groups := insert (group, id) h.groups }
      else none
  | .leaveGroup group id => some { h with groups := h.groups.erase (group, id) }
  | .reserveName name nodeId now =>
      some (h.setRegistry (h.registry.reserveName name nodeId now).1)
  | .confirmReservation reservationId actorId now =>
      some (h.setRegistry (h.registry.confirmReservation reservationId actorId now).1)
  | .releaseReservation reservationId =>
      some (h.setRegistry (h.registry.releaseReservation reservationId))
  | .handleRegistryUpdate update =>
      some (h.setRegistry
        { h.registry with gossip := h.registry.gossip.handleRegistryUpdate update })

/-- `_handleMigratePrepare`: the name is reserved for this node's own id. -/
def handleMigratePrepare (h : Host N V) (request : MigratePrepareRequest N)
    (now : Nat) : Host N V × MigratePrepareResponse :=
  if request.actorClassName ∉ h.actorClasses then
    (h, { ready := false
          error := some ("Actor class not registered: " ++ request.actorClassName) })
  else
    match h.registry.reserveName request.actorName h.id now with
    | (registry, none) =>
        ({ h with registry := registry },
          { ready := false
            error := some ("Failed to reserve name: " ++ request.actorName) })
    | (registry, some reservationId) =>
        ({ h with registry := registry },
          { ready := true, reservationId := some reservationId })

/-- `_handleMigrateRollback`. -/
def handleMigrateRollback (h : Host N V) (reservationId : ReservationId) : Host N V :=
  { h with registry := h.registry.releaseReservation reservationId }

end Host

end Libeam.Migration
