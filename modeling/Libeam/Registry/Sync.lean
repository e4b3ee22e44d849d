import Libeam.Registry.VectorClock
import Libeam.System.State
/-!
# The replicated name table

`RegistrySync` is one node's copy of the table from names to actor locations
and its vector clock.  `register` and `unregister` change the copy and publish
an update; `handleRegistryUpdate` receives one.  Node ids are linearly ordered,
for the tie-break; `generation` is the wall clock of the registering node.
-/

namespace Libeam.Registry

open Libeam.System

structure ActorLocation (N : Type) where
  nodeId : N
  actorId : ActorId
  deriving DecidableEq, Repr

structure ActorRegistration (N : Type) where
  name : String
  nodeId : N
  actorId : ActorId
  generation : Nat
  vectorClock : VectorClock N

inductive UpdateType where
  | register
  | unregister
  deriving DecidableEq, Repr

structure RegistryUpdate (N : Type) where
  type : UpdateType
  registration : ActorRegistration N

/-- The location a registration stands for. -/
def ActorRegistration.location {N : Type} (reg : ActorRegistration N) :
    ActorLocation N := ⟨reg.nodeId, reg.actorId⟩

structure RegistrySync (N : Type) where
  nodeId : N
  localClock : VectorClock N
  registrations : AList fun _ : String => ActorRegistration N

namespace RegistrySync

variable {N : Type} [LinearOrder N]

def new (nodeId : N) : RegistrySync N := ⟨nodeId, .empty, ∅⟩

/-- `registrations.get`. -/
def find (r : RegistrySync N) (name : String) : Option (ActorRegistration N) :=
  r.registrations.lookup name

def lookup (r : RegistrySync N) (name : String) : Option (ActorLocation N) :=
  (r.find name).map ActorRegistration.location

/-- The copy after the registration, and the update to publish. -/
def register (r : RegistrySync N) (name : String) (nodeId : N) (actorId : ActorId)
    (now : Nat) : RegistrySync N × RegistryUpdate N :=
  let localClock := r.localClock.increment r.nodeId
  let registration : ActorRegistration N := ⟨name, nodeId, actorId, now, localClock⟩
  ({ r with
      localClock := localClock
      registrations := r.registrations.insert name registration },
    ⟨.register, registration⟩)

/-- Nothing is published for a name the copy does not have. -/
def unregister (r : RegistrySync N) (name : String) :
    RegistrySync N × Option (RegistryUpdate N) :=
  match r.find name with
  | none => (r, none)
  | some existing =>
      let localClock := r.localClock.increment r.nodeId
      ({ r with
          localClock := localClock
          registrations := r.registrations.erase name },
        some ⟨.unregister, { existing with vectorClock := localClock }⟩)

/-- Install an incoming registration. -/
def install (r : RegistrySync N) (registration : ActorRegistration N) :
    RegistrySync N :=
  { r with
    localClock := r.localClock.merge registration.vectorClock
    registrations := r.registrations.insert registration.name registration }

/-- Does the incoming registration replace the existing one?  Concurrent ones
are ordered by generation, then by node id. -/
def replaces (registration existing : ActorRegistration N) : Bool :=
  match registration.vectorClock.compare existing.vectorClock with
  | .after => true
  | .concurrent =>
      existing.generation < registration.generation ∨
        registration.generation = existing.generation ∧
          existing.nodeId < registration.nodeId
  | .before => false

/-- Does the incoming unregistration remove the existing entry? -/
def removes (registration existing : ActorRegistration N) : Bool :=
  match registration.vectorClock.compare existing.vectorClock with
  | .after => true
  | .concurrent => true
  | .before => false

/-- `handleRegistryUpdate` of an unregistration. -/
def handleUnregister (r : RegistrySync N) (registration : ActorRegistration N) :
    RegistrySync N :=
  match r.find registration.name with
  | none => r
  | some existing =>
      if removes registration existing then
        { r with
          localClock := r.localClock.merge registration.vectorClock
          registrations := r.registrations.erase registration.name }
      else r

/-- `handleRegistryUpdate` of a registration. -/
def handleRegister (r : RegistrySync N) (registration : ActorRegistration N) :
    RegistrySync N :=
  match r.find registration.name with
  | none => r.install registration
  | some existing =>
      if replaces registration existing then r.install registration else r

def handleRegistryUpdate (r : RegistrySync N) (update : RegistryUpdate N) :
    RegistrySync N :=
  match update.type with
  | .unregister => r.handleUnregister update.registration
  | .register => r.handleRegister update.registration

/-! ## What the operations do to the table -/

theorem find_register (r : RegistrySync N) (name name' : String) (nodeId : N)
    (actorId : ActorId) (now : Nat) :
    (r.register name nodeId actorId now).1.find name' =
      if name' = name then some (r.register name nodeId actorId now).2.registration
      else r.find name' := by
  unfold register find
  split_ifs with h
  · rw [h]
    exact AList.lookup_insert _
  · exact AList.lookup_insert_ne h

theorem find_unregister (r : RegistrySync N) (name name' : String) :
    (r.unregister name).1.find name' = if name' = name then none else r.find name' := by
  unfold unregister
  split
  next hnone =>
    split_ifs with h
    · rw [h, hnone]
    · rfl
  next existing hsome =>
    split_ifs with h
    · rw [h]
      exact AList.lookup_erase name r.registrations
    · exact AList.lookup_erase_ne h

theorem find_install (r : RegistrySync N) (registration : ActorRegistration N)
    (name : String) :
    (r.install registration).find name =
      if name = registration.name then some registration else r.find name := by
  unfold install find
  split_ifs with h
  · rw [h]
    exact AList.lookup_insert _
  · exact AList.lookup_insert_ne h

theorem find_handleUnregister_of_ne (r : RegistrySync N)
    {registration : ActorRegistration N} {name : String}
    (h : name ≠ registration.name) :
    (r.handleUnregister registration).find name = r.find name := by
  unfold handleUnregister
  split
  · rfl
  · split_ifs
    · exact AList.lookup_erase_ne h
    · rfl

theorem find_handleRegister_of_ne (r : RegistrySync N)
    {registration : ActorRegistration N} {name : String}
    (h : name ≠ registration.name) :
    (r.handleRegister registration).find name = r.find name := by
  unfold handleRegister
  split
  · rw [find_install, if_neg h]
  · split_ifs
    · rw [find_install, if_neg h]
    · rfl

/-- An update only concerns its own name. -/
theorem find_handleRegistryUpdate_of_ne (r : RegistrySync N)
    {update : RegistryUpdate N} {name : String} (h : name ≠ update.registration.name) :
    (r.handleRegistryUpdate update).find name = r.find name := by
  unfold handleRegistryUpdate
  split
  · exact r.find_handleUnregister_of_ne h
  · exact r.find_handleRegister_of_ne h

/-- After an unregistration arrived, the entry is gone unless it was not older. -/
theorem find_handleUnregister (r : RegistrySync N)
    (registration : ActorRegistration N) :
    (r.handleUnregister registration).find registration.name =
      match r.find registration.name with
      | none => none
      | some existing =>
          if removes registration existing then none else some existing := by
  unfold handleUnregister
  split
  next hnone => exact hnone
  next existing hsome =>
    split_ifs
    · exact AList.lookup_erase _ _
    · exact hsome

/-- After a registration arrived, it or what it did not replace is there. -/
theorem find_handleRegister (r : RegistrySync N)
    (registration : ActorRegistration N) :
    (r.handleRegister registration).find registration.name =
      match r.find registration.name with
      | none => some registration
      | some existing =>
          if replaces registration existing then some registration
          else some existing := by
  unfold handleRegister
  split
  next hnone => rw [find_install, if_pos rfl]
  next existing hsome =>
    split_ifs
    · rw [find_install, if_pos rfl]
    · exact hsome

end RegistrySync

end Libeam.Registry
