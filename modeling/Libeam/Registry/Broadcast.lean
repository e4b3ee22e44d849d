import Libeam.Registry.Sync
import Libeam.Lib.Transition
/-!
# Name tables behind an unreliable network

Updates that have been published may arrive at any node at any time, any number of
times and in any order, or not at all.  A node publishes what it holds again when
another one joins, and forgets the names of one that leaves.
-/

namespace Libeam.Registry

open Libeam.System

namespace RegistrySync

variable {N : Type} [LinearOrder N]

/-- `republishAll` -/
def republishAll (r : RegistrySync N) : List (RegistryUpdate N) :=
  r.registrations.entries.map fun entry => ⟨.register, entry.2⟩

/-- `handlePeerLeave` -/
def handlePeerLeave (r : RegistrySync N) (nodeId : N) : RegistrySync N :=
  { r with
    registrations := ⟨r.registrations.entries.filter fun entry => entry.2.nodeId ≠ nodeId,
      r.registrations.nodupKeys.sublist List.filter_sublist⟩ }

def disconnect (r : RegistrySync N) : RegistrySync N := { r with registrations := ∅ }

end RegistrySync

/-- The table of one node. -/
structure SyncNode (N : Type) where
  sync : RegistrySync N
  /-- History: what `register` and `unregister` have published. -/
  fresh : List (RegistryUpdate N)
  /-- History: the unregistrations that were issued or have arrived. -/
  unregistered : List (ActorRegistration N)

inductive SyncAction (N : Type) where
  | register (name : String) (nodeId : N) (actorId : ActorId) (now : Nat)
  | unregister (name : String)
  | handleRegistryUpdate (update : RegistryUpdate N)
  | handlePeerLeave (nodeId : N)
  | disconnect

namespace SyncNode

variable {N : Type} [LinearOrder N]

def new (nodeId : N) : SyncNode N := ⟨.new nodeId, [], []⟩

/-- Every action is possible at any time. -/
def act (s : SyncNode N) : SyncAction N → SyncNode N
  | .register name nodeId actorId now =>
      let result := s.sync.register name nodeId actorId now
      { s with sync := result.1, fresh := s.fresh ++ [result.2] }
  | .unregister name =>
      let result := s.sync.unregister name
      { sync := result.1
        fresh := s.fresh ++ result.2.toList
        unregistered := s.unregistered ++ result.2.toList.map (·.registration) }
  | .handleRegistryUpdate update =>
      { s with
        sync := s.sync.handleRegistryUpdate update
        unregistered := s.unregistered ++
          match update.type with
          | .unregister => [update.registration]
          | .register => [] }
  | .handlePeerLeave nodeId => { s with sync := s.sync.handlePeerLeave nodeId }
  | .disconnect => { s with sync := s.sync.disconnect }

def step (s : SyncNode N) (a : SyncAction N) : Option (SyncNode N) := some (s.act a)

end SyncNode

structure Broadcast (N : Type) where
  node : N → SyncNode N
  /-- Everything that has been published, again or for the first time. -/
  published : List (RegistryUpdate N)

inductive BroadcastAction (N : Type) where
  | register (n : N) (name : String) (nodeId : N) (actorId : ActorId) (now : Nat)
  | unregister (n : N) (name : String)
  /-- An update reaches a node. -/
  | deliver (n : N) (index : Nat)
  | republishAll (n : N)
  | handlePeerLeave (n : N) (nodeId : N)
  | disconnect (n : N)
  deriving DecidableEq, Repr

namespace Broadcast

variable {N : Type} [LinearOrder N]

def init : Broadcast N := ⟨.new, []⟩

/-- A node acts, and what is fresh is published. -/
def act (b : Broadcast N) (n : N) (a : SyncAction N) : Broadcast N where
  node := Function.update b.node n ((b.node n).act a)
  published := b.published ++ ((b.node n).act a).fresh.drop (b.node n).fresh.length

def step (b : Broadcast N) : BroadcastAction N → Option (Broadcast N)
  | .register n name nodeId actorId now => some (b.act n (.register name nodeId actorId now))
  | .unregister n name => some (b.act n (.unregister name))
  | .deliver n index =>
      (b.published[index]?).map fun update => b.act n (.handleRegistryUpdate update)
  | .republishAll n =>
      some { b with published := b.published ++ (b.node n).sync.republishAll }
  | .handlePeerLeave n nodeId => some (b.act n (.handlePeerLeave nodeId))
  | .disconnect n => some (b.act n .disconnect)

end Broadcast

end Libeam.Registry
