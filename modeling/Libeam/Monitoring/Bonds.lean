import Libeam.Monitoring.Relations
/-!
# The tables of watches and links over time

The operations on the tables as the actions of a state machine.  Actors come and
go at any time; notifications and answers from other nodes arrive in any order,
any number of times, or not at all.  The answer to a `watch:add` request that
says that the actor is dead already, and a request that fails, are `watchDown`.
-/

namespace Libeam.Monitoring

open Libeam.System (ActorId)
open Supervision (ActorRef)

structure Bonds (N : Type) extends Relations N where
  id : N
  actors : Finset ActorId
  nextId : ActorId

inductive BondsAction (N : Type) where
  | spawn
  | remove (actorId : ActorId)
  | setTrapExit (actorId : ActorId) (trap : Bool)
  | watch (watcherRef watchedRef : ActorRef N)
  | unwatch (watchRefId : RefId)
  | unwatchAll (actorId : ActorId)
  | notifyWatchers (actorRef : ActorRef N) (reason : TerminationReason)
  | notifyWatchersOfMigration (actorId : ActorId) (move : Move N)
  | watchDown (watchRefId : RefId) (watchedActorId : ActorId) (reason : TerminationReason)
  | watchMoved (watchRefId : RefId) (move : Move N)
  | failWatches (deadNodeId : N)
  | link (actor1Ref actor2Ref : ActorRef N)
  | unlink (linkRefId : RefId)
  | unlinkAll (actorId : ActorId)
  | tellLinked (actorRef : ActorRef N) (reason : TerminationReason) (linkRefId : RefId)
  | notifyLinkedActorsOfMigration (actorId : ActorId) (move : Move N)
  | linkExit (linkRefId : RefId) (exitedActorId : ActorId) (reason : TerminationReason)
  | linkMoved (linkRefId : RefId) (move : Move N)
  deriving DecidableEq, Repr

/-- The link is or was in the index under this actor. -/
def Relations.Concerns {N : Type} (r : Relations N) (actorId : ActorId) (linkRefId : RefId) :
    Prop :=
  ∃ linkRef, r.linkRefs linkRefId = some linkRef ∧
    (linkRef.actor1Id = actorId ∨ linkRefId ∈ r.localLinks ∧ linkRef.actor2Id = actorId)

instance {N : Type} (r : Relations N) (actorId : ActorId) (linkRefId : RefId) :
    Decidable (r.Concerns actorId linkRefId) :=
  match h : r.linkRefs linkRefId with
  | none => .isFalse fun ⟨_, hsome, _⟩ => by simp [h] at hsome
  | some linkRef =>
      decidable_of_iff
        (linkRef.actor1Id = actorId ∨ linkRefId ∈ r.localLinks ∧ linkRef.actor2Id = actorId)
        ⟨fun hends => ⟨linkRef, h, hends⟩, fun ⟨_, hsome, hends⟩ => by
          rw [h, Option.some.injEq] at hsome
          exact hsome ▸ hends⟩

namespace Bonds

variable {N : Type} [DecidableEq N]

def init (id : N) : Bonds N where
  toRelations := .init
  id := id
  actors := ∅
  nextId := 0

variable (callbacks : Callbacks N)

/-- References to actors of this node name instances that have been spawned; an exit
notification concerns the links found in the index. -/
def step (b : Bonds N) : BondsAction N → Option (Bonds N)
  | .spawn =>
      some { b with
        toRelations := b.newContext b.nextId
        actors := insert b.nextId b.actors
        nextId := b.nextId + 1 }
  | .remove actorId => some { b with actors := b.actors.erase actorId }
  | .setTrapExit actorId trap =>
      some { b with trapExit := Function.update b.trapExit actorId trap }
  | .watch watcherRef watchedRef =>
      if watcherRef.id < b.nextId ∧ (watchedRef.systemId = b.id → watchedRef.id < b.nextId) then
        some { b with
          toRelations := (b.toRelations.watch b.actors callbacks b.id watcherRef watchedRef).1 }
      else none
  | .unwatch watchRefId =>
      some { b with toRelations := b.toRelations.cancel b.actors watchRefId }
  | .unwatchAll actorId =>
      some { b with toRelations := b.toRelations.unwatchAll b.actors actorId }
  | .notifyWatchers actorRef reason =>
      some { b with
        toRelations := (b.toRelations.notifyWatchers b.actors callbacks actorRef reason).1 }
  | .notifyWatchersOfMigration actorId move =>
      some { b with
        toRelations :=
          (b.toRelations.notifyWatchersOfMigration b.actors callbacks actorId move).1 }
  | .watchDown watchRefId watchedActorId reason =>
      some { b with
        toRelations := (b.toRelations.handleRemoteDown b.actors callbacks watchRefId
          watchedActorId reason).1 }
  | .watchMoved watchRefId move =>
      some { b with
        toRelations :=
          (b.toRelations.handleRemoteWatcherMoved b.actors callbacks watchRefId move).1 }
  | .failWatches deadNodeId =>
      some { b with
        toRelations :=
          (b.toRelations.handleNodeFailureForWatches b.actors callbacks deadNodeId).1 }
  | .link actor1Ref actor2Ref =>
      some { b with toRelations := b.toRelations.link b.actors b.id actor1Ref actor2Ref }
  | .unlink linkRefId =>
      match b.linkRefs linkRefId with
      | none => none
      | some linkRef => some { b with toRelations := b.toRelations.unlink b.actors linkRef }
  | .unlinkAll actorId =>
      some { b with toRelations := b.toRelations.unlinkAll b.actors actorId }
  | .tellLinked actorRef reason linkRefId =>
      if b.Concerns actorRef.id linkRefId then
        some { b with
          toRelations :=
            (b.toRelations.tellLinked b.actors callbacks actorRef reason linkRefId).relations }
      else none
  | .notifyLinkedActorsOfMigration actorId move =>
      some { b with
        toRelations :=
          (b.toRelations.notifyLinkedActorsOfMigration b.actors callbacks actorId move).1 }
  | .linkExit linkRefId exitedActorId reason =>
      some { b with
        toRelations := (b.toRelations.handleRemoteLinkExit b.actors callbacks linkRefId
          exitedActorId reason).relations }
  | .linkMoved linkRefId move =>
      some { b with
        toRelations :=
          (b.toRelations.handleRemoteLinkMoved b.actors callbacks linkRefId move).1 }

end Bonds

end Libeam.Monitoring
