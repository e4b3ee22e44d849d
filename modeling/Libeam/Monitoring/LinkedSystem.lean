import Libeam.Monitoring.ActorSystem
/-!
# What becomes of links

A node together with what its history says about links: which actors have begun to end,
and whether because of their own crash, which actors have crashed because of a link, and
which links have been removed on purpose.
-/

namespace Libeam.Monitoring

open Libeam.System (ActorId Supervisor)
open Supervision

structure LinkedSystem (N V : Type) extends ActorSystem N V where
  /-- Whether an actor that has begun to end did so because it crashed. -/
  ended : ActorId → Option Bool
  /-- The local links because of which an actor has crashed, with the actor. -/
  crashes : List (RefId × ActorId)
  /-- The links that a caller has removed, and those that ended when an actor migrated. -/
  removed : List RefId

namespace LinkedSystem

variable {N V : Type} [DecidableEq N]

def init (id : N) (childSupervision : ActorId → ChildSupervisionOptions)
    (supervisor : Supervisor) : LinkedSystem N V where
  toActorSystem := .init id childSupervision supervisor
  ended := fun _ => none
  crashes := []
  removed := []

/-- The first beginning counts. -/
def ends (h : LinkedSystem N V) (id : ActorId) (crashed : Bool) : LinkedSystem N V :=
  { h with ended := Function.update h.ended id ((h.ended id).or (some crashed)) }

/-- A call has gone on with this task, which leads to this progress. -/
def record (h : LinkedSystem N V) (p : Progress N V) (next : ActorSystem N V) :
    Task N V → LinkedSystem N V
  | .crash actorRef _ =>
      -- a crash that a supervisor does something about; what is gone crashes no more
      if p.tasks ≠ [] then
        { h.ends actorRef.id (decide (actorRef.id ∈ h.actors)) with toActorSystem := next }
      else { h with toActorSystem := next }
  | .tree (.stop actorRef) | .tree (.children actorRef _) =>
      match p.tasks with
      | .linked _ _ _ :: _ => { h.ends actorRef.id false with toActorSystem := next }
      | _ => { h with toActorSystem := next }
  | .tree (.stopSingle actorRef) =>
      if actorRef.id ∈ h.actors then { h.ends actorRef.id false with toActorSystem := next }
      else { h with toActorSystem := next }
  | .closeAll =>
      { h with
        toActorSystem := next
        ended := fun id => (h.ended id).or (if id ∈ h.actors then some false else none) }
  | .linked _ _ (linkRefId :: _) =>
      { h with
        toActorSystem := next
        crashes := h.crashes ++ p.calls.filterMap fun
          | [.crash actorRef _] => some (linkRefId, actorRef.id)
          | _ => none }
  | .migrate id _ =>
      { h with
        toActorSystem := next
        removed := h.removed ++
          (h.linkedWith.get id).filter fun linkRefId => (next.links linkRefId).isNone }
  | _ => { h with toActorSystem := next }

def step (callbacks : Callbacks N) (stringify : List V → String) (h : LinkedSystem N V)
    (a : SystemAction N V) : Option (LinkedSystem N V) :=
  (h.toActorSystem.step callbacks stringify a).map fun next =>
    match a with
    | .unlink linkRefId =>
        { h with toActorSystem := next, removed := h.removed ++ [linkRefId] }
    | .resumes index response now =>
        match h.calls[index]? with
        | some (task :: _) =>
            h.record (h.toActorSystem.resumeTask callbacks stringify response now task) next task
        | _ => { h with toActorSystem := next }
    | _ => { h with toActorSystem := next }

end LinkedSystem

end Libeam.Monitoring
