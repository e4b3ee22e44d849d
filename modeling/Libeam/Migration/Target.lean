import Libeam.Migration.Source
/-!
# `_handleMigrateExecute`, on the node that receives the actor

The handler installs the instance, awaits `init` and `setState`, injects the
pending messages and then asks the registry to confirm the reservation.  Between
its awaits anything may happen on the node; the new instance is in the tables
all along.
-/

namespace Libeam.Migration

open Libeam.System

/-- The `await` the handler is at. -/
inductive ExecutePc where
  | initializing
  | settingState
  /-- The registry's promise, with what it will settle to. -/
  | confirming (outcome : Except String Bool)
  /-- In the `catch` block. -/
  | releasing (error : String)
  | answered (response : MigrateExecuteResponse)
  deriving DecidableEq

structure Target (N V : Type) where
  host : Host N V
  request : MigrateExecuteRequest N V
  instanceId : ActorId
  pc : ExecutePc
  /-- History: the pending messages as the mailbox got them, and how many handlers
  had started then. -/
  injected : List (StashedMessage V)
  injectedAt : Nat

inductive TargetAction (N V : Type) where
  /-- Anything else that happens on the node, the code of the new instance
  included. -/
  | host (a : HostAction N V)
  | initDone (now : Nat) (publishError : Option String)
  | initFails (error : String)
  | stateSet (now : Nat) (publishError : Option String)
  | stateFails (error : String)
  | confirmSettles
  | released

/-- The pending messages as new message objects. -/
def received {V : Type} (nextUid : Nat) :
    List (TransferredMessage V) → List (StashedMessage V)
  | [] => []
  | pm :: pms => ⟨nextUid, pm.type, pm.message⟩ :: received (nextUid + 1) pms

namespace Target

variable {N V : Type} [LinearOrder N]

def setSystem (t : Target N V) (s : Node V) : Target N V :=
  { t with host := { t.host with system := s } }

def answer (t : Target N V) (response : MigrateExecuteResponse) : Target N V :=
  { t with pc := .answered response }

/-- The `catch` block, up to the settlement of `releaseReservation`. -/
def fail (t : Target N V) (error : String) : Target N V :=
  { t with
    host := { t.host with
      registry := t.host.registry.releaseReservation t.request.reservationId }
    pc := .releasing error }

/-- From the request to the invocation of `init`. -/
def start (h : Host N V) (request : MigrateExecuteRequest N V)
    (constructorError : Option String) : Target N V :=
  let t : Target N V :=
    { host := h, request := request, instanceId := h.system.nextId, pc := .initializing,
      injected := [], injectedAt := 0 }
  if request.actorClassName ∉ h.actorClasses then
    t.answer { success := false
               error := some ("Actor class not registered: " ++ request.actorClassName) }
  else
    match constructorError with
    | some error => t.fail error
    | none =>
        { t with
          host := { h with
            system := h.system.install h.defaultMailboxConfig
            actorMetadata := Function.update h.actorMetadata h.system.nextId
              (some ⟨request.actorClassName, some request.actorName, request.initArgs⟩) } }

/-- `injectMessages` with the pending messages of the request. -/
def inject (t : Target N V) : Target N V :=
  let s := t.host.system
  let msgs := received s.nextUid t.request.pendingMessages
  { t.setSystem ({ s with nextUid := s.nextUid + msgs.length }.injectMessages t.instanceId
      (msgs.map some)) with
    injected := msgs
    injectedAt := s.started.length }

/-- The call of `confirmReservation`.  It rejects when the registration cannot be
published; the reservation is then still there. -/
def confirm (t : Target N V) (now : Nat) (publishError : Option String) : Target N V :=
  let registry := t.host.registry
  let result := registry.confirmReservation t.request.reservationId t.instanceId now
  match publishError, result.2 with
  | some error, some _ =>
      { t with
        host := { t.host with registry := { registry with gossip := result.1.gossip } }
        pc := .confirming (.error error) }
  | _, update =>
      { t with
        host := { t.host with registry := result.1 }
        pc := .confirming (.ok update.isSome) }

/-- The clean-up of the exit for a reservation that was not confirmed. -/
def cleanup (t : Target N V) : Target N V :=
  { t with host := t.host.remove t.instanceId }

def step (t : Target N V) (a : TargetAction N V) : Option (Target N V) :=
  match a, t.pc with
  | .host a, _ => (t.host.step a).map fun h => { t with host := h }
  | .initDone now publishError, .initializing =>
      if t.host.migratable t.instanceId then some { t with pc := .settingState }
      else some (t.inject.confirm now publishError)
  | .initFails error, .initializing => some (t.fail error)
  | .stateSet now publishError, .settingState => some (t.inject.confirm now publishError)
  | .stateFails error, .settingState => some (t.fail error)
  | .confirmSettles, .confirming (.ok true) =>
      some ((t.setSystem (t.host.system.scheduleProcessMailbox t.instanceId)).answer
        { success := true, newActorId := some t.instanceId })
  | .confirmSettles, .confirming (.ok false) =>
      some (t.cleanup.answer
        { success := false, error := some "Failed to confirm name reservation" })
  | .confirmSettles, .confirming (.error error) => some (t.fail error)
  | .released, .releasing error =>
      some (t.answer { success := false, error := some error })
  | _, _ => none

end Target

end Libeam.Migration
