import Libeam.Proofs.HostSteps
/-!
# The steps of `_handleMigrateExecute`

One inversion lemma for the steps of the handler, and what its parts change.
-/

namespace Libeam.Proofs.ExecuteSteps

open Libeam.System Registry Migration HostSteps

variable {N V : Type} [LinearOrder N]

inductive Executes (t u : Target N V) : TargetAction N V → Prop where
  | host (a : HostAction N V) (h : Host N V) (step : t.host.step a = some h)
      (eq : u = { t with host := h }) : Executes t u (.host a)
  | sets (now : Nat) (publishError : Option String) (pc : t.pc = .initializing)
      (migratable : t.host.migratable t.instanceId = true)
      (eq : u = { t with pc := .settingState }) : Executes t u (.initDone now publishError)
  | skipsState (now : Nat) (publishError : Option String) (pc : t.pc = .initializing)
      (migratable : t.host.migratable t.instanceId = false)
      (eq : u = t.inject.confirm now publishError) :
      Executes t u (.initDone now publishError)
  | stateSet (now : Nat) (publishError : Option String) (pc : t.pc = .settingState)
      (eq : u = t.inject.confirm now publishError) :
      Executes t u (.stateSet now publishError)
  | initFails (error : String) (pc : t.pc = .initializing) (eq : u = t.fail error) :
      Executes t u (.initFails error)
  | stateFails (error : String) (pc : t.pc = .settingState) (eq : u = t.fail error) :
      Executes t u (.stateFails error)
  | confirmed (pc : t.pc = .confirming (.ok true))
      (eq : u = (t.setSystem (t.host.system.scheduleProcessMailbox t.instanceId)).answer
        { success := true, newActorId := some t.instanceId }) : Executes t u .confirmSettles
  | refused (pc : t.pc = .confirming (.ok false))
      (eq : u = t.cleanup.answer
        { success := false, error := some "Failed to confirm name reservation" }) :
      Executes t u .confirmSettles
  | rejected (error : String) (pc : t.pc = .confirming (.error error))
      (eq : u = t.fail error) : Executes t u .confirmSettles
  | released (error : String) (pc : t.pc = .releasing error)
      (eq : u = t.answer { success := false, error := some error }) : Executes t u .released

theorem target_steps {t u : Target N V} {a : TargetAction N V} (hst : t.step a = some u) :
    Executes t u a := by
  unfold Target.step at hst
  split at hst
  next a =>
    obtain ⟨h, hh, rfl⟩ := Option.map_eq_some_iff.1 hst
    exact .host a h hh rfl
  next now publishError hpc =>
    split_ifs at hst with hmigratable
    · exact .sets now publishError hpc hmigratable (Option.some.inj hst).symm
    · exact .skipsState now publishError hpc (Bool.eq_false_iff.2 hmigratable)
        (Option.some.inj hst).symm
  next error hpc => exact .initFails error hpc (Option.some.inj hst).symm
  next now publishError hpc => exact .stateSet now publishError hpc (Option.some.inj hst).symm
  next error hpc => exact .stateFails error hpc (Option.some.inj hst).symm
  next hpc => exact .confirmed hpc (Option.some.inj hst).symm
  next hpc => exact .refused hpc (Option.some.inj hst).symm
  next error hpc => exact .rejected error hpc (Option.some.inj hst).symm
  next error hpc => exact .released error hpc (Option.some.inj hst).symm
  next => cases hst

theorem instanceId_confirm (t : Target N V) (now : Nat) (publishError : Option String) :
    (t.confirm now publishError).instanceId = t.instanceId := by
  unfold Target.confirm
  dsimp only
  split <;> rfl

theorem instanceId_step {t u : Target N V} {a : TargetAction N V} (hst : t.step a = some u) :
    u.instanceId = t.instanceId := by
  cases target_steps hst with
  | skipsState now publishError _ _ eq | stateSet now publishError _ eq =>
      rw [eq]
      exact instanceId_confirm t.inject now publishError
  | host _ _ _ eq | sets _ _ _ _ eq | initFails _ _ eq | stateFails _ _ eq | confirmed _ eq
  | refused _ eq | rejected _ _ eq | released _ _ eq =>
      subst eq
      rfl

/-! ## Confirming -/

/-- What `confirmReservation` will say: the registry refuses a reservation that
is missing or has expired. -/
def claimed (t : Target N V) (now : Nat) : Option (NameReservation N) :=
  (t.host.registry.reservations.claim t.request.reservationId now).2

/-- How the call of `confirmReservation` leaves the handler. -/
structure Confirms (t u : Target N V) (registry : DistributedRegistry N)
    (outcome : Except String Bool) : Prop where
  eq : u = { t with host := t.host.setRegistry registry, pc := .confirming outcome }
  nextId : registry.reservations.nextId = t.host.registry.reservations.nextId

theorem confirmReservation_none {r : DistributedRegistry N} {id : ReservationId} {now : Nat}
    (hnone : (r.reservations.claim id now).2 = none) (actorId : ActorId) :
    ∃ reservations, r.confirmReservation id actorId now =
        ({ r with reservations := reservations }, none) ∧
      reservations.nextId = r.reservations.nextId ∧ reservations.find id = none := by
  unfold DistributedRegistry.confirmReservation
  unfold Reservations.claim at hnone ⊢
  cases hfind : r.reservations.find id with
  | none => exact ⟨r.reservations, rfl, rfl, hfind⟩
  | some reservation =>
      simp only [hfind] at hnone ⊢
      split_ifs at hnone ⊢
      exact ⟨r.reservations.delete id, rfl, rfl, find_delete_self _ id⟩

theorem confirmReservation_some {r : DistributedRegistry N} {id : ReservationId} {now : Nat}
    (hsome : (r.reservations.claim id now).2 ≠ none) (actorId : ActorId) :
    ∃ gossip update, r.confirmReservation id actorId now =
      ({ r with gossip := gossip, reservations := r.reservations.delete id }, some update) := by
  unfold DistributedRegistry.confirmReservation
  unfold Reservations.claim at hsome ⊢
  cases hfind : r.reservations.find id with
  | none =>
      rw [hfind] at hsome
      exact absurd rfl hsome
  | some reservation =>
      simp only [hfind] at hsome ⊢
      split_ifs at hsome ⊢
      · exact absurd rfl hsome
      · exact ⟨_, _, rfl⟩

/-- The answer that `confirmReservation` will give is settled when it is called. -/
theorem confirms (t : Target N V) (now : Nat) (publishError : Option String) :
    ∃ registry outcome, Confirms t (t.confirm now publishError) registry outcome ∧
      (claimed t now = none → outcome = .ok false ∧
        registry.reservations.find t.request.reservationId = none) ∧
      (claimed t now ≠ none → outcome ≠ .ok false) := by
  unfold Target.confirm
  by_cases hclaimed : claimed t now = none
  · obtain ⟨reservations, hconfirm, hnextId, hfind⟩ :=
      confirmReservation_none hclaimed t.instanceId
    refine ⟨{ t.host.registry with reservations := reservations }, .ok false, ⟨?_, hnextId⟩,
      fun _ => ⟨rfl, hfind⟩, fun hne => absurd hclaimed hne⟩
    simp only [hconfirm]
    cases publishError <;> rfl
  · obtain ⟨gossip, update, hconfirm⟩ := confirmReservation_some hclaimed t.instanceId
    simp only [hconfirm]
    cases publishError with
    | some error =>
        exact ⟨{ t.host.registry with gossip := gossip }, .error error, ⟨rfl, rfl⟩,
          fun hnone => absurd hnone hclaimed, by simp⟩
    | none => exact ⟨_, .ok true, ⟨rfl, rfl⟩, fun hnone => absurd hnone hclaimed, by simp⟩

end Libeam.Proofs.ExecuteSteps
