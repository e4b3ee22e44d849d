import Libeam.Proofs.History
import Libeam.Proofs.Settlements
/-!
# Accepted messages stay with their instance

Message objects carry identities that are handed out once.  Without injected messages, an object
whose identity was accepted for an instance is held by that instance only, so its promise is
settled by what happens at that instance.
-/

namespace Libeam.Proofs.Ownership

open Libeam.System Libeam.System.Node Proofs.Frame History Possession Settlements

variable {V : Type}

/-- The identity was handed out, and to no other instance. -/
def BelongsTo (s : Node V) (id : ActorId) (msg : StashedMessage V) : Prop :=
  msg.uid < s.nextUid ∧ ∀ p ∈ s.accepted, p.2.uid = msg.uid → p.1 = id

def NoInjection : Action V → Prop
  | .injectMessages _ _ => False
  | _ => True

structure Owned (s : Node V) : Prop where
  fresh : Fresh s
  possessed : Possessed (BelongsTo s) s
  settled : ∀ p ∈ s.settled, p.1 < s.nextUid

theorem owned_init : Owned (init : Node V) :=
  ⟨fresh_init, possessed_init, by simp [init]⟩

section

variable {s t : Node V} {a : Action V}

theorem nextUid_scheduleProcessMailbox (id : ActorId) :
    (s.scheduleProcessMailbox id).nextUid = s.nextUid :=
  congrArg Log.nextUid (log_scheduleProcessMailbox s id)

theorem nextUid_rejectEvicted (oldest : Option (StashedMessage V)) :
    (s.rejectEvicted oldest).nextUid = s.nextUid :=
  congrArg Log.nextUid (log_rejectEvicted s oldest)

theorem nextUid_queues {id : ActorId} {msg : StashedMessage V} {awaited : Finset Nat}
    (h : Queues s (queue s id msg awaited) id msg t) : t = s ∨ t.nextUid = s.nextUid + 1 := by
  cases h with
  | unsent => exact .inl rfl
  | accepted | refused => exact .inr (nextUid_scheduleProcessMailbox id)
  | evicted =>
      exact .inr ((nextUid_scheduleProcessMailbox id).trans (nextUid_rejectEvicted _))
  | full => exact .inr rfl
  | rejected => exact .inr rfl

/-- A new object takes the next identity. -/
theorem nextUid_of_introduces {id : ActorId} {msg : StashedMessage V} (ha : NoInjection a)
    (hnew : Introduces s id msg a) (hst : s.step a = some t) :
    t = s ∨ msg.uid = s.nextUid ∧ t.nextUid = s.nextUid + 1 := by
  cases a with
  | dispatchCast id' message =>
      cases hst
      obtain ⟨-, rfl⟩ := hnew
      exact (nextUid_queues (dispatchCast_queues s id' message)).imp_right fun h => ⟨rfl, h⟩
  | dispatchCall id' message =>
      cases hst
      obtain ⟨-, rfl⟩ := hnew
      unfold Node.dispatchCall
      split_ifs
      · exact .inr ⟨rfl, rfl⟩
      · exact (nextUid_queues (enqueueCall_queues s id' message)).imp_right fun h => ⟨rfl, h⟩
      · exact .inl rfl
  | rpcCall id' message =>
      cases hst
      obtain ⟨-, rfl⟩ := hnew
      unfold handleRpcCall
      split_ifs
      · exact .inr ⟨rfl, rfl⟩
      · exact .inl rfl
  | rpcCast id' message =>
      cases hst
      obtain ⟨-, rfl⟩ := hnew
      unfold handleRpcCast
      split_ifs
      · exact .inr ⟨rfl, rfl⟩
      · exact .inl rfl
  | syncLocalCast id' message =>
      cases hst
      obtain ⟨-, rfl⟩ := hnew
      unfold Node.syncLocalCast
      split_ifs
      · exact .inl rfl
      · exact .inr ⟨rfl, rfl⟩
  | injectMessages => exact ha.elim
  | _ => exact hnew.elim

/-- What is accepted is a new object, and is sent to its instance. -/
theorem accepted_step (hst : s.step a = some t) {p : ActorId × StashedMessage V}
    (hp : p ∈ t.accepted) :
    p ∈ s.accepted ∨ p.2.uid = s.nextUid ∧
      (a = .dispatchCast p.1 p.2.message ∨ a = .dispatchCall p.1 p.2.message) := by
  cases logged_step hst with
  | idle _ _ _ _ _ accepted => exact .inl (accepted ▸ hp)
  | removed _ _ _ _ _ accepted => exact .inl (accepted ▸ hp)
  | spawned _ _ _ _ _ _ accepted => exact .inl (accepted ▸ hp)
  | accepted _ id msg _ uid _ _ _ _ accepted sends =>
      rw [accepted, List.mem_append, List.mem_singleton] at hp
      rcases hp with hold | rfl
      · exact .inl hold
      · exact .inr ⟨uid, sends⟩

theorem BelongsTo.step {id : ActorId} {msg : StashedMessage V} (h : BelongsTo s id msg)
    (hst : s.step a = some t) : BelongsTo t id msg := by
  refine ⟨h.1.trans_le (logged_step hst).nextUid_le, fun p hp huid => ?_⟩
  rcases accepted_step hst hp with hold | hnew
  · exact h.2 p hold huid
  · exact absurd (hnew.1.symm.trans huid) h.1.ne'

/-- A step settles the promise of an accepted message only for the instance that accepted it. -/
theorem Owned.settlesOnly (h : Owned s) (hst : s.step a = some t) :
    SettlesOnly (fun uid => ∀ p ∈ s.accepted, p.2.uid = uid → SettlesFor s p.1 a) s t := by
  refine (settlesOnly_step h.possessed hst).mono fun uid hsettled p hp huid => ?_
  rcases hsettled with ⟨id, msg, hmsg, rfl, hfor⟩ | ⟨rfl, -⟩
  · rw [hmsg.2 p hp huid]
    exact hfor
  · exact absurd huid (h.fresh.uids p hp).ne

theorem owned_step (h : Owned s) (ha : NoInjection a) (hst : s.step a = some t) : Owned t := by
  refine ⟨fresh_step h.fresh hst, ?_, ?_⟩
  · by_cases hsame : t = s
    · exact hsame ▸ h.possessed
    · refine possessed_step (h.possessed.mono fun id msg hmsg => hmsg.step hst) ?_ hst
      intro id msg hnew
      obtain ⟨huid, hnext⟩ := (nextUid_of_introduces ha hnew hst).resolve_left hsame
      refine ⟨by omega, fun p hp hpuid => ?_⟩
      rcases accepted_step hst hp with hold | ⟨-, rfl | rfl⟩
      · exact absurd (hpuid.trans huid) (h.fresh.uids p hold).ne
      · exact hnew.1
      · exact hnew.1
  · obtain ⟨-, more, heq, hmore⟩ := settlesOnly_step h.possessed hst
    rw [heq, List.forall_mem_append]
    refine ⟨fun p hp => (h.settled p hp).trans_le (logged_step hst).nextUid_le, fun p hp => ?_⟩
    rcases hmore p hp with ⟨id, msg, hmsg, huid, -⟩ | ⟨huid, id, message, rfl, hmax⟩
    · exact huid ▸ hmsg.1.trans_le (logged_step hst).nextUid_le
    · have hnew : Introduces s id ⟨s.nextUid, .call, message⟩ (.dispatchCall id message) :=
        ⟨rfl, rfl⟩
      rcases nextUid_of_introduces ha hnew hst with rfl | ⟨-, hnext⟩
      · rw [List.self_eq_append_right] at heq
        simp [heq] at hp
      · omega

end

end Libeam.Proofs.Ownership
