import Libeam.Proofs.MailboxQueue
import Libeam.Proofs.Possession
/-!
# Settlements stay

The record of settled promises only grows, and a step settles the promise of a message only for the
instance that holds it.
-/

namespace Libeam.Proofs.Settlements

open Mailbox Libeam.System Libeam.System.Node Proofs.Frame MailboxQueue Possession

variable {V : Type}

def Settles (s t : Node V) : Prop := s.settled <+: t.settled

theorem Settles.refl (s : Node V) : Settles s s := List.prefix_refl _

theorem Settles.scheduleProcessMailbox {s t : Node V} (h : Settles s t) (id : ActorId) :
    Settles s (t.scheduleProcessMailbox id) := by
  unfold Node.scheduleProcessMailbox
  split_ifs <;> exact h

/-- The promises settled from `s` to `t` all satisfy `Q`; none is forgotten. -/
def SettlesOnly (Q : Nat → Prop) (s t : Node V) : Prop :=
  s.awaited ⊆ t.awaited ∧ ∃ more, t.settled = s.settled ++ more ∧ ∀ p ∈ more, Q p.1

namespace SettlesOnly

variable {Q : Nat → Prop} {s t : Node V}

theorem of_subset (hawaited : s.awaited ⊆ t.awaited) (hsettled : t.settled = s.settled) :
    SettlesOnly Q s t :=
  ⟨hawaited, [], by rw [hsettled, List.append_nil], by simp⟩

theorem awaited (h : SettlesOnly Q s t) : s.awaited ⊆ t.awaited := h.1

theorem refl (s : Node V) : SettlesOnly Q s s := of_subset (Finset.Subset.refl _) rfl

theorem settles (h : SettlesOnly Q s t) : Settles s t := by
  obtain ⟨-, more, heq, -⟩ := h
  rw [Settles, heq]
  exact List.prefix_append s.settled more

theorem mono {R : Nat → Prop} (h : SettlesOnly Q s t) (hQR : ∀ uid, Q uid → R uid) :
    SettlesOnly R s t := by
  obtain ⟨hawaited, more, heq, hmore⟩ := h
  exact ⟨hawaited, more, heq, fun p hp => hQR p.1 (hmore p hp)⟩

theorem settle (h : SettlesOnly Q s t) {uid : Nat} (huid : Q uid) (r : Settlement V) :
    SettlesOnly Q s (t.settle uid r) := by
  obtain ⟨hawaited, more, heq, hmore⟩ := h
  refine ⟨hawaited, more ++ [(uid, r)], ?_, ?_⟩
  · rw [settle_settled, heq, List.append_assoc]
  · rw [List.forall_mem_append, List.forall_mem_singleton]
    exact ⟨hmore, huid⟩

theorem scheduleProcessMailbox (h : SettlesOnly Q s t) (id : ActorId) :
    SettlesOnly Q s (t.scheduleProcessMailbox id) := by
  unfold Node.scheduleProcessMailbox
  split_ifs <;> exact h

theorem rejectEvicted (h : SettlesOnly Q s t) {oldest : Option (StashedMessage V)}
    (hQ : ∀ msg, oldest = some msg → Q msg.uid) : SettlesOnly Q s (t.rejectEvicted oldest) := by
  unfold Node.rejectEvicted
  split
  next msg =>
    split_ifs
    · exact h.settle (hQ msg rfl) _
    · exact h
  next => exact h

theorem processEnd (h : SettlesOnly Q s t) (id : ActorId) :
    SettlesOnly Q s (t.processEnd id) := by
  unfold Node.processEnd
  dsimp only
  split_ifs <;> exact h

theorem processLoop (h : SettlesOnly Q s t) (id : ActorId) (processed : Nat) :
    SettlesOnly Q s (t.processLoop id processed) := by
  unfold Node.processLoop
  split_ifs
  · dsimp only
    split <;> exact h
  · exact h.processEnd id

theorem syncLocalCallFinally (h : SettlesOnly Q s t) (id : ActorId)
    (prevMessage : Option (StashedMessage V)) :
    SettlesOnly Q s (t.syncLocalCallFinally id prevMessage) := by
  unfold Node.syncLocalCallFinally
  dsimp only
  split_ifs <;> exact h

theorem systemUnstashAll (h : SettlesOnly Q s t) (id : ActorId)
    (messages : List (StashedMessage V)) :
    SettlesOnly Q s (t.systemUnstashAll id messages) := by
  unfold Node.systemUnstashAll
  split_ifs
  · apply scheduleProcessMailbox
    exact h
  · exact h

end SettlesOnly

/-! ## Who settles what -/

/-- The action may settle promises of messages the instance holds. -/
def SettlesFor (s : Node V) (id : ActorId) : Action V → Prop
  | .dispatchCast id' _ | .dispatchCall id' _ => id' = id ∧ (s.mailbox id).maxSize ≠ none
  | .clearStash id' => id' = id
  | .handlerReturns _ | .handlerThrows _ => ∃ r rest, s.stack = r :: rest ∧ r.id = id
  | _ => False

/-- The promise is that of a held message, or of a call that a bounded mailbox turns away. -/
def Settleable (P : ActorId → StashedMessage V → Prop) (s : Node V) (a : Action V)
    (uid : Nat) : Prop :=
  (∃ id msg, P id msg ∧ msg.uid = uid ∧ SettlesFor s id a) ∨
    uid = s.nextUid ∧ ∃ id message, a = .dispatchCall id message ∧
      (s.mailbox id).maxSize ≠ none

section

variable {P : ActorId → StashedMessage V → Prop} {s : Node V}

theorem maxSize_of_not_accepted {mb : BoundedMailbox (StashedMessage V)} {msg : StashedMessage V}
    (h : (mb.enqueue msg).2 ≠ .accepted) : mb.maxSize ≠ none := by
  intro hmax
  unfold BoundedMailbox.enqueue at h
  rw [if_pos (isFull_of_unbounded hmax)] at h
  exact h rfl

theorem settlesOnly_queues (h : Possessed P s) {a : Action V} {t : Node V} {id : ActorId}
    {msg : StashedMessage V} {awaited : Finset Nat}
    (hqueues : Queues s (queue s id msg awaited) id msg t) (hawaited : s.awaited ⊆ awaited)
    (hsettles : (s.mailbox id).maxSize ≠ none → SettlesFor s id a)
    (hnew : msg.type = .call → (s.mailbox id).maxSize ≠ none → Settleable P s a msg.uid) :
    SettlesOnly (Settleable P s a) s t := by
  have hqueued : SettlesOnly (Settleable P s a) s (queue s id msg awaited) :=
    .of_subset hawaited rfl
  cases hqueues with
  | unsent => exact .refl s
  | accepted | refused =>
      apply SettlesOnly.scheduleProcessMailbox
      exact hqueued
  | evicted hevicted =>
      have hmax := maxSize_of_not_accepted (hevicted.trans_ne (by simp))
      apply SettlesOnly.scheduleProcessMailbox
      exact hqueued.rejectEvicted fun msg hmsg =>
        .inl ⟨id, msg, h.mailbox id msg (mem_of_evicted hevicted hmsg), rfl, hsettles hmax⟩
  | full => exact hqueued
  | rejected hlost hcall =>
      have hmax : (s.mailbox id).maxSize ≠ none := by
        rcases hlost with hlost | hlost <;>
          exact maxSize_of_not_accepted (hlost.trans_ne (by simp))
      exact hqueued.settle (hnew hcall hmax) _

variable {Q : Nat → Prop}

theorem settlesOnly_afterReturn (id : ActorId) {msg : StashedMessage V} (hQ : Q msg.uid)
    (value : V) (task : System.Task V) : SettlesOnly Q s (s.afterReturn id msg value task) := by
  cases task with
  | processMailbox n =>
      unfold Node.afterReturn
      apply SettlesOnly.processLoop
      split_ifs
      · exact (SettlesOnly.refl s).settle hQ _
      · exact .refl s
  | syncLocalCall prev =>
      unfold Node.afterReturn
      apply SettlesOnly.syncLocalCallFinally
      split_ifs
      · exact .of_subset (Finset.subset_insert _ _) rfl
      · exact (SettlesOnly.refl s).settle hQ _
  | syncLocalCast prev | abandoned | rpcCall | rpcCast => exact .refl s

theorem settlesOnly_afterThrow (id : ActorId) {msg : StashedMessage V} (hQ : Q msg.uid)
    (error : V) (task : System.Task V) : SettlesOnly Q s (s.afterThrow id msg error task) := by
  cases task with
  | processMailbox n =>
      unfold Node.afterThrow
      split_ifs
      · apply SettlesOnly.processLoop
        exact .refl s
      · apply SettlesOnly.processLoop
        exact (SettlesOnly.refl s).settle hQ _
      · exact .refl s
  | syncLocalCall prev =>
      apply SettlesOnly.syncLocalCallFinally
      exact (SettlesOnly.refl s).settle hQ _
  | syncLocalCast prev | abandoned | rpcCall | rpcCast => exact .refl s

theorem settlesOnly_clearStash (id : ActorId) (hQ : ∀ msg ∈ (s.object id).stash, Q msg.uid) :
    SettlesOnly Q s (s.clearStash id) := by
  have hfold : ∀ (msgs : List (StashedMessage V)) (t : Node V), (∀ msg ∈ msgs, Q msg.uid) →
      SettlesOnly Q s t → SettlesOnly Q s (msgs.foldl (fun s msg =>
        if msg.type = .call ∧ msg.uid ∈ s.awaited then
          s.settle msg.uid (.rejected .discarded)
        else s) t) := by
    intro msgs
    induction msgs with
    | nil => exact fun _ _ h => h
    | cons msg msgs ih =>
        intro t hmsgs h
        rw [List.forall_mem_cons] at hmsgs
        refine ih _ hmsgs.2 ?_
        dsimp only
        split_ifs
        · exact h.settle hmsgs.1 _
        · exact h
  exact hfold _ s hQ (.refl s)

theorem settlesOnly_step {t : Node V} {a : Action V} (h : Possessed P s)
    (hst : s.step a = some t) : SettlesOnly (Settleable P s a) s t := by
  cases a with
  | spawn config initThrows =>
      cases hst
      unfold Node.spawn
      split_ifs
      · exact .refl s
      · apply SettlesOnly.scheduleProcessMailbox
        exact .refl s
  | remove id => cases hst; exact .refl s
  | dispatchCast id message =>
      cases hst
      exact settlesOnly_queues h (dispatchCast_queues s id message) (Finset.Subset.refl _)
        (fun hmax => ⟨rfl, hmax⟩) nofun
  | dispatchCall id message =>
      cases hst
      unfold Node.dispatchCall
      split_ifs
      · exact .refl s
      · exact settlesOnly_queues h (enqueueCall_queues s id message) (Finset.subset_insert _ _)
          (fun hmax => ⟨rfl, hmax⟩) fun _ hmax => .inr ⟨rfl, id, message, rfl, hmax⟩
      · exact .refl s
  | rpcCall id message => cases hst; unfold handleRpcCall; split_ifs <;> exact .refl s
  | rpcCast id message => cases hst; unfold handleRpcCast; split_ifs <;> exact .refl s
  | syncLocalCast id message =>
      cases hst
      unfold Node.syncLocalCast
      split_ifs <;> exact .refl s
  | tick id =>
      obtain ⟨-, -, rfl⟩ := tick_some hst
      unfold Node.processMailbox
      split_ifs
      · exact .refl s
      · exact .refl s
      · apply SettlesOnly.processLoop
        exact .refl s
  | handlerAwaits =>
      obtain ⟨id, task, msg, rest, -, ⟨prev, -, rfl⟩ | ⟨-, rfl⟩⟩ := handlerAwaits_some hst
      · exact .refl s
      · exact .refl s
  | handlerResumes index =>
      obtain ⟨r, -, -, rfl⟩ := handlerResumes_some hst
      exact .refl s
  | handlerReturns value =>
      obtain ⟨id, task, msg, rest, hstack, rfl⟩ := handlerReturns_some hst
      have hmsg := (h.pop hstack).1 msg (.inl rfl)
      exact settlesOnly_afterReturn (s := { s with stack := rest }) id
        (.inl ⟨id, msg, hmsg, rfl, _, rest, hstack, rfl⟩) value task
  | handlerThrows error =>
      obtain ⟨id, task, msg, rest, hstack, rfl⟩ := handlerThrows_some hst
      have hmsg := (h.pop hstack).1 msg (.inl rfl)
      exact settlesOnly_afterThrow (s := { s with stack := rest }) id
        (.inl ⟨id, msg, hmsg, rfl, _, rest, hstack, rfl⟩) error task
  | crashHandled =>
      obtain ⟨id, task, rest, -, ⟨n, -, rfl⟩ | ⟨prev, -, rfl⟩ | ⟨-, rfl⟩⟩ :=
        crashHandled_some hst
      · apply SettlesOnly.processEnd
        exact .refl s
      · exact .refl s
      · exact .refl s
  | stash id =>
      cases hst
      unfold Node.stash
      split <;> exact .refl s
  | unstash id =>
      cases hst
      unfold Node.unstash
      split
      · exact .refl s
      · apply SettlesOnly.systemUnstashAll
        exact .refl s
  | unstashAll id =>
      cases hst
      unfold Node.unstashAll
      split_ifs
      · exact (SettlesOnly.refl s).systemUnstashAll id _
      · exact .refl s
  | clearStash id =>
      cases hst
      exact settlesOnly_clearStash id fun msg hmsg =>
        .inl ⟨id, msg, h.stash id msg hmsg, rfl, rfl⟩
  | pauseMailbox id => cases hst; unfold Node.pauseMailbox; split_ifs <;> exact .refl s
  | resumeMailbox id =>
      cases hst
      unfold Node.resumeMailbox
      split_ifs
      · apply SettlesOnly.scheduleProcessMailbox
        exact .refl s
      · exact .refl s
      · exact .refl s
  | injectMessages id messages =>
      cases hst
      unfold Node.injectMessages
      split_ifs
      · apply SettlesOnly.scheduleProcessMailbox
        exact .refl s
      · exact .refl s

end

theorem settles_step {s t : Node V} {a : Action V} (hst : s.step a = some t) : Settles s t := by
  have hany : Possessed (fun _ _ => True) s :=
    ⟨fun _ _ _ => trivial, fun _ _ _ => trivial, fun _ _ _ => trivial, fun _ _ _ _ => trivial,
      fun _ _ _ _ => trivial⟩
  exact (settlesOnly_step hany hst).settles

end Libeam.Proofs.Settlements
