import Libeam.Proofs.Frame
import Libeam.Proofs.MailboxQueue
/-!
# Every mailbox stays a sound queue

Bulk replacement is part of migration only; without it the ring invariant
survives every action, as long as injected messages are defined.
-/

namespace Libeam.Proofs.MailboxSound

open Mailbox Libeam.System Libeam.System.Node MailboxQueue Proofs.Frame

variable {V : Type}

theorem mailbox_setMailbox (s : Node V) (id id' : ActorId)
    (mb : BoundedMailbox (StashedMessage V)) :
    (s.setMailbox id mb).mailbox id' = if id' = id then mb else s.mailbox id' := by
  simp only [mailbox, setMailbox_object, Function.update_apply]
  split_ifs <;> rfl

@[simp] theorem mailbox_setMailbox_self (s : Node V) (id : ActorId)
    (mb : BoundedMailbox (StashedMessage V)) :
    (s.setMailbox id mb).mailbox id = mb := by
  rw [mailbox_setMailbox, if_pos rfl]

@[simp] theorem mailbox_setCurrentMessage (s : Node V) (id id' : ActorId)
    (msg : Option (StashedMessage V)) :
    (s.setCurrentMessage id msg).mailbox id' = s.mailbox id' := by
  simp only [mailbox, setCurrentMessage_object, Function.update_apply]
  split_ifs with h
  · rw [h]
  · rfl

@[simp] theorem mailbox_setStash (s : Node V) (id id' : ActorId)
    (stash : List (StashedMessage V)) :
    (s.setStash id stash).mailbox id' = s.mailbox id' := by
  simp only [mailbox, setStash_object, Function.update_apply]
  split_ifs with h
  · rw [h]
  · rfl

@[simp] theorem mailbox_scheduleProcessMailbox (s : Node V) (id id' : ActorId) :
    (s.scheduleProcessMailbox id).mailbox id' = s.mailbox id' := by
  unfold scheduleProcessMailbox
  split_ifs <;> rfl

@[simp] theorem mailbox_rejectEvicted (s : Node V)
    (oldest : Option (StashedMessage V)) (id : ActorId) :
    (s.rejectEvicted oldest).mailbox id = s.mailbox id := by
  unfold rejectEvicted
  split
  · split_ifs <;> rfl
  · rfl

@[simp] theorem mailbox_clearStash (s : Node V) (id id' : ActorId) :
    (s.clearStash id).mailbox id' = s.mailbox id' := by
  obtain ⟨more, heq⟩ := clearStash_eq s id
  rw [heq, mailbox_setStash]
  rfl

def Sound (s : Node V) : Prop := ∀ id, ∃ q, Holds (s.mailbox id) q

theorem sound_init : Sound (init : Node V) := fun _ => ⟨[], holds_new {}⟩

theorem Sound.of_mailbox_eq {s t : Node V} (h : Sound s)
    (heq : ∀ id, t.mailbox id = s.mailbox id) : Sound t := by
  intro id
  rw [heq id]
  exact h id

theorem Sound.setMailbox {s : Node V} (h : Sound s) (id : ActorId)
    {mb : BoundedMailbox (StashedMessage V)} (hmb : ∃ q, Holds mb q) :
    Sound (s.setMailbox id mb) := by
  intro id'
  rw [mailbox_setMailbox]
  split_ifs
  · exact hmb
  · exact h id'

/-- A mailbox that is not empty hands out a message and stays sound. -/
theorem Sound.dequeue {s : Node V} (h : Sound s) {id : ActorId}
    (hpos : 0 < (s.mailbox id).length) :
    ∃ msg q, Holds (s.mailbox id) (msg :: q) ∧
      (s.mailbox id).dequeue.2 = some msg ∧ Holds (s.mailbox id).dequeue.1 q := by
  obtain ⟨q, hq⟩ := h id
  cases q with
  | nil =>
      have hsize : (s.mailbox id).length = 0 := hq.size_eq
      omega
  | cons msg q => exact ⟨msg, q, hq, hq.dequeue⟩

theorem Sound.processEnd {s : Node V} (h : Sound s) (id : ActorId) :
    Sound (s.processEnd id) := by
  unfold Node.processEnd
  dsimp only
  split_ifs <;> exact h

theorem Sound.processLoop {s : Node V} (h : Sound s) (id : ActorId)
    (processed : Nat) : Sound (s.processLoop id processed) := by
  unfold Node.processLoop
  split_ifs with hloop
  · obtain ⟨msg, q, -, hmsg, hq⟩ := h.dequeue hloop.2.1
    have hnext := h.setMailbox id ⟨q, hq⟩
    simp only [hmsg]
    apply hnext.of_mailbox_eq
    intro id'
    exact mailbox_setCurrentMessage _ _ _ _
  · exact h.processEnd id

theorem Sound.processMailbox {s : Node V} (h : Sound s) (id : ActorId) :
    Sound (s.processMailbox id) := by
  unfold Node.processMailbox
  split_ifs
  · exact h
  · exact h
  · apply Sound.processLoop
    exact h

theorem Sound.syncLocalCallFinally {s : Node V} (h : Sound s) (id : ActorId)
    (prevMessage : Option (StashedMessage V)) :
    Sound (s.syncLocalCallFinally id prevMessage) := by
  have hset : Sound (s.setCurrentMessage id prevMessage) :=
    h.of_mailbox_eq fun id' => mailbox_setCurrentMessage _ _ _ _
  unfold Node.syncLocalCallFinally
  dsimp only
  split_ifs <;> exact hset

theorem Sound.syncLocalCastFinally {s : Node V} (h : Sound s) (id : ActorId)
    (prevMessage : Option (StashedMessage V)) :
    Sound (s.syncLocalCastFinally id prevMessage) :=
  h.of_mailbox_eq fun id' => mailbox_setCurrentMessage s id id' prevMessage

theorem Sound.queues {s t : Node V} (h : Sound s) {id : ActorId} {msg : StashedMessage V}
    {awaited : Finset Nat} (hqueues : Queues s (queue s id msg awaited) id msg t) : Sound t := by
  obtain ⟨q, hq⟩ := h id
  have hqueued := h.setMailbox id (hq.enqueue msg)
  cases hqueues with
  | unsent => exact h
  | accepted | refused =>
      exact hqueued.of_mailbox_eq fun id' => mailbox_scheduleProcessMailbox _ _ _
  | evicted =>
      refine hqueued.of_mailbox_eq fun id' => ?_
      rw [mailbox_scheduleProcessMailbox]
      exact mailbox_rejectEvicted _ _ _
  | full => exact hqueued
  | rejected => exact hqueued

theorem Sound.dispatchCall {s : Node V} (h : Sound s) (id : ActorId) (message : V) :
    Sound (s.dispatchCall id message) := by
  unfold Node.dispatchCall
  split_ifs
  · exact h.of_mailbox_eq fun id' => mailbox_setCurrentMessage _ _ _ _
  · exact h.queues (enqueueCall_queues s id message)
  · exact h

theorem Sound.syncLocalCast {s : Node V} (h : Sound s) (id : ActorId) (message : V) :
    Sound (s.syncLocalCast id message) := by
  unfold Node.syncLocalCast
  split_ifs
  · exact h
  · exact h.of_mailbox_eq fun id' => mailbox_setCurrentMessage _ _ _ _

theorem Sound.unshift {s : Node V} (h : Sound s) (id : ActorId)
    (messages : List (StashedMessage V)) :
    Sound ((s.setMailbox id ((s.mailbox id).unshift (messages.map some))
      ).scheduleProcessMailbox id) := by
  obtain ⟨q, hq⟩ := h id
  have hnext := h.setMailbox id ⟨_, hq.unshift messages⟩
  exact hnext.of_mailbox_eq fun id' => mailbox_scheduleProcessMailbox _ _ _

theorem Sound.setStash {s : Node V} (h : Sound s) (id : ActorId)
    (stash : List (StashedMessage V)) : Sound (s.setStash id stash) :=
  h.of_mailbox_eq fun _ => mailbox_setStash _ _ _ _

theorem Sound.systemUnstashAll {s : Node V} (h : Sound s) (id : ActorId)
    (messages : List (StashedMessage V)) : Sound (s.systemUnstashAll id messages) := by
  unfold Node.systemUnstashAll
  split_ifs
  · exact h.unshift id messages
  · exact h

theorem Sound.clearStash {s : Node V} (h : Sound s) (id : ActorId) :
    Sound (s.clearStash id) :=
  h.of_mailbox_eq fun _ => mailbox_clearStash _ _ _

theorem Sound.install {s : Node V} (h : Sound s) (config : MailboxConfig) :
    Sound (s.install config) := by
  intro id
  by_cases hid : id = s.nextId
  · refine ⟨[], ?_⟩
    simp only [mailbox, install_object, hid, Function.update_self]
    exact holds_new config
  · simp only [mailbox, install_object, Function.update_of_ne hid]
    exact h id

theorem Sound.afterReturn {s : Node V} (h : Sound s) (id : ActorId)
    (msg : StashedMessage V) (value : V) (task : System.Task V) :
    Sound (s.afterReturn id msg value task) := by
  cases task with
  | processMailbox processed =>
      apply Sound.processLoop
      apply Sound.of_mailbox_eq _ fun id' => mailbox_setCurrentMessage _ _ _ _
      split_ifs <;> exact h
  | syncLocalCall prevMessage =>
      apply Sound.syncLocalCallFinally
      split_ifs <;> exact h
  | syncLocalCast prevMessage => exact h.syncLocalCastFinally id prevMessage
  | abandoned | rpcCall | rpcCast => exact h

theorem Sound.afterThrow {s : Node V} (h : Sound s) (id : ActorId)
    (msg : StashedMessage V) (error : V) (task : System.Task V) :
    Sound (s.afterThrow id msg error task) := by
  cases task with
  | processMailbox processed =>
      unfold Node.afterThrow
      split_ifs
      · exact (h.of_mailbox_eq fun id' =>
          mailbox_setCurrentMessage _ _ _ _).processLoop id _
      · apply Sound.processLoop
        exact h.of_mailbox_eq fun id' => mailbox_setCurrentMessage _ _ _ _
      · exact h
  | syncLocalCall prevMessage =>
      apply Sound.syncLocalCallFinally
      exact h
  | syncLocalCast prevMessage | abandoned | rpcCall | rpcCast => exact h

/-- Injected messages are message objects, not holes. -/
def InjectsMessages : Action V → Prop
  | .injectMessages _ messages => ∃ msgs, messages = List.map some msgs
  | _ => True

theorem sound_step {s t : Node V} {a : Action V} (h : Sound s)
    (ha : InjectsMessages a) (hst : s.step a = some t) : Sound t := by
  cases a with
  | spawn config initThrows =>
      cases hst
      unfold Node.spawn
      split_ifs
      · exact h.install config
      · exact (h.install config).of_mailbox_eq
          fun _ => mailbox_scheduleProcessMailbox _ _ _
  | remove id => cases hst; exact h
  | dispatchCast id message => cases hst; exact h.queues (dispatchCast_queues s id message)
  | dispatchCall id message => cases hst; exact h.dispatchCall id message
  | rpcCall id message => cases hst; unfold handleRpcCall; split_ifs <;> exact h
  | rpcCast id message => cases hst; unfold handleRpcCast; split_ifs <;> exact h
  | syncLocalCast id message => cases hst; exact h.syncLocalCast id message
  | tick id =>
      obtain ⟨-, -, rfl⟩ := tick_some hst
      apply Sound.processMailbox
      exact h
  | handlerAwaits =>
      obtain ⟨id, task, msg, rest, -, ⟨prev, -, rfl⟩ | ⟨-, rfl⟩⟩ :=
        handlerAwaits_some hst
      · apply Sound.syncLocalCastFinally
        exact h
      · exact h
  | handlerResumes index =>
      obtain ⟨r, -, -, rfl⟩ := handlerResumes_some hst
      exact h
  | handlerReturns value =>
      obtain ⟨id, task, msg, rest, -, rfl⟩ := handlerReturns_some hst
      apply Sound.afterReturn
      exact h
  | handlerThrows error =>
      obtain ⟨id, task, msg, rest, -, rfl⟩ := handlerThrows_some hst
      apply Sound.afterThrow
      exact h
  | crashHandled =>
      obtain ⟨id, task, rest, -, ⟨n, -, rfl⟩ | ⟨prev, -, rfl⟩ | ⟨-, rfl⟩⟩ :=
        crashHandled_some hst
      · apply Sound.processEnd
        exact h.of_mailbox_eq fun id' => mailbox_setCurrentMessage _ _ _ _
      · apply Sound.syncLocalCastFinally
        exact h
      · exact h
  | stash id =>
      cases hst
      unfold Node.stash
      split
      · exact h.setStash _ _
      · exact h
  | unstash id =>
      cases hst
      unfold Node.unstash
      split
      · exact h
      · exact (h.setStash _ _).systemUnstashAll _ _
  | unstashAll id =>
      cases hst
      unfold Node.unstashAll
      split_ifs
      · exact (h.systemUnstashAll _ _).setStash _ _
      · exact h
  | clearStash id => cases hst; exact h.clearStash id
  | pauseMailbox id => cases hst; unfold Node.pauseMailbox; split_ifs <;> exact h
  | resumeMailbox id =>
      cases hst
      unfold Node.resumeMailbox
      split_ifs
      · apply Sound.of_mailbox_eq _ fun id' => mailbox_scheduleProcessMailbox _ _ _
        exact h
      · exact h
      · exact h
  | injectMessages id messages =>
      obtain ⟨msgs, rfl⟩ := ha
      cases hst
      unfold Node.injectMessages
      split_ifs
      · exact h.unshift id msgs
      · exact h

end Libeam.Proofs.MailboxSound
