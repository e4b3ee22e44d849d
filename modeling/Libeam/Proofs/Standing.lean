import Libeam.Proofs.History
/-!
# What message passing does not change

Whether an instance is in the table and paused, and the bound of its mailbox, change only when it
is spawned, removed, paused or resumed.
-/

namespace Libeam.Proofs.Standing

open Mailbox Libeam.System Libeam.System.Node Proofs.Frame MailboxQueue MailboxSound History

variable {V : Type}

structure Status where
  live : Bool
  paused : Bool
  maxSize : Option Nat

def standing (s : Node V) (id : ActorId) : Status :=
  ⟨decide (id ∈ s.actors), decide (id ∈ s.pausedMailboxes), (s.mailbox id).maxSize⟩

section

variable (s : Node V) (id id' : ActorId)

theorem standing_setMailbox {mb : BoundedMailbox (StashedMessage V)}
    (hmb : mb.maxSize = (s.mailbox id').maxSize) :
    standing (s.setMailbox id' mb) id = standing s id := by
  rw [standing, mailbox_setMailbox]
  split_ifs with hid
  · rw [hmb, ← hid]
    rfl
  · rfl

@[simp] theorem standing_setCurrentMessage (msg : Option (StashedMessage V)) :
    standing (s.setCurrentMessage id' msg) id = standing s id := by
  rw [standing, mailbox_setCurrentMessage]
  rfl

@[simp] theorem standing_setStash (stash : List (StashedMessage V)) :
    standing (s.setStash id' stash) id = standing s id := by
  rw [standing, mailbox_setStash]
  rfl

@[simp] theorem standing_scheduleProcessMailbox :
    standing (s.scheduleProcessMailbox id') id = standing s id := by
  unfold scheduleProcessMailbox
  split_ifs <;> rfl

@[simp] theorem standing_rejectEvicted (oldest : Option (StashedMessage V)) :
    standing (s.rejectEvicted oldest) id = standing s id := by
  unfold rejectEvicted
  split
  · split_ifs <;> rfl
  · rfl

@[simp] theorem standing_accept (msg : StashedMessage V) :
    standing (s.accept id' msg) id = standing s id := rfl

@[simp] theorem standing_processEnd : standing (s.processEnd id') id = standing s id := by
  unfold Node.processEnd
  dsimp only
  split_ifs <;> rfl

@[simp] theorem standing_processLoop (processed : Nat) :
    standing (s.processLoop id' processed) id = standing s id := by
  have htaken : ∀ msg, standing ((s.setMailbox id' (s.mailbox id').dequeue.1).setCurrentMessage
      id' msg) id = standing s id := by
    intro msg
    rw [standing_setCurrentMessage]
    exact standing_setMailbox s id id' (maxSize_dequeue _)
  unfold Node.processLoop
  split_ifs
  · dsimp only
    split <;> exact htaken _
  · exact standing_processEnd s id id'

@[simp] theorem standing_syncLocalCallFinally (prevMessage : Option (StashedMessage V)) :
    standing (s.syncLocalCallFinally id' prevMessage) id = standing s id := by
  have h := standing_setCurrentMessage s id id' prevMessage
  unfold Node.syncLocalCallFinally
  dsimp only
  split_ifs <;> exact h

@[simp] theorem standing_syncLocalCastFinally (prevMessage : Option (StashedMessage V)) :
    standing (s.syncLocalCastFinally id' prevMessage) id = standing s id :=
  standing_setCurrentMessage s id id' prevMessage

theorem standing_unshift (msgs : List (Option (StashedMessage V))) :
    standing (s.setMailbox id' ((s.mailbox id').unshift msgs)) id = standing s id :=
  standing_setMailbox s id id' (maxSize_unshift _ _)

@[simp] theorem standing_systemUnstashAll (messages : List (StashedMessage V)) :
    standing (s.systemUnstashAll id' messages) id = standing s id := by
  unfold Node.systemUnstashAll
  split_ifs
  · rw [standing_scheduleProcessMailbox, standing_unshift]
  · rfl

theorem standing_queues {t : Node V} {msg : StashedMessage V} {awaited : Finset Nat}
    (h : Queues s (queue s id' msg awaited) id' msg t) : standing t id = standing s id := by
  have hqueued : standing (queue s id' msg awaited) id = standing s id :=
    standing_setMailbox s id id' (maxSize_enqueue _ _)
  cases h with
  | unsent => rfl
  | accepted => rw [standing_scheduleProcessMailbox, standing_accept, hqueued]
  | evicted =>
      rw [standing_scheduleProcessMailbox, standing_accept, standing_rejectEvicted, hqueued]
  | refused => rw [standing_scheduleProcessMailbox, hqueued]
  | full => exact hqueued
  | rejected => exact hqueued

@[simp] theorem standing_dispatchCast (message : V) :
    standing (s.dispatchCast id' message) id = standing s id :=
  standing_queues s id id' (dispatchCast_queues s id' message)

@[simp] theorem standing_enqueueCall (message : V) :
    standing (s.enqueueCall id' message) id = standing s id :=
  standing_queues s id id' (enqueueCall_queues s id' message)

theorem standing_afterReturn (msg : StashedMessage V) (value : V) (task : System.Task V) :
    standing (s.afterReturn id' msg value task) id = standing s id := by
  cases task with
  | processMailbox n =>
      unfold Node.afterReturn
      rw [standing_processLoop, standing_setCurrentMessage]
      split_ifs <;> rfl
  | syncLocalCall prev =>
      unfold Node.afterReturn
      rw [standing_syncLocalCallFinally]
      split_ifs <;> rfl
  | syncLocalCast prev => exact standing_syncLocalCastFinally s id id' prev
  | abandoned | rpcCall | rpcCast => rfl

theorem standing_afterThrow (msg : StashedMessage V) (error : V) (task : System.Task V) :
    standing (s.afterThrow id' msg error task) id = standing s id := by
  cases task with
  | processMailbox n =>
      unfold Node.afterThrow
      split_ifs
      · rw [standing_processLoop, standing_setCurrentMessage]
      · rw [standing_processLoop, standing_setCurrentMessage]
        rfl
      · rfl
  | syncLocalCall prev => exact standing_syncLocalCallFinally _ id id' prev
  | syncLocalCast prev | abandoned | rpcCall | rpcCast => rfl

end

/-- The action is not about the tables or the pausing of the instance. -/
def Leaves (s : Node V) (id : ActorId) : Action V → Prop
  | .remove id' | .pauseMailbox id' | .resumeMailbox id' => id' ≠ id
  | .spawn _ _ => id ≠ s.nextId
  | _ => True

theorem standing_step {s t : Node V} {id : ActorId} {a : Action V} (ha : Leaves s id a)
    (hst : s.step a = some t) : standing t id = standing s id := by
  cases a with
  | spawn config initThrows =>
      cases hst
      have hne : id ≠ s.nextId := ha
      have hinstall : standing (s.install config) id = standing s id := by
        simp [standing, mailbox, hne]
      unfold Node.spawn
      split_ifs
      · exact hinstall
      · rw [standing_scheduleProcessMailbox, hinstall]
  | remove id' =>
      cases hst
      have hne : id' ≠ id := ha
      simp [standing, mailbox, hne.symm]
  | dispatchCast id' message => cases hst; exact standing_dispatchCast s id id' message
  | dispatchCall id' message =>
      cases hst
      unfold Node.dispatchCall
      split_ifs
      · exact standing_setCurrentMessage s id id' _
      · exact standing_enqueueCall s id id' message
      · rfl
  | rpcCall id' message => cases hst; unfold handleRpcCall; split_ifs <;> rfl
  | rpcCast id' message => cases hst; unfold handleRpcCast; split_ifs <;> rfl
  | syncLocalCast id' message =>
      cases hst
      unfold Node.syncLocalCast
      split_ifs
      · rfl
      · exact standing_setCurrentMessage s id id' _
  | tick id' =>
      obtain ⟨-, -, rfl⟩ := tick_some hst
      unfold Node.processMailbox
      split_ifs
      · rfl
      · rfl
      · rw [standing_processLoop]
        rfl
  | handlerAwaits =>
      obtain ⟨id', task, msg, rest, -, ⟨prev, -, rfl⟩ | ⟨-, rfl⟩⟩ := handlerAwaits_some hst
      · rw [standing_syncLocalCastFinally]
        rfl
      · rfl
  | handlerResumes index =>
      obtain ⟨r, -, -, rfl⟩ := handlerResumes_some hst
      rfl
  | handlerReturns value =>
      obtain ⟨id', task, msg, rest, -, rfl⟩ := handlerReturns_some hst
      rw [standing_afterReturn]
      rfl
  | handlerThrows error =>
      obtain ⟨id', task, msg, rest, -, rfl⟩ := handlerThrows_some hst
      rw [standing_afterThrow]
      rfl
  | crashHandled =>
      obtain ⟨id', task, rest, -, ⟨n, -, rfl⟩ | ⟨prev, -, rfl⟩ | ⟨-, rfl⟩⟩ := crashHandled_some hst
      · rw [standing_processEnd, standing_setCurrentMessage]
        rfl
      · rw [standing_syncLocalCastFinally]
        rfl
      · rfl
  | stash id' =>
      cases hst
      unfold Node.stash
      split
      · exact standing_setStash s id id' _
      · rfl
  | unstash id' =>
      cases hst
      unfold Node.unstash
      split
      · rfl
      · rw [standing_systemUnstashAll, standing_setStash]
  | unstashAll id' =>
      cases hst
      unfold Node.unstashAll
      split_ifs
      · rw [standing_setStash, standing_systemUnstashAll]
      · rfl
  | clearStash id' =>
      cases hst
      obtain ⟨more, heq⟩ := clearStash_eq s id'
      rw [heq, standing_setStash]
      rfl
  | pauseMailbox id' =>
      cases hst
      have hne : id' ≠ id := ha
      unfold Node.pauseMailbox
      split_ifs
      · simp [standing, mailbox, hne.symm]
      · rfl
  | resumeMailbox id' =>
      cases hst
      have hne : id' ≠ id := ha
      unfold Node.resumeMailbox
      split_ifs
      · rw [standing_scheduleProcessMailbox]
        simp [standing, mailbox, hne.symm]
      · rfl
      · rfl
  | injectMessages id' messages =>
      cases hst
      unfold Node.injectMessages
      split_ifs
      · rw [standing_scheduleProcessMailbox, standing_unshift]
      · rfl

theorem nextId_scheduleProcessMailbox (s : Node V) (id : ActorId) :
    (s.scheduleProcessMailbox id).nextId = s.nextId :=
  congrArg Log.nextId (log_scheduleProcessMailbox s id)

theorem pausedMailboxes_scheduleProcessMailbox (s : Node V) (id : ActorId) :
    (s.scheduleProcessMailbox id).pausedMailboxes = s.pausedMailboxes := by
  unfold scheduleProcessMailbox
  split_ifs <;> rfl

/-- Only instances that exist, or existed, are paused. -/
theorem paused_step {s t : Node V} {a : Action V} (hfresh : Fresh s)
    (h : ∀ id ∈ s.pausedMailboxes, id < s.nextId) (hst : s.step a = some t) :
    ∀ id ∈ t.pausedMailboxes, id < t.nextId := by
  intro id hid
  have hnext := (logged_step hst).nextId_le
  by_cases hleaves : Leaves s id a
  · have hpaused := congrArg Status.paused (standing_step hleaves hst)
    simp only [standing, decide_eq_decide] at hpaused
    exact (h id (hpaused.1 hid)).trans_le hnext
  cases a with
  | spawn config initThrows =>
      obtain rfl : id = s.nextId := not_not.1 hleaves
      cases hst
      unfold Node.spawn
      split_ifs
      · exact Nat.lt_succ_self _
      · rw [nextId_scheduleProcessMailbox]
        exact Nat.lt_succ_self _
  | remove id' => cases hst; exact h id hid
  | pauseMailbox id' =>
      cases hst
      obtain rfl : id' = id := not_not.1 hleaves
      unfold Node.pauseMailbox at hid ⊢
      split_ifs at hid ⊢ with hlive
      · exact hfresh.actors id' hlive
      · exact h id' hid
  | resumeMailbox id' =>
      refine (h id ?_).trans_le hnext
      cases hst
      unfold Node.resumeMailbox at hid
      split_ifs at hid
      · rw [pausedMailboxes_scheduleProcessMailbox] at hid
        exact Finset.mem_of_mem_erase hid
      · exact hid
      · exact hid
  | _ => exact absurd trivial hleaves

end Libeam.Proofs.Standing
