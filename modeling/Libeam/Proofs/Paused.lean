import Libeam.Proofs.Delivery
import Libeam.Proofs.Settlements
/-!
# An actor whose mailbox is paused

No batch takes a message of a paused actor and no call takes the fast path to
it, so its mailbox only grows at the end, or at the front by what its running
handler takes back out of the stash.
-/

namespace Libeam.Proofs.Paused

open Mailbox Libeam.System Libeam.System.Node Proofs.Frame MailboxQueue MailboxSound History
open Delivery Settlements

variable {V : Type}

/-- The actor is in the tables, paused, with these messages in its unbounded
mailbox and in its stash. -/
structure Held (s : Node V) (id : ActorId) (q stash : List (StashedMessage V)) :
    Prop where
  actor : id ∈ s.actors
  mailbox : id ∈ s.mailboxes
  paused : id ∈ s.pausedMailboxes
  old : id < s.nextId
  unbounded : (s.mailbox id).maxSize = none
  shows : Shows (s.mailbox id) q
  stash_eq : (s.object id).stash = stash

/-- No stop, pause, resume or inject operation on the actor. -/
def Undisturbed (id : ActorId) : Action V → Prop
  | .remove id' | .pauseMailbox id' | .resumeMailbox id' | .injectMessages id' _ =>
      id' ≠ id
  | _ => True

/-- What a step does to the mailbox and the stash of a paused actor. -/
inductive Change (s t : Node V) (id : ActorId) (q stash : List (StashedMessage V)) :
    Action V → Prop where
  | idle (a : Action V) (held : Held t id q stash)
      (accepted : acceptedOf t id = acceptedOf s id) : Change s t id q stash a
  | accepts (a : Action V) (msg : StashedMessage V) (held : Held t id (q ++ [msg]) stash)
      (accepted : acceptedOf t id = acceptedOf s id ++ [msg]) : Change s t id q stash a
  | stashes (msg : StashedMessage V) (current : (s.object id).currentMessage = some msg)
      (held : Held t id q (stash ++ [msg]))
      (accepted : acceptedOf t id = acceptedOf s id) : Change s t id q stash (.stash id)
  | unstashes (msg : StashedMessage V) (rest : List (StashedMessage V))
      (oldest : stash = msg :: rest) (held : Held t id (msg :: q) rest)
      (accepted : acceptedOf t id = acceptedOf s id) : Change s t id q stash (.unstash id)
  | unstashesAll (held : Held t id (stash ++ q) [])
      (accepted : acceptedOf t id = acceptedOf s id) : Change s t id q stash (.unstashAll id)
  | clears (held : Held t id q []) (accepted : acceptedOf t id = acceptedOf s id) :
      Change s t id q stash (.clearStash id)

/-! ## What concerns the actor -/

/-- The part of a node that `Held` and the record of accepted messages see. -/
structure Slot (V : Type) where
  actor : Bool
  mailbox : Bool
  paused : Bool
  old : Bool
  queue : BoundedMailbox (StashedMessage V)
  stash : List (StashedMessage V)
  accepted : List (StashedMessage V)

def slot (s : Node V) (id : ActorId) : Slot V :=
  ⟨id ∈ s.actors, id ∈ s.mailboxes, id ∈ s.pausedMailboxes, id < s.nextId, s.mailbox id,
    (s.object id).stash, acceptedOf s id⟩

section
variable {s t : Node V} {id : ActorId} {q stash : List (StashedMessage V)}

theorem Held.of_slot_eq (h : Held s id q stash) (heq : slot t id = slot s id) :
    Held t id q stash := by
  have hactor := congrArg Slot.actor heq
  have hmailbox := congrArg Slot.mailbox heq
  have hpaused := congrArg Slot.paused heq
  have hold := congrArg Slot.old heq
  have hqueue : t.mailbox id = s.mailbox id := congrArg Slot.queue heq
  have hstash : (t.object id).stash = (s.object id).stash := congrArg Slot.stash heq
  simp only [slot, decide_eq_decide] at hactor hmailbox hpaused hold
  exact ⟨hactor.2 h.actor, hmailbox.2 h.mailbox, hpaused.2 h.paused, hold.2 h.old,
    hqueue ▸ h.unbounded, hqueue ▸ h.shows, hstash.trans h.stash_eq⟩

theorem Change.of_slot_eq (h : Held s id q stash) (a : Action V)
    (heq : slot t id = slot s id) : Change s t id q stash a :=
  .idle a (h.of_slot_eq heq) (congrArg Slot.accepted heq)

end

@[simp] theorem slot_setCurrentMessage (s : Node V) (id id' : ActorId)
    (msg : Option (StashedMessage V)) :
    slot (s.setCurrentMessage id' msg) id = slot s id := by
  have hstash : ((s.setCurrentMessage id' msg).object id).stash =
      (s.object id).stash := by
    rw [setCurrentMessage_object, Function.update_apply]
    split_ifs with h
    · rw [h]
    · rfl
  rw [slot, slot, mailbox_setCurrentMessage, hstash]
  rfl

@[simp] theorem slot_scheduleProcessMailbox (s : Node V) (id id' : ActorId) :
    slot (s.scheduleProcessMailbox id') id = slot s id := by
  unfold scheduleProcessMailbox
  split_ifs <;> rfl

@[simp] theorem slot_rejectEvicted (s : Node V) (id : ActorId)
    (oldest : Option (StashedMessage V)) :
    slot (s.rejectEvicted oldest) id = slot s id := by
  unfold rejectEvicted
  split
  · split_ifs <;> rfl
  · rfl

@[simp] theorem slot_processEnd (s : Node V) (id id' : ActorId) :
    slot (s.processEnd id') id = slot s id := by
  unfold processEnd
  dsimp only
  split_ifs <;> rfl

@[simp] theorem slot_syncLocalCallFinally (s : Node V) (id id' : ActorId)
    (prevMessage : Option (StashedMessage V)) :
    slot (s.syncLocalCallFinally id' prevMessage) id = slot s id := by
  have h := slot_setCurrentMessage s id id' prevMessage
  unfold syncLocalCallFinally
  dsimp only
  split_ifs <;> exact h

theorem slot_setMailbox_of_ne {id id' : ActorId} (hne : id' ≠ id) (s : Node V)
    (mb : BoundedMailbox (StashedMessage V)) :
    slot (s.setMailbox id' mb) id = slot s id := by
  rw [slot, slot, mailbox_setMailbox, if_neg hne.symm, stash_setMailbox]
  rfl

theorem slot_setStash_of_ne {id id' : ActorId} (hne : id' ≠ id) (s : Node V)
    (stash : List (StashedMessage V)) :
    slot (s.setStash id' stash) id = slot s id := by
  have hstash : ((s.setStash id' stash).object id).stash = (s.object id).stash := by
    rw [setStash_object, Function.update_of_ne hne.symm]
  rw [slot, slot, mailbox_setStash, hstash]
  rfl

theorem slot_accept_of_ne {id id' : ActorId} (hne : id' ≠ id) (s : Node V)
    (msg : StashedMessage V) : slot (s.accept id' msg) id = slot s id := by
  rw [slot, acceptedOf, accept_accepted, messagesOf_append_of_ne hne]
  rfl

/-- The batch of a paused actor stops. -/
theorem slot_processLoop {s : Node V} {id : ActorId} (hpaused : id ∈ s.pausedMailboxes)
    (id' : ActorId) (processed : Nat) :
    slot (s.processLoop id' processed) id = slot s id := by
  unfold Node.processLoop
  split_ifs with hloop
  · have hne : id' ≠ id := by
      rintro rfl
      exact hloop.2.2.2 hpaused
    have hset : slot ((s.setMailbox id' (s.mailbox id').dequeue.1).setCurrentMessage id'
        (s.mailbox id').dequeue.2) id = slot s id := by
      rw [slot_setCurrentMessage, slot_setMailbox_of_ne hne]
    dsimp only
    split
    · exact hset
    · exact hset
  · exact slot_processEnd s id id'

theorem slot_processMailbox {s : Node V} {id : ActorId} (hpaused : id ∈ s.pausedMailboxes)
    (id' : ActorId) : slot (s.processMailbox id') id = slot s id := by
  unfold Node.processMailbox
  split_ifs
  · rfl
  · rfl
  · refine slot_processLoop ?_ id' 0
    exact hpaused

theorem slot_afterReturn {s : Node V} {id : ActorId} (hpaused : id ∈ s.pausedMailboxes)
    (id' : ActorId) (msg : StashedMessage V) (value : V) (task : System.Task V) :
    slot (s.afterReturn id' msg value task) id = slot s id := by
  cases task with
  | processMailbox n =>
      unfold Node.afterReturn
      dsimp only
      split_ifs
      · refine (slot_processLoop ?_ id' _).trans ?_
        · exact hpaused
        · exact slot_setCurrentMessage (s.settle _ _) id id' none
      · refine (slot_processLoop ?_ id' _).trans ?_
        · exact hpaused
        · exact slot_setCurrentMessage s id id' none
  | syncLocalCall prev =>
      unfold Node.afterReturn
      dsimp only
      rw [slot_syncLocalCallFinally]
      split_ifs <;> rfl
  | syncLocalCast prev => exact slot_setCurrentMessage s id id' prev
  | abandoned | rpcCall | rpcCast => rfl

theorem slot_afterThrow {s : Node V} {id : ActorId} (hpaused : id ∈ s.pausedMailboxes)
    (id' : ActorId) (msg : StashedMessage V) (error : V) (task : System.Task V) :
    slot (s.afterThrow id' msg error task) id = slot s id := by
  cases task with
  | processMailbox n =>
      unfold Node.afterThrow
      split_ifs
      · refine (slot_processLoop ?_ id' _).trans ?_
        · exact hpaused
        · exact slot_setCurrentMessage s id id' none
      · refine (slot_processLoop ?_ id' _).trans ?_
        · exact hpaused
        · exact slot_setCurrentMessage (s.settle _ _) id id' none
      · rfl
  | syncLocalCall prev =>
      unfold Node.afterThrow
      rw [slot_syncLocalCallFinally]
      rfl
  | syncLocalCast prev | abandoned | rpcCall | rpcCast => rfl

/-! ## What the actor's own operations do -/

section
variable {s : Node V} {id : ActorId} {q stash : List (StashedMessage V)}

theorem Held.setMailbox (h : Held s id q stash) {mb : BoundedMailbox (StashedMessage V)}
    {q' : List (StashedMessage V)} (hmax : mb.maxSize = none) (hmb : Shows mb q') :
    Held (s.setMailbox id mb) id q' stash := by
  refine ⟨h.actor, h.mailbox, h.paused, h.old, ?_, ?_, ?_⟩
  · rwa [mailbox_setMailbox_self]
  · rwa [mailbox_setMailbox_self]
  · rw [stash_setMailbox, h.stash_eq]

theorem Held.setStash (h : Held s id q stash) (stash' : List (StashedMessage V)) :
    Held (s.setStash id stash') id q stash' := by
  refine ⟨h.actor, h.mailbox, h.paused, h.old, ?_, ?_, ?_⟩
  · rw [mailbox_setStash]
    exact h.unbounded
  · rw [mailbox_setStash]
    exact h.shows
  · rw [setStash_object, Function.update_self]

theorem Held.scheduleProcessMailbox (h : Held s id q stash) (id' : ActorId) :
    Held (s.scheduleProcessMailbox id') id q stash :=
  h.of_slot_eq (slot_scheduleProcessMailbox s id id')

/-- An unbounded mailbox takes every message. -/
theorem Held.enqueue (h : Held s id q stash) (msg : StashedMessage V) :
    ((s.mailbox id).enqueue msg).2 = .accepted ∧
      Held (s.setMailbox id ((s.mailbox id).enqueue msg).1) id (q ++ [msg]) stash := by
  obtain ⟨haccepted, hholds⟩ := h.shows.enqueue (isFull_of_unbounded h.unbounded) msg
  refine ⟨haccepted, h.setMailbox ?_ hholds.shows⟩
  rw [maxSize_enqueue, h.unbounded]

theorem Held.accept (h : Held s id q stash) (msg : StashedMessage V) (a : Action V) {u : Node V}
    (hu : slot u id = slot { s with accepted := s.accepted ++ [(id, msg)] } id)
    {s₀ : Node V} {q₀ : List (StashedMessage V)} (hq : q = q₀ ++ [msg])
    (haccepted : s.accepted = s₀.accepted) : Change s₀ u id q₀ stash a := by
  have hs : Held { s with accepted := s.accepted ++ [(id, msg)] } id q stash :=
    ⟨h.actor, h.mailbox, h.paused, h.old, h.unbounded, h.shows, h.stash_eq⟩
  refine .accepts a msg (hq ▸ hs.of_slot_eq hu) ?_
  have haccepted' : acceptedOf u id = messagesOf id (s.accepted ++ [(id, msg)]) :=
    congrArg Slot.accepted hu
  rw [haccepted', messagesOf_append_self, haccepted]
  rfl

theorem change_queues (h : Held s id q stash) {id' : ActorId} {msg : StashedMessage V}
    {awaited : Finset Nat} (hqueues : Queues s (queue s id' msg awaited) id' msg t)
    (a : Action V) : Change s t id q stash a := by
  by_cases hid : id' = id
  · subst hid
    obtain ⟨hroom, hheld⟩ := h.enqueue msg
    obtain rfl | rfl := hqueues.of_accepted hroom
    · exact .of_slot_eq h _ rfl
    · refine hheld.accept msg _ ?_ rfl rfl
      rw [slot_scheduleProcessMailbox]
      rfl
  · have hset : slot (queue s id' msg awaited) id = slot s id := slot_setMailbox_of_ne hid s _
    apply Change.of_slot_eq h
    cases hqueues with
    | unsent => rfl
    | accepted => rwa [slot_scheduleProcessMailbox, slot_accept_of_ne hid]
    | evicted => rwa [slot_scheduleProcessMailbox, slot_accept_of_ne hid, slot_rejectEvicted]
    | refused => rwa [slot_scheduleProcessMailbox]
    | full => exact hset
    | rejected => exact hset

theorem change_dispatchCall (h : Held s id q stash) (id' : ActorId) (message : V) :
    Change s (s.dispatchCall id' message) id q stash (.dispatchCall id' message) := by
  unfold Node.dispatchCall
  split_ifs with hlocal hidle
  · -- the fast path is not open to a paused actor
    have hne : id' ≠ id := by
      rintro rfl
      exact hidle.2.1 h.paused
    apply Change.of_slot_eq h
    unfold syncLocalCall
    change slot (({ s with nextUid := s.nextUid + 1 }.accept id' _).setCurrentMessage id' _)
      id = _
    rw [slot_setCurrentMessage, slot_accept_of_ne hne]
    rfl
  · exact change_queues h (enqueueCall_queues s id' message) _
  · exact .of_slot_eq h _ rfl

theorem Held.systemUnstashAll (h : Held s id q stash) (msgs : List (StashedMessage V)) :
    Held (s.systemUnstashAll id msgs) id (msgs ++ q) stash := by
  unfold Node.systemUnstashAll
  split_ifs with hmsgs
  · apply Held.scheduleProcessMailbox
    refine h.setMailbox ?_ (h.shows.unshift msgs)
    rw [maxSize_unshift, h.unbounded]
  · have hnil : msgs = [] := by
      by_contra hne
      exact hmsgs ⟨h.mailbox, hne⟩
    rw [hnil]
    exact h

theorem accepted_systemUnstashAll (s : Node V) (id id' : ActorId)
    (msgs : List (StashedMessage V)) :
    acceptedOf (s.systemUnstashAll id' msgs) id = acceptedOf s id :=
  congrArg (fun l : Log V => messagesOf id l.accepted) (log_systemUnstashAll s id' msgs)

theorem slot_systemUnstashAll_of_ne {id' : ActorId} (hne : id' ≠ id)
    (msgs : List (StashedMessage V)) :
    slot (s.systemUnstashAll id' msgs) id = slot s id := by
  unfold Node.systemUnstashAll
  split_ifs
  · rw [slot_scheduleProcessMailbox, slot_setMailbox_of_ne hne]
  · rfl

theorem change_stash (h : Held s id q stash) (id' : ActorId) :
    Change s (s.stash id') id q stash (.stash id') := by
  unfold Node.stash
  split
  next msg hcurrent =>
    by_cases hid : id' = id
    · subst hid
      refine .stashes msg hcurrent ?_ rfl
      rw [h.stash_eq]
      exact h.setStash _
    · exact .of_slot_eq h _ (slot_setStash_of_ne hid s _)
  next => exact .of_slot_eq h _ rfl

theorem change_unstash (h : Held s id q stash) (id' : ActorId) :
    Change s (s.unstash id') id q stash (.unstash id') := by
  unfold Node.unstash
  split
  next => exact .of_slot_eq h _ rfl
  next msg rest hstash =>
    by_cases hid : id' = id
    · subst hid
      rw [h.stash_eq] at hstash
      exact .unstashes msg rest hstash ((h.setStash rest).systemUnstashAll [msg])
        (accepted_systemUnstashAll _ id' id' [msg])
    · apply Change.of_slot_eq h
      rw [slot_systemUnstashAll_of_ne hid, slot_setStash_of_ne hid]

theorem change_unstashAll (h : Held s id q stash) (id' : ActorId) :
    Change s (s.unstashAll id') id q stash (.unstashAll id') := by
  unfold Node.unstashAll
  split_ifs with hstash
  · by_cases hid : id' = id
    · subst hid
      rw [h.stash_eq]
      exact .unstashesAll ((h.systemUnstashAll stash).setStash [])
        (accepted_systemUnstashAll s id' id' stash)
    · apply Change.of_slot_eq h
      rw [slot_setStash_of_ne hid, slot_systemUnstashAll_of_ne hid]
  · exact .of_slot_eq h _ rfl

theorem change_clearStash (h : Held s id q stash) (id' : ActorId) :
    Change s (s.clearStash id') id q stash (.clearStash id') := by
  obtain ⟨more, heq⟩ := clearStash_eq s id'
  have hsettled : Held { s with settled := s.settled ++ more } id q stash :=
    ⟨h.actor, h.mailbox, h.paused, h.old, h.unbounded, h.shows, h.stash_eq⟩
  rw [heq]
  by_cases hid : id' = id
  · subst hid
    exact .clears (hsettled.setStash []) rfl
  · exact .of_slot_eq h _ (slot_setStash_of_ne hid _ [])

theorem slot_spawn (h : Held s id q stash) (config : MailboxConfig) (initThrows : Bool) :
    slot (s.spawn config initThrows) id = slot s id := by
  have hne : id ≠ s.nextId := h.old.ne
  have hinstall : slot (s.install config) id = slot s id := by
    simp only [slot, mailbox, install_actors, install_mailboxes, install_object,
      install_nextId, Finset.mem_insert, hne, false_or, Function.update_of_ne hne]
    congr 1
    · simp [h.old, Nat.lt_succ_of_lt h.old]
  unfold Node.spawn
  split_ifs
  · exact hinstall
  · rw [slot_scheduleProcessMailbox]
    exact hinstall

theorem change_step {t : Node V} {a : Action V} (h : Held s id q stash)
    (ha : Undisturbed id a) (hst : s.step a = some t) : Change s t id q stash a := by
  cases a with
  | spawn config initThrows =>
      cases hst
      exact .of_slot_eq h _ (slot_spawn h config initThrows)
  | remove id' =>
      cases hst
      have hne : id ≠ id' := Ne.symm ha
      apply Change.of_slot_eq h
      simp [slot, hne, mailbox, acceptedOf]
  | dispatchCast id' message =>
      cases hst
      exact change_queues h (dispatchCast_queues s id' message) _
  | dispatchCall id' message => cases hst; exact change_dispatchCall h id' message
  | rpcCall id' message =>
      cases hst
      unfold handleRpcCall
      split_ifs <;> exact .of_slot_eq h _ rfl
  | rpcCast id' message =>
      cases hst
      unfold handleRpcCast
      split_ifs <;> exact .of_slot_eq h _ rfl
  | syncLocalCast id' message =>
      cases hst
      unfold Node.syncLocalCast
      split_ifs
      · exact .of_slot_eq h _ rfl
      · exact .of_slot_eq h _ (slot_setCurrentMessage s id id' _)
  | tick id' =>
      obtain ⟨-, -, rfl⟩ := tick_some hst
      apply Change.of_slot_eq h
      refine (slot_processMailbox ?_ id').trans rfl
      exact h.paused
  | handlerAwaits =>
      obtain ⟨id', task, msg, rest, -, ⟨prev, -, rfl⟩ | ⟨-, rfl⟩⟩ :=
        handlerAwaits_some hst
      · exact .of_slot_eq h _ (slot_setCurrentMessage s id id' prev)
      · exact .of_slot_eq h _ rfl
  | handlerResumes index =>
      obtain ⟨r, -, -, rfl⟩ := handlerResumes_some hst
      exact .of_slot_eq h _ rfl
  | handlerReturns value =>
      obtain ⟨id', task, msg, rest, -, rfl⟩ := handlerReturns_some hst
      apply Change.of_slot_eq h
      refine (slot_afterReturn ?_ id' msg value task).trans rfl
      exact h.paused
  | handlerThrows error =>
      obtain ⟨id', task, msg, rest, -, rfl⟩ := handlerThrows_some hst
      apply Change.of_slot_eq h
      refine (slot_afterThrow ?_ id' msg error task).trans rfl
      exact h.paused
  | crashHandled =>
      obtain ⟨id', task, rest, -, ⟨n, -, rfl⟩ | ⟨prev, -, rfl⟩ | ⟨-, rfl⟩⟩ :=
        crashHandled_some hst
      · apply Change.of_slot_eq h
        rw [slot_processEnd, slot_setCurrentMessage]
        rfl
      · exact .of_slot_eq h _ (slot_setCurrentMessage s id id' prev)
      · exact .of_slot_eq h _ rfl
  | stash id' => cases hst; exact change_stash h id'
  | unstash id' => cases hst; exact change_unstash h id'
  | unstashAll id' => cases hst; exact change_unstashAll h id'
  | clearStash id' => cases hst; exact change_clearStash h id'
  | pauseMailbox id' =>
      cases hst
      have hne : id ≠ id' := Ne.symm ha
      unfold Node.pauseMailbox
      split_ifs
      · apply Change.of_slot_eq h
        simp [slot, hne, mailbox, acceptedOf]
      · exact .of_slot_eq h _ rfl
  | resumeMailbox id' =>
      cases hst
      have hne : id ≠ id' := Ne.symm ha
      unfold Node.resumeMailbox
      split_ifs
      · apply Change.of_slot_eq h
        rw [slot_scheduleProcessMailbox]
        simp [slot, hne, mailbox, acceptedOf]
      · exact .of_slot_eq h _ rfl
      · exact .of_slot_eq h _ rfl
  | injectMessages id' messages =>
      cases hst
      unfold Node.injectMessages
      split_ifs
      · apply Change.of_slot_eq h
        rw [slot_scheduleProcessMailbox, slot_setMailbox_of_ne ha]
      · exact .of_slot_eq h _ rfl

end

/-! ## Pausing, injecting and resuming -/

section
variable {s : Node V} {id : ActorId} {q stash : List (StashedMessage V)}

theorem Held.pauseMailbox (h : Held s id q stash) :
    Held (s.pauseMailbox id) id q stash ∧
      acceptedOf (s.pauseMailbox id) id = acceptedOf s id ∧ Settles s (s.pauseMailbox id) := by
  unfold Node.pauseMailbox
  rw [if_pos h.actor]
  exact ⟨⟨h.actor, h.mailbox, Finset.mem_insert_self _ _, h.old, h.unbounded, h.shows,
    h.stash_eq⟩, rfl, .refl s⟩

theorem Held.injectMessages (h : Held s id q stash) (msgs : List (StashedMessage V)) :
    Held (s.injectMessages id (msgs.map some)) id (msgs ++ q) stash ∧
      acceptedOf (s.injectMessages id (msgs.map some)) id = acceptedOf s id ∧
      Settles s (s.injectMessages id (msgs.map some)) := by
  unfold Node.injectMessages
  rw [if_pos h.mailbox]
  have hmax : ((s.mailbox id).unshift (msgs.map some)).maxSize = none := by
    rw [maxSize_unshift, h.unbounded]
  have hset := h.setMailbox hmax (h.shows.unshift msgs)
  refine ⟨hset.scheduleProcessMailbox id, ?_, ?_⟩
  · exact congrArg Slot.accepted (slot_scheduleProcessMailbox _ id id)
  · apply Settles.scheduleProcessMailbox
    exact .refl s

/-- What `resumeMailbox` leaves of a paused actor. -/
theorem Held.resumeMailbox (h : Held s id q stash) :
    id ∈ (s.resumeMailbox id).actors ∧ id ∈ (s.resumeMailbox id).mailboxes ∧
      id ∉ (s.resumeMailbox id).pausedMailboxes ∧
      ((s.resumeMailbox id).mailbox id).toArray = q.map some ∧
      acceptedOf (s.resumeMailbox id) id = acceptedOf s id ∧
      Settles s (s.resumeMailbox id) := by
  have hslot : slot (s.resumeMailbox id) id =
      slot { s with pausedMailboxes := s.pausedMailboxes.erase id } id := by
    unfold Node.resumeMailbox
    rw [if_pos h.actor, if_pos h.paused, slot_scheduleProcessMailbox]
  have hactor := congrArg Slot.actor hslot
  have hmailbox := congrArg Slot.mailbox hslot
  have hpaused := congrArg Slot.paused hslot
  have hqueue : (s.resumeMailbox id).mailbox id = s.mailbox id := congrArg Slot.queue hslot
  simp only [slot, decide_eq_decide] at hactor hmailbox hpaused
  refine ⟨hactor.2 h.actor, hmailbox.2 h.mailbox, ?_, ?_, congrArg Slot.accepted hslot, ?_⟩
  · rw [hpaused]
    exact Finset.notMem_erase id _
  · rw [hqueue]
    exact h.shows.toArray
  · unfold Node.resumeMailbox
    rw [if_pos h.actor, if_pos h.paused]
    apply Settles.scheduleProcessMailbox
    exact .refl s

end

end Libeam.Proofs.Paused
