import Libeam.Proofs.History
/-!
# Local delivery order

For one instance, the messages whose handlers were started and the messages in
its mailbox are together the messages accepted for it, in that order.  A call
may bypass the mailbox only when it is empty, and several runners take their
messages from the one queue.
-/

namespace Libeam.Proofs.Delivery

open Mailbox Lib.Transition Libeam.System Libeam.System.Node Proofs.Frame MailboxQueue MailboxSound
open History

variable {V : Type}

def messagesOf (id : ActorId) (history : List (ActorId × StashedMessage V)) :
    List (StashedMessage V) :=
  (history.filter fun p => p.1 = id).map Prod.snd

/-- The messages of the instance whose handlers were started, in order. -/
def startedOf (s : Node V) (id : ActorId) : List (StashedMessage V) :=
  messagesOf id s.started

/-- The messages accepted for the instance, in dispatch order. -/
def acceptedOf (s : Node V) (id : ActorId) : List (StashedMessage V) :=
  messagesOf id s.accepted

@[simp] theorem messagesOf_append_self (id : ActorId) (msg : StashedMessage V)
    (history : List (ActorId × StashedMessage V)) :
    messagesOf id (history ++ [(id, msg)]) = messagesOf id history ++ [msg] := by
  simp [messagesOf]

theorem messagesOf_append_of_ne {id id' : ActorId} (hne : id' ≠ id)
    (msg : StashedMessage V) (history : List (ActorId × StashedMessage V)) :
    messagesOf id (history ++ [(id', msg)]) = messagesOf id history := by
  simp [messagesOf, hne]

/-- Nobody but `dispatchCall` and `dispatchCast` sends to the instance, and it
does not stash. -/
def PlainFor (id : ActorId) : Action V → Prop
  | .stash id' | .injectMessages id' _ | .syncLocalCast id' _ | .rpcCall id' _
  | .rpcCast id' _ => id' ≠ id
  | _ => True

/-- What delivery to one instance depends on. -/
structure View (V : Type) where
  live : Bool
  mailbox : BoundedMailbox (StashedMessage V)
  stash : List (StashedMessage V)
  started : List (StashedMessage V)
  accepted : List (StashedMessage V)

def view (s : Node V) (id : ActorId) : View V :=
  ⟨decide (id ∈ s.actors), s.mailbox id, (s.object id).stash, startedOf s id,
    acceptedOf s id⟩

structure Delivers (v : View V) : Prop where
  stash : v.stash = []
  queue : v.live → v.mailbox.maxSize = none →
    ∃ q, Holds v.mailbox q ∧ v.started ++ q = v.accepted

theorem delivers_init (id : ActorId) : Delivers (view (init : Node V) id) :=
  ⟨rfl, fun hlive => by simp [view, init] at hlive⟩

/-! ## Steps that do not concern the instance -/

theorem stash_setMailbox (s : Node V) (id id' : ActorId)
    (mb : BoundedMailbox (StashedMessage V)) :
    ((s.setMailbox id' mb).object id).stash = (s.object id).stash := by
  rw [setMailbox_object, Function.update_apply]
  split_ifs with h
  · rw [h]
  · rfl

@[simp] theorem view_setCurrentMessage (s : Node V) (id id' : ActorId)
    (msg : Option (StashedMessage V)) :
    view (s.setCurrentMessage id' msg) id = view s id := by
  have hstash : ((s.setCurrentMessage id' msg).object id).stash =
      (s.object id).stash := by
    rw [setCurrentMessage_object, Function.update_apply]
    split_ifs with h
    · rw [h]
    · rfl
  rw [view, view, mailbox_setCurrentMessage, hstash]
  rfl

theorem view_setMailbox_of_ne {id id' : ActorId} (hne : id' ≠ id) (s : Node V)
    (mb : BoundedMailbox (StashedMessage V)) :
    view (s.setMailbox id' mb) id = view s id := by
  rw [view, view, mailbox_setMailbox, if_neg hne.symm, stash_setMailbox]
  rfl

theorem view_setStash_of_ne {id id' : ActorId} (hne : id' ≠ id) (s : Node V)
    (stash : List (StashedMessage V)) :
    view (s.setStash id' stash) id = view s id := by
  have hstash : ((s.setStash id' stash).object id).stash = (s.object id).stash := by
    rw [setStash_object, Function.update_of_ne hne.symm]
  rw [view, view, mailbox_setStash, hstash]
  rfl

theorem view_setStash_self (s : Node V) (id : ActorId)
    (stash : List (StashedMessage V)) :
    view (s.setStash id stash) id = { view s id with stash := stash } := by
  rw [view, mailbox_setStash, setStash_object, Function.update_self]
  rfl

@[simp] theorem view_scheduleProcessMailbox (s : Node V) (id id' : ActorId) :
    view (s.scheduleProcessMailbox id') id = view s id := by
  unfold scheduleProcessMailbox
  split_ifs <;> rfl

@[simp] theorem view_rejectEvicted (s : Node V) (id : ActorId)
    (oldest : Option (StashedMessage V)) :
    view (s.rejectEvicted oldest) id = view s id := by
  unfold rejectEvicted
  split
  · split_ifs <;> rfl
  · rfl

@[simp] theorem view_processEnd (s : Node V) (id id' : ActorId) :
    view (s.processEnd id') id = view s id := by
  unfold Node.processEnd
  dsimp only
  split_ifs <;> rfl

@[simp] theorem view_syncLocalCallFinally (s : Node V) (id id' : ActorId)
    (prevMessage : Option (StashedMessage V)) :
    view (s.syncLocalCallFinally id' prevMessage) id = view s id := by
  rw [← view_setCurrentMessage s id id' prevMessage]
  unfold Node.syncLocalCallFinally
  dsimp only
  split_ifs <;> rfl

theorem view_accept_of_ne {id id' : ActorId} (hne : id' ≠ id) (s : Node V)
    (msg : StashedMessage V) : view (s.accept id' msg) id = view s id := by
  rw [view, acceptedOf, accept_accepted, messagesOf_append_of_ne hne]
  rfl

theorem view_startHandler_of_ne {id id' : ActorId} (hne : id' ≠ id) (s : Node V)
    (task : System.Task V) (msg : StashedMessage V) :
    view (s.startHandler id' task msg) id = view s id := by
  rw [view, startedOf, startHandler_started, messagesOf_append_of_ne hne]
  rfl

theorem view_processLoop_of_ne {id id' : ActorId} (hne : id' ≠ id) (s : Node V)
    (processed : Nat) : view (s.processLoop id' processed) id = view s id := by
  unfold Node.processLoop
  split_ifs
  · dsimp only
    split
    · rw [view_startHandler_of_ne hne, view_setCurrentMessage,
        view_setMailbox_of_ne hne]
    · change view ((s.setMailbox id' _).setCurrentMessage id' _) id = _
      rw [view_setCurrentMessage, view_setMailbox_of_ne hne]
  · exact view_processEnd s id id'

/-! ## Steps of the instance itself -/

theorem view_setMailbox_self (s : Node V) (id : ActorId)
    (mb : BoundedMailbox (StashedMessage V)) :
    view (s.setMailbox id mb) id = { view s id with mailbox := mb } := by
  rw [view, mailbox_setMailbox_self, stash_setMailbox]
  rfl

theorem view_startHandler_self (s : Node V) (id : ActorId) (task : System.Task V)
    (msg : StashedMessage V) :
    view (s.startHandler id task msg) id =
      { view s id with started := startedOf s id ++ [msg] } := by
  rw [view, startedOf, startHandler_started, messagesOf_append_self]
  rfl

theorem view_accept_self (s : Node V) (id : ActorId) (msg : StashedMessage V) :
    view (s.accept id msg) id =
      { view s id with accepted := acceptedOf s id ++ [msg] } := by
  rw [view, acceptedOf, accept_accepted, messagesOf_append_self]
  rfl

theorem view_processLoop_self {s : Node V} {id : ActorId} {processed : Nat}
    (hloop : processed < mailboxBatchSize ∧ 0 < (s.mailbox id).length ∧
      id ∈ s.actors ∧ id ∉ s.pausedMailboxes) :
    view (s.processLoop id processed) id =
      { view s id with
        mailbox := (s.mailbox id).dequeue.1
        started := startedOf s id ++ (s.mailbox id).dequeue.2.toList } := by
  have hset : view ((s.setMailbox id (s.mailbox id).dequeue.1).setCurrentMessage id
      (s.mailbox id).dequeue.2) id =
        { view s id with mailbox := (s.mailbox id).dequeue.1 } := by
    rw [view_setCurrentMessage, view_setMailbox_self]
  unfold Node.processLoop
  rw [if_pos hloop]
  dsimp only
  split
  next msg hmsg =>
    rw [view_startHandler_self, hset, hmsg]
    rfl
  next hmsg =>
    change view ((s.setMailbox id _).setCurrentMessage id _) id = _
    rw [hset, hmsg, Option.toList_none, List.append_nil]
    rfl

/-- A batch takes the head of the mailbox and starts it. -/
theorem Delivers.processLoop {s : Node V} {id : ActorId} (h : Delivers (view s id))
    (processed : Nat) : Delivers (view (s.processLoop id processed) id) := by
  by_cases hloop : processed < mailboxBatchSize ∧ 0 < (s.mailbox id).length ∧
      id ∈ s.actors ∧ id ∉ s.pausedMailboxes
  · rw [view_processLoop_self hloop]
    refine ⟨h.stash, fun hlive hmax => ?_⟩
    obtain ⟨q, hq, horder⟩ := h.queue hlive ((maxSize_dequeue _).symm.trans hmax)
    cases q with
    | nil =>
        have hzero : (s.mailbox id).length = 0 := hq.size_eq
        omega
    | cons msg q =>
        have hq' : Holds (s.mailbox id) (msg :: q) := hq
        obtain ⟨hmsg, hrest⟩ := hq'.dequeue
        refine ⟨q, hrest, ?_⟩
        rw [hmsg, Option.toList_some, List.append_assoc]
        exact horder
  · unfold Node.processLoop
    rw [if_neg hloop, view_processEnd]
    exact h

theorem Delivers.processLoop_any {s : Node V} {id : ActorId}
    (h : Delivers (view s id)) (id' : ActorId) (processed : Nat) :
    Delivers (view (s.processLoop id' processed) id) := by
  by_cases hid : id' = id
  · rw [hid]
    exact h.processLoop processed
  · rw [view_processLoop_of_ne hid]
    exact h

/-- An unbounded mailbox accepts, and the message goes to its end. -/
theorem Delivers.enqueue {v : View V} (h : Delivers v) (msg : StashedMessage V) :
    Delivers { v with
      mailbox := (v.mailbox.enqueue msg).1
      accepted := v.accepted ++ [msg] } := by
  refine ⟨h.stash, fun hlive hmax => ?_⟩
  have hmax' : v.mailbox.maxSize = none := (maxSize_enqueue _ _).symm.trans hmax
  obtain ⟨q, hq, horder⟩ := h.queue hlive hmax'
  refine ⟨q ++ [msg], (hq.shows.enqueue (isFull_of_unbounded hmax') msg).2, ?_⟩
  rw [← List.append_assoc, horder]

/-- A bounded mailbox is not spoken of. -/
theorem Delivers.enqueue_bounded {v : View V} (h : Delivers v) (msg : StashedMessage V)
    (hmax : v.mailbox.maxSize ≠ none) (accepted : List (StashedMessage V)) :
    Delivers { v with
      mailbox := (v.mailbox.enqueue msg).1
      accepted := accepted } :=
  ⟨h.stash, fun _ hnone => absurd ((maxSize_enqueue _ _).symm.trans hnone) hmax⟩

theorem enqueue_accepted_of_unbounded {mb : BoundedMailbox (StashedMessage V)}
    (hmax : mb.maxSize = none) (msg : StashedMessage V) :
    (mb.enqueue msg).2 = .accepted := by
  unfold BoundedMailbox.enqueue
  rw [if_pos (isFull_of_unbounded hmax)]

theorem Delivers.queues {s t : Node V} {id id' : ActorId} (h : Delivers (view s id))
    {msg : StashedMessage V} {awaited : Finset Nat}
    (hqueues : Queues s (Frame.queue s id' msg awaited) id' msg t) : Delivers (view t id) := by
  by_cases hid : id' = id
  · subst hid
    have hset : view (Frame.queue s id' msg awaited) id' = { view s id' with
        mailbox := ((s.mailbox id').enqueue msg).1 } := view_setMailbox_self s id' _
    by_cases hmax : (s.mailbox id').maxSize = none
    · obtain rfl | rfl := hqueues.of_accepted (enqueue_accepted_of_unbounded hmax msg)
      · exact h
      · rw [view_scheduleProcessMailbox, view_accept_self, hset]
        exact h.enqueue _
    · cases hqueues with
      | unsent => exact h
      | accepted =>
          rw [view_scheduleProcessMailbox, view_accept_self, hset]
          exact h.enqueue_bounded _ hmax _
      | evicted =>
          rw [view_scheduleProcessMailbox, view_accept_self, view_rejectEvicted, hset]
          exact h.enqueue_bounded _ hmax _
      | refused =>
          rw [view_scheduleProcessMailbox, hset]
          exact h.enqueue_bounded _ hmax _
      | full | rejected => exact (congrArg Delivers hset).mpr (h.enqueue_bounded _ hmax _)
  · have hset : view (Frame.queue s id' msg awaited) id = view s id := view_setMailbox_of_ne hid s _
    cases hqueues with
    | unsent => exact h
    | accepted => rwa [view_scheduleProcessMailbox, view_accept_of_ne hid, hset]
    | evicted =>
        rwa [view_scheduleProcessMailbox, view_accept_of_ne hid, view_rejectEvicted, hset]
    | refused => rwa [view_scheduleProcessMailbox, hset]
    | full | rejected => exact (congrArg Delivers hset).mpr h

/-- The fast path starts a call at once, and only past an empty mailbox. -/
theorem Delivers.syncLocalCall {s : Node V} {id : ActorId} (h : Delivers (view s id))
    (hempty : (s.mailbox id).length = 0) (msg : StashedMessage V) :
    Delivers (view ((s.accept id msg).syncLocalCall id msg) id) := by
  have hview : view ((s.accept id msg).syncLocalCall id msg) id =
      { view s id with
        started := startedOf s id ++ [msg]
        accepted := acceptedOf s id ++ [msg] } := by
    unfold Node.syncLocalCall
    rw [view_startHandler_self]
    change { view ((s.accept id msg).setCurrentMessage id _) id with
      started := startedOf s id ++ [msg] } = _
    rw [view_setCurrentMessage, view_accept_self]
  rw [hview]
  refine ⟨h.stash, fun hlive hmax => ?_⟩
  obtain ⟨q, hq, horder⟩ := h.queue hlive hmax
  have hnil : q = [] := by
    have hsize : (s.mailbox id).length = q.length := hq.size_eq
    exact List.length_eq_zero_iff.1 (hsize.symm.trans hempty)
  subst hnil
  refine ⟨[], hq, ?_⟩
  rw [List.append_nil] at horder ⊢
  exact congrArg (· ++ [msg]) horder

theorem view_syncLocalCall_of_ne {id id' : ActorId} (hne : id' ≠ id) (s : Node V)
    (msg : StashedMessage V) :
    view (s.syncLocalCall id' msg) id = view s id := by
  unfold Node.syncLocalCall
  rw [view_startHandler_of_ne hne]
  exact view_setCurrentMessage s id id' (some msg)

theorem Delivers.dispatchCall {s : Node V} {id : ActorId} (h : Delivers (view s id))
    (id' : ActorId) (message : V) : Delivers (view (s.dispatchCall id' message) id) := by
  unfold Node.dispatchCall
  split_ifs with hlocal hfast
  · by_cases hid : id' = id
    · subst hid
      exact Delivers.syncLocalCall (s := { s with nextUid := s.nextUid + 1 }) h
        hfast.2.2 _
    · rw [view_syncLocalCall_of_ne hid, view_accept_of_ne hid]
      exact h
  · exact h.queues (enqueueCall_queues s id' message)
  · exact h

theorem Delivers.afterReturn {s : Node V} {id : ActorId} (h : Delivers (view s id))
    (id' : ActorId) (msg : StashedMessage V) (value : V) (task : System.Task V) :
    Delivers (view (s.afterReturn id' msg value task) id) := by
  cases task with
  | processMailbox n =>
      unfold Node.afterReturn
      apply Delivers.processLoop_any
      rw [view_setCurrentMessage]
      split_ifs <;> exact h
  | syncLocalCall prev =>
      unfold Node.afterReturn
      rw [view_syncLocalCallFinally]
      split_ifs <;> exact h
  | syncLocalCast prev => exact (congrArg Delivers (view_setCurrentMessage s id id' prev)).mpr h
  | abandoned | rpcCall | rpcCast => exact h

theorem Delivers.afterThrow {s : Node V} {id : ActorId} (h : Delivers (view s id))
    (id' : ActorId) (msg : StashedMessage V) (error : V) (task : System.Task V) :
    Delivers (view (s.afterThrow id' msg error task) id) := by
  cases task with
  | processMailbox n =>
      unfold Node.afterThrow
      split_ifs
      · apply Delivers.processLoop_any
        rwa [view_setCurrentMessage]
      · apply Delivers.processLoop_any
        rw [view_setCurrentMessage]
        exact h
      · exact h
  | syncLocalCall prev =>
      unfold Node.afterThrow
      rw [view_syncLocalCallFinally]
      exact h
  | syncLocalCast prev | abandoned | rpcCall | rpcCast => exact h

theorem Delivers.systemUnstashAll {s : Node V} {id id' : ActorId}
    (h : Delivers (view s id)) (hne : id' ≠ id) (messages : List (StashedMessage V)) :
    Delivers (view (s.systemUnstashAll id' messages) id) := by
  unfold Node.systemUnstashAll
  split_ifs
  · rwa [view_scheduleProcessMailbox, view_setMailbox_of_ne hne]
  · exact h

theorem messagesOf_eq_nil {id : ActorId} {history : List (ActorId × StashedMessage V)}
    (h : ∀ p ∈ history, p.1 < id) : messagesOf id history = [] := by
  rw [messagesOf, List.map_eq_nil_iff, List.filter_eq_nil_iff]
  intro p hp heq
  exact absurd (of_decide_eq_true heq) (Nat.ne_of_lt (h p hp))

/-- A new instance has no history. -/
theorem delivers_new {s : Node V} (hfresh : Fresh s) (config : MailboxConfig) :
    Delivers (view (s.install config) s.nextId) := by
  have hstarted : startedOf (s.install config) s.nextId = [] :=
    messagesOf_eq_nil hfresh.started
  have haccepted : acceptedOf (s.install config) s.nextId = [] :=
    messagesOf_eq_nil hfresh.accepted
  refine ⟨?_, fun _ _ => ⟨[], ?_, ?_⟩⟩
  · simp [view]
  · simp only [view, mailbox, install_object, Function.update_self]
    exact holds_new config
  · simp only [view, hstarted, haccepted, List.append_nil]

theorem delivers_install {s : Node V} (hfresh : Fresh s) {id : ActorId}
    (h : Delivers (view s id)) (config : MailboxConfig) :
    Delivers (view (s.install config) id) := by
  by_cases hid : id = s.nextId
  · subst hid
    exact delivers_new hfresh config
  · have hview : view (s.install config) id = view s id := by
      simp [view, mailbox, hid, startedOf, acceptedOf]
    rwa [hview]

/-! ## Steps and runs -/

theorem delivers_step {s t : Node V} {a : Action V} {id : ActorId} (hfresh : Fresh s)
    (h : Delivers (view s id)) (ha : PlainFor id a) (hst : s.step a = some t) :
    Delivers (view t id) := by
  cases a with
  | spawn config initThrows =>
      cases hst
      unfold Node.spawn
      split_ifs
      · exact delivers_install hfresh h config
      · rw [view_scheduleProcessMailbox]
        exact delivers_install hfresh h config
  | remove id' =>
      cases hst
      refine ⟨h.stash, fun hlive hmax => h.queue ?_ hmax⟩
      simp only [view, remove_actors, decide_eq_true_eq] at hlive ⊢
      exact Finset.mem_of_mem_erase hlive
  | dispatchCast id' message => cases hst; exact h.queues (dispatchCast_queues s id' message)
  | dispatchCall id' message => cases hst; exact h.dispatchCall id' message
  | rpcCall id' message =>
      cases hst
      unfold handleRpcCall
      split_ifs
      · rw [view_startHandler_of_ne ha]
        exact h
      · exact h
  | rpcCast id' message =>
      cases hst
      unfold handleRpcCast
      split_ifs
      · rw [view_startHandler_of_ne ha]
        exact h
      · exact h
  | syncLocalCast id' message =>
      cases hst
      unfold Node.syncLocalCast
      split_ifs
      · exact h
      · rw [view_startHandler_of_ne ha]
        exact (congrArg Delivers (view_setCurrentMessage s id id' _)).mpr h
  | tick id' =>
      obtain ⟨-, -, rfl⟩ := tick_some hst
      unfold Node.processMailbox
      split_ifs
      · exact h
      · exact h
      · apply Delivers.processLoop_any
        exact h
  | handlerAwaits =>
      obtain ⟨id', task, msg, rest, -, ⟨prev, -, rfl⟩ | ⟨-, rfl⟩⟩ :=
        handlerAwaits_some hst
      · exact (congrArg Delivers (view_setCurrentMessage s id id' prev)).mpr h
      · exact h
  | handlerResumes index =>
      obtain ⟨r, -, -, rfl⟩ := handlerResumes_some hst
      exact h
  | handlerReturns value =>
      obtain ⟨id', task, msg, rest, -, rfl⟩ := handlerReturns_some hst
      apply Delivers.afterReturn
      exact h
  | handlerThrows error =>
      obtain ⟨id', task, msg, rest, -, rfl⟩ := handlerThrows_some hst
      apply Delivers.afterThrow
      exact h
  | crashHandled =>
      obtain ⟨id', task, rest, -, ⟨n, -, rfl⟩ | ⟨prev, -, rfl⟩ | ⟨-, rfl⟩⟩ :=
        crashHandled_some hst
      · rw [view_processEnd, view_setCurrentMessage]
        exact h
      · exact (congrArg Delivers (view_setCurrentMessage s id id' prev)).mpr h
      · exact h
  | stash id' =>
      cases hst
      unfold Node.stash
      split
      · rwa [view_setStash_of_ne ha]
      · exact h
  | unstash id' =>
      cases hst
      unfold Node.unstash
      split
      · exact h
      next msg rest hstash =>
        -- the stash of the instance itself stays empty
        have hne : id' ≠ id := by
          rintro rfl
          exact absurd (h.stash.symm.trans hstash) (by simp)
        apply Delivers.systemUnstashAll _ hne
        rwa [view_setStash_of_ne hne]
  | unstashAll id' =>
      cases hst
      unfold Node.unstashAll
      split_ifs with hstash
      · have hne : id' ≠ id := by
          rintro rfl
          exact hstash h.stash
        rw [view_setStash_of_ne hne]
        exact h.systemUnstashAll hne _
      · exact h
  | clearStash id' =>
      cases hst
      obtain ⟨more, heq⟩ := clearStash_eq s id'
      rw [heq]
      by_cases hid : id' = id
      · subst hid
        rw [view_setStash_self]
        exact ⟨rfl, h.queue⟩
      · rw [view_setStash_of_ne hid]
        exact h
  | pauseMailbox id' =>
      cases hst
      unfold Node.pauseMailbox
      split_ifs <;> exact h
  | resumeMailbox id' =>
      cases hst
      unfold Node.resumeMailbox
      split_ifs
      · rw [view_scheduleProcessMailbox]
        exact h
      · exact h
      · exact h
  | injectMessages id' messages =>
      cases hst
      unfold Node.injectMessages
      split_ifs
      · rwa [view_scheduleProcessMailbox, view_setMailbox_of_ne ha]
      · exact h

/-- While an instance with an unbounded mailbox lives, its started messages
followed by its mailbox are its accepted messages in dispatch order; each is
started at most once. -/
theorem delivery_order {s : Node V} {as : List (Action V)} {id : ActorId}
    (hplain : ∀ a ∈ as, PlainFor id a) (hrun : run Node.step init as = some s)
    (hlive : id ∈ s.actors) (hunbounded : (s.mailbox id).maxSize = none) :
    (startedOf s id).map some ++ (s.mailbox id).toArray = (acceptedOf s id).map some ∧
      startedOf s id <+: acceptedOf s id ∧ (startedOf s id).Nodup := by
  have hinv : Fresh s ∧ Delivers (view s id) :=
    run_invariant (I := fun s => Fresh s ∧ Delivers (view s id))
      (fun _ _ _ hs ha hst =>
        ⟨fresh_step hs.1 hst, delivers_step hs.1 hs.2 ha hst⟩)
      ⟨fresh_init, delivers_init id⟩ (along_of_forall_mem hplain init) hrun
  obtain ⟨hfresh, hdelivers⟩ := hinv
  obtain ⟨q, hq, horder⟩ := hdelivers.queue (by simpa [view] using hlive) hunbounded
  have hsplit : startedOf s id ++ q = acceptedOf s id := horder
  have hnodup : (acceptedOf s id).Nodup := by
    have huids : ((acceptedOf s id).map StashedMessage.uid).Nodup := by
      have hsub := (List.filter_sublist (p := fun p : ActorId × StashedMessage V =>
        decide (p.1 = id)) (l := s.accepted)).map fun p => p.2.uid
      have hmap : (acceptedOf s id).map StashedMessage.uid =
          (s.accepted.filter fun p => p.1 = id).map fun p => p.2.uid := by
        rw [acceptedOf, messagesOf, List.map_map]
        rfl
      rw [hmap]
      exact hsub.nodup hfresh.nodup
    exact List.Nodup.of_map _ huids
  refine ⟨?_, ⟨q, hsplit⟩, ?_⟩
  · have hmailbox : (s.mailbox id).toArray = q.map some := hq.shows.toArray
    rw [hmailbox, ← List.map_append, hsplit]
  · rw [← hsplit] at hnodup
    exact hnodup.of_append_left

/-- A call on the fast path, a cast behind it, and a batch. -/
def mixedRun : List (Action Nat) :=
  [.spawn {} false, .dispatchCall 0 1, .handlerAwaits, .dispatchCast 0 2,
    .dispatchCall 0 3, .tick 0]

theorem delivery_order_mixed :
    ∃ s, run Node.step init mixedRun = some s ∧
      (startedOf s 0).map some ++ (s.mailbox 0).toArray =
        (acceptedOf s 0).map some := by
  refine ⟨_, rfl, ?_⟩
  have horder := delivery_order
    (show ∀ a ∈ mixedRun, PlainFor 0 a by simp [mixedRun, PlainFor])
    (show run Node.step init mixedRun = some _ from rfl) (by decide) rfl
  exact horder.1

end Libeam.Proofs.Delivery
