import Libeam.Proofs.Frame
/-!
# Where message objects are

An instance holds the message objects in its mailbox cells and in its stash, its current message
and those its runners work on.  No operation hands an object to another instance.
-/

namespace Libeam.Proofs.Possession

open Lib Mailbox Libeam.System Libeam.System.Node Proofs.Frame

variable {V : Type}

/-! ## Mailbox cells -/

section

variable {α : Type} {mb : BoundedMailbox α} {m : α}

theorem mem_writeAt {buf : List (Option α)} {i : Nat} {v : Option α}
    (h : some m ∈ Ring.writeAt buf i v) : some m ∈ buf ∨ v = some m := by
  unfold Ring.writeAt at h
  split_ifs at h
  · exact (List.mem_or_eq_of_mem_set h).imp_right Eq.symm
  · simp only [List.mem_append, List.mem_replicate, List.mem_singleton, reduceCtorEq, and_false,
      or_false] at h
    exact h.imp_right Eq.symm

theorem mem_of_join_getElem? {buf : List (Option α)} {i : Nat}
    (h : (buf[i]?).join = some m) : some m ∈ buf :=
  List.mem_of_getElem? (Option.join_eq_some_iff.1 h)

theorem mem_grow (h : some m ∈ mb.grow.buf) : some m ∈ mb.buf := by
  simp only [BoundedMailbox.grow, BoundedMailbox.toArray, List.mem_append, List.mem_map,
    List.mem_replicate, reduceCtorEq, and_false, or_false] at h
  obtain ⟨i, -, hi⟩ := h
  exact mem_of_join_getElem? hi

theorem mem_writeTail {msg : α} (h : some m ∈ (mb.writeTail msg).buf) :
    some m ∈ mb.buf ∨ msg = m :=
  (mem_writeAt h).imp_right Option.some.inj

theorem mem_enqueue {msg : α} (h : some m ∈ (mb.enqueue msg).1.buf) :
    some m ∈ mb.buf ∨ msg = m := by
  unfold BoundedMailbox.enqueue at h
  split_ifs at h with hfull hgrow
  · exact (mem_writeTail h).imp_left mem_grow
  · exact mem_writeTail h
  · dsimp only at h
    split at h
    · exact .inl h
    · rcases mem_writeTail h with hcell | hmsg
      · exact .inl ((mem_writeAt hcell).resolve_right (by simp))
      · exact .inr hmsg
    · exact .inl h

theorem mem_of_evicted {msg : α} {oldest : Option α}
    (h : (mb.enqueue msg).2 = .evicted oldest) (hm : oldest = some m) : some m ∈ mb.buf := by
  unfold BoundedMailbox.enqueue at h
  split_ifs at h
  dsimp only at h
  split at h
  · cases h
  · cases h
    exact mem_of_join_getElem? hm
  · cases h

theorem mem_dequeue (h : some m ∈ mb.dequeue.1.buf) : some m ∈ mb.buf := by
  unfold BoundedMailbox.dequeue at h
  split_ifs at h
  · exact h
  · exact (mem_writeAt h).resolve_right (by simp)

theorem mem_of_dequeued (h : mb.dequeue.2 = some m) : some m ∈ mb.buf := by
  unfold BoundedMailbox.dequeue at h
  split_ifs at h
  exact mem_of_join_getElem? h

theorem mem_ensureRoom {needed fuel : Nat} (h : some m ∈ (mb.ensureRoom needed fuel).buf) :
    some m ∈ mb.buf := by
  induction fuel generalizing mb with
  | zero => exact h
  | succ fuel ih =>
      unfold BoundedMailbox.ensureRoom at h
      split_ifs at h
      · exact mem_grow (ih h)
      · exact h

theorem mem_foldr_pushFront {msgs : List (Option α)}
    (h : some m ∈ (msgs.foldr BoundedMailbox.pushFront mb).buf) :
    some m ∈ mb.buf ∨ some m ∈ msgs := by
  induction msgs with
  | nil => exact .inl h
  | cons msg msgs ih =>
      rcases mem_writeAt h with hcell | rfl
      · exact (ih hcell).imp_right (List.mem_cons_of_mem msg)
      · exact .inr List.mem_cons_self

theorem mem_unshift {msgs : List (Option α)} (h : some m ∈ (mb.unshift msgs).buf) :
    some m ∈ mb.buf ∨ some m ∈ msgs :=
  (mem_foldr_pushFront h).imp_left mem_ensureRoom

theorem not_mem_new (config : MailboxConfig) :
    some m ∉ (BoundedMailbox.new config : BoundedMailbox α).buf := by
  simp [BoundedMailbox.new]

end

/-! ## Instances -/

/-- The runner works on the message, or puts it back as `currentMessage` at its end. -/
def Has (r : Runner V) (msg : StashedMessage V) : Prop :=
  r.phase = .handling msg ∨ r.task = .syncLocalCall (some msg) ∨
    r.task = .syncLocalCast (some msg)

/-- Every message object an instance holds satisfies `P`. -/
structure Possessed (P : ActorId → StashedMessage V → Prop) (s : Node V) : Prop where
  mailbox : ∀ id msg, some msg ∈ (s.mailbox id).buf → P id msg
  stash : ∀ id, ∀ msg ∈ (s.object id).stash, P id msg
  current : ∀ id msg, (s.object id).currentMessage = some msg → P id msg
  stack : ∀ r ∈ s.stack, ∀ msg, Has r msg → P r.id msg
  suspended : ∀ r ∈ s.suspended, ∀ msg, Has r msg → P r.id msg

variable {P : ActorId → StashedMessage V → Prop} {s : Node V} {id : ActorId}

theorem possessed_init : Possessed P (init : Node V) where
  mailbox := fun _ _ h => absurd h (not_mem_new {})
  stash := by simp [init]
  current := by simp [init]
  stack := by simp [init]
  suspended := by simp [init]

theorem Possessed.mono {Q : ActorId → StashedMessage V → Prop}
    (h : Possessed P s) (hPQ : ∀ id msg, P id msg → Q id msg) : Possessed Q s where
  mailbox := fun id msg hmem => hPQ id msg (h.mailbox id msg hmem)
  stash := fun id msg hmem => hPQ id msg (h.stash id msg hmem)
  current := fun id msg heq => hPQ id msg (h.current id msg heq)
  stack := fun r hr msg hmsg => hPQ r.id msg (h.stack r hr msg hmsg)
  suspended := fun r hr msg hmsg => hPQ r.id msg (h.suspended r hr msg hmsg)

namespace Possessed

/-- The operation changes no object and no runner. -/
theorem of_eq {t : Node V} (h : Possessed P s) (hobject : t.object = s.object)
    (hstack : t.stack = s.stack) (hsuspended : t.suspended = s.suspended) : Possessed P t where
  mailbox := fun id => by rw [Node.mailbox, hobject]; exact h.mailbox id
  stash := fun id => by rw [hobject]; exact h.stash id
  current := fun id => by rw [hobject]; exact h.current id
  stack := hstack ▸ h.stack
  suspended := hsuspended ▸ h.suspended

/-- The operation changes one object. -/
theorem update (h : Possessed P s) {object : ActorObject V}
    (hmailbox : ∀ msg, some msg ∈ object.mailbox.buf → P id msg)
    (hstash : ∀ msg ∈ object.stash, P id msg)
    (hcurrent : ∀ msg, object.currentMessage = some msg → P id msg) :
    Possessed P { s with object := Function.update s.object id object } where
  mailbox := fun id' => by
    simp only [Node.mailbox, Function.update_apply]
    split_ifs with hid
    · exact hid ▸ hmailbox
    · exact h.mailbox id'
  stash := fun id' => by
    simp only [Function.update_apply]
    split_ifs with hid
    · exact hid ▸ hstash
    · exact h.stash id'
  current := fun id' => by
    simp only [Function.update_apply]
    split_ifs with hid
    · exact hid ▸ hcurrent
    · exact h.current id'
  stack := h.stack
  suspended := h.suspended

theorem setMailbox (h : Possessed P s) {mb : BoundedMailbox (StashedMessage V)}
    (hmb : ∀ msg, some msg ∈ mb.buf → P id msg) : Possessed P (s.setMailbox id mb) :=
  h.update hmb (h.stash id) (h.current id)

theorem setCurrentMessage (h : Possessed P s) {current : Option (StashedMessage V)}
    (hcurrent : ∀ msg, current = some msg → P id msg) :
    Possessed P (s.setCurrentMessage id current) :=
  h.update (h.mailbox id) (h.stash id) hcurrent

theorem clearCurrentMessage (h : Possessed P s) :
    Possessed P (s.setCurrentMessage id none) :=
  h.setCurrentMessage (by rintro msg ⟨⟩)

theorem setStash (h : Possessed P s) {stash : List (StashedMessage V)}
    (hstash : ∀ msg ∈ stash, P id msg) : Possessed P (s.setStash id stash) :=
  h.update (h.mailbox id) hstash (h.current id)

theorem push (h : Possessed P s) {r : Runner V} (hr : ∀ msg, Has r msg → P r.id msg) :
    Possessed P (s.push r) where
  mailbox := h.mailbox
  stash := h.stash
  current := h.current
  stack := List.forall_mem_cons.2 ⟨hr, h.stack⟩
  suspended := h.suspended

theorem suspend (h : Possessed P s) {r : Runner V} (hr : ∀ msg, Has r msg → P r.id msg) :
    Possessed P (s.suspend r) where
  mailbox := h.mailbox
  stash := h.stash
  current := h.current
  stack := h.stack
  suspended := List.forall_mem_append.2 ⟨h.suspended, List.forall_mem_singleton.2 hr⟩

/-- The innermost runner leaves the stack; what it had is still accounted for. -/
theorem pop {r : Runner V} {rest : List (Runner V)} (h : Possessed P s)
    (hstack : s.stack = r :: rest) :
    (∀ msg, Has r msg → P r.id msg) ∧ Possessed P { s with stack := rest } := by
  have hall := h.stack
  rw [hstack, List.forall_mem_cons] at hall
  exact ⟨hall.1, ⟨h.mailbox, h.stash, h.current, hall.2, h.suspended⟩⟩

theorem startHandler (h : Possessed P s) {task : System.Task V} {msg : StashedMessage V}
    (hr : ∀ m, Has ⟨id, task, .handling msg⟩ m → P id m) :
    Possessed P (s.startHandler id task msg) :=
  (h.push hr).of_eq rfl rfl rfl

theorem scheduleProcessMailbox (h : Possessed P s) :
    Possessed P (s.scheduleProcessMailbox id) := by
  unfold Node.scheduleProcessMailbox
  split_ifs <;> exact h.of_eq rfl rfl rfl

theorem processEnd (h : Possessed P s) : Possessed P (s.processEnd id) := by
  unfold Node.processEnd
  dsimp only
  split_ifs <;> exact h.of_eq rfl rfl rfl

theorem processLoop (h : Possessed P s) (processed : Nat) :
    Possessed P (s.processLoop id processed) := by
  unfold Node.processLoop
  split_ifs
  · have htaken : ∀ msg, (s.mailbox id).dequeue.2 = some msg → P id msg :=
      fun msg hmsg => h.mailbox id msg (mem_of_dequeued hmsg)
    have hrest : ∀ msg, some msg ∈ (s.mailbox id).dequeue.1.buf → P id msg :=
      fun msg hmem => h.mailbox id msg (mem_dequeue hmem)
    have hset := (h.setMailbox hrest).setCurrentMessage htaken
    dsimp only
    split
    next msg hmsg =>
      refine Possessed.startHandler ?_ ?_
      · exact hmsg ▸ hset
      · rintro m (hm | hm | hm)
        · cases hm
          exact htaken msg hmsg
        · cases hm
        · cases hm
    next hmsg =>
      refine Possessed.push ?_ ?_
      · exact hmsg ▸ hset
      · rintro m (hm | hm | hm) <;> cases hm
  · exact h.processEnd

theorem syncLocalCallFinally (h : Possessed P s) {prev : Option (StashedMessage V)}
    (hprev : ∀ msg, prev = some msg → P id msg) :
    Possessed P (s.syncLocalCallFinally id prev) := by
  unfold Node.syncLocalCallFinally
  dsimp only
  split_ifs <;> exact (h.setCurrentMessage hprev).of_eq rfl rfl rfl

theorem syncLocalCastFinally (h : Possessed P s) {prev : Option (StashedMessage V)}
    (hprev : ∀ msg, prev = some msg → P id msg) :
    Possessed P (s.syncLocalCastFinally id prev) :=
  (h.setCurrentMessage hprev).of_eq rfl rfl rfl

theorem accept (h : Possessed P s) {msg : StashedMessage V} : Possessed P (s.accept id msg) :=
  h.of_eq rfl rfl rfl

theorem rejectEvicted (h : Possessed P s) (oldest : Option (StashedMessage V)) :
    Possessed P (s.rejectEvicted oldest) := by
  unfold Node.rejectEvicted
  split
  · split_ifs <;> exact h.of_eq rfl rfl rfl
  · exact h

theorem enqueue (h : Possessed P s) {msg : StashedMessage V} (hnew : P id msg) :
    Possessed P (s.setMailbox id ((s.mailbox id).enqueue msg).1) := by
  refine h.setMailbox fun m hm => ?_
  rcases mem_enqueue hm with hcell | rfl
  · exact h.mailbox id m hcell
  · exact hnew

theorem queues (h : Possessed P s) {t : Node V} {msg : StashedMessage V} {awaited : Finset Nat}
    (hnew : P id msg) (hqueues : Queues s (queue s id msg awaited) id msg t) : Possessed P t := by
  have hqueued := h.enqueue hnew
  cases hqueues with
  | unsent => exact h
  | accepted | refused => exact scheduleProcessMailbox (hqueued.of_eq rfl rfl rfl)
  | evicted =>
      apply scheduleProcessMailbox
      apply accept
      apply rejectEvicted
      exact hqueued.of_eq rfl rfl rfl
  | full | rejected => exact hqueued.of_eq rfl rfl rfl

/-- A synchronous path makes the message current and remembers the one before. -/
theorem synchronous (h : Possessed P s) {task : System.Task V} {msg : StashedMessage V}
    (hnew : P id msg)
    (htask : task = .syncLocalCall (s.object id).currentMessage ∨
      task = .syncLocalCast (s.object id).currentMessage) :
    Possessed P ((s.setCurrentMessage id (some msg)).startHandler id task msg) := by
  refine startHandler (h.setCurrentMessage ?_) ?_
  · rintro m ⟨⟩
    exact hnew
  · rintro m (hm | hm | hm)
    · cases hm
      exact hnew
    · rcases htask with rfl | rfl
      · exact h.current id m (System.Task.syncLocalCall.inj hm)
      · cases hm
    · rcases htask with rfl | rfl
      · cases hm
      · exact h.current id m (System.Task.syncLocalCast.inj hm)

theorem dispatchCall (h : Possessed P s) {message : V}
    (hnew : P id ⟨s.nextUid, .call, message⟩) : Possessed P (s.dispatchCall id message) := by
  unfold Node.dispatchCall
  split_ifs
  · exact (h.synchronous hnew (.inl rfl)).of_eq rfl rfl rfl
  · exact h.queues hnew (enqueueCall_queues s id message)
  · exact h

/-- The remote entry points invoke the handler with nothing to put back. -/
theorem direct (h : Possessed P s) {task : System.Task V} {msg : StashedMessage V}
    (hnew : P id msg) (htask : task = .rpcCall ∨ task = .rpcCast) :
    Possessed P (s.startHandler id task msg) := by
  refine h.startHandler ?_
  rintro m (hm | hm | hm)
  · cases hm
    exact hnew
  · rcases htask with rfl | rfl <;> cases hm
  · rcases htask with rfl | rfl <;> cases hm

theorem systemUnstashAll (h : Possessed P s) {messages : List (StashedMessage V)}
    (hmessages : ∀ msg ∈ messages, P id msg) : Possessed P (s.systemUnstashAll id messages) := by
  unfold Node.systemUnstashAll
  split_ifs
  · refine scheduleProcessMailbox (h.setMailbox fun m hm => ?_)
    rcases mem_unshift hm with hcell | hmsg
    · exact h.mailbox id m hcell
    · obtain ⟨m', hm', heq⟩ := List.mem_map.1 hmsg
      exact hmessages m (Option.some.inj heq ▸ hm')
  · exact h

theorem install (h : Possessed P s) (config : MailboxConfig) : Possessed P (s.install config) :=
  (h.update (fun _ hmem => absurd hmem (not_mem_new config)) (by simp) (by simp)).of_eq
    rfl rfl rfl

theorem afterReturn {msg : StashedMessage V} {task : System.Task V} (h : Possessed P s)
    (hr : ∀ m, Has ⟨id, task, .handling msg⟩ m → P id m) (value : V) :
    Possessed P (s.afterReturn id msg value task) := by
  cases task with
  | processMailbox n =>
      refine processLoop (clearCurrentMessage ?_) (n + 1)
      split_ifs <;> exact h.of_eq rfl rfl rfl
  | syncLocalCall prev =>
      refine syncLocalCallFinally ?_ fun m hm => hr m (.inr (.inl (hm ▸ rfl)))
      split_ifs <;> exact h.of_eq rfl rfl rfl
  | syncLocalCast prev =>
      exact h.syncLocalCastFinally fun m hm => hr m (.inr (.inr (hm ▸ rfl)))
  | abandoned | rpcCall | rpcCast => exact h

theorem afterThrow {msg : StashedMessage V} {task : System.Task V} (h : Possessed P s)
    (hr : ∀ m, Has ⟨id, task, .handling msg⟩ m → P id m) (error : V) :
    Possessed P (s.afterThrow id msg error task) := by
  have hcrashing : ∀ m, Has ⟨id, task, .crashing⟩ m → P id m := by
    rintro m (hm | hm)
    · cases hm
    · exact hr m (.inr hm)
  cases task with
  | processMailbox n =>
      unfold Node.afterThrow
      split_ifs
      · exact processLoop h.clearCurrentMessage (n + 1)
      · apply processLoop
        apply clearCurrentMessage
        exact h.of_eq rfl rfl rfl
      · exact h.push hcrashing
  | syncLocalCall prev =>
      refine syncLocalCallFinally ?_ fun m hm => hr m (.inr (.inl (hm ▸ rfl)))
      exact h.of_eq rfl rfl rfl
  | syncLocalCast | rpcCast => exact h.push hcrashing
  | abandoned | rpcCall => exact h

end Possessed

/-! ## Steps -/

/-- The action brings this message object to the instance. -/
def Introduces (s : Node V) (id : ActorId) (msg : StashedMessage V) : Action V → Prop
  | .dispatchCast id' message | .rpcCast id' message | .syncLocalCast id' message =>
      id' = id ∧ msg = ⟨s.nextUid, .cast, message⟩
  | .dispatchCall id' message | .rpcCall id' message =>
      id' = id ∧ msg = ⟨s.nextUid, .call, message⟩
  | .injectMessages id' messages => id' = id ∧ some msg ∈ messages
  | _ => False

theorem possessed_step {t : Node V} {a : Action V} (h : Possessed P s)
    (hnew : ∀ id msg, Introduces s id msg a → P id msg) (hst : s.step a = some t) :
    Possessed P t := by
  cases a with
  | spawn config initThrows =>
      cases hst
      unfold Node.spawn
      split_ifs
      · exact h.install config
      · exact (h.install config).scheduleProcessMailbox
  | remove id => cases hst; exact h.of_eq rfl rfl rfl
  | dispatchCast id message =>
      cases hst
      exact h.queues (hnew id _ ⟨rfl, rfl⟩) (dispatchCast_queues s id message)
  | dispatchCall id message => cases hst; exact h.dispatchCall (hnew id _ ⟨rfl, rfl⟩)
  | rpcCall id message =>
      cases hst
      unfold handleRpcCall
      split_ifs
      · exact (h.direct (hnew id _ ⟨rfl, rfl⟩) (.inl rfl)).of_eq rfl rfl rfl
      · exact h
  | rpcCast id message =>
      cases hst
      unfold handleRpcCast
      split_ifs
      · exact (h.direct (hnew id _ ⟨rfl, rfl⟩) (.inr rfl)).of_eq rfl rfl rfl
      · exact h
  | syncLocalCast id message =>
      cases hst
      unfold Node.syncLocalCast
      split_ifs
      · exact h
      · exact (h.synchronous (hnew id _ ⟨rfl, rfl⟩) (.inr rfl)).of_eq rfl rfl rfl
  | tick id =>
      obtain ⟨-, -, rfl⟩ := tick_some hst
      unfold Node.processMailbox
      split_ifs
      · exact h.of_eq rfl rfl rfl
      · exact h.of_eq rfl rfl rfl
      · apply Possessed.processLoop
        exact h.of_eq rfl rfl rfl
  | handlerAwaits =>
      obtain ⟨id, task, msg, rest, hstack, ⟨prev, rfl, rfl⟩ | ⟨-, rfl⟩⟩ := handlerAwaits_some hst
      · obtain ⟨hr, hrest⟩ := h.pop hstack
        refine (hrest.suspend fun m hm => ?_).syncLocalCastFinally
          fun m hm => hr m (.inr (.inr (hm ▸ rfl)))
        rcases hm with hm | hm | hm
        · exact hr m (.inl hm)
        · cases hm
        · cases hm
      · obtain ⟨hr, hrest⟩ := h.pop hstack
        exact hrest.suspend hr
  | handlerResumes index =>
      obtain ⟨r, -, hr, rfl⟩ := handlerResumes_some hst
      have hhas := h.suspended r (List.mem_of_getElem? hr)
      exact ⟨h.mailbox, h.stash, h.current, List.forall_mem_singleton.2 hhas,
        fun r' hr' => h.suspended r' (List.mem_of_mem_eraseIdx hr')⟩
  | handlerReturns value =>
      obtain ⟨id, task, msg, rest, hstack, rfl⟩ := handlerReturns_some hst
      obtain ⟨hr, hrest⟩ := h.pop hstack
      exact hrest.afterReturn hr value
  | handlerThrows error =>
      obtain ⟨id, task, msg, rest, hstack, rfl⟩ := handlerThrows_some hst
      obtain ⟨hr, hrest⟩ := h.pop hstack
      exact hrest.afterThrow hr error
  | crashHandled =>
      obtain ⟨id, task, rest, hstack, ⟨n, -, rfl⟩ | ⟨prev, rfl, rfl⟩ | ⟨-, rfl⟩⟩ :=
        crashHandled_some hst
      · exact (h.pop hstack).2.clearCurrentMessage.processEnd
      · obtain ⟨hr, hrest⟩ := h.pop hstack
        exact hrest.syncLocalCastFinally fun m hm => hr m (.inr (.inr (hm ▸ rfl)))
      · exact (h.pop hstack).2
  | stash id =>
      cases hst
      unfold Node.stash
      split
      next msg hmsg =>
        refine h.setStash ?_
        rw [List.forall_mem_append, List.forall_mem_singleton]
        exact ⟨h.stash id, h.current id msg hmsg⟩
      next => exact h
  | unstash id =>
      cases hst
      unfold Node.unstash
      split
      next => exact h
      next msg rest hstash =>
        have hall := h.stash id
        rw [hstash, List.forall_mem_cons] at hall
        refine (h.setStash hall.2).systemUnstashAll ?_
        exact List.forall_mem_singleton.2 hall.1
  | unstashAll id =>
      cases hst
      unfold Node.unstashAll
      split_ifs
      · exact (h.systemUnstashAll (h.stash id)).setStash (by simp)
      · exact h
  | clearStash id =>
      cases hst
      obtain ⟨more, heq⟩ := clearStash_eq s id
      rw [heq]
      refine Possessed.setStash ?_ (by simp)
      exact h.of_eq rfl rfl rfl
  | pauseMailbox id =>
      cases hst
      unfold Node.pauseMailbox
      split_ifs <;> exact h.of_eq rfl rfl rfl
  | resumeMailbox id =>
      cases hst
      unfold Node.resumeMailbox
      split_ifs
      · apply Possessed.scheduleProcessMailbox
        exact h.of_eq rfl rfl rfl
      · exact h
      · exact h
  | injectMessages id messages =>
      cases hst
      unfold Node.injectMessages
      split_ifs
      · refine Possessed.scheduleProcessMailbox (h.setMailbox fun m hm => ?_)
        rcases mem_unshift hm with hcell | hmsg
        · exact h.mailbox id m hcell
        · exact hnew id m ⟨rfl, hmsg⟩
      · exact h

end Libeam.Proofs.Possession
