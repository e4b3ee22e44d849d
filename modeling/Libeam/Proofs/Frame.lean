import Libeam.System.Step
/-!
# Operations that run no handler

Most operations only touch a mailbox, a stash, the paused set, the scheduling
flag or the promises.  `Passive s t` says what such an operation leaves alone;
invariants about runners and instances are carried over it in one step.
-/

namespace Libeam.Proofs.Frame

open Libeam.System Libeam.System.Node

variable {V : Type}

/-- The part of a node that runners and instances are seen in. -/
structure Core (V : Type) where
  actors : Finset ActorId
  mailboxes : Finset ActorId
  processingActors : Finset ActorId
  stack : List (Runner V)
  suspended : List (Runner V)
  started : List (ActorId × StashedMessage V)

def core (s : Node V) : Core V :=
  ⟨s.actors, s.mailboxes, s.processingActors, s.stack, s.suspended, s.started⟩

def Passive (s t : Node V) : Prop := core t = core s

namespace Passive

variable {s t u : Node V}

theorem refl (s : Node V) : Passive s s := rfl

theorem trans (hst : Passive s t) (htu : Passive t u) : Passive s u :=
  Eq.trans htu hst

theorem processingActors (h : Passive s t) : t.processingActors = s.processingActors :=
  congrArg Core.processingActors h

theorem stack (h : Passive s t) : t.stack = s.stack := congrArg Core.stack h

theorem suspended (h : Passive s t) : t.suspended = s.suspended :=
  congrArg Core.suspended h

theorem started (h : Passive s t) : t.started = s.started := congrArg Core.started h

theorem scheduleProcessMailbox (h : Passive s t) (id : ActorId) :
    Passive s (t.scheduleProcessMailbox id) := by
  apply h.trans
  unfold Node.scheduleProcessMailbox
  split_ifs <;> exact rfl

theorem setStash (h : Passive s t) (id : ActorId) (stash : List (StashedMessage V)) :
    Passive s (t.setStash id stash) :=
  h.trans rfl

theorem settle (h : Passive s t) (uid : Nat) (r : Settlement V) :
    Passive s (t.settle uid r) :=
  h.trans rfl

theorem accept (h : Passive s t) (id : ActorId) (msg : StashedMessage V) :
    Passive s (t.accept id msg) :=
  h.trans rfl

theorem rejectEvicted (h : Passive s t) (oldest : Option (StashedMessage V)) :
    Passive s (t.rejectEvicted oldest) := by
  unfold Node.rejectEvicted
  split
  · split_ifs
    · exact h.settle _ _
    · exact h
  · exact h

theorem systemUnstashAll (h : Passive s t) (id : ActorId)
    (messages : List (StashedMessage V)) :
    Passive s (t.systemUnstashAll id messages) := by
  unfold Node.systemUnstashAll
  split_ifs
  · apply scheduleProcessMailbox
    exact h.trans rfl
  · exact h

end Passive

/-! ## Messages that are queued -/

/-- The node with the message enqueued, before anything is made of the result. -/
def queue (s : Node V) (id : ActorId) (msg : StashedMessage V) (awaited : Finset Nat) : Node V :=
  { s.setMailbox id ((s.mailbox id).enqueue msg).1 with
    nextUid := s.nextUid + 1
    awaited := awaited }

/-- How a dispatch goes on from the node `t` with its message enqueued. -/
inductive Queues (s t : Node V) (id : ActorId) (msg : StashedMessage V) : Node V → Prop
  | unsent (h : ¬ (id ∈ s.actors ∧ id ∈ s.mailboxes)) : Queues s t id msg s
  | accepted (h : ((s.mailbox id).enqueue msg).2 = .accepted) :
      Queues s t id msg ((t.accept id msg).scheduleProcessMailbox id)
  | evicted {oldest} (h : ((s.mailbox id).enqueue msg).2 = .evicted oldest) :
      Queues s t id msg (((t.rejectEvicted oldest).accept id msg).scheduleProcessMailbox id)
  | refused (h : ((s.mailbox id).enqueue msg).2 = .refused) (hcast : msg.type = .cast) :
      Queues s t id msg (t.scheduleProcessMailbox id)
  | full (h : ((s.mailbox id).enqueue msg).2 = .full) (hcast : msg.type = .cast) :
      Queues s t id msg t
  | rejected (h : ((s.mailbox id).enqueue msg).2 = .refused ∨
      ((s.mailbox id).enqueue msg).2 = .full) (hcall : msg.type = .call) :
      Queues s t id msg (t.settle msg.uid (.rejected .mailboxFull))

theorem dispatchCast_queues (s : Node V) (id : ActorId) (message : V) :
    Queues s (queue s id ⟨s.nextUid, .cast, message⟩ s.awaited) id ⟨s.nextUid, .cast, message⟩
      (s.dispatchCast id message) := by
  unfold dispatchCast
  split_ifs with hlocal
  · dsimp only
    split
    next h => exact .accepted h
    next h => exact .evicted h
    next h => exact .refused h rfl
    next h => exact .full h rfl
  · exact .unsent hlocal

theorem enqueueCall_queues (s : Node V) (id : ActorId) (message : V) :
    Queues s (queue s id ⟨s.nextUid, .call, message⟩ (insert s.nextUid s.awaited)) id
      ⟨s.nextUid, .call, message⟩ (s.enqueueCall id message) := by
  unfold enqueueCall
  dsimp only
  split
  next h => exact .accepted h
  next h => exact .evicted h
  next h => exact .rejected (.inl h) rfl
  next h => exact .rejected (.inr h) rfl

/-- A mailbox with room takes the message. -/
theorem Queues.of_accepted {s t u : Node V} {id : ActorId} {msg : StashedMessage V}
    (h : Queues s t id msg u) (hroom : ((s.mailbox id).enqueue msg).2 = .accepted) :
    u = s ∨ u = (t.accept id msg).scheduleProcessMailbox id := by
  cases h with
  | unsent => exact .inl rfl
  | accepted => exact .inr rfl
  | evicted h => exact nomatch hroom.symm.trans h
  | refused h => exact nomatch hroom.symm.trans h
  | full h => exact nomatch hroom.symm.trans h
  | rejected h => rcases h with h | h <;> exact nomatch hroom.symm.trans h

theorem passive_queues {s t : Node V} {id : ActorId} {msg : StashedMessage V}
    {awaited : Finset Nat} (h : Queues s (queue s id msg awaited) id msg t) : Passive s t := by
  have hqueued : Passive s (queue s id msg awaited) := rfl
  cases h with
  | unsent => exact .refl s
  | accepted => exact (hqueued.accept _ _).scheduleProcessMailbox id
  | evicted => exact ((hqueued.rejectEvicted _).accept _ _).scheduleProcessMailbox id
  | refused => exact hqueued.scheduleProcessMailbox id
  | full => exact hqueued
  | rejected => exact hqueued.settle _ _

theorem passive_dispatchCast (s : Node V) (id : ActorId) (message : V) :
    Passive s (s.dispatchCast id message) := passive_queues (dispatchCast_queues s id message)

theorem passive_enqueueCall (s : Node V) (id : ActorId) (message : V) :
    Passive s (s.enqueueCall id message) := passive_queues (enqueueCall_queues s id message)

theorem passive_pauseMailbox (s : Node V) (id : ActorId) :
    Passive s (s.pauseMailbox id) := by
  unfold pauseMailbox
  split_ifs <;> exact rfl

theorem passive_resumeMailbox (s : Node V) (id : ActorId) :
    Passive s (s.resumeMailbox id) := by
  unfold resumeMailbox
  split_ifs
  · apply Passive.scheduleProcessMailbox
    exact rfl
  · exact .refl s
  · exact .refl s

theorem passive_injectMessages (s : Node V) (id : ActorId)
    (messages : List (Option (StashedMessage V))) :
    Passive s (s.injectMessages id messages) := by
  unfold injectMessages
  split_ifs
  · apply Passive.scheduleProcessMailbox
    exact rfl
  · exact .refl s

theorem passive_stash (s : Node V) (id : ActorId) : Passive s (s.stash id) := by
  unfold stash
  split
  · exact (Passive.refl s).setStash id _
  · exact .refl s

theorem passive_unstashAll (s : Node V) (id : ActorId) :
    Passive s (s.unstashAll id) := by
  unfold unstashAll
  split_ifs
  · exact ((Passive.refl s).systemUnstashAll id _).setStash id _
  · exact .refl s

theorem passive_unstash (s : Node V) (id : ActorId) : Passive s (s.unstash id) := by
  unfold unstash
  split
  · exact .refl s
  · exact ((Passive.refl s).setStash id _).systemUnstashAll id _

/-- Clearing a stash rejects callers and changes nothing else but the stash. -/
theorem clearStash_eq (s : Node V) (id : ActorId) :
    ∃ more, s.clearStash id =
      ({ s with settled := s.settled ++ more }).setStash id [] := by
  have hfold : ∀ msgs : List (StashedMessage V), ∃ more,
      msgs.foldl (fun s msg =>
        if msg.type = .call ∧ msg.uid ∈ s.awaited then
          s.settle msg.uid (.rejected .discarded)
        else s) s = { s with settled := s.settled ++ more } := by
    intro msgs
    induction msgs generalizing s with
    | nil => exact ⟨[], by rw [List.foldl_nil, List.append_nil]⟩
    | cons msg msgs ih =>
        rw [List.foldl_cons]
        split_ifs
        · obtain ⟨more, heq⟩ := ih (s.settle msg.uid (.rejected .discarded))
          refine ⟨(msg.uid, .rejected .discarded) :: more, heq.trans ?_⟩
          rw [settle_settled, List.append_assoc]
          rfl
        · exact ih s
  obtain ⟨more, hmore⟩ := hfold (s.object id).stash
  exact ⟨more, by rw [clearStash, hmore]⟩

theorem passive_clearStash (s : Node V) (id : ActorId) :
    Passive s (s.clearStash id) := by
  obtain ⟨more, heq⟩ := clearStash_eq s id
  rw [heq]
  exact rfl

/-- The actions that neither run a handler nor change the instance tables. -/
def IsPassive : Action V → Prop
  | .dispatchCast _ _ | .stash _ | .unstash _ | .unstashAll _ | .clearStash _
  | .pauseMailbox _ | .resumeMailbox _ | .injectMessages _ _ => True
  | _ => False

theorem passive_step {s t : Node V} {a : Action V} (ha : IsPassive a)
    (hst : s.step a = some t) : Passive s t := by
  cases a <;> simp only [IsPassive] at ha <;> cases hst
  case dispatchCast id message => exact passive_dispatchCast s id message
  case stash id => exact passive_stash s id
  case unstash id => exact passive_unstash s id
  case unstashAll id => exact passive_unstashAll s id
  case clearStash id => exact passive_clearStash s id
  case pauseMailbox id => exact passive_pauseMailbox s id
  case resumeMailbox id => exact passive_resumeMailbox s id
  case injectMessages id messages => exact passive_injectMessages s id messages

/-! ## Taking a message -/

theorem processLoop_start {s : Node V} {id : ActorId} {processed : Nat}
    {msg : StashedMessage V} (hbatch : processed < mailboxBatchSize)
    (hpos : 0 < (s.mailbox id).length) (hactor : id ∈ s.actors)
    (hpaused : id ∉ s.pausedMailboxes) (hmsg : (s.mailbox id).dequeue.2 = some msg) :
    s.processLoop id processed =
      ((s.setMailbox id (s.mailbox id).dequeue.1).setCurrentMessage id
        (some msg)).startHandler id (.processMailbox processed) msg := by
  rw [processLoop, if_pos ⟨hbatch, hpos, hactor, hpaused⟩]
  simp only [hmsg]

/-- With something to take, a tick starts a handler; it tests no lock. -/
theorem processMailbox_start {s : Node V} {id : ActorId} {msg : StashedMessage V}
    (hactor : id ∈ s.actors) (hmailbox : id ∈ s.mailboxes)
    (hpaused : id ∉ s.pausedMailboxes) (hpos : 0 < (s.mailbox id).length)
    (hmsg : (s.mailbox id).dequeue.2 = some msg) :
    s.processMailbox id =
      ((({ s with processingActors := insert id s.processingActors }).setMailbox id
        (s.mailbox id).dequeue.1).setCurrentMessage id (some msg)).startHandler id
          (.processMailbox 0) msg := by
  rw [processMailbox, if_neg (by simp [hactor, hmailbox, hpaused]),
    if_neg (by omega)]
  exact processLoop_start (by decide) hpos hactor hpaused hmsg

/-! ## What a handler step does -/

theorem handlerAwaits_some {s t : Node V} (h : s.handlerAwaits = some t) :
    ∃ id task msg rest, s.stack = ⟨id, task, .handling msg⟩ :: rest ∧
      ((∃ prev, task = .syncLocalCast prev ∧
          t = (({ s with stack := rest }).suspend
            ⟨id, .abandoned, .handling msg⟩).syncLocalCastFinally id prev) ∨
        (∀ prev, task ≠ .syncLocalCast prev) ∧
          t = ({ s with stack := rest }).suspend ⟨id, task, .handling msg⟩) := by
  unfold handlerAwaits at h
  split at h
  next id task msg rest hstack =>
    refine ⟨id, task, msg, rest, hstack, ?_⟩
    have ht := (Option.some.inj h).symm
    split at ht
    next prev => exact .inl ⟨prev, rfl, ht⟩
    next hne => exact .inr ⟨fun prev heq => hne prev heq, ht⟩
  next => cases h

theorem handlerResumes_some {s t : Node V} {index : Nat}
    (h : s.handlerResumes index = some t) :
    ∃ r, s.stack = [] ∧ s.suspended[index]? = some r ∧
      t = { s with stack := [r], suspended := s.suspended.eraseIdx index } := by
  unfold handlerResumes at h
  split at h
  next r hstack hr => exact ⟨r, hstack, hr, (Option.some.inj h).symm⟩
  next => cases h

theorem handlerReturns_some {s t : Node V} {value : V}
    (h : s.handlerReturns value = some t) :
    ∃ id task msg rest, s.stack = ⟨id, task, .handling msg⟩ :: rest ∧
      t = ({ s with stack := rest }).afterReturn id msg value task := by
  unfold handlerReturns at h
  split at h
  next id task msg rest hstack =>
    exact ⟨id, task, msg, rest, hstack, (Option.some.inj h).symm⟩
  next => cases h

theorem handlerThrows_some {s t : Node V} {error : V}
    (h : s.handlerThrows error = some t) :
    ∃ id task msg rest, s.stack = ⟨id, task, .handling msg⟩ :: rest ∧
      t = ({ s with stack := rest }).afterThrow id msg error task := by
  unfold handlerThrows at h
  split at h
  next id task msg rest hstack =>
    exact ⟨id, task, msg, rest, hstack, (Option.some.inj h).symm⟩
  next => cases h

theorem crashHandled_some {s t : Node V} (h : s.crashHandled = some t) :
    ∃ id task rest, s.stack = ⟨id, task, .crashing⟩ :: rest ∧
      ((∃ n, task = .processMailbox n ∧
          t = (({ s with stack := rest }).setCurrentMessage id none).processEnd id) ∨
        (∃ prev, task = .syncLocalCast prev ∧
          t = ({ s with stack := rest }).syncLocalCastFinally id prev) ∨
        ((∀ n, task ≠ .processMailbox n) ∧ t = { s with stack := rest })) := by
  unfold crashHandled at h
  split at h
  next id task rest hstack =>
    refine ⟨id, task, rest, hstack, ?_⟩
    have ht := (Option.some.inj h).symm
    split at ht
    next n => exact .inl ⟨n, rfl, ht⟩
    next prev => exact .inr (.inl ⟨prev, rfl, ht⟩)
    next hne _ => exact .inr (.inr ⟨fun n heq => hne n heq, ht⟩)
  next => cases h

theorem tick_some {s t : Node V} {id : ActorId} (h : s.tick id = some t) :
    s.stack = [] ∧ id ∈ s.immediates ∧
      t = ({ s with immediates := s.immediates.erase id }).processMailbox id := by
  simp only [tick, Option.ite_none_right_eq_some, Option.some.injEq] at h
  exact ⟨h.1.1, h.1.2, h.2.symm⟩

/-- Suspending the innermost runner only moves it. -/
theorem runners_perm_suspend {s : Node V} {r : Runner V} {rest : List (Runner V)}
    (hstack : s.stack = r :: rest) :
    List.Perm s.runners (({ s with stack := rest }).suspend r).runners := by
  rw [runners, hstack]
  change List.Perm _ (rest ++ (s.suspended ++ [r]))
  rw [← List.append_assoc]
  exact (List.perm_append_singleton _ _).symm

/-- So does resuming. -/
theorem runners_perm_resume {s : Node V} {r : Runner V} {index : Nat}
    (hstack : s.stack = []) (hr : s.suspended[index]? = some r) :
    List.Perm s.runners ([r] ++ s.suspended.eraseIdx index) := by
  obtain ⟨hlt, hget⟩ := List.getElem?_eq_some_iff.1 hr
  rw [runners, hstack, List.nil_append, ← hget]
  exact (List.getElem_cons_eraseIdx_perm hlt).symm

end Libeam.Proofs.Frame
