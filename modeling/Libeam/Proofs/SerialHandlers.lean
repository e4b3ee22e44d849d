import Libeam.Proofs.Delivery
import Libeam.Proofs.Wakeup
/-!
# Handlers that neither await nor throw

An instance that is only sent to through `dispatchCall` and `dispatchCast`, and whose handlers
return without awaiting or throwing, runs one handler at a time: a tick needs an empty stack, and
the fast path is closed while a handler runs.
-/

namespace Libeam.Proofs.SerialHandlers

open Libeam.System Libeam.System.Node Proofs.Frame MailboxSound Delivery Wakeup

variable {V : Type}

/-- What is to be seen of the handlers of one instance. -/
structure Footprint (V : Type) where
  running : List (Runner V)
  awaiting : List (Runner V)
  processing : Bool
  started : List (StashedMessage V)

def footprint (s : Node V) (id : ActorId) : Footprint V where
  running := s.stack.filter fun r => r.id = id
  awaiting := s.suspended.filter fun r => r.id = id
  processing := decide (id ∈ s.processingActors)
  started := startedOf s id

/-- No handler of the instance runs. -/
def atRest (started : List (StashedMessage V)) : Footprint V := ⟨[], [], false, started⟩

/-- One handler runs, for a batch or for a call on the fast path. -/
def serving (id : ActorId) (task : System.Task V) (msg : StashedMessage V)
    (started : List (StashedMessage V)) : Footprint V :=
  ⟨[⟨id, task, .handling msg⟩], [], true, started ++ [msg]⟩

/-! ## Operations of other instances -/

section

variable {s t : Node V} {id id' : ActorId}

theorem footprint_of_passive (h : Passive s t) : footprint t id = footprint s id := by
  rw [footprint, h.stack, h.suspended, h.processingActors, startedOf, h.started]
  rfl

theorem footprint_startHandler_of_ne (hne : id' ≠ id) (task : System.Task V)
    (msg : StashedMessage V) :
    footprint (s.startHandler id' task msg) id = footprint s id := by
  simp [footprint, startedOf, messagesOf_append_of_ne hne, hne]

theorem footprint_push_of_ne {r : Runner V} (hne : r.id ≠ id) :
    footprint (s.push r) id = footprint s id := by
  simp [footprint, startedOf, hne]

theorem footprint_suspend_of_ne {r : Runner V} (hne : r.id ≠ id) :
    footprint (s.suspend r) id = footprint s id := by
  simp [footprint, startedOf, hne]

theorem footprint_pop_of_ne {r : Runner V} {rest : List (Runner V)} (hstack : s.stack = r :: rest)
    (hne : r.id ≠ id) : footprint { s with stack := rest } id = footprint s id := by
  simp [footprint, startedOf, hstack, hne]

theorem footprint_lock_of_ne (hne : id' ≠ id) :
    footprint { s with processingActors := insert id' s.processingActors } id =
      footprint s id := by
  simp [footprint, startedOf, hne.symm]

theorem footprint_unlock_of_ne (hne : id' ≠ id) :
    footprint { s with processingActors := s.processingActors.erase id' } id =
      footprint s id := by
  simp [footprint, startedOf, hne.symm]

theorem footprint_processEnd_of_ne (hne : id' ≠ id) :
    footprint (s.processEnd id') id = footprint s id := by
  rw [← footprint_unlock_of_ne (s := s) hne]
  unfold Node.processEnd
  dsimp only
  split_ifs <;> rfl

theorem footprint_processLoop_of_ne (hne : id' ≠ id) (processed : Nat) :
    footprint (s.processLoop id' processed) id = footprint s id := by
  unfold Node.processLoop
  split_ifs
  · dsimp only
    split
    · rw [footprint_startHandler_of_ne hne]
      rfl
    · rw [footprint_push_of_ne hne]
      rfl
  · exact footprint_processEnd_of_ne hne

theorem footprint_syncLocalCallFinally_of_ne (hne : id' ≠ id)
    (prevMessage : Option (StashedMessage V)) :
    footprint (s.syncLocalCallFinally id' prevMessage) id = footprint s id := by
  rw [← footprint_unlock_of_ne (s := s) hne]
  unfold Node.syncLocalCallFinally
  dsimp only
  split_ifs <;> rfl

theorem footprint_syncLocalCastFinally_of_ne (hne : id' ≠ id)
    (prevMessage : Option (StashedMessage V)) :
    footprint (s.syncLocalCastFinally id' prevMessage) id = footprint s id :=
  footprint_unlock_of_ne (s := s.setCurrentMessage id' prevMessage) hne

theorem footprint_afterReturn_of_ne (hne : id' ≠ id) (msg : StashedMessage V) (value : V)
    (task : System.Task V) :
    footprint (s.afterReturn id' msg value task) id = footprint s id := by
  cases task with
  | processMailbox n =>
      unfold Node.afterReturn
      rw [footprint_processLoop_of_ne hne]
      split_ifs <;> rfl
  | syncLocalCall prev =>
      unfold Node.afterReturn
      rw [footprint_syncLocalCallFinally_of_ne hne]
      split_ifs <;> rfl
  | syncLocalCast prev => exact footprint_syncLocalCastFinally_of_ne hne prev
  | abandoned | rpcCall | rpcCast => rfl

theorem footprint_afterThrow_of_ne (hne : id' ≠ id) (msg : StashedMessage V) (error : V)
    (task : System.Task V) :
    footprint (s.afterThrow id' msg error task) id = footprint s id := by
  cases task with
  | processMailbox n =>
      unfold Node.afterThrow
      split_ifs
      · exact footprint_processLoop_of_ne hne _
      · exact footprint_processLoop_of_ne hne _
      · exact footprint_push_of_ne hne
  | syncLocalCall prev => exact footprint_syncLocalCallFinally_of_ne hne prev
  | syncLocalCast prev | rpcCast => exact footprint_push_of_ne hne
  | abandoned | rpcCall => rfl

theorem footprint_syncLocalCall_of_ne (hne : id' ≠ id) (msg : StashedMessage V) :
    footprint (s.syncLocalCall id' msg) id = footprint s id := by
  unfold Node.syncLocalCall
  rw [footprint_startHandler_of_ne hne]
  exact footprint_lock_of_ne (s := s) hne

end

/-! ## Steps -/

/-- The instance is at rest or serves one message. -/
def Serial (id : ActorId) (f : Footprint V) : Prop :=
  (∃ started, f = atRest started) ∨
    ∃ task msg started, f = serving id task msg started ∧ Drains ⟨id, task, .handling msg⟩

/-- Nobody calls a handler of the instance directly, and the step is not one of its own
handlers. -/
def Undisturbed (s : Node V) (id : ActorId) : Action V → Prop
  | .rpcCall id' _ | .rpcCast id' _ | .syncLocalCast id' _ => id' ≠ id
  | .handlerAwaits | .handlerReturns _ | .handlerThrows _ | .crashHandled =>
      ∀ r rest, s.stack = r :: rest → r.id ≠ id
  | _ => True

/-- The step invokes a handler of the instance: a call on the fast path, or the head of the
mailbox. -/
def Invokes (s : Node V) (id : ActorId) (a : Action V) (task : System.Task V)
    (msg : StashedMessage V) : Prop :=
  (∃ message prev, a = .dispatchCall id message ∧ msg = ⟨s.nextUid, .call, message⟩ ∧
    task = .syncLocalCall prev) ∨ ∃ n, a = .tick id ∧ task = .processMailbox n

section

variable {s t : Node V} {id : ActorId}

theorem Serial.eq_atRest {f : Footprint V} (h : Serial id f)
    (hrest : f.running = [] ∨ f.processing = false) : f = atRest f.started := by
  rcases h with ⟨started, rfl⟩ | ⟨task, msg, started, rfl, -⟩
  · rfl
  · rcases hrest with hrest | hrest <;> cases hrest

/-- The instance holds its lock, and its handler is not on the stack. -/
def entered (started : List (StashedMessage V)) : Footprint V := ⟨[], [], true, started⟩

variable {started : List (StashedMessage V)}

theorem footprint_startHandler_self (task : System.Task V) (msg : StashedMessage V)
    (h : footprint s id = entered started) :
    footprint (s.startHandler id task msg) id = serving id task msg started := by
  simp only [footprint, entered, startedOf, Footprint.mk.injEq] at h
  simp [footprint, serving, startedOf, h]

theorem footprint_lock_self (h : footprint s id = atRest started) :
    footprint { s with processingActors := insert id s.processingActors } id =
      entered started := by
  simp only [footprint, atRest, startedOf, Footprint.mk.injEq] at h
  simp [footprint, entered, startedOf, h]

theorem footprint_unlock_self (h : footprint s id = entered started) :
    footprint { s with processingActors := s.processingActors.erase id } id =
      atRest started := by
  simp only [footprint, entered, startedOf, Footprint.mk.injEq] at h
  simp [footprint, atRest, startedOf, h]

/-- A batch takes the next message or ends. -/
theorem footprint_processLoop_self (hsound : Sound s) (h : footprint s id = entered started)
    (processed : Nat) :
    footprint (s.processLoop id processed) id = atRest started ∨
      ∃ msg, footprint (s.processLoop id processed) id =
        serving id (.processMailbox processed) msg started := by
  unfold Node.processLoop
  split_ifs with hloop
  · obtain ⟨msg, -, -, hmsg, -⟩ := hsound.dequeue hloop.2.1
    simp only [hmsg]
    exact .inr ⟨msg, footprint_startHandler_self _ msg h⟩
  · refine .inl ?_
    rw [← footprint_unlock_self h]
    unfold Node.processEnd
    dsimp only
    split_ifs <;> rfl

theorem footprint_afterReturn_self {task : System.Task V} {msg : StashedMessage V}
    (hsound : Sound s) (h : footprint s id = entered started)
    (hdrains : Drains ⟨id, task, .handling msg⟩) (value : V) :
    footprint (s.afterReturn id msg value task) id = atRest started ∨
      ∃ n msg', footprint (s.afterReturn id msg value task) id =
        serving id (.processMailbox n) msg' started := by
  have hnext : ∀ {u : Node V} (n : Nat), Sound u → footprint u id = entered started →
      footprint ((u.setCurrentMessage id none).processLoop id n) id = atRest started ∨
        ∃ n' msg', footprint ((u.setCurrentMessage id none).processLoop id n) id =
          serving id (.processMailbox n') msg' started := by
    intro u n hu hentered
    have hu' : Sound (u.setCurrentMessage id none) :=
      hu.of_mailbox_eq fun id' => mailbox_setCurrentMessage _ _ _ _
    exact (footprint_processLoop_self hu' hentered n).imp_right fun h => ⟨n, h⟩
  rcases hdrains with ⟨n, htask⟩ | ⟨prev, htask⟩
  · obtain rfl : task = .processMailbox n := htask
    unfold Node.afterReturn
    dsimp only
    split_ifs
    · exact hnext (u := s.settle msg.uid (.resolved value)) (n + 1) hsound h
    · exact hnext (n + 1) hsound h
  · obtain rfl : task = .syncLocalCall prev := htask
    refine .inl ?_
    have hend : ∀ {u : Node V}, footprint u id = entered started →
        footprint (u.syncLocalCallFinally id prev) id = atRest started := by
      intro u hentered
      rw [← footprint_unlock_self hentered]
      unfold Node.syncLocalCallFinally
      dsimp only
      split_ifs <;> rfl
    unfold Node.afterReturn
    dsimp only
    split_ifs
    · exact hend (u := { s with awaited := insert msg.uid s.awaited }) h
    · exact hend (u := s.settle msg.uid (.resolved value)) h

/-- A step of somebody else leaves the handlers alone, or invokes one while none runs. -/
theorem footprint_step {a : Action V} (hsound : Sound s) (hserial : Serial id (footprint s id))
    (ha : Undisturbed s id a) (hst : s.step a = some t) :
    footprint t id = footprint s id ∨
      footprint s id = atRest (startedOf s id) ∧ ∃ task msg, Invokes s id a task msg ∧
        footprint t id = serving id task msg (startedOf s id) := by
  by_cases hpassive : IsPassive a
  · exact .inl (footprint_of_passive (passive_step hpassive hst))
  cases a with
  | spawn config initThrows =>
      cases hst
      refine .inl ?_
      unfold Node.spawn Node.scheduleProcessMailbox
      split_ifs <;> rfl
  | remove id' => cases hst; exact .inl rfl
  | dispatchCall id' message =>
      cases hst
      unfold Node.dispatchCall
      split_ifs with hlocal hfast
      · by_cases hid : id' = id
        · subst hid
          have hrest := hserial.eq_atRest (.inr (decide_eq_false hfast.1))
          refine .inr ⟨hrest, .syncLocalCall (s.object id').currentMessage, _,
            .inl ⟨message, _, rfl, rfl, rfl⟩, ?_⟩
          exact footprint_startHandler_self _ _ (footprint_lock_self hrest)
        · exact .inl (footprint_syncLocalCall_of_ne hid _)
      · exact .inl (footprint_of_passive (passive_enqueueCall s id' message))
      · exact .inl rfl
  | rpcCall id' message =>
      cases hst
      unfold handleRpcCall
      split_ifs
      · exact .inl (footprint_startHandler_of_ne ha _ _)
      · exact .inl rfl
  | rpcCast id' message =>
      cases hst
      unfold handleRpcCast
      split_ifs
      · exact .inl (footprint_startHandler_of_ne ha _ _)
      · exact .inl rfl
  | syncLocalCast id' message =>
      cases hst
      unfold Node.syncLocalCast
      split_ifs
      · exact .inl rfl
      · refine .inl ?_
        rw [footprint_startHandler_of_ne ha]
        exact footprint_lock_of_ne (s := s) ha
  | tick id' =>
      obtain ⟨hstack, -, rfl⟩ := tick_some hst
      by_cases hid : id' = id
      · subst hid
        by_cases htake : id' ∈ s.actors ∧ id' ∈ s.mailboxes ∧ id' ∉ s.pausedMailboxes ∧
            0 < (s.mailbox id').length
        · obtain ⟨hactor, hmailbox, hpaused, hpos⟩ := htake
          have hrest : footprint s id' = atRest (startedOf s id') :=
            hserial.eq_atRest (.inl (by simp [footprint, hstack]))
          obtain ⟨msg, -, -, hmsg, -⟩ := hsound.dequeue hpos
          refine .inr ⟨hrest, .processMailbox 0, msg, .inr ⟨0, rfl, rfl⟩, ?_⟩
          rw [processMailbox_start (s := { s with immediates := s.immediates.erase id' }) hactor
            hmailbox hpaused hpos hmsg]
          exact footprint_startHandler_self _ msg (footprint_lock_self hrest)
        · refine .inl ?_
          unfold Node.processMailbox
          split_ifs with hgone hempty
          · rfl
          · rfl
          · simp only [not_or, not_not] at hgone
            exact absurd ⟨hgone.2.1, hgone.1, hgone.2.2, Nat.pos_of_ne_zero hempty⟩ htake
      · refine .inl ?_
        unfold Node.processMailbox
        split_ifs
        · rfl
        · rfl
        · rw [footprint_processLoop_of_ne hid]
          exact footprint_lock_of_ne (s := s) hid
  | handlerAwaits =>
      obtain ⟨id', task, msg, rest, hstack, ⟨prev, rfl, rfl⟩ | ⟨-, rfl⟩⟩ := handlerAwaits_some hst
      · have hne : id' ≠ id := ha _ rest hstack
        refine .inl ?_
        rw [footprint_syncLocalCastFinally_of_ne hne, footprint_suspend_of_ne hne]
        exact footprint_pop_of_ne hstack hne
      · have hne : id' ≠ id := ha _ rest hstack
        refine .inl ?_
        rw [footprint_suspend_of_ne hne]
        exact footprint_pop_of_ne hstack hne
  | handlerResumes index =>
      obtain ⟨r, hstack, hr, rfl⟩ := handlerResumes_some hst
      have hawaiting : s.suspended.filter (fun r => r.id = id) = [] := by
        rcases hserial with ⟨started, heq⟩ | ⟨task, msg, started, heq, -⟩
        · exact congrArg Footprint.awaiting heq
        · exact congrArg Footprint.awaiting heq
      rw [List.filter_eq_nil_iff] at hawaiting
      have hne : r.id ≠ id := fun heq =>
        hawaiting r (List.mem_of_getElem? hr) (decide_eq_true heq)
      have hrest : (s.suspended.eraseIdx index).filter (fun r => r.id = id) = [] := by
        rw [List.filter_eq_nil_iff]
        exact fun r' hr' => hawaiting r' (List.mem_of_mem_eraseIdx hr')
      refine .inl ?_
      simp [footprint, startedOf, hstack, hne, hrest, List.filter_eq_nil_iff.2 hawaiting]
  | handlerReturns value =>
      obtain ⟨id', task, msg, rest, hstack, rfl⟩ := handlerReturns_some hst
      have hne : id' ≠ id := ha _ rest hstack
      refine .inl ?_
      rw [footprint_afterReturn_of_ne hne]
      exact footprint_pop_of_ne hstack hne
  | handlerThrows error =>
      obtain ⟨id', task, msg, rest, hstack, rfl⟩ := handlerThrows_some hst
      have hne : id' ≠ id := ha _ rest hstack
      refine .inl ?_
      rw [footprint_afterThrow_of_ne hne]
      exact footprint_pop_of_ne hstack hne
  | crashHandled =>
      obtain ⟨id', task, rest, hstack, ⟨n, rfl, rfl⟩ | ⟨prev, rfl, rfl⟩ | ⟨-, rfl⟩⟩ :=
        crashHandled_some hst
      · have hne : id' ≠ id := ha _ rest hstack
        refine .inl ?_
        rw [footprint_processEnd_of_ne hne]
        exact footprint_pop_of_ne hstack hne
      · have hne : id' ≠ id := ha _ rest hstack
        refine .inl ?_
        rw [footprint_syncLocalCastFinally_of_ne hne]
        exact footprint_pop_of_ne hstack hne
      · exact .inl (footprint_pop_of_ne hstack (ha _ rest hstack))
  | dispatchCast | stash | unstash | unstashAll | clearStash | pauseMailbox | resumeMailbox
  | injectMessages => exact absurd trivial hpassive

/-- When its handler returns the instance comes to rest, or its batch goes on. -/
theorem footprint_handlerReturns {task : System.Task V} {msg : StashedMessage V}
    {rest : List (Runner V)} (hsound : Sound s)
    (hstack : s.stack = ⟨id, task, .handling msg⟩ :: rest)
    (hserving : footprint s id = serving id task msg started)
    (hdrains : Drains ⟨id, task, .handling msg⟩) (value : V)
    (hst : s.handlerReturns value = some t) :
    footprint t id = atRest (started ++ [msg]) ∨
      ∃ n msg', footprint t id = serving id (.processMailbox n) msg' (started ++ [msg]) := by
  obtain ⟨id', task', msg'', rest', hstack', rfl⟩ := handlerReturns_some hst
  rw [hstack] at hstack'
  cases hstack'
  have hpopped : footprint { s with stack := rest } id = entered (started ++ [msg]) := by
    have hrunning := congrArg Footprint.running hserving
    simp only [footprint, serving, hstack, decide_true, List.filter_cons_of_pos, List.cons.injEq,
      true_and] at hrunning
    have hothers := congrArg (fun f => Footprint.mk [] f.awaiting f.processing f.started) hserving
    simp only [footprint, serving] at hothers
    rw [footprint, hrunning]
    exact hothers
  exact footprint_afterReturn_self (s := { s with stack := rest }) hsound hpopped hdrains value

end

end Libeam.Proofs.SerialHandlers
