import Libeam.Proofs.MailboxSound
/-!
# Which steps start a handler

Whether an action starts a message handler, of which instance and with which
message, can be told from the state before it.
-/

namespace Libeam.Proofs.HandlerStarts

open Libeam.System Libeam.System.Node Proofs.Frame MailboxSound

variable {V : Type}

/-- A batch would take this message of the instance now. -/
def Ready (s : Node V) (id : ActorId) (msg : StashedMessage V) : Prop :=
  0 < (s.mailbox id).length ∧ id ∈ s.actors ∧ id ∉ s.pausedMailboxes ∧
    (s.mailbox id).dequeue.2 = some msg

/-- The batch whose handler is on top of the stack goes on to its next message. -/
def Continues (s : Node V) (id : ActorId) (msg : StashedMessage V)
    (P : StashedMessage V → Prop) : Prop :=
  ∃ n current rest, s.stack = ⟨id, .processMailbox n, .handling current⟩ :: rest ∧
    n + 1 < mailboxBatchSize ∧ Ready s id msg ∧ P current

/-- The action invokes `handleCall` or `handleCast` of the instance with this
message. -/
def StartsHandler (s : Node V) (id : ActorId) (msg : StashedMessage V) : Action V → Prop
  | .tick id' => id' = id ∧ id ∈ s.mailboxes ∧ Ready s id msg
  | .dispatchCall id' message =>
      id' = id ∧ msg = ⟨s.nextUid, .call, message⟩ ∧ id ∈ s.actors ∧ id ∈ s.mailboxes ∧
        id ∉ s.processingActors ∧ id ∉ s.pausedMailboxes ∧ (s.mailbox id).length = 0
  | .rpcCall id' message => id' = id ∧ msg = ⟨s.nextUid, .call, message⟩ ∧ id ∈ s.actors
  | .rpcCast id' message => id' = id ∧ msg = ⟨s.nextUid, .cast, message⟩ ∧ id ∈ s.actors
  | .syncLocalCast id' message =>
      id' = id ∧ msg = ⟨s.nextUid, .cast, message⟩ ∧ id ∈ s.actors ∧
        id ∉ s.pausedMailboxes ∧ id ∉ s.processingActors
  | .handlerReturns _ => Continues s id msg fun _ => True
  | .handlerThrows _ =>
      -- after an error the batch goes on only when somebody else answers for it
      Continues s id msg fun current =>
        current.type = .call ∧ (s.wasStashed id current = true ∨ current.uid ∈ s.awaited)
  | _ => False

/-- Handlers start only of instances in the table. -/
theorem StartsHandler.mem_actors {s : Node V} {id : ActorId} {msg : StashedMessage V}
    {a : Action V} (h : StartsHandler s id msg a) : id ∈ s.actors := by
  cases a with
  | tick id' => exact h.2.2.2.1
  | dispatchCall | syncLocalCast => exact h.2.2.1
  | rpcCall id' message | rpcCast id' message => exact h.2.2
  | handlerReturns value | handlerThrows error =>
      obtain ⟨-, -, -, -, -, hready, -⟩ := h
      exact hready.2.1
  | _ => exact h.elim

/-- An action starts one handler only. -/
theorem starts_unique {s : Node V} {id id' : ActorId} {msg msg' : StashedMessage V}
    {a : Action V} (h : StartsHandler s id msg a) (h' : StartsHandler s id' msg' a) :
    id = id' ∧ msg = msg' := by
  have hready : ∀ {id}, Ready s id msg → Ready s id msg' → msg = msg' :=
    fun hr hr' => Option.some.inj (hr.2.2.2.symm.trans hr'.2.2.2)
  cases a with
  | tick id'' =>
      obtain ⟨rfl, -, hr⟩ := h
      obtain ⟨rfl, -, hr'⟩ := h'
      exact ⟨rfl, hready hr hr'⟩
  | dispatchCall id'' message | rpcCall id'' message | rpcCast id'' message
  | syncLocalCast id'' message => exact ⟨h.1.symm.trans h'.1, h.2.1.trans h'.2.1.symm⟩
  | handlerReturns value | handlerThrows error =>
      obtain ⟨n, current, rest, hstack, -, hr, -⟩ := h
      obtain ⟨n', current', rest', hstack', -, hr', -⟩ := h'
      rw [hstack] at hstack'
      cases hstack'
      exact ⟨rfl, hready hr hr'⟩
  | _ => exact h.elim

/-- One handler starts, which `P` announced, or none does. -/
def Starts (P : ActorId → StashedMessage V → Prop) (s t : Node V) : Prop :=
  (∃ id msg, P id msg ∧ t.started = s.started ++ [(id, msg)]) ∨
    (∀ id msg, ¬ P id msg) ∧ t.started = s.started

theorem starts_none {P : ActorId → StashedMessage V → Prop} {s t : Node V}
    (hP : ∀ id msg, ¬ P id msg) (h : t.started = s.started) : Starts P s t := .inr ⟨hP, h⟩

theorem Starts.congr {P Q : ActorId → StashedMessage V → Prop} {s t : Node V}
    (h : Starts P s t) (hPQ : ∀ id msg, P id msg ↔ Q id msg) : Starts Q s t := by
  rcases h with ⟨id, msg, hP, hstarted⟩ | ⟨hP, hstarted⟩
  · exact .inl ⟨id, msg, (hPQ id msg).1 hP, hstarted⟩
  · exact .inr ⟨fun id msg hQ => hP id msg ((hPQ id msg).2 hQ), hstarted⟩

theorem starts_processLoop (s : Node V) (id : ActorId) (processed : Nat) :
    Starts (fun id' msg => id' = id ∧ processed < mailboxBatchSize ∧ Ready s id msg) s
      (s.processLoop id processed) := by
  unfold Node.processLoop
  split_ifs with hloop
  · obtain ⟨hbatch, hpos, hactor, hpaused⟩ := hloop
    cases hmsg : (s.mailbox id).dequeue.2 with
    | some msg =>
        exact .inl ⟨id, msg, ⟨rfl, hbatch, hpos, hactor, hpaused, hmsg⟩, rfl⟩
    | none =>
        refine starts_none ?_ rfl
        rintro id' msg ⟨-, -, -, -, -, hsome⟩
        rw [hmsg] at hsome
        cases hsome
  · refine starts_none ?_ ?_
    · rintro id' msg ⟨-, hbatch, hpos, hactor, hpaused, -⟩
      exact hloop ⟨hbatch, hpos, hactor, hpaused⟩
    · unfold Node.processEnd
      dsimp only
      split_ifs <;> rfl

theorem started_syncLocalCallFinally (s : Node V) (id : ActorId)
    (prevMessage : Option (StashedMessage V)) :
    (s.syncLocalCallFinally id prevMessage).started = s.started := by
  unfold Node.syncLocalCallFinally
  dsimp only
  split_ifs <;> rfl

/-- Leaving the batch loop's body does not change what the loop looks at. -/
theorem ready_setCurrentMessage (s : Node V) (id : ActorId) (msg : StashedMessage V) :
    Ready (s.setCurrentMessage id none) id msg ↔ Ready s id msg := by
  unfold Ready
  rw [mailbox_setCurrentMessage]
  exact Iff.rfl

theorem continues_iff {s : Node V} {id id' : ActorId} {n : Nat}
    {msg current : StashedMessage V} {rest : List (Runner V)}
    (P : StashedMessage V → Prop)
    (hstack : s.stack = ⟨id, .processMailbox n, .handling current⟩ :: rest) :
    Continues s id' msg P ↔
      id' = id ∧ n + 1 < mailboxBatchSize ∧ Ready s id msg ∧ P current := by
  unfold Continues
  rw [hstack]
  constructor
  · rintro ⟨n', current', rest', heq, hrest⟩
    cases heq
    exact ⟨rfl, hrest⟩
  · rintro ⟨rfl, hrest⟩
    exact ⟨n, current, rest, rfl, hrest⟩

theorem not_continues {s : Node V} {id id' : ActorId} {task : System.Task V}
    {msg current : StashedMessage V} {rest : List (Runner V)} (P : StashedMessage V → Prop)
    (hstack : s.stack = ⟨id, task, .handling current⟩ :: rest)
    (htask : ∀ n, task ≠ .processMailbox n) : ¬ Continues s id' msg P := by
  rintro ⟨n, current', rest', heq, -⟩
  rw [hstack] at heq
  cases heq
  exact htask n rfl

/-- The batch goes on after a handler that somebody has been answered for. -/
theorem starts_next {s s' : Node V} {id : ActorId} {n : Nat} {current : StashedMessage V}
    {rest : List (Runner V)} {P : ActorId → StashedMessage V → Prop} (hP : P id current)
    (hstack : s.stack = ⟨id, .processMailbox n, .handling current⟩ :: rest)
    (hstarted : s'.started = s.started)
    (hready : ∀ msg, Ready s' id msg ↔ Ready s id msg) :
    Starts (fun id' msg => Continues s id' msg (P id')) s
      ((s'.setCurrentMessage id none).processLoop id (n + 1)) := by
  have h := starts_processLoop (s'.setCurrentMessage id none) id (n + 1)
  unfold Starts at h ⊢
  rw [setCurrentMessage_started, hstarted] at h
  refine Starts.congr h fun id' msg => ?_
  rw [continues_iff (P id') hstack, ready_setCurrentMessage, hready]
  constructor
  · rintro ⟨rfl, hbatch, hready⟩
    exact ⟨rfl, hbatch, hready, hP⟩
  · rintro ⟨rfl, hbatch, hready, -⟩
    exact ⟨rfl, hbatch, hready⟩

theorem starts_handlerReturns {s : Node V} {id : ActorId} {task : System.Task V}
    {current : StashedMessage V} {rest : List (Runner V)} (value : V)
    (hstack : s.stack = ⟨id, task, .handling current⟩ :: rest) :
    Starts (fun id' msg => Continues s id' msg fun _ => True) s
      (({ s with stack := rest }).afterReturn id current value task) := by
  cases task with
  | processMailbox n =>
      unfold Node.afterReturn
      dsimp only
      split_ifs
      · exact starts_next (P := fun _ _ => True) trivial hstack rfl fun _ => Iff.rfl
      · exact starts_next (P := fun _ _ => True) trivial hstack rfl fun _ => Iff.rfl
  | syncLocalCall prev =>
      refine starts_none (fun id' msg => not_continues _ hstack (by simp)) ?_
      unfold Node.afterReturn
      dsimp only
      rw [started_syncLocalCallFinally]
      split_ifs <;> rfl
  | syncLocalCast prev | abandoned | rpcCall | rpcCast =>
      exact starts_none (fun id' msg => not_continues _ hstack (by simp)) rfl

theorem starts_handlerThrows {s : Node V} {id : ActorId} {task : System.Task V}
    {current : StashedMessage V} {rest : List (Runner V)} (error : V)
    (hstack : s.stack = ⟨id, task, .handling current⟩ :: rest) :
    Starts (fun id' msg => Continues s id' msg fun current => current.type = .call ∧
        (s.wasStashed id' current = true ∨ current.uid ∈ s.awaited)) s
      (({ s with stack := rest }).afterThrow id current error task) := by
  let answered := fun (id' : ActorId) (current : StashedMessage V) =>
    current.type = .call ∧ (s.wasStashed id' current = true ∨ current.uid ∈ s.awaited)
  cases task with
  | processMailbox n =>
      unfold Node.afterThrow
      split_ifs with hstashed hawaited
      · exact starts_next (P := answered) ⟨hstashed.1, .inl hstashed.2⟩ hstack rfl
          fun _ => Iff.rfl
      · exact starts_next (P := answered) ⟨hawaited.1, .inr hawaited.2⟩ hstack rfl
          fun _ => Iff.rfl
      · refine starts_none (fun id' msg => ?_) rfl
        rw [continues_iff _ hstack]
        rintro ⟨rfl, -, -, hcall, hstashed' | hawaited'⟩
        · exact hstashed ⟨hcall, hstashed'⟩
        · exact hawaited ⟨hcall, hawaited'⟩
  | syncLocalCall prev =>
      refine starts_none (fun id' msg => not_continues _ hstack (by simp)) ?_
      unfold Node.afterThrow
      rw [started_syncLocalCallFinally]
      rfl
  | syncLocalCast prev | abandoned | rpcCall | rpcCast =>
      exact starts_none (fun id' msg => not_continues _ hstack (by simp)) rfl

theorem starts_step {s t : Node V} {a : Action V} (hst : s.step a = some t) :
    Starts (fun id msg => StartsHandler s id msg a) s t := by
  by_cases hpassive : IsPassive a
  · refine starts_none (fun id msg hstarts => ?_) (passive_step hpassive hst).started
    cases a <;> first | exact hpassive | exact hstarts
  cases a with
  | spawn config initThrows =>
      cases hst
      refine starts_none (fun _ _ hstarts => hstarts) ?_
      unfold Node.spawn
      split_ifs
      · rfl
      · exact ((Passive.refl _).scheduleProcessMailbox s.nextId).started
  | remove id => cases hst; exact starts_none (fun _ _ hstarts => hstarts) rfl
  | dispatchCall id message =>
      cases hst
      unfold Node.dispatchCall
      split_ifs with hlocal hidle
      · exact .inl ⟨id, _, ⟨rfl, rfl, hlocal.1, hlocal.2, hidle⟩, rfl⟩
      · refine starts_none ?_ (passive_enqueueCall s id message).started
        rintro _ _ ⟨rfl, -, -, -, hfast⟩
        exact hidle hfast
      · refine starts_none ?_ rfl
        rintro _ _ ⟨rfl, -, hactor, hmailbox, -⟩
        exact hlocal ⟨hactor, hmailbox⟩
  | rpcCall id message =>
      cases hst
      unfold handleRpcCall
      split_ifs with hlive
      · exact .inl ⟨id, _, ⟨rfl, rfl, hlive⟩, rfl⟩
      · refine starts_none ?_ rfl
        rintro _ _ ⟨rfl, -, hactor⟩
        exact hlive hactor
  | rpcCast id message =>
      cases hst
      unfold handleRpcCast
      split_ifs with hlive
      · exact .inl ⟨id, _, ⟨rfl, rfl, hlive⟩, rfl⟩
      · refine starts_none ?_ rfl
        rintro _ _ ⟨rfl, -, hactor⟩
        exact hlive hactor
  | syncLocalCast id message =>
      cases hst
      unfold Node.syncLocalCast
      split_ifs with hskip
      · refine starts_none ?_ rfl
        rintro _ _ ⟨rfl, -, hactor, hpaused, hprocessing⟩
        rcases hskip with hgone | hskip | hskip
        · exact hgone hactor
        · exact hpaused hskip
        · exact hprocessing hskip
      · simp only [not_or, not_not] at hskip
        exact .inl ⟨id, _, ⟨rfl, rfl, hskip⟩, rfl⟩
  | tick id =>
      obtain ⟨-, -, rfl⟩ := tick_some hst
      unfold Node.processMailbox
      split_ifs with hskip hempty
      · refine starts_none ?_ rfl
        rintro _ _ ⟨rfl, hmailbox, -, hactor, hpaused, -⟩
        rcases hskip with hgone | hgone | hskip
        · exact hgone hmailbox
        · exact hgone hactor
        · exact hpaused hskip
      · refine starts_none ?_ rfl
        rintro _ _ ⟨rfl, -, hpos, -⟩
        exact absurd hempty hpos.ne'
      · simp only [not_or, not_not] at hskip
        refine Starts.congr (starts_processLoop { s with
          immediates := s.immediates.erase id
          processingActors := insert id s.processingActors } id 0) fun id' msg => ?_
        constructor
        · rintro ⟨rfl, -, hready⟩
          exact ⟨rfl, hskip.1, hready⟩
        · rintro ⟨rfl, -, hready⟩
          exact ⟨rfl, by decide, hready⟩
  | handlerAwaits =>
      obtain ⟨id, task, msg, rest, -, ⟨prev, -, rfl⟩ | ⟨-, rfl⟩⟩ :=
        handlerAwaits_some hst
      · exact starts_none (fun _ _ hstarts => hstarts) rfl
      · exact starts_none (fun _ _ hstarts => hstarts) rfl
  | handlerResumes index =>
      obtain ⟨r, -, -, rfl⟩ := handlerResumes_some hst
      exact starts_none (fun _ _ hstarts => hstarts) rfl
  | handlerReturns value =>
      obtain ⟨id, task, msg, rest, hstack, rfl⟩ := handlerReturns_some hst
      exact starts_handlerReturns value hstack
  | handlerThrows error =>
      obtain ⟨id, task, msg, rest, hstack, rfl⟩ := handlerThrows_some hst
      exact starts_handlerThrows error hstack
  | crashHandled =>
      obtain ⟨id, task, rest, -, ⟨n, -, rfl⟩ | ⟨prev, -, rfl⟩ | ⟨-, rfl⟩⟩ :=
        crashHandled_some hst
      · refine starts_none (fun _ _ hstarts => hstarts) ?_
        unfold Node.processEnd
        dsimp only
        split_ifs <;> rfl
      · exact starts_none (fun _ _ hstarts => hstarts) rfl
      · exact starts_none (fun _ _ hstarts => hstarts) rfl
  | dispatchCast | stash | unstash | unstashAll | clearStash | pauseMailbox
  | resumeMailbox | injectMessages => exact absurd trivial hpassive

end Libeam.Proofs.HandlerStarts
