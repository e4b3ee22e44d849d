import Libeam.Proofs.PathsAgree
/-!
# Which handling answers a stashed call

The caller is owed the result of the first handling that ends without having stashed the
message.  What the code looks at is whether the message is in the stash when a handling ends, and
not even that when the first handling of the fast path throws.
-/

namespace Libeam.Proofs.StashedCalls

open Lib.Transition Libeam.System PathsAgree

variable {V : Type}

/-- A call, with what its handlings have done so far. -/
structure Tracked (V : Type) where
  call : PendingCall V
  /-- The message has been stashed during the handling that runs. -/
  stashed : Bool
  /-- How the first handling ended that did not stash the message. -/
  due : Option (Outcome V)
  deriving DecidableEq, Repr

namespace Tracked

/-- A call that the fast path has taken, or one that waits in the mailbox. -/
def start (timeout : Nat) : CallPath → Tracked V
  | .syncLocalCall => ⟨.startSync timeout, false, none⟩
  | .processMailbox => ⟨.enqueued timeout, false, none⟩

/-- A handling ends. -/
def ends (s : Tracked V) (outcome : Outcome V) : Option (Outcome V) :=
  if s.stashed ∨ s.due ≠ none then s.due else some outcome

def stashedAfter (s : Tracked V) : CallEvent V → Bool
  | .stash => true
  | .rerun => false
  | _ => s.stashed

def dueAfter (s : Tracked V) : CallEvent V → Option (Outcome V)
  | .returns value => s.ends (.resolved value)
  | .throws error => s.ends (.rejected error)
  | _ => s.due

def step (s : Tracked V) (e : CallEvent V) : Option (Tracked V) :=
  (s.call.step e).map fun call => ⟨call, s.stashedAfter e, s.dueAfter e⟩

end Tracked

/-- The outcome is what a handler returned or threw. -/
def FromHandler : Outcome V → Prop
  | .resolved _ | .rejected _ => True
  | _ => False

/-- The caller gets no other result than the one it is owed, and is not left without an answer
by a handling that owes it one. -/
structure Answered (s : Tracked V) : Prop where
  no_other : ∀ o, s.call.outcome = some o → FromHandler o → s.due = some o
  not_left : s.due ≠ none → s.call.outcome ≠ none

/-- A handling of an unanswered call that ends has stashed the message exactly if it is in the
stash; the first one of the fast path does not throw if it has. -/
def EndsAsStashed (s : Tracked V) : CallEvent V → Prop
  | .returns _ => s.call.outcome = none → (0 < s.call.stash ↔ s.stashed)
  | .throws _ => s.call.outcome = none →
      if s.call.handling = some .syncLocalCall then s.stashed = false
      else (0 < s.call.stash ↔ s.stashed)
  | _ => True

/-- Whoever is not in the first handling of the fast path is answered through its callbacks. -/
structure Owed (s : Tracked V) : Prop where
  answered : Answered s
  callbacks : s.call.outcome = none → s.call.handling ≠ some .syncLocalCall →
    s.call.callbacks = true

section

variable {c c' : PendingCall V} {s t : Tracked V} {e : CallEvent V}

theorem owed_start (timeout : Nat) (path : CallPath) :
    Owed (Tracked.start timeout path : Tracked V) := by
  cases path with
  | syncLocalCall =>
      exact ⟨⟨fun _ h => (nomatch h), fun h => absurd rfl h⟩, fun _ h => absurd rfl h⟩
  | processMailbox => exact ⟨⟨fun _ h => (nomatch h), fun h => absurd rfl h⟩, fun _ _ => rfl⟩

theorem Owed.due_eq_none (h : Owed s) (hnone : s.call.outcome = none) : s.due = none :=
  by_contra fun hdue => h.answered.not_left hdue hnone

theorem step_eq (h : s.step e = some t) :
    s.call.step e = some t.call ∧ t.stashed = s.stashedAfter e ∧ t.due = s.dueAfter e := by
  obtain ⟨call, hcall, rfl⟩ := Option.map_eq_some_iff.1 h
  exact ⟨hcall, rfl, rfl⟩

/-! ## A handling ends -/

/-- A handling ends with `o`: the call waits on, or is answered. -/
structure Ended (s t : Tracked V) (o : Outcome V) (waits : Prop) : Prop where
  waiting : waits → t.call.outcome = none ∧ t.call.callbacks = true
  settled : ¬ waits → t.call.outcome = some o
  due : t.due = if s.stashed then none else some o

theorem Owed.ends_eq (h : Owed s) (hnone : s.call.outcome = none) (o : Outcome V) :
    s.ends o = if s.stashed then none else some o := by
  rw [Tracked.ends, h.due_eq_none hnone]
  simp

theorem Owed.batchEnds (h : Owed s) (hnone : s.call.outcome = none)
    (hbatch : s.call.handling = some .processMailbox) {o : Outcome V}
    (hcall : t.call = { s.call with handling := none }.batchEnds o) (hdue : t.due = s.ends o) :
    Ended s t o (0 < s.call.stash) := by
  have hcallbacks : s.call.callbacks = true := h.callbacks hnone (by rw [hbatch]; nofun)
  refine ⟨fun hwaits => ?_, fun hwaits => ?_, hdue.trans (h.ends_eq hnone o)⟩
  · rw [hcall, PendingCall.batchEnds, if_pos hwaits]
    exact ⟨hnone, hcallbacks⟩
  · rw [hcall, PendingCall.batchEnds, if_neg hwaits,
      answer_of_none (c := { s.call with handling := none }) hcallbacks hnone]

theorem Owed.returns (h : Owed s) (hnone : s.call.outcome = none) {value : V}
    (hst : s.step (.returns value) = some t) :
    Ended s t (.resolved value) (0 < s.call.stash) := by
  obtain ⟨hcall, -, hdue⟩ := step_eq hst
  dsimp only [PendingCall.step] at hcall
  split at hcall
  next => exact nomatch hcall
  next hsync =>
    have hend := Option.some.inj hcall
    refine ⟨fun hwaits => ?_, fun hwaits => ?_, hdue.trans (h.ends_eq hnone _)⟩
    · rw [← hend, PendingCall.syncReturns, if_pos hwaits]
      exact ⟨hnone, rfl⟩
    · rw [← hend, PendingCall.syncReturns, if_neg hwaits,
        settle_of_none (c := { s.call with handling := none }) hnone]
  next hbatch => exact h.batchEnds hnone hbatch (Option.some.inj hcall).symm hdue

theorem Owed.throws (h : Owed s) (hnone : s.call.outcome = none) {error : V}
    (hst : s.step (.throws error) = some t) :
    Ended s t (.rejected error)
      (s.call.handling ≠ some .syncLocalCall ∧ 0 < s.call.stash) := by
  obtain ⟨hcall, -, hdue⟩ := step_eq hst
  dsimp only [PendingCall.step] at hcall
  split at hcall
  next => exact nomatch hcall
  next hsync =>
    have hend := Option.some.inj hcall
    refine ⟨fun hwaits => absurd hsync hwaits.1, fun _ => ?_, hdue.trans (h.ends_eq hnone _)⟩
    rw [← hend, settle_of_none (c := { s.call with handling := none }) hnone]
  next hbatch =>
    have hended := h.batchEnds hnone hbatch (Option.some.inj hcall).symm hdue
    have hlater : s.call.handling ≠ some .syncLocalCall := by
      rw [hbatch]
      nofun
    exact ⟨fun hwaits => hended.waiting hwaits.2,
      fun hwaits => hended.settled fun hpos => hwaits ⟨hlater, hpos⟩, hended.due⟩

/-- The call waits on exactly if the handling has stashed the message. -/
theorem Ended.answered_iff {o : Outcome V} {waits : Prop} (h : Ended s t o waits)
    (ho : FromHandler o) : Answered t ↔ (waits ↔ s.stashed) := by
  have hdue := h.due
  by_cases hwaits : waits
  · obtain ⟨hnone, -⟩ := h.waiting hwaits
    rw [iff_true_intro hwaits, true_iff]
    constructor
    · intro hanswered
      by_contra hstashed
      rw [if_neg hstashed] at hdue
      exact hanswered.not_left (hdue ▸ nofun) hnone
    · intro hstashed
      rw [if_pos hstashed] at hdue
      exact ⟨fun o' ho' => (nomatch hnone.symm.trans ho'), fun hne => absurd hdue hne⟩
  · have hsome := h.settled hwaits
    rw [iff_false_intro hwaits, false_iff]
    constructor
    · intro hanswered hstashed
      rw [if_pos hstashed] at hdue
      exact nomatch hdue.symm.trans (hanswered.no_other o hsome ho)
    · intro hstashed
      rw [if_neg hstashed] at hdue
      refine ⟨fun o' ho' _ => ?_, fun _ => by rw [hsome]; nofun⟩
      rw [← Option.some.inj (hsome.symm.trans ho'), hdue]

theorem endsAsStashed_throws_iff (hnone : s.call.outcome = none) {error : V} :
    EndsAsStashed s (.throws error) ↔
      ((s.call.handling ≠ some .syncLocalCall ∧ 0 < s.call.stash) ↔ s.stashed) := by
  unfold EndsAsStashed
  by_cases hsync : s.call.handling = some .syncLocalCall
  · simp [hnone, hsync]
  · simp [hnone, hsync]

/-! ## Everything else -/

/-- Whatever else happens gives no result of a handler. -/
theorem outcome_of_other (hst : c.step e = some c') (hnone : c.outcome = none)
    (hreturns : ∀ value, e ≠ .returns value) (hthrows : ∀ error, e ≠ .throws error) :
    ∀ o, c'.outcome = some o → ¬ FromHandler o := by
  have hanswer : ∀ {d : PendingCall V} (o' : Outcome V), d.outcome = none → ¬ FromHandler o' →
      ∀ o, (d.answer o').outcome = some o → ¬ FromHandler o := by
    intro d o' hd ho' o ho
    unfold PendingCall.answer at ho
    split_ifs at ho
    · rw [settle_of_none hd] at ho
      exact Option.some.inj ho ▸ ho'
    · exact nomatch hd.symm.trans ho
  cases e with
  | elapse =>
      obtain rfl := Option.some.inj hst
      intro o ho
      unfold PendingCall.elapse at ho
      split at ho
      · exact nomatch hnone.symm.trans ho
      · split_ifs at ho
        · rw [settle_of_none (c := { c with timer := none }) hnone] at ho
          exact Option.some.inj ho ▸ id
        · exact nomatch hnone.symm.trans ho
  | stash | unstash | rerun =>
      obtain ⟨-, ⟨⟩⟩ := Option.ite_none_right_eq_some.1 hst
      exact fun o ho => nomatch hnone.symm.trans ho
  | unstashAll =>
      obtain rfl := Option.some.inj hst
      exact fun o ho => nomatch hnone.symm.trans ho
  | clearStash =>
      obtain rfl := Option.some.inj hst
      intro o ho
      dsimp only at ho
      split_ifs at ho
      · exact hanswer .discarded hnone id o ho
      · exact nomatch hnone.symm.trans ho
  | evict =>
      obtain ⟨-, ⟨⟩⟩ := Option.ite_none_right_eq_some.1 hst
      exact hanswer (d := { c with queued := c.queued - 1 }) .mailboxFull hnone id
  | returns value => exact absurd rfl (hreturns value)
  | throws error => exact absurd rfl (hthrows error)

/-- A handling that does not end goes on. -/
theorem handling_of_other (hst : c.step e = some c') (hsome : c.handling ≠ none)
    (hreturns : ∀ value, e ≠ .returns value) (hthrows : ∀ error, e ≠ .throws error) :
    c'.handling = c.handling := by
  cases e with
  | elapse =>
      obtain rfl := Option.some.inj hst
      exact (kept_elapse c).handling
  | stash | unstash =>
      obtain ⟨-, ⟨⟩⟩ := Option.ite_none_right_eq_some.1 hst
      rfl
  | unstashAll =>
      obtain rfl := Option.some.inj hst
      rfl
  | clearStash =>
      obtain rfl := Option.some.inj hst
      dsimp only
      split_ifs
      · exact (kept_answer c .discarded).handling
      · rfl
  | evict =>
      obtain ⟨-, ⟨⟩⟩ := Option.ite_none_right_eq_some.1 hst
      exact (kept_answer { c with queued := c.queued - 1 } .mailboxFull).handling
  | rerun =>
      obtain ⟨⟨-, hidle⟩, -⟩ := Option.ite_none_right_eq_some.1 hst
      exact absurd hidle hsome
  | returns value => exact absurd rfl (hreturns value)
  | throws error => exact absurd rfl (hthrows error)

/-- Only the end of a handling is of account for what is owed. -/
theorem Owed.other (h : Owed s) (hst : s.step e = some t) (hnone : s.call.outcome = none)
    (hreturns : ∀ value, e ≠ .returns value) (hthrows : ∀ error, e ≠ .throws error) :
    Answered t := by
  obtain ⟨hcall, -, hdue⟩ := step_eq hst
  have hkept : t.due = s.due := by
    rw [hdue]
    cases e with
    | returns value => exact absurd rfl (hreturns value)
    | throws error => exact absurd rfl (hthrows error)
    | _ => rfl
  rw [h.due_eq_none hnone] at hkept
  exact ⟨fun o ho hfrom => absurd hfrom (outcome_of_other hcall hnone hreturns hthrows o ho),
    fun hne => absurd hkept hne⟩

/-- An answered call stays as it was answered. -/
theorem Owed.settled (h : Owed s) (hst : s.step e = some t) {o : Outcome V}
    (hsome : s.call.outcome = some o) : Answered t := by
  obtain ⟨hcall, -, hdue⟩ := step_eq hst
  have hsome' := outcome_step hsome hcall
  refine ⟨fun o' ho' hfrom => ?_, fun _ => by rw [hsome']; nofun⟩
  obtain rfl := Option.some.inj (hsome'.symm.trans ho')
  have howed := h.answered.no_other o hsome hfrom
  rw [hdue]
  cases e with
  | returns value | throws error =>
      rw [Tracked.dueAfter, Tracked.ends, if_pos (.inr (by rw [howed]; nofun)), howed]
  | _ => exact howed

theorem Owed.answered_iff (h : Owed s) (hst : s.step e = some t) :
    Answered t ↔ EndsAsStashed s e := by
  cases hnone : s.call.outcome with
  | some o =>
      refine iff_of_true (h.settled hst hnone) ?_
      cases e with
      | returns | throws => exact fun hopen => nomatch hopen.symm.trans hnone
      | _ => trivial
  | none =>
      cases e with
      | returns value =>
          rw [(h.returns hnone hst).answered_iff trivial]
          exact ⟨fun hiff _ => hiff, fun hends => hends hnone⟩
      | throws error =>
          rw [(h.throws hnone hst).answered_iff trivial, endsAsStashed_throws_iff hnone]
      | _ => exact iff_of_true (h.other hst hnone nofun nofun) trivial

/-- Every call without an answer gets its callbacks when its first handling is over. -/
theorem Owed.step (h : Owed s) (hst : s.step e = some t) (hends : EndsAsStashed s e) : Owed t := by
  refine ⟨(h.answered_iff hst).2 hends, fun hnone hlater => ?_⟩
  have hopen : s.call.outcome = none := by
    cases hs : s.call.outcome with
    | none => rfl
    | some o => exact nomatch (outcome_step hs (step_eq hst).1).symm.trans hnone
  by_cases hsync : s.call.handling = some .syncLocalCall
  · have hwaited : ∀ {o : Outcome V} {waits : Prop}, Ended s t o waits →
        t.call.callbacks = true := by
      intro o waits hended
      by_cases hwaits : waits
      · exact (hended.waiting hwaits).2
      · exact nomatch (hended.settled hwaits).symm.trans hnone
    cases e with
    | returns value => exact hwaited (h.returns hopen hst)
    | throws error => exact hwaited (h.throws hopen hst)
    | _ =>
        have hstays := handling_of_other (step_eq hst).1 (hsync ▸ nofun) nofun nofun
        exact absurd (hstays.trans hsync) hlater
  · have hmoved := (moved_step (step_eq hst).1).batch hsync
    exact hmoved.2.trans (h.callbacks hopen hsync)

/-! ## Runs -/

/-- Whatever the handlers, the other messages and the clock do, the caller is answered by the
handling that owes it the answer, at every moment, if and only if every handling ends as it has
stashed the message. -/
theorem answered_iff_endsAsStashed (timeout : Nat) (path : CallPath) {es : List (CallEvent V)}
    {u : Tracked V} (hrun : run Tracked.step (.start timeout path) es = some u) :
    Throughout Tracked.step Answered (Tracked.start timeout path : Tracked V) es ↔
      Along Tracked.step EndsAsStashed (Tracked.start timeout path) es :=
  throughout_iff_along (I := Owed) (A := fun _ _ => True)
    (fun _ _ _ h _ hends hst => h.step hst hends) (fun _ h => h.answered)
    (fun _ _ _ h _ hends hst hanswered => hends ((h.answered_iff hst).1 hanswered))
    (owed_start timeout path) (along_of_forall_mem (P := fun _ => True) (fun _ _ => trivial) _) hrun

end

/-- A call that is stashed at once, taken again and answered. -/
theorem answered_iff_endsAsStashed_later :
    Throughout Tracked.step Answered (Tracked.start 5000 .syncLocalCall : Tracked Nat)
        [.stash, .returns 0, .unstashAll, .rerun, .returns 7] ↔
      Along Tracked.step EndsAsStashed (Tracked.start 5000 .syncLocalCall)
        [.stash, .returns 0, .unstashAll, .rerun, .returns 7] :=
  answered_iff_endsAsStashed 5000 .syncLocalCall rfl

/-- The handler stashes the message and throws: the caller gets the error at once. -/
theorem stashed_call_rejected :
    ∃ u : Tracked Nat, run Tracked.step (.start 5000 .syncLocalCall) [.stash, .throws 1] = some u ∧
      u.due = none ∧ u.call.outcome = some (.rejected 1) ∧ u.call.stash = 1 ∧ ¬ Answered u :=
  ⟨_, rfl, rfl, rfl, rfl, fun h => nomatch h.no_other (.rejected 1) rfl trivial⟩

end Libeam.Proofs.StashedCalls
