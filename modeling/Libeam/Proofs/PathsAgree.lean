import Libeam.System.CallPaths
/-!
# When the fast path of a call agrees with the mailbox

The two paths differ in when the timer of the caller runs and in when the message gets its
callbacks.  `Coupled` relates the two as long as the call is unanswered: on the fast path
it is either in its first invocation, without timer and callbacks, or it was stashed and
has a timer that fires no earlier than that of the queued call.
-/

namespace Libeam.Proofs.PathsAgree

open Lib.Transition Libeam.System

variable {V : Type}

/-- Both are unsettled, or settled with the same outcome. -/
def SameOutcome (p : BothPaths V) : Prop := p.sync.outcome = p.queued.outcome

/-- The handler that `_syncLocalCall` invoked has not finished. -/
def FirstRun (p : BothPaths V) : Prop := p.sync.handling = some .syncLocalCall

/-- While the call is unanswered: its time-out does not elapse, unless the call was
stashed before any time had passed; and during the first run the handler does not throw
with the message stashed, nor is the message discarded or evicted. -/
def Alike (p : BothPaths V) : CallEvent V → Prop
  | .elapse => p.queued.outcome = none → p.queued.timer = some 1 → p.sync.timer = some 1
  | .throws _ | .clearStash => p.queued.outcome = none → FirstRun p → p.queued.stash = 0
  | .evict => p.queued.outcome = none → ¬ FirstRun p
  | _ => True

/-! ## Settling -/

section
variable {c c' : PendingCall V}

theorem settle_of_none (h : c.outcome = none) (o : Outcome V) :
    c.settle o = { c with outcome := some o } := by
  unfold PendingCall.settle
  rw [h]

theorem settle_of_some {o : Outcome V} (h : c.outcome = some o) (o' : Outcome V) :
    c.settle o' = c := by
  unfold PendingCall.settle
  rw [h]

theorem answer_of_none (hcallbacks : c.callbacks = true) (h : c.outcome = none)
    (o : Outcome V) : c.answer o = { c with outcome := some o } := by
  unfold PendingCall.answer
  rw [if_pos hcallbacks, settle_of_none h]

theorem answer_of_some {o : Outcome V} (h : c.outcome = some o) (o' : Outcome V) :
    c.answer o' = c := by
  unfold PendingCall.answer
  split_ifs
  · exact settle_of_some h o'
  · rfl

/-- What settling leaves alone. -/
structure Kept (c d : PendingCall V) : Prop where
  timeout : d.timeout = c.timeout
  handling : d.handling = c.handling
  stash : d.stash = c.stash
  queued : d.queued = c.queued
  callbacks : d.callbacks = c.callbacks

theorem kept_settle (c : PendingCall V) (o : Outcome V) : Kept c (c.settle o) := by
  unfold PendingCall.settle
  split <;> exact ⟨rfl, rfl, rfl, rfl, rfl⟩

theorem kept_answer (c : PendingCall V) (o : Outcome V) : Kept c (c.answer o) := by
  unfold PendingCall.answer
  split_ifs
  · exact kept_settle c o
  · exact ⟨rfl, rfl, rfl, rfl, rfl⟩

theorem kept_batchEnds (c : PendingCall V) (o : Outcome V) : Kept c (c.batchEnds o) := by
  unfold PendingCall.batchEnds
  split_ifs
  · exact ⟨rfl, rfl, rfl, rfl, rfl⟩
  · exact kept_answer c o

theorem kept_elapse (c : PendingCall V) : Kept c c.elapse := by
  unfold PendingCall.elapse
  split
  · exact ⟨rfl, rfl, rfl, rfl, rfl⟩
  · split_ifs
    · have h := kept_settle { c with timer := none } .timedOut
      exact ⟨h.timeout, h.handling, h.stash, h.queued, h.callbacks⟩
    · exact ⟨rfl, rfl, rfl, rfl, rfl⟩

/-! ## The place of the message -/

def stashAfter (stash : Nat) : CallEvent V → Nat
  | .stash => stash + 1
  | .unstash => stash - 1
  | .unstashAll | .clearStash => 0
  | _ => stash

def queuedAfter (stash queued : Nat) : CallEvent V → Nat
  | .unstash => queued + 1
  | .unstashAll => stash + queued
  | .evict | .rerun => queued - 1
  | _ => queued

def runsAfter (runs : Bool) : CallEvent V → Bool
  | .rerun => true
  | .returns _ | .throws _ => false
  | _ => runs

/-- What an event does to the place of the message, on either path. -/
structure Moved (c : PendingCall V) (e : CallEvent V) (c' : PendingCall V) : Prop where
  timeout : c'.timeout = c.timeout
  stash : c'.stash = stashAfter c.stash e
  queued : c'.queued = queuedAfter c.stash c.queued e
  runs : c'.handling.isSome = runsAfter c.handling.isSome e
  /-- Only `_syncLocalCall` gives a message its callbacks. -/
  batch : c.handling ≠ some .syncLocalCall →
    c'.handling ≠ some .syncLocalCall ∧ c'.callbacks = c.callbacks

theorem moved_of_kept {e : CallEvent V} {d : PendingCall V} (h : Kept d c')
    (hd : Moved c e d) : Moved c e c' where
  timeout := h.timeout.trans hd.timeout
  stash := h.stash.trans hd.stash
  queued := h.queued.trans hd.queued
  runs := (congrArg Option.isSome h.handling).trans hd.runs
  batch := by
    rw [h.handling, h.callbacks]
    exact hd.batch

theorem kept_syncReturns (c : PendingCall V) (value : V) :
    (c.syncReturns value).timeout = c.timeout ∧ (c.syncReturns value).handling = c.handling ∧
      (c.syncReturns value).stash = c.stash ∧ (c.syncReturns value).queued = c.queued := by
  unfold PendingCall.syncReturns
  split_ifs
  · exact ⟨rfl, rfl, rfl, rfl⟩
  · have h := kept_settle c (.resolved value)
    exact ⟨h.timeout, h.handling, h.stash, h.queued⟩

theorem moved_step {e : CallEvent V} (h : c.step e = some c') : Moved c e c' := by
  cases e with
  | elapse =>
      cases h
      exact moved_of_kept (kept_elapse c) ⟨rfl, rfl, rfl, rfl, fun hb => ⟨hb, rfl⟩⟩
  | stash | unstash =>
      obtain ⟨-, ⟨⟩⟩ := Option.ite_none_right_eq_some.1 h
      exact ⟨rfl, rfl, rfl, rfl, fun hb => ⟨hb, rfl⟩⟩
  | unstashAll =>
      cases h
      exact ⟨rfl, rfl, rfl, rfl, fun hb => ⟨hb, rfl⟩⟩
  | clearStash =>
      cases h
      split_ifs
      · have hkept := kept_answer c .discarded
        exact ⟨hkept.timeout, rfl, hkept.queued, congrArg Option.isSome hkept.handling,
          fun hb => ⟨hkept.handling ▸ hb, hkept.callbacks⟩⟩
      · exact ⟨rfl, rfl, rfl, rfl, fun hb => ⟨hb, rfl⟩⟩
  | evict =>
      obtain ⟨-, ⟨⟩⟩ := Option.ite_none_right_eq_some.1 h
      exact moved_of_kept (kept_answer _ _) ⟨rfl, rfl, rfl, rfl, fun hb => ⟨hb, rfl⟩⟩
  | rerun =>
      obtain ⟨-, ⟨⟩⟩ := Option.ite_none_right_eq_some.1 h
      exact ⟨rfl, rfl, rfl, rfl, fun _ => ⟨fun hsync => (nomatch hsync), rfl⟩⟩
  | returns value =>
      dsimp only [PendingCall.step] at h
      split at h
      · cases h
      · next hsync =>
          cases h
          obtain ⟨htimeout, hhandling, hstash, hqueued⟩ :=
            kept_syncReturns { c with handling := none } value
          exact ⟨htimeout, hstash, hqueued, congrArg Option.isSome hhandling,
            fun hb => absurd hsync hb⟩
      · cases h
        exact moved_of_kept (kept_batchEnds _ _)
          ⟨rfl, rfl, rfl, rfl, fun _ => ⟨fun hsync => (nomatch hsync), rfl⟩⟩
  | throws error =>
      dsimp only [PendingCall.step] at h
      split at h
      · cases h
      · next hsync =>
          cases h
          exact moved_of_kept (kept_settle _ _)
            ⟨rfl, rfl, rfl, rfl, fun _ => ⟨fun hsync => (nomatch hsync), rfl⟩⟩
      · cases h
        exact moved_of_kept (kept_batchEnds _ _)
          ⟨rfl, rfl, rfl, rfl, fun _ => ⟨fun hsync => (nomatch hsync), rfl⟩⟩

/-- A settled call stays settled. -/
theorem outcome_step {o : Outcome V} (hc : c.outcome = some o) {e : CallEvent V}
    (h : c.step e = some c') : c'.outcome = some o := by
  have hanswer : ∀ {d : PendingCall V} (o' : Outcome V), d.outcome = some o →
      (d.answer o').outcome = some o := fun o' hd => (answer_of_some hd o').symm ▸ hd
  have hbatch : ∀ {d : PendingCall V} (o' : Outcome V), d.outcome = some o →
      (d.batchEnds o').outcome = some o := by
    intro d o' hd
    unfold PendingCall.batchEnds
    split_ifs
    · exact hd
    · exact hanswer o' hd
  have hsettle : ∀ {d : PendingCall V} (o' : Outcome V), d.outcome = some o →
      (d.settle o').outcome = some o := fun o' hd => (settle_of_some hd o').symm ▸ hd
  cases e with
  | elapse =>
      cases h
      unfold PendingCall.elapse
      split
      · exact hc
      · split_ifs
        · exact hsettle _ hc
        · exact hc
  | stash | unstash | rerun =>
      obtain ⟨-, ⟨⟩⟩ := Option.ite_none_right_eq_some.1 h
      exact hc
  | unstashAll =>
      cases h
      exact hc
  | clearStash =>
      cases h
      split_ifs
      · exact hanswer _ hc
      · exact hc
  | evict =>
      obtain ⟨-, ⟨⟩⟩ := Option.ite_none_right_eq_some.1 h
      exact hanswer _ hc
  | returns value =>
      dsimp only [PendingCall.step] at h
      split at h
      · cases h
      · cases h
        unfold PendingCall.syncReturns
        split_ifs
        · exact hc
        · exact hsettle _ hc
      · cases h
        exact hbatch _ hc
  | throws error =>
      dsimp only [PendingCall.step] at h
      split at h
      · cases h
      · cases h
        exact hsettle _ hc
      · cases h
        exact hbatch _ hc

end

/-! ## Both paths -/

/-- Where the message object is, and whether its handler runs. -/
structure SamePlace (p : BothPaths V) : Prop where
  stash : p.sync.stash = p.queued.stash
  queued : p.sync.queued = p.queued.queued
  handling : p.sync.handling.isSome = p.queued.handling.isSome
  batch : p.queued.handling ≠ some .syncLocalCall

/-- The timers of an unanswered call, on both paths. -/
inductive Waiting (p : BothPaths V) : Prop where
  | first (hfirst : FirstRun p) (hcallbacks : p.sync.callbacks = false)
      (htimer : p.sync.timer = none) : Waiting p
  | stashed (hbatch : ¬ FirstRun p) (hcallbacks : p.sync.callbacks = true) (ms : Nat)
      (htimer : p.sync.timer = some ms) (hle : ∀ n, p.queued.timer = some n → n ≤ ms) : Waiting p

/-- An unanswered call: the queued one has had a timer from the start. -/
structure Unanswered (p : BothPaths V) : Prop where
  timer : ∃ ms, p.queued.timer = some ms ∧ 1 ≤ ms ∧ ms ≤ timerDelay p.sync.timeout
  waiting : Waiting p

structure Coupled (p : BothPaths V) : Prop where
  same : SamePlace p
  outcome : SameOutcome p
  callbacks : p.queued.callbacks = true
  unanswered : p.queued.outcome = none → Unanswered p

theorem timerDelay_pos (delay : Nat) : 1 ≤ timerDelay delay := by
  unfold timerDelay
  split_ifs <;> omega

theorem coupled_start (timeout : Nat) : Coupled (BothPaths.start timeout : BothPaths V) where
  same := ⟨rfl, rfl, rfl, fun h => nomatch h⟩
  outcome := rfl
  callbacks := rfl
  unanswered := fun _ => ⟨⟨_, rfl, timerDelay_pos timeout, Nat.le_refl _⟩, .first rfl rfl rfl⟩

section
variable {p p' : BothPaths V} {e : CallEvent V}

theorem both_step (h : p.step e = some p') :
    p.sync.step e = some p'.sync ∧ p.queued.step e = some p'.queued := by
  unfold BothPaths.step at h
  split at h
  · next hsync hqueued =>
      cases h
      exact ⟨hsync, hqueued⟩
  · cases h

theorem samePlace_step (h : SamePlace p) (hst : p.step e = some p') : SamePlace p' := by
  obtain ⟨hsync, hqueued⟩ := both_step hst
  have hs := moved_step hsync
  have hq := moved_step hqueued
  exact
    { stash := by rw [hs.stash, hq.stash, h.stash]
      queued := by rw [hs.queued, hq.queued, h.stash, h.queued]
      handling := by rw [hs.runs, hq.runs, h.handling]
      batch := (hq.batch h.batch).1 }

/-- Both have been settled with the same outcome. -/
theorem settled_alike {o : Outcome V} (hs : p'.sync.outcome = some o)
    (hq : p'.queued.outcome = some o) :
    SameOutcome p' ∧ (p'.queued.outcome = none → Unanswered p') := by
  refine ⟨hs.trans hq.symm, fun hnone => ?_⟩
  rw [hq] at hnone
  cases hnone

/-- Nothing but the place of the message has changed. -/
theorem Unanswered.of_moved (h : Unanswered p) (hsync : p'.sync.timer = p.sync.timer)
    (hqueued : p'.queued.timer = p.queued.timer) (htimeout : p'.sync.timeout = p.sync.timeout)
    (hcallbacks : p'.sync.callbacks = p.sync.callbacks) (hfirst : FirstRun p' ↔ FirstRun p) :
    Unanswered p' := by
  obtain ⟨ms, hms, hpos, hle⟩ := h.timer
  refine ⟨⟨ms, hqueued.trans hms, hpos, htimeout ▸ hle⟩, ?_⟩
  cases h.waiting with
  | first hrun hnone htimer =>
      exact .first (hfirst.2 hrun) (hcallbacks.trans hnone) (hsync.trans htimer)
  | stashed hbatch hsome m htimer hm =>
      exact .stashed (fun hrun => hbatch (hfirst.1 hrun)) (hcallbacks.trans hsome) m
        (hsync.trans htimer) fun n hn => hm n (hqueued ▸ hn)

/-- A stashed call is answered through its callbacks, on both paths. -/
theorem Unanswered.callbacks (h : Unanswered p) (hbatch : ¬ FirstRun p) :
    p.sync.callbacks = true := by
  cases h.waiting with
  | first hrun hnone htimer => exact absurd hrun hbatch
  | stashed hbatch' hsome m htimer hm => exact hsome

/-! ## The clock -/

theorem elapse_of_none {c : PendingCall V} (h : c.timer = none) : c.elapse = c := by
  unfold PendingCall.elapse
  rw [h]

theorem elapse_of_last {c : PendingCall V} (h : c.timer = some 1) (hnone : c.outcome = none) :
    c.elapse.outcome = some .timedOut := by
  unfold PendingCall.elapse
  rw [h]
  dsimp only
  rw [if_pos (Nat.le_refl 1), settle_of_none (c := { c with timer := none }) hnone]

theorem elapse_of_later {c : PendingCall V} {ms : Nat} (h : c.timer = some ms) (hms : 1 < ms) :
    c.elapse = { c with timer := some (ms - 1) } := by
  unfold PendingCall.elapse
  rw [h]
  dsimp only
  rw [if_neg (Nat.not_le.2 hms)]

/-- While the timer of the queued call runs on, so does that of the other. -/
theorem unanswered_elapse (h : Unanswered p) (hs : p.sync.outcome = none)
    (hq : p.queued.outcome = none) (halike : p.queued.timer = some 1 → p.sync.timer = some 1) :
    SameOutcome ⟨p.sync.elapse, p.queued.elapse⟩ ∧
      (p.queued.elapse.outcome = none → Unanswered ⟨p.sync.elapse, p.queued.elapse⟩) := by
  obtain ⟨ms, hms, hpos, hle⟩ := h.timer
  rcases Nat.lt_or_ge 1 ms with hlater | hlast
  · rw [elapse_of_later hms hlater]
    have htimer : ∃ n, some (ms - 1) = some n ∧ 1 ≤ n ∧ n ≤ timerDelay p.sync.timeout :=
      ⟨ms - 1, rfl, by omega, by omega⟩
    cases h.waiting with
    | first hrun hnone hoff =>
        rw [elapse_of_none hoff]
        exact ⟨hs.trans hq.symm, fun _ => ⟨htimer, .first hrun hnone hoff⟩⟩
    | stashed hbatch hsome m hon hm =>
        have hm' := hm ms hms
        rw [elapse_of_later hon (Nat.lt_of_lt_of_le hlater hm')]
        refine ⟨hs.trans hq.symm, fun _ => ⟨htimer, .stashed hbatch hsome (m - 1) rfl ?_⟩⟩
        rintro n ⟨⟩
        omega
  · obtain rfl : ms = 1 := by omega
    exact settled_alike (elapse_of_last (halike hms) hs) (elapse_of_last hms hq)

/-! ## One event -/

/-- `processMailbox` got a result or an error of the handler, on both paths. -/
theorem unanswered_batchEnds {c d : PendingCall V} (h : Unanswered ⟨c, d⟩)
    (hstash : c.stash = d.stash) (hcallbacks : d.callbacks = true) (hs : c.outcome = none)
    (hq : d.outcome = none) (hbatch : ¬ FirstRun ⟨c, d⟩) (o : Outcome V) :
    SameOutcome ⟨c.batchEnds o, d.batchEnds o⟩ ∧
      ((d.batchEnds o).outcome = none → Unanswered ⟨c.batchEnds o, d.batchEnds o⟩) := by
  unfold PendingCall.batchEnds
  rw [hstash]
  split_ifs
  · exact ⟨hs.trans hq.symm, fun _ => h⟩
  · rw [answer_of_none (h.callbacks hbatch) hs, answer_of_none hcallbacks hq]
    exact settled_alike rfl rfl

/-- The first run ends without the message in the stash. -/
theorem settled_first {c d : PendingCall V} (hs : c.outcome = none) (hq : d.outcome = none)
    (hcallbacks : d.callbacks = true) (hstash : d.stash = 0) (o : Outcome V) :
    SameOutcome ⟨c.settle o, d.batchEnds o⟩ ∧
      ((d.batchEnds o).outcome = none → Unanswered ⟨c.settle o, d.batchEnds o⟩) := by
  unfold PendingCall.batchEnds
  rw [if_neg (by rw [hstash]; exact Nat.lt_irrefl 0), answer_of_none hcallbacks hq,
    settle_of_none hs]
  exact settled_alike rfl rfl

theorem unanswered_step (h : Coupled p) (hq : p.queued.outcome = none) (halike : Alike p e)
    (hst : p.step e = some p') :
    SameOutcome p' ∧ (p'.queued.outcome = none → Unanswered p') := by
  have hs : p.sync.outcome = none := h.outcome.trans hq
  have hopen := h.unanswered hq
  obtain ⟨hsync, hqueued⟩ := both_step hst
  obtain ⟨sync', queued'⟩ := p'
  dsimp only at hsync hqueued
  cases e with
  | elapse =>
      cases hsync
      cases hqueued
      exact unanswered_elapse hopen hs hq (halike hq)
  | stash | unstash =>
      obtain ⟨-, ⟨⟩⟩ := Option.ite_none_right_eq_some.1 hsync
      obtain ⟨-, ⟨⟩⟩ := Option.ite_none_right_eq_some.1 hqueued
      exact ⟨hs.trans hq.symm, fun _ => hopen.of_moved rfl rfl rfl rfl Iff.rfl⟩
  | unstashAll =>
      cases hsync
      cases hqueued
      exact ⟨hs.trans hq.symm, fun _ => hopen.of_moved rfl rfl rfl rfl Iff.rfl⟩
  | clearStash =>
      cases hsync
      cases hqueued
      rw [h.same.stash]
      split_ifs with hstash
      · have hbatch : ¬ FirstRun p := fun hrun => Nat.ne_of_gt hstash (halike hq hrun)
        rw [answer_of_none (hopen.callbacks hbatch) hs, answer_of_none h.callbacks hq]
        exact settled_alike rfl rfl
      · exact ⟨hs.trans hq.symm, fun _ => hopen.of_moved rfl rfl rfl rfl Iff.rfl⟩
  | evict =>
      obtain ⟨-, ⟨⟩⟩ := Option.ite_none_right_eq_some.1 hsync
      obtain ⟨-, ⟨⟩⟩ := Option.ite_none_right_eq_some.1 hqueued
      rw [answer_of_none (c := { p.sync with queued := p.sync.queued - 1 })
          (hopen.callbacks (halike hq)) hs,
        answer_of_none (c := { p.queued with queued := p.queued.queued - 1 }) h.callbacks hq]
      exact settled_alike rfl rfl
  | rerun =>
      obtain ⟨⟨-, hidle⟩, ⟨⟩⟩ := Option.ite_none_right_eq_some.1 hsync
      obtain ⟨-, ⟨⟩⟩ := Option.ite_none_right_eq_some.1 hqueued
      refine ⟨hs.trans hq.symm, fun _ => hopen.of_moved rfl rfl rfl rfl ?_⟩
      exact ⟨fun hrun => (nomatch hrun), fun hrun => nomatch hidle.symm.trans hrun⟩
  | returns value =>
      dsimp only [PendingCall.step] at hsync hqueued
      split at hqueued
      · cases hqueued
      · next hfirst => exact absurd hfirst h.same.batch
      · cases hqueued
        split at hsync
        · cases hsync
        · next hrun =>
            cases hsync
            unfold PendingCall.syncReturns
            dsimp only
            split_ifs with hstash
            · -- the message gets its callbacks and a timer of its own
              unfold PendingCall.batchEnds
              dsimp only
              rw [if_pos (h.same.stash ▸ hstash)]
              obtain ⟨ms, hms, hpos, hle⟩ := hopen.timer
              refine ⟨hs.trans hq.symm, fun _ => ⟨⟨ms, hms, hpos, hle⟩, ?_⟩⟩
              refine .stashed (fun hsync => nomatch hsync) rfl _ rfl fun n hn => ?_
              cases hms.symm.trans hn
              exact hle
            · refine settled_first (c := { p.sync with handling := none })
                (d := { p.queued with handling := none }) hs hq h.callbacks ?_ _
              exact Nat.eq_zero_of_not_pos (h.same.stash ▸ hstash)
        · next hbatch =>
            cases hsync
            have hlater : ¬ FirstRun p := fun hrun => nomatch hbatch.symm.trans hrun
            refine unanswered_batchEnds (c := { p.sync with handling := none })
              (d := { p.queued with handling := none }) (hopen.of_moved rfl rfl rfl rfl ?_)
              h.same.stash h.callbacks hs hq (fun hrun => nomatch hrun) _
            exact ⟨fun hrun => (nomatch hrun), fun hrun => absurd hrun hlater⟩
  | throws error =>
      dsimp only [PendingCall.step] at hsync hqueued
      split at hqueued
      · cases hqueued
      · next hfirst => exact absurd hfirst h.same.batch
      · cases hqueued
        split at hsync
        · cases hsync
        · next hrun =>
            cases hsync
            exact settled_first (c := { p.sync with handling := none })
              (d := { p.queued with handling := none }) hs hq h.callbacks (halike hq hrun) _
        · next hbatch =>
            cases hsync
            have hlater : ¬ FirstRun p := fun hrun => nomatch hbatch.symm.trans hrun
            refine unanswered_batchEnds (c := { p.sync with handling := none })
              (d := { p.queued with handling := none }) (hopen.of_moved rfl rfl rfl rfl ?_)
              h.same.stash h.callbacks hs hq (fun hrun => nomatch hrun) _
            exact ⟨fun hrun => (nomatch hrun), fun hrun => absurd hrun hlater⟩

theorem coupled_step (h : Coupled p) (halike : Alike p e) (hst : p.step e = some p') :
    Coupled p' := by
  obtain ⟨hsync, hqueued⟩ := both_step hst
  have hcallbacks : p'.queued.callbacks = true :=
    ((moved_step hqueued).batch h.same.batch).2.trans h.callbacks
  have hboth : SameOutcome p' ∧ (p'.queued.outcome = none → Unanswered p') := by
    cases hq : p.queued.outcome with
    | none => exact unanswered_step h hq halike hst
    | some o =>
        exact settled_alike (outcome_step (h.outcome.trans hq) hsync) (outcome_step hq hqueued)
  exact ⟨samePlace_step h.same hst, hboth.1, hcallbacks, hboth.2⟩

/-! ## Runs -/

/-- In its first run the message has neither timer nor callbacks on the fast path. -/
theorem Unanswered.first (h : Unanswered p) (hrun : FirstRun p) :
    p.sync.callbacks = false ∧ p.sync.timer = none := by
  cases h.waiting with
  | first _ hnone htimer => exact ⟨hnone, htimer⟩
  | stashed hbatch hsome m htimer hm => exact absurd hrun hbatch

/-- An event that is not alike for the two settles only one of them, or both in
different ways. -/
theorem differ_of_not_alike (h : Coupled p) (halike : ¬ Alike p e) (hst : p.step e = some p') :
    ¬ SameOutcome p' := by
  obtain ⟨hsync, hqueued⟩ := both_step hst
  obtain ⟨sync', queued'⟩ := p'
  dsimp only at hsync hqueued
  intro hsame
  unfold SameOutcome at hsame
  dsimp only at hsame
  cases e with
  | elapse =>
      unfold Alike at halike
      push Not at halike
      obtain ⟨hq, hlast, hnot⟩ := halike
      have hopen := h.unanswered hq
      have hs : p.sync.outcome = none := h.outcome.trans hq
      cases hsync
      cases hqueued
      rw [elapse_of_last hlast hq] at hsame
      cases hopen.waiting with
      | first hrun hnone hoff =>
          rw [elapse_of_none hoff, hs] at hsame
          cases hsame
      | stashed hbatch hsome m hon hm =>
          have hlater : 1 < m := by
            have hle := hm 1 hlast
            have hne : m ≠ 1 := fun heq => hnot (heq ▸ hon)
            omega
          rw [elapse_of_later hon hlater] at hsame
          cases hs.symm.trans hsame
  | clearStash =>
      unfold Alike at halike
      push Not at halike
      obtain ⟨hq, hrun, hstash⟩ := halike
      obtain ⟨hnone, -⟩ := (h.unanswered hq).first hrun
      have hpos : 0 < p.queued.stash := Nat.pos_of_ne_zero hstash
      cases hsync
      cases hqueued
      rw [if_pos hpos, answer_of_none h.callbacks hq, if_pos (h.same.stash ▸ hpos)] at hsame
      unfold PendingCall.answer at hsame
      rw [hnone] at hsame
      cases (h.outcome.trans hq).symm.trans hsame
  | evict =>
      unfold Alike at halike
      push Not at halike
      obtain ⟨hq, hrun⟩ := halike
      obtain ⟨hnone, -⟩ := (h.unanswered hq).first hrun
      obtain ⟨-, ⟨⟩⟩ := Option.ite_none_right_eq_some.1 hsync
      obtain ⟨-, ⟨⟩⟩ := Option.ite_none_right_eq_some.1 hqueued
      rw [answer_of_none (c := { p.queued with queued := p.queued.queued - 1 }) h.callbacks hq]
        at hsame
      unfold PendingCall.answer at hsame
      dsimp only at hsame
      rw [hnone] at hsame
      cases (h.outcome.trans hq).symm.trans hsame
  | throws error =>
      unfold Alike at halike
      push Not at halike
      obtain ⟨hq, hrun, hstash⟩ := halike
      dsimp only [PendingCall.step] at hsync hqueued
      rw [show p.sync.handling = some .syncLocalCall from hrun] at hsync
      cases hsync
      rw [settle_of_none (c := { p.sync with handling := none }) (h.outcome.trans hq)] at hsame
      split at hqueued
      · cases hqueued
      · next hfirst => exact h.same.batch hfirst
      · cases hqueued
        unfold PendingCall.batchEnds at hsame
        dsimp only at hsame
        rw [if_pos (Nat.pos_of_ne_zero hstash)] at hsame
        cases hsame.trans hq
  | stash | unstash | unstashAll | rerun | returns => exact halike trivial

/-- Whatever the handler, the other messages and the clock do, the two paths have the same
outcome at every moment if and only if every event is alike for them. -/
theorem same_outcome_iff (timeout : Nat) {es : List (CallEvent V)} {u : BothPaths V}
    (hrun : run BothPaths.step (.start timeout) es = some u) :
    Throughout BothPaths.step SameOutcome (BothPaths.start timeout : BothPaths V) es ↔
      Along BothPaths.step Alike (BothPaths.start timeout) es :=
  throughout_iff_along (I := Coupled) (A := fun _ _ => True)
    (fun _ _ _ h _ halike hst => coupled_step h halike hst) (fun _ h => h.outcome)
    (fun _ _ _ h _ halike hst => differ_of_not_alike h halike hst) (coupled_start timeout)
    (along_of_forall_mem (P := fun _ => True) (fun _ _ => trivial) _) hrun

/-- The handler resolves two milliseconds after it was invoked, the caller waits for one. -/
def lateAnswer : List (CallEvent Nat) := [.elapse, .elapse, .returns 7]

theorem lateAnswer_outcomes :
    ∃ u, run BothPaths.step (.start 1) lateAnswer = some u ∧
      u.sync.outcome = some (.resolved 7) ∧ u.queued.outcome = some .timedOut :=
  ⟨_, rfl, rfl, rfl⟩

/-- A call that is stashed at once, taken again and answered before its time-out. -/
theorem same_outcome_iff_stashed :
    Throughout BothPaths.step SameOutcome (BothPaths.start 3 : BothPaths Nat)
      [.stash, .returns 0, .elapse, .unstashAll, .rerun, .elapse, .returns 7] := by
  refine (same_outcome_iff 3 rfl).2 ⟨trivial, fun p hp => ?_⟩
  cases hp
  refine ⟨trivial, fun p hp => ?_⟩
  cases hp
  refine ⟨fun _ _ => by contradiction, fun p hp => ?_⟩
  cases hp
  refine ⟨trivial, fun p hp => ?_⟩
  cases hp
  refine ⟨trivial, fun p hp => ?_⟩
  cases hp
  refine ⟨fun _ _ => by contradiction, fun p hp => ?_⟩
  cases hp
  exact ⟨trivial, fun _ _ => trivial⟩

end

end Libeam.Proofs.PathsAgree
