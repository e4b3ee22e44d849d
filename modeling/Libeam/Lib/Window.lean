import Mathlib.Data.List.Basic
import Mathlib.Data.List.Count
/-!
# Counting requests in windows

A counter that grants `limit` requests in a window.  A window starts with a
request, and the first request more than `period` later starts a new one.  Such
a counter grants at most `limit` requests in one window, but windows do not
start where one would like them to: an interval as long as the period can meet
two of them.
-/

namespace Libeam.Lib.Window

/-- What is kept of the last window: its requests and its start. -/
structure Counter where
  count : Nat
  start : Nat
  deriving DecidableEq, Repr

section
variable (limit period : Nat)

/-- The request finds a window that is over. -/
def expired (w : Option Counter) (now : Nat) : Bool :=
  w.any fun w => period < now - w.start

/-- The window that a request falls in. -/
def current (w : Option Counter) (now : Nat) : Counter :=
  match w with
  | none => ⟨0, now⟩
  | some w => if period < now - w.start then ⟨0, now⟩ else w

def granted (w : Option Counter) (now : Nat) : Bool :=
  (current period w now).count < limit

/-- The window after a request.  A refused first request opens none. -/
def request (w : Option Counter) (now : Nat) : Option Counter :=
  let c := current period w now
  if c.count < limit then some ⟨c.count + 1, c.start⟩ else w.map fun _ => c

/-- The answer to a request; `reset` says that it found a window that is over. -/
structure Decision where
  time : Nat
  reset : Bool
  granted : Bool
  deriving DecidableEq, Repr

def decisions : Option Counter → List Nat → List Decision
  | _, [] => []
  | w, now :: times =>
      ⟨now, expired period w now, granted limit period w now⟩ ::
        decisions (request limit period w now) times

/-- The times of the granted requests. -/
def grants (w : Option Counter) (times : List Nat) : List Nat :=
  ((decisions limit period w times).filter (·.granted)).map (·.time)

/-- The requests used up in the window so far. -/
def used (w : Option Counter) : Nat := (w.map Counter.count).getD 0

end

section
variable {limit period : Nat}

theorem current_of_not_expired {w : Option Counter} {now : Nat}
    (h : expired period w now = false) : (current period w now).count = used w := by
  cases w with
  | none => rfl
  | some w =>
      unfold current
      dsimp only
      rw [if_neg (by simpa [expired] using h)]
      rfl

theorem used_request {w : Option Counter} {now : Nat} :
    used (request limit period w now) =
      if granted limit period w now then (current period w now).count + 1
      else if w = none then 0 else (current period w now).count := by
  unfold request granted used
  dsimp only
  by_cases hlt : (current period w now).count < limit
  · simp [hlt]
  · cases w <;> simp [hlt]

theorem used_le_of_granted {w : Option Counter} {now : Nat}
    (h : granted limit period w now = true) : (current period w now).count + 1 ≤ limit := by
  unfold granted at h
  exact of_decide_eq_true h

theorem used_request_le {w : Option Counter} (hused : used w ≤ limit) (now : Nat) :
    used (request limit period w now) ≤ limit := by
  have hcurrent : (current period w now).count ≤ limit := by
    cases w with
    | none => exact Nat.zero_le _
    | some w =>
        unfold current
        dsimp only
        split_ifs
        · exact Nat.zero_le _
        · exact hused
  rw [used_request]
  split_ifs with hgranted hnone
  · exact used_le_of_granted hgranted
  · exact Nat.zero_le _
  · exact hcurrent

/-- A window grants no more than its limit. -/
theorem granted_before_reset {w : Option Counter} {times : List Nat} {mid after : List Decision}
    (hused : used w ≤ limit) (hlog : decisions limit period w times = mid ++ after)
    (hsteady : ∀ d ∈ mid, d.reset = false) :
    mid.countP (·.granted) + used w ≤ limit := by
  induction mid generalizing w times with
  | nil =>
      rw [List.countP_nil]
      omega
  | cons d mid ih =>
      cases times with
      | nil => cases hlog
      | cons now times =>
          rw [decisions, List.cons_append, List.cons.injEq] at hlog
          obtain ⟨rfl, hlog⟩ := hlog
          have hcurrent := current_of_not_expired (hsteady _ List.mem_cons_self)
          have hbound := ih (used_request_le hused now) hlog fun d hd =>
            hsteady d (List.mem_cons_of_mem _ hd)
          rw [used_request, hcurrent] at hbound
          rw [List.countP_cons]
          dsimp only
          split_ifs with hgranted
          · rw [if_pos hgranted] at hbound
            omega
          · rw [if_neg hgranted] at hbound
            split_ifs at hbound with hnone
            · subst hnone
              exact hbound
            · exact hbound

theorem granted_between_resets {w : Option Counter} {times : List Nat}
    {before mid after : List Decision} (hused : used w ≤ limit)
    (hlog : decisions limit period w times = before ++ (mid ++ after))
    (hsteady : ∀ d ∈ mid, d.reset = false) : mid.countP (·.granted) ≤ limit := by
  induction before generalizing w times with
  | nil => exact Nat.le_trans (Nat.le_add_right _ _) (granted_before_reset hused hlog hsteady)
  | cons d before ih =>
      cases times with
      | nil => cases hlog
      | cons now times =>
          rw [decisions, List.cons_append, List.cons.injEq] at hlog
          exact ih (used_request_le hused now) hlog.2

@[simp] theorem grants_nil (w : Option Counter) : grants limit period w [] = [] := rfl

theorem grants_cons (w : Option Counter) (now : Nat) (times : List Nat) :
    grants limit period w (now :: times) =
      if granted limit period w now then
        now :: grants limit period (request limit period w now) times
      else grants limit period (request limit period w now) times := by
  rw [grants, decisions, List.filter_cons]
  dsimp only
  split_ifs <;> rfl

theorem grants_subset (w : Option Counter) (times : List Nat) :
    ∀ t ∈ grants limit period w times, t ∈ times := by
  induction times generalizing w with
  | nil => exact fun t ht => ht
  | cons now times ih =>
      intro t ht
      rw [grants_cons] at ht
      split_ifs at ht
      · rcases List.mem_cons.1 ht with rfl | ht
        · exact List.mem_cons_self
        · exact List.mem_cons_of_mem _ (ih _ t ht)
      · exact List.mem_cons_of_mem _ (ih _ t ht)

/-! ## Any interval as long as the period -/

/-- How many of the times lie in the interval of one period from `a` on. -/
def inside (period a : Nat) (times : List Nat) : Nat :=
  times.countP fun t => a ≤ t ∧ t ≤ a + period

theorem inside_eq_zero {a : Nat} {times : List Nat} (h : ∀ t ∈ times, a + period < t) :
    inside period a times = 0 := by
  rw [inside, List.countP_eq_zero]
  intro t ht
  have hlate := h t ht
  simp only [decide_eq_true_eq]
  omega

theorem inside_cons_le (period a now : Nat) (times : List Nat) :
    inside period a (now :: times) ≤ inside period a times + 1 := by
  rw [inside, List.countP_cons]
  split_ifs
  · exact Nat.le_refl _
  · exact Nat.le_succ _

theorem inside_cons_of_lt {a now : Nat} (h : now < a) (times : List Nat) :
    inside period a (now :: times) = inside period a times := by
  have hout : ¬ (decide (a ≤ now ∧ now ≤ a + period) = true) := by
    rw [decide_eq_true_eq]
    omega
  rw [inside, List.countP_cons, if_neg hout]
  rfl

/-- A window that goes on counts the request that it grants. -/
theorem inside_current {limit period a bound now : Nat} {w : Counter} {times : List Nat}
    (hover : ¬ period < now - w.start)
    (hgrants : w.count < limit → inside period a
      (grants limit period (some ⟨w.count + 1, w.start⟩) times) + (w.count + 1) ≤ bound)
    (hrefuses : inside period a (grants limit period (some w) times) + w.count ≤ bound) :
    inside period a (grants limit period (some w) (now :: times)) + w.count ≤ bound := by
  have hcurrent : current period (some w) now = w := if_neg hover
  rw [grants_cons, granted, request, hcurrent]
  by_cases hlt : w.count < limit
  · simp only [hlt, decide_true, if_true]
    have hbound := hgrants hlt
    have hcons := inside_cons_le period a now
      (grants limit period (some ⟨w.count + 1, w.start⟩) times)
    omega
  · simp only [hlt, decide_false, if_false, Bool.false_eq_true]
    exact hrefuses

/-- A window that starts in the interval is the last one to meet it. -/
theorem inside_late (limit period : Nat) {a : Nat} {w : Counter} {times : List Nat}
    (hstart : a ≤ w.start)
    (hcount : w.count ≤ limit) (hsorted : times.Pairwise (· ≤ ·)) :
    inside period a (grants limit period (some w) times) + w.count ≤ limit := by
  induction times generalizing w with
  | nil =>
      rw [grants_nil, inside, List.countP_nil]
      omega
  | cons now times ih =>
      obtain ⟨hfirst, hrest⟩ := List.pairwise_cons.1 hsorted
      by_cases hover : period < now - w.start
      · have hlate : ∀ t ∈ grants limit period (some w) (now :: times), a + period < t := by
          intro t ht
          rcases List.mem_cons.1 (grants_subset _ _ t ht) with rfl | ht
          · omega
          · have hle := hfirst t ht
            omega
        rw [inside_eq_zero hlate]
        omega
      · exact inside_current hover
          (fun hlt => ih (w := ⟨w.count + 1, w.start⟩) hstart hlt hrest) (ih hstart hcount hrest)

/-- Once the interval has begun, at most one more window starts in it. -/
theorem inside_begun (limit period : Nat) {a : Nat} {w : Counter} {times : List Nat}
    (hbegun : ∀ t ∈ times, a ≤ t) (hcount : w.count ≤ limit)
    (hsorted : times.Pairwise (· ≤ ·)) :
    inside period a (grants limit period (some w) times) + w.count ≤ 2 * limit := by
  induction times generalizing w with
  | nil =>
      rw [grants_nil, inside, List.countP_nil]
      omega
  | cons now times ih =>
      obtain ⟨-, hrest⟩ := List.pairwise_cons.1 hsorted
      have hnow := hbegun now List.mem_cons_self
      have hlater : ∀ t ∈ times, a ≤ t := fun t ht => hbegun t (List.mem_cons_of_mem _ ht)
      by_cases hover : period < now - w.start
      · have hcurrent : current period (some w) now = ⟨0, now⟩ := if_pos hover
        have hcons := inside_cons_le period a now
            (grants limit period (some ⟨1, now⟩) times)
        rw [grants_cons, granted, request, hcurrent]
        by_cases hlt : 0 < limit
        · simp only [hlt, decide_true, if_true, Nat.zero_add]
          have hbound := inside_late limit period (w := ⟨1, now⟩) hnow hlt hrest
          dsimp only at hbound
          omega
        · simp only [hlt, decide_false, if_false, Bool.false_eq_true]
          have hbound := inside_late limit period (w := ⟨0, now⟩) hnow
            (Nat.zero_le _) hrest
          dsimp only [Option.map_some] at hbound ⊢
          omega
      · exact inside_current hover
          (fun hlt => ih (w := ⟨w.count + 1, w.start⟩) hlater hlt hrest) (ih hlater hcount hrest)

/-- A window that is open has granted the request it started with. -/
def Opened (limit : Nat) (w : Option Counter) : Prop :=
  ∀ w' ∈ w, w'.count ≤ limit ∧ (1 ≤ w'.count ∨ limit = 0)

theorem opened_request (period : Nat) {w : Option Counter} (h : Opened limit w) (now : Nat) :
    Opened limit (request limit period w now) := by
  intro w' hw'
  unfold request at hw'
  dsimp only at hw'
  split_ifs at hw' with hlt
  · cases hw'
    exact ⟨hlt, .inl (Nat.le_add_left _ _)⟩
  · cases w with
    | none => cases hw'
    | some w₀ =>
        cases hw'
        have hw₀ := h w₀ rfl
        unfold current at hlt ⊢
        dsimp only at hlt ⊢
        split_ifs at hlt ⊢ with hover
        · exact ⟨Nat.zero_le _, .inr (Nat.eq_zero_of_not_pos hlt)⟩
        · exact hw₀

/-- In an interval as long as the period there are at most `2 * limit - 1` grants:
the two windows it meets, less the request the first one started with. -/
theorem inside_grants_le {w : Option Counter} (h : Opened limit w) {times : List Nat}
    (hsorted : times.Pairwise (· ≤ ·)) (a : Nat) :
    inside period a (grants limit period w times) ≤ 2 * limit - 1 := by
  induction times generalizing w with
  | nil =>
      rw [grants_nil, inside, List.countP_nil]
      exact Nat.zero_le _
  | cons now times ih =>
      obtain ⟨hfirst, hrest⟩ := List.pairwise_cons.1 hsorted
      by_cases hnow : now < a
      · have hbound := ih (opened_request period h now) hrest
        rw [grants_cons]
        split_ifs
        · rw [inside_cons_of_lt hnow]
          exact hbound
        · exact hbound
      · have hbegun : ∀ t ∈ now :: times, a ≤ t := by
          intro t ht
          rcases List.mem_cons.1 ht with rfl | ht
          · omega
          · have hle := hfirst t ht
            omega
        cases w with
        | none =>
            by_cases hlimit : 0 < limit
            · have hlate := inside_late limit period (w := ⟨1, now⟩)
                (hbegun now List.mem_cons_self) hlimit hrest
              have hcons := inside_cons_le period a now
                (grants limit period (some ⟨1, now⟩) times)
              have hgrants : grants limit period none (now :: times) =
                  now :: grants limit period (some ⟨1, now⟩) times := by
                simp [grants_cons, granted, request, current, hlimit]
              rw [hgrants]
              dsimp only at hlate
              omega
            · have hgrants : grants limit period none (now :: times) =
                  grants limit period none times := by
                simp [grants_cons, granted, request, current, hlimit]
              rw [hgrants]
              exact ih h hrest
        | some w =>
            have hw := h w rfl
            have hbound := inside_begun limit period (w := w) hbegun hw.1 hsorted
            omega

end

end Libeam.Lib.Window
