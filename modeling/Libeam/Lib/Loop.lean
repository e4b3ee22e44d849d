import Mathlib.Data.List.Basic
/-!
# Loops that an exception ends

A loop over a list whose body returns the next state and whether it threw.  The
first exception ends the loop.
-/

namespace Libeam.Lib.Loop

variable {σ α : Type*}

/-- The state in which the loop ends, and whether the body threw. -/
def forEach (body : σ → α → σ × Bool) : σ → List α → σ × Bool
  | s, [] => (s, false)
  | s, x :: xs =>
      let next := body s x
      if next.2 then next else forEach body next.1 xs

variable {body : σ → α → σ × Bool}

@[simp] theorem forEach_nil (s : σ) : forEach body s [] = (s, false) := rfl

theorem forEach_cons (s : σ) (x : α) (xs : List α) :
    forEach body s (x :: xs) =
      if (body s x).2 then body s x else forEach body (body s x).1 xs := rfl

/-- What the body preserves holds when the loop ends, however it ends. -/
theorem forEach_invariant {I : σ → Prop} {xs : List α}
    (hbody : ∀ s, ∀ x ∈ xs, I s → I (body s x).1) {s : σ} (hs : I s) :
    I (forEach body s xs).1 := by
  induction xs generalizing s with
  | nil => exact hs
  | cons x xs ih =>
      rw [forEach_cons]
      have hx := hbody s x (by simp) hs
      split_ifs
      · exact hx
      · exact ih (fun s y hy => hbody s y (by simp [hy])) hx

/-- What a round without an exception reaches for its element, and later rounds keep, is
reached for all of them. -/
theorem forEach_all {I : σ → Prop} {P : α → σ → Prop} (hbody : ∀ s x, I s → I (body s x).1)
    (hreach : ∀ s x, I s → (body s x).2 = false → P x (body s x).1)
    (hkeep : ∀ s x y, I s → P y s → P y (body s x).1) {s : σ} {xs : List α} (hs : I s)
    (hdone : (forEach body s xs).2 = false) : ∀ x ∈ xs, P x (forEach body s xs).1 := by
  have hrest : ∀ (ys : List α) (t : σ) (x : α), I t → P x t → P x (forEach body t ys).1 := by
    intro ys
    induction ys with
    | nil => exact fun _ _ _ h => h
    | cons y ys ih =>
        intro t x ht hx
        rw [forEach_cons]
        split_ifs
        · exact hkeep t y x ht hx
        · exact ih _ x (hbody t y ht) (hkeep t y x ht hx)
  induction xs generalizing s with
  | nil => exact fun _ hx => absurd hx List.not_mem_nil
  | cons x xs ih =>
      rw [forEach_cons] at hdone ⊢
      split_ifs at hdone ⊢ with hx
      · exact absurd hx (by simp [hdone])
      · intro y hy
        have hround := hbody s x hs
        rcases List.mem_cons.1 hy with rfl | hy
        · exact hrest xs _ y hround (hreach s y hs (by simpa using hx))
        · exact ih hround hdone y hy

/-- The rule for an invariant that speaks of the rounds to come. -/
theorem forEach_rule {I : σ → List α → Prop} {Q : σ → Prop} (hdone : ∀ s, I s [] → Q s)
    (hnext : ∀ s x xs, I s (x :: xs) → (body s x).2 = false → I (body s x).1 xs)
    (hthrow : ∀ s x xs, I s (x :: xs) → (body s x).2 = true → Q (body s x).1)
    {s : σ} {xs : List α} (hs : I s xs) : Q (forEach body s xs).1 := by
  induction xs generalizing s with
  | nil => exact hdone s hs
  | cons x xs ih =>
      rw [forEach_cons]
      cases hx : (body s x).2 with
      | false => exact ih (hnext s x xs hs hx)
      | true => exact hthrow s x xs hs hx

/-- What the body may do to the state in one round, it may do in several. -/
theorem forEach_rel {R : σ → σ → Prop} (hrefl : ∀ s, R s s)
    (htrans : ∀ s t u, R s t → R t u → R s u) (hbody : ∀ s x, R s (body s x).1)
    (s : σ) (xs : List α) : R s (forEach body s xs).1 := by
  induction xs generalizing s with
  | nil => exact hrefl s
  | cons x xs ih =>
      rw [forEach_cons]
      split_ifs
      · exact hbody s x
      · exact htrans _ _ _ (hbody s x) (ih _)

end Libeam.Lib.Loop
