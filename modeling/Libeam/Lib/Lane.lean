import Mathlib.Data.List.Basic
import Mathlib.Tactic.Ring
/-!
# Lines with a credit

Items wait in a line in the order in which they came, and the line has a credit: the
number of items that may leave it.  Items leave from the front.  A new item may pass
by a line that is empty; in a line whose credit is used up whenever something waits
this is never a matter of chance, since nothing can pass what waits.
-/

namespace Libeam.Lib

structure Lane (α : Type*) where
  waiting : List α
  credit : Int

namespace Lane

variable {α : Type*}

/-- How many of `n` items the credit covers. -/
def covers (l : Lane α) (n : Nat) : Nat := min l.credit.toNat n

/-- The items that the credit lets go. -/
def served (l : Lane α) : List α := l.waiting.take (l.covers l.waiting.length)

/-- The line without them. -/
def serve (l : Lane α) : Lane α :=
  ⟨l.waiting.drop (l.covers l.waiting.length), l.credit - l.covers l.waiting.length⟩

/-- The new items that the credit lets go at once. -/
def passed (l : Lane α) (xs : List α) : List α := xs.take (l.covers xs.length)

/-- The line with the others behind it. -/
def pass (l : Lane α) (xs : List α) : Lane α :=
  ⟨l.waiting ++ xs.drop (l.covers xs.length), l.credit - l.covers xs.length⟩

/-- Nothing that waits could leave. -/
def Settled (l : Lane α) : Prop := l.waiting = [] ∨ l.credit ≤ 0

theorem covers_of_nonpos {l : Lane α} (h : l.credit ≤ 0) (n : Nat) : l.covers n = 0 := by
  unfold covers
  omega

theorem covers_le (l : Lane α) (n : Nat) : l.covers n ≤ n := min_le_right _ _

theorem length_served (l : Lane α) : l.served.length = l.covers l.waiting.length := by
  rw [served, List.length_take, min_eq_left (l.covers_le _)]

theorem length_passed (l : Lane α) (xs : List α) :
    (l.passed xs).length = l.covers xs.length := by
  rw [passed, List.length_take, min_eq_left (l.covers_le _)]

theorem served_append_serve (l : Lane α) : l.served ++ l.serve.waiting = l.waiting :=
  List.take_append_drop _ _

/-- What is left after serving is left because the credit is used up. -/
theorem settled_serve (l : Lane α) : l.serve.Settled := by
  by_cases h : l.credit.toNat ≤ l.waiting.length
  · refine .inr ?_
    have hcovers : l.covers l.waiting.length = l.credit.toNat := min_eq_left h
    change l.credit - l.covers l.waiting.length ≤ 0
    omega
  · refine .inl ?_
    have hcovers : l.covers l.waiting.length = l.waiting.length := min_eq_right (by omega)
    change l.waiting.drop (l.covers l.waiting.length) = []
    rw [hcovers, List.drop_length]

@[simp] theorem passed_nil (l : Lane α) : l.passed [] = [] := List.take_nil

@[simp] theorem pass_nil (l : Lane α) : l.pass [] = l := by
  have hzero : l.covers 0 = 0 := Nat.le_zero.1 (l.covers_le 0)
  simp [pass, hzero]

/-- New items do not overtake what waits in a settled line. -/
theorem passed_append_pass {l : Lane α} (h : l.Settled) (xs : List α) :
    l.passed xs ++ (l.pass xs).waiting = l.waiting ++ xs := by
  rcases h with hnil | hcredit
  · simp [passed, pass, hnil]
  · simp [passed, pass, covers_of_nonpos hcredit]

/-- Whatever is overtaken, nothing is lost. -/
theorem passed_append_pass_perm (l : Lane α) (xs : List α) :
    (l.passed xs ++ (l.pass xs).waiting).Perm (l.waiting ++ xs) := by
  have hsplit : xs.take (l.covers xs.length) ++ xs.drop (l.covers xs.length) = xs :=
    List.take_append_drop _ _
  have hswap : (l.passed xs ++ l.waiting ++ xs.drop (l.covers xs.length)).Perm
      (l.waiting ++ l.passed xs ++ xs.drop (l.covers xs.length)) :=
    List.perm_append_comm.append_right _
  rwa [List.append_assoc, List.append_assoc, passed, hsplit] at hswap

/-- Where nothing comes by, nothing is overtaken either. -/
theorem passed_append_pass_of {l : Lane α} {xs : List α} (h : xs = [] ∨ l.Settled) :
    l.passed xs ++ (l.pass xs).waiting = l.waiting ++ xs := by
  rcases h with rfl | hsettled
  · rw [passed_nil, pass_nil, List.nil_append, List.append_nil]
  · exact passed_append_pass hsettled xs

theorem settled_pass {l : Lane α} (h : l.Settled) (xs : List α) : (l.pass xs).Settled := by
  rcases h with hnil | hcredit
  · have hserve : l.pass xs = serve ⟨xs, l.credit⟩ := by
      rw [pass, hnil]
      rfl
    rw [hserve]
    exact settled_serve _
  · refine .inr ?_
    change l.credit - l.covers xs.length ≤ 0
    omega

theorem served_of_settled {l : Lane α} (h : l.Settled) : l.served = [] := by
  rcases h with hnil | hcredit
  · simp [served, hnil]
  · simp [served, covers_of_nonpos hcredit]

theorem served_eq_nil {l : Lane α} : l.served = [] ↔ l.Settled := by
  refine ⟨fun h => ?_, served_of_settled⟩
  have hlength := congrArg List.length h
  rw [length_served, List.length_nil] at hlength
  unfold covers at hlength
  by_cases hnil : l.waiting = []
  · exact .inl hnil
  · have hpos := List.length_pos_iff.2 hnil
    exact .inr (by omega)

theorem serve_of_settled {l : Lane α} (h : l.Settled) : l.serve = l := by
  have hzero : l.covers l.waiting.length = 0 := by
    rw [← length_served, served_of_settled h, List.length_nil]
  simp [serve, hzero]

/-- The credit covers the first items first. -/
theorem covers_add (l : Lane α) (xs : List α) (n : Nat) :
    l.covers (xs.length + n) = l.covers xs.length + (l.pass xs).covers n := by
  unfold pass covers
  dsimp only
  omega

theorem passed_append_right (l : Lane α) (xs ys : List α) :
    l.passed (xs ++ ys) = l.passed xs ++ (l.pass xs).passed ys := by
  have hsplit := l.covers_add xs ys.length
  by_cases hall : xs.length ≤ l.credit.toNat
  · have hcovers : l.covers xs.length = xs.length := min_eq_right hall
    simp only [passed, List.length_append, hsplit, hcovers, List.take_length,
      List.take_length_add_append]
  · have hcovers : l.covers xs.length = l.credit.toNat := min_eq_left (by omega)
    have hzero : (l.pass xs).covers ys.length = 0 := covers_of_nonpos (by
      change l.credit - l.covers xs.length ≤ 0
      omega) _
    simp only [passed, List.length_append, hsplit, hcovers, hzero, add_zero, List.take_zero,
      List.append_nil]
    exact List.take_append_of_le_length (by omega)

theorem pass_append_right (l : Lane α) (xs ys : List α) :
    l.pass (xs ++ ys) = (l.pass xs).pass ys := by
  have hsplit := l.covers_add xs ys.length
  have hcredit : l.credit - l.covers (xs.length + ys.length) =
      (l.pass xs).credit - (l.pass xs).covers ys.length := by
    change _ = l.credit - l.covers xs.length - (l.pass xs).covers ys.length
    omega
  have hwaiting : l.waiting ++ (xs ++ ys).drop (l.covers (xs.length + ys.length)) =
      (l.pass xs).waiting ++ ys.drop ((l.pass xs).covers ys.length) := by
    change _ = l.waiting ++ xs.drop (l.covers xs.length) ++ _
    rw [List.append_assoc, hsplit]
    congr 1
    by_cases hall : xs.length ≤ l.credit.toNat
    · have hcovers : l.covers xs.length = xs.length := min_eq_right hall
      rw [hcovers, List.drop_length, List.nil_append, List.drop_length_add_append]
    · have hcovers : l.covers xs.length = l.credit.toNat := min_eq_left (by omega)
      have hzero : (l.pass xs).covers ys.length = 0 := covers_of_nonpos (by
        change l.credit - l.covers xs.length ≤ 0
        omega) _
      rw [hcovers, hzero, add_zero, List.drop_zero]
      exact List.drop_append_of_le_length (by omega)
  rw [pass, List.length_append, hcredit, hwaiting]
  rfl

/-- How many wait once others have passed and the line has been served. -/
theorem length_serve_pass (l : Lane α) (xs : List α) :
    (l.pass xs).serve.waiting.length =
      l.waiting.length + xs.length - l.credit.toNat := by
  have hwaiting : (l.pass xs).waiting.length =
      l.waiting.length + (xs.length - l.covers xs.length) := by
    simp [pass]
  change ((l.pass xs).waiting.drop _).length = _
  rw [List.length_drop, hwaiting]
  change _ - min (l.credit - l.covers xs.length).toNat _ = _
  unfold covers
  omega

/-- The credit that is left then. -/
theorem credit_serve_pass (l : Lane α) (xs : List α) :
    (l.pass xs).serve.credit =
      l.credit - (min l.credit.toNat (l.waiting.length + xs.length) : Nat) := by
  have hwaiting : (l.pass xs).waiting.length =
      l.waiting.length + (xs.length - l.covers xs.length) := by
    simp [pass]
  change (l.credit - l.covers xs.length) -
    (min (l.credit - l.covers xs.length).toNat (l.pass xs).waiting.length : Nat) = _
  rw [hwaiting]
  unfold covers
  omega

end Lane

end Libeam.Lib
