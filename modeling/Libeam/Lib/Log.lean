import Mathlib.Data.List.Basic
/-!
# Logs

A log grows at its end.  What is said of an entry may depend on the entries before it, and holds of
a longer log when it holds of the log so far and of the new entry.
-/

namespace Libeam.Lib

variable {α : Type*}

theorem snoc_eq_split {l A B : List α} {x y : α} (h : l ++ [y] = A ++ x :: B) :
    B = [] ∧ x = y ∧ A = l ∨ ∃ B', B = B' ++ [y] ∧ l = A ++ x :: B' := by
  rcases List.eq_nil_or_concat B with rfl | ⟨B', b, rfl⟩
  · obtain ⟨hl, hy⟩ := List.append_inj' h rfl
    exact Or.inl ⟨rfl, (List.cons.inj hy).1.symm, hl.symm⟩
  · rw [List.concat_eq_append, ← List.cons_append, ← List.append_assoc] at h
    obtain ⟨hl, hy⟩ := List.append_inj' h rfl
    rw [List.concat_eq_append, (List.cons.inj hy).1]
    exact Or.inr ⟨B', rfl, hl⟩

/-- `P` holds of every entry, with the log before it. -/
def Each (P : List α → α → Prop) (log : List α) : Prop :=
  ∀ before x after, log = before ++ x :: after → P before x

theorem each_nil {P : List α → α → Prop} : Each P [] := fun before x after h => by
  simp at h

theorem each_snoc_iff {P : List α → α → Prop} {log : List α} {x : α} :
    Each P (log ++ [x]) ↔ Each P log ∧ P log x := by
  constructor
  · refine fun h => ⟨fun before y after hsplit => ?_, h log x [] rfl⟩
    exact h before y (after ++ [x]) (by rw [hsplit, List.append_assoc, List.cons_append])
  · rintro ⟨h, hx⟩ before y after hsplit
    rcases snoc_eq_split hsplit with ⟨-, rfl, rfl⟩ | ⟨after', -, hsplit⟩
    · exact hx
    · exact h before y after' hsplit

end Libeam.Lib
