import Mathlib.Data.List.Basic
import Mathlib.Logic.Function.Basic
/-!
# Maps of sets

A map from keys to sets that is kept tidy: a key gets its set with the first
element and loses it with the last, so that a key is in the map exactly when its
set has an element.  A set is the list of its elements in the order in which they
were added.
-/

namespace Libeam.Lib

abbrev SetMap (κ α : Type*) := κ → Option (List α)

namespace SetMap

variable {κ α : Type*} [DecidableEq κ] [DecidableEq α]

def empty : SetMap κ α := fun _ => none

/-- The set of a key, without elements when the key has none. -/
def get (m : SetMap κ α) (k : κ) : List α := (m k).getD []

def add (m : SetMap κ α) (k : κ) (x : α) : SetMap κ α :=
  Function.update m k (some (if x ∈ m.get k then m.get k else m.get k ++ [x]))

def remove (m : SetMap κ α) (k : κ) (x : α) : SetMap κ α :=
  match m k with
  | none => m
  | some xs =>
      let left := xs.filter (· ≠ x)
      Function.update m k (if left = [] then none else some left)

/-- No key has a set without elements. -/
def Tidy (m : SetMap κ α) : Prop := ∀ k, m k ≠ some []

omit [DecidableEq κ] [DecidableEq α] in
theorem tidy_empty : (empty : SetMap κ α).Tidy := fun _ => nofun

theorem get_add (m : SetMap κ α) (k k' : κ) (x : α) :
    (m.add k x).get k' =
      if k' = k then (if x ∈ m.get k then m.get k else m.get k ++ [x]) else m.get k' := by
  unfold add get
  by_cases hk : k' = k
  · subst hk
    simp
  · simp [hk]

theorem get_remove (m : SetMap κ α) (k k' : κ) (x : α) :
    (m.remove k x).get k' = if k' = k then (m.get k).filter (· ≠ x) else m.get k' := by
  unfold remove get
  by_cases hk : k' = k
  · subst hk
    cases hm : m k' with
    | none => simp [hm]
    | some xs =>
        simp only [Function.update_self, if_true, Option.getD_some]
        split_ifs with hleft
        · exact hleft.symm
        · rfl
  · cases hm : m k with
    | none => simp [hk]
    | some xs => simp [hk]

@[simp] theorem mem_get_add {m : SetMap κ α} {k k' : κ} {x y : α} :
    y ∈ (m.add k x).get k' ↔ y ∈ m.get k' ∨ k' = k ∧ y = x := by
  rw [get_add]
  by_cases hk : k' = k
  · subst hk
    by_cases hx : x ∈ m.get k'
    · simp only [hx, if_true, true_and]
      exact ⟨.inl, fun h => h.elim (fun h => h) (fun h => h ▸ hx)⟩
    · simp [hx]
  · simp [hk]

@[simp] theorem mem_get_remove {m : SetMap κ α} {k k' : κ} {x y : α} :
    y ∈ (m.remove k x).get k' ↔ y ∈ m.get k' ∧ ¬ (k' = k ∧ y = x) := by
  rw [get_remove]
  by_cases hk : k' = k
  · subst hk
    simp
  · simp [hk]

theorem Tidy.add {m : SetMap κ α} (h : m.Tidy) (k : κ) (x : α) : (m.add k x).Tidy := by
  intro k'
  unfold SetMap.add
  by_cases hk : k' = k
  · subst hk
    rw [Function.update_self]
    split_ifs with hx
    · intro hnil
      rw [Option.some.inj hnil] at hx
      exact absurd hx List.not_mem_nil
    · simp
  · rw [Function.update_of_ne hk]
    exact h k'

theorem Tidy.remove {m : SetMap κ α} (h : m.Tidy) (k : κ) (x : α) : (m.remove k x).Tidy := by
  intro k'
  unfold SetMap.remove
  cases m k with
  | none => exact h k'
  | some xs =>
      dsimp only
      by_cases hk : k' = k
      · subst hk
        rw [Function.update_self]
        split_ifs with hleft
        · exact nofun
        · exact fun hnil => hleft (Option.some.inj hnil)
      · rw [Function.update_of_ne hk]
        exact h k'

end SetMap

end Libeam.Lib
