import Mathlib.Data.Finset.Card
import Mathlib.Data.List.Perm.Subperm
/-!
# Slots that are taken

Things come and go, and some are to be replaced.  A slot is taken by everything that is
there for good, and by every replacement that is owed, whether or not what it replaces is
still there.
-/

namespace Libeam.Lib.Slots

variable {α : Type*} [DecidableEq α]

/-- `owed` lists what is to be replaced, with repetitions. -/
def taken (live : Finset α) (owed : List α) : Nat :=
  (live \ owed.toFinset).card + owed.length

variable {live live' : Finset α} {owed owed' : List α} {a x : α}

theorem card_le_taken (live : Finset α) (owed : List α) : live.card ≤ taken live owed := by
  have hsub : live ⊆ live \ owed.toFinset ∪ owed.toFinset := by
    rw [Finset.sdiff_union_self_eq_union]
    exact Finset.subset_union_left
  calc live.card
      ≤ (live \ owed.toFinset ∪ owed.toFinset).card := Finset.card_le_card hsub
    _ ≤ (live \ owed.toFinset).card + owed.toFinset.card := Finset.card_union_le _ _
    _ ≤ taken live owed := Nat.add_le_add_left (List.toFinset_card_le owed) _

theorem taken_perm (h : owed.Perm owed') : taken live owed = taken live owed' := by
  rw [taken, taken, List.toFinset_eq_of_perm _ _ h, h.length_eq]

/-- Things go, and replacements are given up. -/
theorem taken_anti (hlive : live' ⊆ live) (howed : owed'.Sublist owed) :
    taken live' owed' ≤ taken live owed := by
  obtain ⟨rest, hperm⟩ := howed.exists_perm_append
  have hsub : live' \ owed'.toFinset ⊆ live \ owed.toFinset ∪ rest.toFinset := by
    intro z hz
    obtain ⟨hz, hz'⟩ := Finset.mem_sdiff.1 hz
    rw [Finset.mem_union, Finset.mem_sdiff, List.toFinset_eq_of_perm _ _ hperm]
    by_cases hrest : z ∈ rest.toFinset
    · exact .inr hrest
    · refine .inl ⟨hlive hz, ?_⟩
      rw [List.toFinset_append, Finset.mem_union]
      exact not_or.2 ⟨hz', hrest⟩
  calc taken live' owed'
      ≤ ((live \ owed.toFinset).card + rest.toFinset.card) + owed'.length :=
        Nat.add_le_add_right ((Finset.card_le_card hsub).trans (Finset.card_union_le _ _)) _
    _ ≤ ((live \ owed.toFinset).card + rest.length) + owed'.length :=
        Nat.add_le_add_right (Nat.add_le_add_left (List.toFinset_card_le rest) _) _
    _ = taken live owed := by
        rw [taken, hperm.length_eq, List.length_append]
        omega

/-- One thing comes. -/
theorem taken_insert_le (hlive : live' ⊆ insert a live) :
    taken live' owed ≤ taken live owed + 1 := by
  have hsub : live' \ owed.toFinset ⊆ insert a (live \ owed.toFinset) := by
    intro z hz
    obtain ⟨hz, hz'⟩ := Finset.mem_sdiff.1 hz
    rcases Finset.mem_insert.1 (hlive hz) with rfl | hz
    · exact Finset.mem_insert_self z _
    · exact Finset.mem_insert_of_mem (Finset.mem_sdiff.2 ⟨hz, hz'⟩)
  have hcard := (Finset.card_le_card hsub).trans (Finset.card_insert_le _ _)
  rw [taken, taken]
  omega

/-- The replacement of something that is gone comes. -/
theorem taken_replace_le (hlive : live' ⊆ insert a live) (hx : x ∉ live) :
    taken live' owed ≤ taken live (x :: owed) := by
  have hsame : live \ (x :: owed).toFinset = live \ owed.toFinset := by
    rw [List.toFinset_cons, Finset.sdiff_insert, Finset.erase_eq_of_notMem]
    exact fun h => hx (Finset.mem_sdiff.1 h).1
  calc taken live' owed
      ≤ taken live owed + 1 := taken_insert_le hlive
    _ = taken live (x :: owed) := by rw [taken, taken, hsame, List.length_cons, Nat.add_assoc]

/-- Something that is there is to be replaced: it does not count twice. -/
theorem taken_owe (hx : x ∈ live) (hnew : x ∉ owed) : taken live (x :: owed) = taken live owed := by
  have hmem : x ∈ live \ owed.toFinset :=
    Finset.mem_sdiff.2 ⟨hx, fun h => hnew (List.mem_toFinset.1 h)⟩
  have hcard := Finset.card_erase_add_one hmem
  rw [taken, taken, List.toFinset_cons, Finset.sdiff_insert, List.length_cons]
  omega

theorem taken_owe_le (live : Finset α) (owed : List α) (x : α) :
    taken live (x :: owed) ≤ taken live owed + 1 := by
  have hsub : live \ (x :: owed).toFinset ⊆ live \ owed.toFinset := by
    rw [List.toFinset_cons]
    exact Finset.sdiff_subset_sdiff (Finset.Subset.refl _) (Finset.subset_insert _ _)
  have hcard := Finset.card_le_card hsub
  rw [taken, taken, List.length_cons]
  omega

end Libeam.Lib.Slots
