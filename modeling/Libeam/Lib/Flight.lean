import Mathlib.Algebra.BigOperators.Group.List.Basic
import Mathlib.Algebra.Order.BigOperators.Group.List
import Mathlib.Tactic.Ring
/-!
# Messages in flight

Messages that are sent and not yet received are a list, any member of which may be
received next.  The total of a weight over them changes by the weight of what is sent
and received.
-/

namespace Libeam.Lib.Flight

variable {μ : Type*}

/-- The weights of all messages together. -/
def total (w : μ → Int) (flight : List μ) : Int := (flight.map w).sum

@[simp] theorem total_nil (w : μ → Int) : total w [] = 0 := rfl

@[simp] theorem total_cons (w : μ → Int) (m : μ) (flight : List μ) :
    total w (m :: flight) = w m + total w flight := by
  simp [total]

@[simp] theorem total_append (w : μ → Int) (flight sent : List μ) :
    total w (flight ++ sent) = total w flight + total w sent := by
  simp [total]

/-- The rest of the flight and the message received are the flight. -/
theorem perm_eraseIdx {flight : List μ} {i : Nat} {m : μ} (h : flight[i]? = some m) :
    (m :: flight.eraseIdx i).Perm flight := by
  obtain ⟨hi, rfl⟩ := List.getElem?_eq_some_iff.1 h
  exact List.getElem_cons_eraseIdx_perm hi

theorem total_perm {w : μ → Int} {flight flight' : List μ} (h : flight.Perm flight') :
    total w flight = total w flight' :=
  (h.map w).sum_eq

theorem total_eq_zero {w : μ → Int} {flight : List μ} (h : ∀ m ∈ flight, w m = 0) :
    total w flight = 0 := by
  refine List.sum_eq_zero fun v hv => ?_
  obtain ⟨m, hm, rfl⟩ := List.mem_map.1 hv
  exact h m hm

theorem total_nonneg {w : μ → Int} {flight : List μ} (h : ∀ m ∈ flight, 0 ≤ w m) :
    0 ≤ total w flight := by
  refine List.sum_nonneg fun v hv => ?_
  obtain ⟨m, hm, rfl⟩ := List.mem_map.1 hv
  exact h m hm

/-- One message weighs no more than all of them. -/
theorem le_total {w : μ → Int} {flight : List μ} (h : ∀ m ∈ flight, 0 ≤ w m) {m : μ}
    (hm : m ∈ flight) : w m ≤ total w flight := by
  refine List.single_le_sum (fun v hv => ?_) _ (List.mem_map_of_mem hm)
  obtain ⟨m', hm', rfl⟩ := List.mem_map.1 hv
  exact h m' hm'

end Libeam.Lib.Flight
