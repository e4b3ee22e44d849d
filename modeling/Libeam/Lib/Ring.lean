import Mathlib.Data.List.Basic
/-!
# Circular indices and growable cell arrays

The index arithmetic of a ring buffer and the two ways an array of optional
cells is written: in place, and past its end, where the array is extended and
the gap stays unset.  `read buf head n` lists the `n` cells from `head` on,
wrapping at the end, and `Reads buf head q` says that they hold exactly the
list `q`, none of them unset.
-/

namespace Libeam.Lib.Ring

variable {α : Type*}

/-! ## Index arithmetic -/

theorem wrap_eq {len head i : Nat} (hhead : head < len) (hi : i ≤ len) :
    (head + i) % len = if head + i < len then head + i else head + i - len := by
  split_ifs with h
  · exact Nat.mod_eq_of_lt h
  · rw [Nat.mod_eq_sub_mod (by omega), Nat.mod_eq_of_lt (by omega)]

theorem wrap_inj {len head i j : Nat} (hhead : head < len) (hi : i < len)
    (hj : j < len) : (head + i) % len = (head + j) % len ↔ i = j := by
  rw [wrap_eq hhead (Nat.le_of_lt hi), wrap_eq hhead (Nat.le_of_lt hj)]
  split_ifs <;> omega

theorem wrap_succ (len head i : Nat) :
    ((head + 1) % len + i) % len = (head + (i + 1)) % len := by
  rw [Nat.mod_add_mod, Nat.add_assoc, Nat.add_comm 1 i]

theorem wrap_pred {len head : Nat} (hhead : head < len) (i : Nat) :
    ((head + len - 1) % len + (i + 1)) % len = (head + i) % len := by
  rw [Nat.mod_add_mod]
  have hsum : head + len - 1 + (i + 1) = head + i + len := by omega
  rw [hsum, Nat.add_mod_right]

/-! ## Writing cells -/

/-- An assignment `buf[i] = v` that extends the array when `i` is past its
end. -/
def writeAt (buf : List (Option α)) (i : Nat) (v : Option α) : List (Option α) :=
  if i < buf.length then buf.set i v
  else buf ++ List.replicate (i - buf.length) none ++ [v]

@[simp] theorem writeAt_length (buf : List (Option α)) (v : Option α) :
    writeAt buf buf.length v = buf ++ [v] := by
  simp [writeAt]

theorem writeAt_of_lt {buf : List (Option α)} {i : Nat} (h : i < buf.length)
    (v : Option α) : writeAt buf i v = buf.set i v := if_pos h

theorem length_writeAt_of_lt {buf : List (Option α)} {i : Nat}
    (h : i < buf.length) (v : Option α) :
    (writeAt buf i v).length = buf.length := by
  simp [writeAt_of_lt h]

/-! ## Reading cells -/

/-- A cell that was never written, or lies past the end, reads as unset. -/
def cell (buf : List (Option α)) (i : Nat) : Option α := (buf[i]?).join

theorem cell_set_self {buf : List (Option α)} {i : Nat} (h : i < buf.length)
    (v : Option α) : cell (buf.set i v) i = v := by
  simp [cell, List.getElem?_set_self h]

theorem cell_set_ne {buf : List (Option α)} {i j : Nat} (h : i ≠ j)
    (v : Option α) : cell (buf.set i v) j = cell buf j := by
  simp [cell, List.getElem?_set_ne h]

/-- The `n` cells from `head` on, wrapping at the end. -/
def read (buf : List (Option α)) (head n : Nat) : List (Option α) :=
  (List.range n).map fun i => cell buf ((head + i) % buf.length)

section Read

variable {buf : List (Option α)} {head n : Nat}

@[simp] theorem length_read (buf : List (Option α)) (head n : Nat) :
    (read buf head n).length = n := by
  simp [read]

@[simp] theorem read_zero (buf : List (Option α)) (head : Nat) :
    read buf head 0 = [] := rfl

theorem getElem?_read (buf : List (Option α)) (head : Nat) {i : Nat} (h : i < n) :
    (read buf head n)[i]? = some (cell buf ((head + i) % buf.length)) := by
  simp [read, h]

theorem read_succ (buf : List (Option α)) (head n : Nat) :
    read buf head (n + 1) =
      read buf head n ++ [cell buf ((head + n) % buf.length)] := by
  simp [read, List.range_succ]

/-- The first cell read is the one at the head. -/
theorem read_cons (hhead : head < buf.length) (n : Nat) :
    read buf head (n + 1) =
      cell buf head :: read buf ((head + 1) % buf.length) n := by
  simp only [read, List.range_succ_eq_map, List.map_cons, List.map_map]
  congr 1
  · rw [Nat.add_zero, Nat.mod_eq_of_lt hhead]
  · apply List.map_congr_left
    intro i _
    rw [Function.comp_apply, wrap_succ]

/-- A write outside the cells read is not seen. -/
theorem read_set {k : Nat} (hk : ∀ i < n, k ≠ (head + i) % buf.length)
    (v : Option α) : read (buf.set k v) head n = read buf head n := by
  apply List.map_congr_left
  intro i hi
  rw [List.length_set, cell_set_ne (hk i (List.mem_range.1 hi))]

/-- Writing the first free cell appends. -/
theorem read_push (hhead : head < buf.length) (hfree : n < buf.length)
    (v : Option α) :
    read (writeAt buf ((head + n) % buf.length) v) head (n + 1) =
      read buf head n ++ [v] := by
  have hw : (head + n) % buf.length < buf.length := Nat.mod_lt _ (by omega)
  rw [writeAt_of_lt hw, read_succ, List.length_set, cell_set_self hw, read_set]
  intro i hi
  rw [Ne, wrap_inj hhead hfree (by omega)]
  omega

/-- Clearing the head cell and moving the head on removes the first. -/
theorem read_pop (hhead : head < buf.length) (hfits : n < buf.length)
    (v : Option α) :
    read (writeAt buf head v) ((head + 1) % buf.length) n =
      (read buf head (n + 1)).tail := by
  rw [writeAt_of_lt hhead, read_cons hhead, List.tail_cons, read_set]
  intro i hi
  have hinj := wrap_inj hhead (show 0 < buf.length by omega)
    (show i + 1 < buf.length by omega)
  rw [Nat.add_zero, Nat.mod_eq_of_lt hhead] at hinj
  rw [wrap_succ, Ne, hinj]
  omega

/-- Moving the head back and writing there prepends. -/
theorem read_unshift (hhead : head < buf.length) (hfree : n < buf.length)
    (v : Option α) :
    read (writeAt buf ((head + buf.length - 1) % buf.length) v)
        ((head + buf.length - 1) % buf.length) (n + 1) =
      v :: read buf head n := by
  have hw : (head + buf.length - 1) % buf.length < buf.length :=
    Nat.mod_lt _ (by omega)
  have hback : ((head + buf.length - 1) % buf.length + 1) % buf.length = head := by
    rw [wrap_pred hhead 0, Nat.add_zero, Nat.mod_eq_of_lt hhead]
  rw [writeAt_of_lt hw, read_cons (by rwa [List.length_set]), List.length_set,
    cell_set_self hw, hback, read_set]
  intro i hi
  have hinj := wrap_inj hw (show 0 < buf.length by omega)
    (show i + 1 < buf.length by omega)
  rw [Nat.add_zero, Nat.mod_eq_of_lt hw, wrap_pred hhead] at hinj
  rw [Ne, hinj]
  omega

/-- Cells laid out from index 0, followed by any others, read as the list. -/
theorem read_prefix (cells rest : List (Option α)) :
    read (cells ++ rest) 0 cells.length = cells := by
  apply List.ext_getElem?
  intro i
  by_cases hi : i < cells.length
  · rw [getElem?_read _ _ hi, Nat.zero_add, Nat.mod_eq_of_lt (by simp; omega), cell,
      List.getElem?_append_left hi, List.getElem?_eq_getElem hi, Option.join_some]
  · rw [List.getElem?_eq_none (by simpa using hi),
      List.getElem?_eq_none (by omega)]

end Read

/-! ## Reading a queue out of the cells -/

/-- The cells from `head` on, wrapping at the end, hold exactly `q`. -/
structure Reads (buf : List (Option α)) (head : Nat) (q : List α) : Prop where
  head_lt : head < buf.length
  fits : q.length ≤ buf.length
  cell : ∀ i (h : i < q.length), buf[(head + i) % buf.length]? = some (some q[i])

namespace Reads

variable {buf : List (Option α)} {head : Nat} {q : List α}

theorem length_pos (h : Reads buf head q) : 0 < buf.length :=
  Nat.zero_lt_of_lt h.head_lt

theorem nil (h : head < buf.length) : Reads buf head ([] : List α) where
  head_lt := h
  fits := Nat.zero_le _
  cell := by simp

/-- What a loop over the first `q.length` cells collects. -/
theorem read_eq (h : Reads buf head q) : read buf head q.length = q.map some := by
  apply List.ext_getElem
  · simp
  · intro i h₁ h₂
    have hi : i < q.length := by simpa using h₁
    simp [read, Ring.cell, h.cell i hi]

theorem of_read (hhead : head < buf.length) (hfits : q.length ≤ buf.length)
    (h : read buf head q.length = q.map some) : Reads buf head q := by
  refine ⟨hhead, hfits, fun i hi => ?_⟩
  have hcell := congrArg (fun cells => cells[i]?.join) h
  simp only [getElem?_read buf head hi, Option.join_some, List.getElem?_map,
    List.getElem?_eq_getElem hi, Option.map_some] at hcell
  exact Option.join_eq_some_iff.1 hcell

/-- Writing the first free cell appends. -/
theorem push (h : Reads buf head q) (hfree : q.length < buf.length) (v : α) :
    Reads (writeAt buf ((head + q.length) % buf.length) (some v)) head
      (q ++ [v]) := by
  have hlen := length_writeAt_of_lt (Nat.mod_lt (head + q.length) h.length_pos)
    (some v)
  apply of_read
  · rw [hlen]
    exact h.head_lt
  · rw [hlen, List.length_append]
    exact hfree
  · rw [List.length_append, List.length_singleton, read_push h.head_lt hfree,
      h.read_eq]
    simp

/-- Clearing the head cell and moving the head on removes the first element. -/
theorem pop {v : α} (h : Reads buf head (v :: q)) :
    Reads (writeAt buf head none) ((head + 1) % buf.length) q := by
  have hlen := length_writeAt_of_lt h.head_lt (none : Option α)
  have hfits := h.fits
  rw [List.length_cons] at hfits
  apply of_read
  · rw [hlen]
    exact Nat.mod_lt _ h.length_pos
  · rw [hlen]
    omega
  · have hread := h.read_eq
    rw [List.length_cons] at hread
    rw [read_pop h.head_lt (by omega), hread]
    rfl

/-- Moving the head back and writing there prepends. -/
theorem cons (h : Reads buf head q) (hfree : q.length < buf.length) (v : α) :
    Reads (writeAt buf ((head + buf.length - 1) % buf.length) (some v))
      ((head + buf.length - 1) % buf.length) (v :: q) := by
  have hw : (head + buf.length - 1) % buf.length < buf.length :=
    Nat.mod_lt _ h.length_pos
  have hlen := length_writeAt_of_lt hw (some v)
  apply of_read
  · rw [hlen]
    exact hw
  · rw [hlen]
    exact hfree
  · rw [List.length_cons, read_unshift h.head_lt hfree, h.read_eq]
    rfl

/-- Cells laid out from index 0, followed by any others, read as the list. -/
theorem of_prefix {rest : List (Option α)} (hpos : 0 < (q.map some ++ rest).length) :
    Reads (q.map some ++ rest) 0 q := by
  apply of_read hpos (by simp)
  have hread := read_prefix (q.map some) rest
  rwa [List.length_map] at hread

end Reads

end Libeam.Lib.Ring
