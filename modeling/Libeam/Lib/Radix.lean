import Mathlib.Data.Nat.Digits.Lemmas
/-!
# Numerals of a fixed width

A numeral is a list of digits with the most significant one first, as it is written.
`value` reads it and `digits` writes it; `foldl_eq_value` and `digits_succ` are the
loops that do so digit by digit.
-/

namespace Libeam.Lib.Radix

/-- The number that the digits stand for in base `b`. -/
def value (b : Nat) (ds : List Nat) : Nat := Nat.ofDigits b ds.reverse

/-- The `n` digits of a number below `b ^ n`. -/
def digits (b n v : Nat) : List Nat := (Nat.digitsAppend b n v).reverse

variable {b n v : Nat} {ds : List Nat}

theorem value_append (ds es : List Nat) :
    value b (ds ++ es) = value b ds * b ^ es.length + value b es := by
  rw [value, List.reverse_append, Nat.ofDigits_append, List.length_reverse, Nat.mul_comm,
    Nat.add_comm]
  rfl

theorem value_snoc (ds : List Nat) (d : Nat) : value b (ds ++ [d]) = value b ds * b + d := by
  rw [value_append, List.length_singleton, Nat.pow_one]
  exact congrArg _ Nat.ofDigits_singleton

/-- Reading digit by digit. -/
theorem foldl_eq_value (b : Nat) (ds : List Nat) :
    ds.foldl (fun v d => v * b + d) 0 = value b ds := by
  induction ds using List.reverseRecOn with
  | nil => rfl
  | append_singleton ds d ih => rw [List.foldl_append, ih, List.foldl_cons, List.foldl_nil,
      value_snoc]

@[simp] theorem value_digits (b n v : Nat) : value b (digits b n v) = v := by
  rw [value, digits, List.reverse_reverse, Nat.digitsAppend, Nat.ofDigits_append_replicate_zero,
    Nat.ofDigits_digits]

theorem length_digits (hb : 1 < b) (hv : v < b ^ n) : (digits b n v).length = n := by
  rw [digits, List.length_reverse, Nat.length_digitsAppend hb n hv]

theorem lt_of_mem_digits (hb : 1 < b) {d : Nat} (h : d ∈ digits b n v) : d < b :=
  Nat.lt_of_mem_digitsAppend hb n d (List.mem_reverse.1 h)

theorem digits_value (hb : 1 < b) (h : ∀ d ∈ ds, d < b) :
    digits b ds.length (value b ds) = ds := by
  have hmem : ds.reverse ∈ {L : List Nat | L.length = ds.length ∧ ∀ d ∈ L, d < b} :=
    ⟨List.length_reverse, fun d hd => h d (List.mem_reverse.1 hd)⟩
  rw [digits, value, (Nat.setInvOn_digitsAppend_ofDigits hb ds.length).1 hmem, List.reverse_reverse]

/-- Writing digit by digit, the least significant one first. -/
theorem digits_succ (hb : 1 < b) (hv : v < b ^ (n + 1)) :
    digits b (n + 1) v = digits b n (v / b) ++ [v % b] := by
  have hpos : 0 < b := Nat.zero_lt_of_lt hb
  have hdiv : v / b < b ^ n := by
    rw [Nat.div_lt_iff_lt_mul hpos, ← Nat.pow_succ]
    exact hv
  have hlt : ∀ d ∈ digits b n (v / b) ++ [v % b], d < b := by
    intro d hd
    rcases List.mem_append.1 hd with hd | hd
    · exact lt_of_mem_digits hb hd
    · rw [List.mem_singleton.1 hd]
      exact Nat.mod_lt v hpos
  have hwritten := digits_value hb hlt
  rw [List.length_append, length_digits hb hdiv, List.length_singleton, value_snoc, value_digits,
    Nat.div_add_mod'] at hwritten
  exact hwritten

end Libeam.Lib.Radix
