import Libeam.Auth.Z85
import Libeam.Lib.Radix
import Mathlib.Data.List.GetD
/-!
# Z85 encodes numerals

A group of four bytes is a numeral in base 256 and its five characters are one in base 85.
What is encoded is decoded again; what is decoded is encoded again only when it has no
character outside the alphabet and no group that stands for a number of more than 32 bits.
-/

namespace Libeam.Auth

open Lib

/-! ## Words and bytes -/

/-- Bytes that are shifted apart are put together without a carry. -/
theorem or_shifted {a b c d : Nat} (hb : b < 256) (hc : c < 256) (hd : d < 256) :
    a <<< 24 ||| b <<< 16 ||| c <<< 8 ||| d = ((a * 256 + b) * 256 + c) * 256 + d := by
  have hab : a <<< 24 ||| b <<< 16 = (a * 256 + b) <<< 16 := by
    rw [← Nat.shiftLeft_add_eq_or_of_lt (by rw [Nat.shiftLeft_eq]; omega)]
    simp only [Nat.shiftLeft_eq]
    omega
  have habc : (a * 256 + b) <<< 16 ||| c <<< 8 = ((a * 256 + b) * 256 + c) <<< 8 := by
    rw [← Nat.shiftLeft_add_eq_or_of_lt (by rw [Nat.shiftLeft_eq]; omega)]
    simp only [Nat.shiftLeft_eq]
    omega
  rw [hab, habc, ← Nat.shiftLeft_add_eq_or_of_lt (by omega), Nat.shiftLeft_eq]

theorem toNat_shifted (x : UInt8) {n : Nat} (hn : n ≤ 24) :
    (x.toBitVec.setWidth 32 <<< n).toNat = x.toNat <<< n := by
  have hx := x.toNat_lt
  have hpow : (2 : Nat) ^ n ≤ 2 ^ 24 := Nat.pow_le_pow_right (by omega) hn
  have hlt : x.toNat * 2 ^ n < 2 ^ 32 := calc
    x.toNat * 2 ^ n < 2 ^ 8 * 2 ^ n := Nat.mul_lt_mul_of_pos_right hx (Nat.two_pow_pos n)
    _ ≤ 2 ^ 8 * 2 ^ 24 := Nat.mul_le_mul_left _ hpow
  have hwide : (x.toBitVec.setWidth 32).toNat = x.toNat := by
    rw [BitVec.toNat_setWidth, UInt8.toNat_toBitVec, Nat.mod_eq_of_lt (by omega)]
  rw [BitVec.toNat_shiftLeft, hwide, Nat.shiftLeft_eq, Nat.mod_eq_of_lt hlt]

theorem toUint32_eq (a b c d : UInt8) :
    toUint32 a b c d = Radix.value 256 [a.toNat, b.toNat, c.toNat, d.toNat] := by
  have hlast : (d.toBitVec.setWidth 32).toNat = d.toNat := by
    have hd := d.toNat_lt
    rw [BitVec.toNat_setWidth, UInt8.toNat_toBitVec, Nat.mod_eq_of_lt (by omega)]
  rw [toUint32, BitVec.toNat_or, BitVec.toNat_or, BitVec.toNat_or, toNat_shifted a (by omega),
    toNat_shifted b (by omega), toNat_shifted c (by omega), hlast,
    or_shifted b.toNat_lt c.toNat_lt d.toNat_lt, ← Radix.foldl_eq_value]
  simp only [List.foldl_cons, List.foldl_nil, Nat.zero_mul, Nat.zero_add]

/-- `>>` brings in the sign, and the mask takes it away again. -/
theorem byteAt_ofNat (v : Nat) {shift : Nat} (h : shift ≤ 24) :
    byteAt v shift = UInt8.ofNat (v / 2 ^ shift) := by
  refine UInt8.toBitVec_inj.1 (BitVec.eq_of_getLsbD_eq fun i hi => ?_)
  have hmask : (0xff#32).getLsbD i = true := by
    rw [BitVec.getLsbD_ofNat, show (255 : Nat) = 2 ^ 8 - 1 by rfl, Nat.testBit_two_pow_sub_one]
    simp only [Bool.and_eq_true, decide_eq_true_eq]
    omega
  have hin : shift + i < 32 := by omega
  have hi32 : ¬32 ≤ i := by omega
  have hword : BitVec.ofInt 32 (v : Int) = BitVec.ofNat 32 v := BitVec.ofInt_natCast 32 v
  simp only [byteAt, hword, UInt8.toBitVec_ofNat', BitVec.getLsbD_setWidth, BitVec.getLsbD_and,
    hmask, BitVec.getLsbD_sshiftRight, BitVec.getLsbD_ofNat, Nat.testBit_div_two_pow, hi, hin,
    hi32, decide_true, decide_false, Bool.not_false, Bool.true_and, Bool.and_true, if_true,
    Nat.add_comm]

/-- The four bytes that are stored for the number of a group. -/
def bytesOf (value : Int) : List UInt8 :=
  [byteAt value 24, byteAt value 16, byteAt value 8, byteAt value 0]

theorem bytesOf_value (a b c d : UInt8) :
    bytesOf (Radix.value 256 [a.toNat, b.toNat, c.toNat, d.toNat] : Nat) = [a, b, c, d] := by
  have hb := b.toNat_lt
  have hc := c.toNat_lt
  have hd := d.toNat_lt
  simp only [bytesOf, byteAt_ofNat _ (Nat.le_refl 24), byteAt_ofNat _ (show 16 ≤ 24 by omega),
    byteAt_ofNat _ (show 8 ≤ 24 by omega), byteAt_ofNat _ (Nat.zero_le 24),
    ← Radix.foldl_eq_value, List.foldl_cons, List.foldl_nil, List.cons.injEq, and_true]
  refine ⟨?_, ?_, ?_, ?_⟩ <;> refine UInt8.toNat_inj.1 ?_ <;> rw [UInt8.toNat_ofNat'] <;>
    have ha := a.toNat_lt <;> omega

theorem toUint32_bytes {v : Nat} (h : v < 2 ^ 32) :
    toUint32 (byteAt v 24) (byteAt v 16) (byteAt v 8) (byteAt v 0) = v := by
  rw [toUint32_eq, byteAt_ofNat _ (Nat.le_refl 24), byteAt_ofNat _ (show 16 ≤ 24 by omega),
    byteAt_ofNat _ (show 8 ≤ 24 by omega), byteAt_ofNat _ (Nat.zero_le 24),
    ← Radix.foldl_eq_value]
  simp only [List.foldl_cons, List.foldl_nil, UInt8.toNat_ofNat']
  omega

theorem toUint32_lt (a b c d : UInt8) : toUint32 a b c d < 85 ^ 5 :=
  Nat.lt_of_lt_of_le (BitVec.isLt _) (by decide)

/-! ## Characters and digits -/

theorem Z85_CHARS_length : Z85_CHARS.length = 85 := rfl

theorem Z85_CHARS_nodup : Z85_CHARS.Nodup := by decide +kernel

theorem charAt_eq {i : Nat} (h : i < Z85_CHARS.length) : charAt i = Z85_CHARS[i] :=
  List.getD_eq_getElem Z85_CHARS 0 h

theorem charAt_mem {i : Nat} (h : i < 85) : charAt i ∈ Z85_CHARS := by
  rw [← Z85_CHARS_length] at h
  rw [charAt_eq h]
  exact List.getElem_mem h

theorem indexOf_charAt {i : Nat} (h : i < 85) : indexOf (charAt i) = i := by
  rw [indexOf, if_pos (charAt_mem h)]
  rw [← Z85_CHARS_length] at h
  rw [charAt_eq h, Z85_CHARS_nodup.idxOf_getElem]

theorem charAt_idxOf {c : CodeUnit} (h : c ∈ Z85_CHARS) : charAt (Z85_CHARS.idxOf c) = c := by
  rw [charAt_eq (List.idxOf_lt_length_of_mem h), List.getElem_idxOf]

theorem idxOf_lt {c : CodeUnit} (h : c ∈ Z85_CHARS) : Z85_CHARS.idxOf c < 85 :=
  Z85_CHARS_length ▸ List.idxOf_lt_length_of_mem h

theorem encodeGroup_eq (n : Nat) {v : Nat} (chars : List CodeUnit) (h : v < 85 ^ n) :
    encodeGroup n v chars = (Radix.digits 85 n v).map charAt ++ chars := by
  induction n generalizing v chars with
  | zero =>
      obtain rfl : v = 0 := by omega
      rfl
  | succ n ih =>
      have hdiv : v / 85 < 85 ^ n := by
        rw [Nat.div_lt_iff_lt_mul (by decide), ← Nat.pow_succ]
        exact h
      rw [encodeGroup, ih _ hdiv, Radix.digits_succ (by decide) h, List.map_append,
        List.append_assoc]
      rfl

theorem decodeGroup_map_charAt {ds : List Nat} (h : ∀ d ∈ ds, d < 85) :
    decodeGroup (ds.map charAt) = Radix.value 85 ds := by
  rw [decodeGroup, ← Radix.foldl_eq_value]
  induction ds using List.reverseRecOn with
  | nil => rfl
  | append_singleton ds d ih =>
      have hds : ∀ e ∈ ds, e < 85 := fun e he => h e (List.mem_append_left _ he)
      have hd : d < 85 := h d (List.mem_append_right _ (List.mem_singleton_self d))
      rw [List.map_append, List.foldl_append, List.foldl_append, ih hds]
      simp only [List.map_cons, List.map_nil, List.foldl_cons, List.foldl_nil, indexOf_charAt hd]
      push_cast
      rfl

/-! ## Groups -/

/-- The numeral of a group of characters. -/
def places (group : List CodeUnit) : List Nat := group.map fun c => Z85_CHARS.idxOf c

theorem lt_of_mem_places {group : List CodeUnit} (h : ∀ c ∈ group, c ∈ Z85_CHARS) :
    ∀ d ∈ places group, d < 85 := by
  intro d hd
  obtain ⟨c, hc, rfl⟩ := List.mem_map.1 hd
  exact idxOf_lt (h c hc)

theorem map_charAt_places {group : List CodeUnit} (h : ∀ c ∈ group, c ∈ Z85_CHARS) :
    (places group).map charAt = group := by
  rw [places, List.map_map]
  calc group.map (charAt ∘ fun c => Z85_CHARS.idxOf c)
    _ = group.map id := List.map_congr_left fun c hc => charAt_idxOf (h c hc)
    _ = group := List.map_id group

/-- The digits of a word, as a group of the encoding is written. -/
structure Canonical (group : List CodeUnit) : Prop where
  inAlphabet : ∀ c ∈ group, c ∈ Z85_CHARS
  isWord : Radix.value 85 (places group) < 2 ^ 32

theorem decodeGroup_eq {group : List CodeUnit} (h : ∀ c ∈ group, c ∈ Z85_CHARS) :
    decodeGroup group = Radix.value 85 (places group) := by
  conv => lhs; rw [← map_charAt_places h]
  exact decodeGroup_map_charAt (lt_of_mem_places h)

/-- The characters of a number and the number that they are read as. -/
theorem decodeGroup_encodeGroup {v : Nat} (h : v < 85 ^ 5) :
    decodeGroup (encodeGroup 5 v []) = v := by
  rw [encodeGroup_eq 5 [] h, List.append_nil,
    decodeGroup_map_charAt fun d hd => Radix.lt_of_mem_digits (by decide) hd, Radix.value_digits]

theorem length_encodeGroup {v : Nat} (h : v < 85 ^ 5) : (encodeGroup 5 v []).length = 5 := by
  rw [encodeGroup_eq 5 [] h, List.append_nil, List.length_map,
    Radix.length_digits (by decide) h]

theorem mem_encodeGroup {v : Nat} (h : v < 85 ^ 5) : ∀ c ∈ encodeGroup 5 v [], c ∈ Z85_CHARS := by
  rw [encodeGroup_eq 5 [] h, List.append_nil]
  intro c hc
  obtain ⟨d, hd, rfl⟩ := List.mem_map.1 hc
  exact charAt_mem (Radix.lt_of_mem_digits (by decide) hd)

theorem encodeGroup_decodeGroup {group : List CodeUnit} (h : Canonical group)
    (hlength : group.length = 5) :
    encodeGroup 5 (Radix.value 85 (places group)) [] = group := by
  have hplaces : (places group).length = 5 := by rw [places, List.length_map, hlength]
  have hdigits : Radix.digits 85 5 (Radix.value 85 (places group)) = places group := by
    rw [← hplaces]
    exact Radix.digits_value (by decide) (lt_of_mem_places h.inAlphabet)
  rw [encodeGroup_eq 5 [] (Nat.lt_trans h.isWord (by decide)), hdigits, List.append_nil,
    map_charAt_places h.inAlphabet]

/-- The group that the decoded bytes are encoded to. -/
def recoded (group : List CodeUnit) : List CodeUnit := encodeGroups (bytesOf (decodeGroup group))

theorem recoded_eq_iff {group : List CodeUnit} (hlength : group.length = 5) :
    recoded group = group ↔ Canonical group := by
  have hrecoded : recoded group = encodeGroup 5 (toUint32 (byteAt (decodeGroup group) 24)
      (byteAt (decodeGroup group) 16) (byteAt (decodeGroup group) 8)
      (byteAt (decodeGroup group) 0)) [] := List.append_nil _
  constructor
  · intro h
    have hmem : ∀ c ∈ group, c ∈ Z85_CHARS := by
      rw [← h, hrecoded]
      exact mem_encodeGroup (toUint32_lt _ _ _ _)
    have hvalue := decodeGroup_eq hmem
    rw [← h, hrecoded, decodeGroup_encodeGroup (toUint32_lt _ _ _ _), ← hrecoded, h] at hvalue
    refine ⟨hmem, ?_⟩
    rw [← Int.ofNat.inj hvalue]
    exact BitVec.isLt _
  · intro h
    rw [hrecoded, decodeGroup_eq h.inAlphabet, toUint32_bytes h.isWord,
      encodeGroup_decodeGroup h hlength]

theorem length_recoded (group : List CodeUnit) : (recoded group).length = 5 := by
  simp only [recoded, bytesOf, encodeGroups, List.append_nil]
  exact length_encodeGroup (toUint32_lt _ _ _ _)

/-! ## Texts -/

theorem decodeGroups_append {group : List CodeUnit} (h : group.length = 5) (str : List CodeUnit) :
    decodeGroups (group ++ str) = bytesOf (decodeGroup group) ++ decodeGroups str := by
  match group, h with
  | [_, _, _, _, _], _ => rfl

theorem decodeGroups_encodeGroups {data : List UInt8} (h : data.length % 4 = 0) :
    decodeGroups (encodeGroups data) = data := by
  induction data using encodeGroups.induct with
  | case1 a b c d data ih =>
      simp only [List.length_cons] at h
      have hw := toUint32_lt a b c d
      rw [encodeGroups, decodeGroups_append (length_encodeGroup hw), decodeGroup_encodeGroup hw,
        ih (by omega), toUint32_eq, bytesOf_value]
      rfl
  | case2 data hshort =>
      match data, h with
      | [], _ => rfl
      | [_], h | [_, _], h | [_, _, _], h => simp at h
      | a :: b :: c :: d :: data, _ => exact absurd rfl (hshort a b c d data)

theorem length_encodeGroups {data : List UInt8} (h : data.length % 4 = 0) :
    4 * (encodeGroups data).length = 5 * data.length := by
  induction data using encodeGroups.induct with
  | case1 a b c d data ih =>
      simp only [List.length_cons] at h
      have hdata := ih (by omega)
      rw [encodeGroups, List.length_append, length_encodeGroup (toUint32_lt a b c d)]
      simp only [List.length_cons]
      omega
  | case2 data hshort =>
      match data, h with
      | [], _ => rfl
      | [_], h | [_, _], h | [_, _, _], h => simp at h
      | a :: b :: c :: d :: data, _ => exact absurd rfl (hshort a b c d data)

theorem mem_encodeGroups (data : List UInt8) : ∀ c ∈ encodeGroups data, c ∈ Z85_CHARS := by
  induction data using encodeGroups.induct with
  | case1 a b c d data ih =>
      intro x hx
      rw [encodeGroups, List.mem_append] at hx
      exact hx.elim (mem_encodeGroup (toUint32_lt a b c d) x) (ih x)
  | case2 data hshort =>
      rw [encodeGroups.eq_2 data hshort]
      exact fun c hc => absurd hc List.not_mem_nil

/-- Every group of the text is one that the encoding writes. -/
def AllCanonical : List CodeUnit → Prop
  | c₀ :: c₁ :: c₂ :: c₃ :: c₄ :: str => Canonical [c₀, c₁, c₂, c₃, c₄] ∧ AllCanonical str
  | _ => True

theorem encodeGroups_decodeGroups_iff {str : List CodeUnit} (h : str.length % 5 = 0) :
    encodeGroups (decodeGroups str) = str ↔ AllCanonical str := by
  induction str using AllCanonical.induct with
  | case1 c₀ c₁ c₂ c₃ c₄ str ih =>
      simp only [List.length_cons] at h
      have hgroup : encodeGroups (decodeGroups (c₀ :: c₁ :: c₂ :: c₃ :: c₄ :: str)) =
          recoded [c₀, c₁, c₂, c₃, c₄] ++ encodeGroups (decodeGroups str) := by
        simp only [decodeGroups, recoded, bytesOf, encodeGroups, List.append_nil]
      have hsplit : encodeGroups (decodeGroups (c₀ :: c₁ :: c₂ :: c₃ :: c₄ :: str)) =
            c₀ :: c₁ :: c₂ :: c₃ :: c₄ :: str ↔
          recoded [c₀, c₁, c₂, c₃, c₄] = [c₀, c₁, c₂, c₃, c₄] ∧
            encodeGroups (decodeGroups str) = str := by
        rw [hgroup]
        exact ⟨fun heq => List.append_inj heq (length_recoded _),
          fun ⟨hfirst, hrest⟩ => by rw [hfirst, hrest]; rfl⟩
      rw [hsplit, recoded_eq_iff rfl, ih (by omega), AllCanonical]
  | case2 str hshort =>
      match str, h with
      | [], _ => exact iff_of_true rfl trivial
      | [_], h | [_, _], h | [_, _, _], h | [_, _, _, _], h => simp at h
      | c₀ :: c₁ :: c₂ :: c₃ :: c₄ :: str, _ => exact absurd rfl (hshort c₀ c₁ c₂ c₃ c₄ str)

/-! ## Round trips -/

/-- What is encoded is decoded again, from five characters of the alphabet for four bytes. -/
theorem z85Decode_z85Encode (data : List UInt8) (h : data.length % 4 = 0) :
    ∃ str, z85Encode data = .ok str ∧ z85Decode str = .ok data ∧
      4 * str.length = 5 * data.length ∧ ∀ c ∈ str, c ∈ Z85_CHARS := by
  have hlength := length_encodeGroups h
  have hfive : (encodeGroups data).length % 5 = 0 := by omega
  refine ⟨encodeGroups data, if_neg (not_not_intro h), ?_, hlength, mem_encodeGroups data⟩
  rw [z85Decode, if_neg (not_not_intro hfive), decodeGroups_encodeGroups h]

/-- The highest bit of a word is not taken for a sign. -/
theorem z85Decode_z85Encode_high :
    ∃ str, z85Encode [0xff, 0x80, 0, 1] = .ok str ∧ z85Decode str = .ok [0xff, 0x80, 0, 1] ∧
      4 * str.length = 5 * 4 ∧ ∀ c ∈ str, c ∈ Z85_CHARS :=
  z85Decode_z85Encode [0xff, 0x80, 0, 1] rfl

theorem length_decodeGroups {str : List CodeUnit} (h : str.length % 5 = 0) :
    5 * (decodeGroups str).length = 4 * str.length := by
  induction str using AllCanonical.induct with
  | case1 c₀ c₁ c₂ c₃ c₄ str ih =>
      simp only [List.length_cons] at h
      have hstr := ih (by omega)
      simp only [decodeGroups, List.length_cons]
      omega
  | case2 str hshort =>
      match str, h with
      | [], _ => rfl
      | [_], h | [_, _], h | [_, _, _], h | [_, _, _, _], h => simp at h
      | c₀ :: c₁ :: c₂ :: c₃ :: c₄ :: str, _ => exact absurd rfl (hshort c₀ c₁ c₂ c₃ c₄ str)

/-- What is decoded is encoded to the same text when every group is canonical, and only then. -/
theorem z85Encode_z85Decode_iff (str : List CodeUnit) (h : str.length % 5 = 0) :
    (∀ data, z85Decode str = .ok data → z85Encode data = .ok str) ↔ AllCanonical str := by
  have hlength := length_decodeGroups h
  have hfour : (decodeGroups str).length % 4 = 0 := by omega
  have hdecode : z85Decode str = .ok (decodeGroups str) := if_neg (not_not_intro h)
  have hencode : z85Encode (decodeGroups str) = .ok (encodeGroups (decodeGroups str)) :=
    if_neg (not_not_intro hfour)
  rw [← encodeGroups_decodeGroups_iff h]
  constructor
  · intro hall
    have heq := hall _ hdecode
    rw [hencode] at heq
    exact Except.ok.inj heq
  · intro heq data hdata
    rw [hdecode] at hdata
    rw [← Except.ok.inj hdata, hencode, heq]

theorem z85Encode_z85Decode_zeros :
    (∀ data, z85Decode (units "00000") = .ok data → z85Encode data = .ok (units "00000")) ↔
      AllCanonical (units "00000") :=
  z85Encode_z85Decode_iff (units "00000") rfl

/-- Five times the last character is more than a word, and is decoded all the same. -/
theorem overflow_decoded :
    ¬∀ str : List CodeUnit, str.length % 5 = 0 →
      ∀ data, z85Decode str = .ok data → z85Encode data = .ok str := by
  intro h
  have hback := h (units "#####") rfl [8, 120, 14, 196] (by decide +kernel)
  exact absurd hback (by decide +kernel)

end Libeam.Auth
