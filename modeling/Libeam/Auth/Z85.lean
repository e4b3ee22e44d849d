import Mathlib.Data.UInt
/-!
# Z85

The text form of the keys of a node: every four bytes are a number that is written with
five digits in base 85.  A text is the list of its UTF-16 units, which is what an index
into a JavaScript string finds.  The numbers of a group stay far below the limit up to
which a JavaScript number is exact; `<<`, `|` and `>>` work on 32 bits of them.
-/

namespace Libeam.Auth

abbrev CodeUnit := UInt16

/-- The units of a text, each of whose characters is one unit. -/
def units (text : String) : List CodeUnit := text.toList.map fun c => UInt16.ofNat c.toNat

def Z85_CHARS : List CodeUnit := units
  "0123456789abcdefghijklmnopqrstuvwxyzABCDEFGHIJKLMNOPQRSTUVWXYZ.-:+=^!/*?&<>()[]\x7b\x7d@%$#"

/-- `Z85_CHARS[i]`. -/
def charAt (i : Nat) : CodeUnit := Z85_CHARS.getD i 0

/-- `Z85_CHARS.indexOf(c)`. -/
def indexOf (c : CodeUnit) : Int := if c ∈ Z85_CHARS then Z85_CHARS.idxOf c else -1

/-! ## Encoding -/

/-- `((a << 24) | (b << 16) | (c << 8) | d) >>> 0`. -/
def toUint32 (a b c d : UInt8) : Nat :=
  ((a.toBitVec.setWidth 32 <<< 24) ||| (b.toBitVec.setWidth 32 <<< 16) |||
    (c.toBitVec.setWidth 32 <<< 8) ||| d.toBitVec.setWidth 32).toNat

/-- The loop that fills `chars` from its end, with the last `j` characters to come. -/
def encodeGroup : Nat → Nat → List CodeUnit → List CodeUnit
  | 0, _, chars => chars
  | j + 1, value, chars => encodeGroup j (value / 85) (charAt (value % 85) :: chars)

def encodeGroups : List UInt8 → List CodeUnit
  | a :: b :: c :: d :: data => encodeGroup 5 (toUint32 a b c d) [] ++ encodeGroups data
  | _ => []

def z85Encode (data : List UInt8) : Except String (List CodeUnit) :=
  if data.length % 4 ≠ 0 then .error "Z85 encode: data length must be a multiple of 4"
  else .ok (encodeGroups data)

/-! ## Decoding -/

def decodeGroup (chars : List CodeUnit) : Int :=
  chars.foldl (fun value c => value * 85 + indexOf c) 0

/-- `(value >> shift) & 0xff`. -/
def byteAt (value : Int) (shift : Nat) : UInt8 :=
  UInt8.ofBitVec (((BitVec.ofInt 32 value).sshiftRight shift &&& 0xff#32).setWidth 8)

def decodeGroups : List CodeUnit → List UInt8
  | c₀ :: c₁ :: c₂ :: c₃ :: c₄ :: str =>
      let value := decodeGroup [c₀, c₁, c₂, c₃, c₄]
      byteAt value 24 :: byteAt value 16 :: byteAt value 8 :: byteAt value 0 :: decodeGroups str
  | _ => []

def z85Decode (str : List CodeUnit) : Except String (List UInt8) :=
  if str.length % 5 ≠ 0 then .error "Z85 decode: string length must be a multiple of 5"
  else .ok (decodeGroups str)

end Libeam.Auth
