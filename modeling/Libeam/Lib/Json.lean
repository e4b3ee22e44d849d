import Mathlib.Data.List.Basic
/-!
# JSON values and their texts

Values, the text that a value is written as, and a reader of texts.  Numbers are those of
the program: what is asked of them is that a number without a text is written as `null`,
and that the reader finds a number with the same text.  What reading gives back of a value
is `written`; two values have the same text exactly when that is the same.  Nothing here
mentions a particular program.
-/

namespace Libeam.Lib

def isNumberChar (c : Char) : Bool :=
  c.isDigit || c = '-' || c = '+' || c = '.' || c = 'e' || c = 'E'

/-- Numbers with a text, and a reader of such texts. -/
class JsonNumber (F : Type) where
  toText : F → Option (List Char)
  ofText : List Char → Option F
  head_toText : ∀ {x t}, toText x = some t → ∃ c cs, t = c :: cs ∧ (c.isDigit ∨ c = '-')
  chars_toText : ∀ {x t}, toText x = some t → ∀ c ∈ t, isNumberChar c
  ofText_toText : ∀ {x t}, toText x = some t → ∃ y, ofText t = some y ∧ toText y = some t

inductive Json (F : Type) where
  | null
  | bool (b : Bool)
  | num (x : F)
  | str (s : String)
  | arr (items : List (Json F))
  | obj (members : List (String × Json F))
  deriving Repr

namespace Json

variable {F : Type} [JsonNumber F]

/-! ## Writing -/

def hexDigit (n : Nat) : Char := if n < 10 then Char.ofNat (48 + n) else Char.ofNat (87 + n)

def escapeChar (c : Char) : List Char :=
  if c = '"' then ['\\', '"']
  else if c = '\\' then ['\\', '\\']
  else if c = '\n' then ['\\', 'n']
  else if c = '\r' then ['\\', 'r']
  else if c = '\t' then ['\\', 't']
  else if c.toNat = 8 then ['\\', 'b']
  else if c.toNat = 12 then ['\\', 'f']
  else if c.toNat < 32 then
    ['\\', 'u', '0', '0', hexDigit (c.toNat / 16), hexDigit (c.toNat % 16)]
  else [c]

def quote (s : String) : List Char := '"' :: (s.toList.flatMap escapeChar ++ ['"'])

mutual

/-- The text of a value, without spaces. -/
def stringify : Json F → List Char
  | .null => ['n', 'u', 'l', 'l']
  | .bool true => ['t', 'r', 'u', 'e']
  | .bool false => ['f', 'a', 'l', 's', 'e']
  | .num x => (JsonNumber.toText x).getD ['n', 'u', 'l', 'l']
  | .str s => quote s
  | .arr [] => ['[', ']']
  | .arr (v :: vs) => '[' :: (stringify v ++ stringifyItems vs)
  | .obj [] => ['{', '}']
  | .obj ((k, v) :: ms) => '{' :: (quote k ++ ':' :: (stringify v ++ stringifyMembers ms))

/-- The items after the first, with the bracket that ends them. -/
def stringifyItems : List (Json F) → List Char
  | [] => [']']
  | v :: vs => ',' :: (stringify v ++ stringifyItems vs)

def stringifyMembers : List (String × Json F) → List Char
  | [] => ['}']
  | (k, v) :: ms => ',' :: (quote k ++ ':' :: (stringify v ++ stringifyMembers ms))

end

/-! ## Reading -/

def isSpace (c : Char) : Bool := c = ' ' || c = '\n' || c = '\r' || c = '\t'

def skipSpace (cs : List Char) : List Char := cs.dropWhile isSpace

def hexValue (c : Char) : Option Nat :=
  if '0' ≤ c ∧ c ≤ '9' then some (c.toNat - 48)
  else if 'a' ≤ c ∧ c ≤ 'f' then some (c.toNat - 87)
  else if 'A' ≤ c ∧ c ≤ 'F' then some (c.toNat - 55)
  else none

/-- The code unit that four digits stand for. -/
def readUnit : List Char → Option (Nat × List Char)
  | a :: b :: c :: d :: cs =>
      match hexValue a, hexValue b, hexValue c, hexValue d with
      | some a, some b, some c, some d => some (a * 4096 + b * 256 + c * 16 + d, cs)
      | _, _, _, _ => none
  | _ => none

/-- The second half of a character outside the basic plane. -/
def readLow (high : Nat) : List Char → Option (Char × List Char)
  | '\\' :: 'u' :: cs =>
      match readUnit cs with
      | some (low, cs) =>
          if 0xDC00 ≤ low ∧ low < 0xE000 then
            some (Char.ofNat (0x10000 + (high - 0xD800) * 0x400 + (low - 0xDC00)), cs)
          else none
      | none => none
  | _ => none

/-- One character of a string, after the backslash.  A lone surrogate is no character. -/
def readEscape (c : Char) (cs : List Char) : Option (Char × List Char) :=
  if c = '"' ∨ c = '\\' ∨ c = '/' then some (c, cs)
  else if c = 'n' then some ('\n', cs)
  else if c = 'r' then some ('\r', cs)
  else if c = 't' then some ('\t', cs)
  else if c = 'b' then some (Char.ofNat 8, cs)
  else if c = 'f' then some (Char.ofNat 12, cs)
  else if c = 'u' then
    match readUnit cs with
    | some (unit, cs) =>
        if 0xD800 ≤ unit ∧ unit < 0xDC00 then readLow unit cs
        else if 0xDC00 ≤ unit ∧ unit < 0xE000 then none
        else some (Char.ofNat unit, cs)
    | none => none
  else none

def readChar : List Char → Option (Char × List Char)
  | '\\' :: c :: cs => readEscape c cs
  | c :: cs => if c.toNat < 32 then none else some (c, cs)
  | [] => none

/-- The rest of a string, after the opening quote. -/
def readChars : Nat → List Char → Option (List Char × List Char)
  | 0, _ => none
  | _ + 1, '"' :: cs => some ([], cs)
  | n + 1, cs =>
      match readChar cs with
      | some (c, cs) => (readChars n cs).map fun done => (c :: done.1, done.2)
      | none => none

/-- The name of a member, with its colon. -/
def readName : List Char → Option (String × List Char)
  | '"' :: cs =>
      match readChars (cs.length + 1) cs with
      | some (k, cs) =>
          match skipSpace cs with
          | ':' :: cs => some (String.ofList k, cs)
          | _ => none
      | none => none
  | _ => none

def readNumber (cs : List Char) : Option (Json F × List Char) :=
  (JsonNumber.ofText (cs.takeWhile isNumberChar)).map fun x =>
    (.num x, cs.dropWhile isNumberChar)

mutual

/-- One value, and what follows it. -/
def readValue : Nat → List Char → Option (Json F × List Char)
  | 0, _ => none
  | n + 1, cs =>
      match skipSpace cs with
      | 'n' :: 'u' :: 'l' :: 'l' :: cs => some (.null, cs)
      | 't' :: 'r' :: 'u' :: 'e' :: cs => some (.bool true, cs)
      | 'f' :: 'a' :: 'l' :: 's' :: 'e' :: cs => some (.bool false, cs)
      | '"' :: cs => (readChars (cs.length + 1) cs).map fun done =>
          (.str (String.ofList done.1), done.2)
      | '[' :: cs =>
          match skipSpace cs with
          | ']' :: cs => some (.arr [], cs)
          | cs => (readItems n cs).map fun done => (.arr done.1, done.2)
      | '{' :: cs =>
          match skipSpace cs with
          | '}' :: cs => some (.obj [], cs)
          | cs => (readMembers n cs).map fun done => (.obj done.1, done.2)
      | cs => readNumber cs

def readItems : Nat → List Char → Option (List (Json F) × List Char)
  | 0, _ => none
  | n + 1, cs =>
      match readValue n cs with
      | none => none
      | some (v, cs) =>
          match skipSpace cs with
          | ',' :: cs => (readItems n cs).map fun done => (v :: done.1, done.2)
          | ']' :: cs => some ([v], cs)
          | _ => none

def readMembers : Nat → List Char → Option (List (String × Json F) × List Char)
  | 0, _ => none
  | n + 1, cs =>
      match readName (skipSpace cs) with
      | none => none
      | some (k, cs) =>
          match readValue n cs with
          | none => none
          | some (v, cs) =>
              match skipSpace cs with
              | ',' :: cs => (readMembers n cs).map fun done => ((k, v) :: done.1, done.2)
              | '}' :: cs => some ([(k, v)], cs)
              | _ => none

end

/-- The value of a whole text. -/
def parse (text : List Char) : Option (Json F) :=
  match readValue (text.length + 1) text with
  | some (v, cs) => if skipSpace cs = [] then some v else none
  | none => none

/-! ## What reading gives back -/

mutual

/-- The value that is read from the text of a value. -/
def written : Json F → Json F
  | .null => .null
  | .bool b => .bool b
  | .num x => ((JsonNumber.toText x).bind JsonNumber.ofText).elim .null .num
  | .str s => .str s
  | .arr items => .arr (writtenItems items)
  | .obj members => .obj (writtenMembers members)

def writtenItems : List (Json F) → List (Json F)
  | [] => []
  | v :: vs => written v :: writtenItems vs

def writtenMembers : List (String × Json F) → List (String × Json F)
  | [] => []
  | (k, v) :: ms => (k, written v) :: writtenMembers ms

end

/-! ## Strings -/

theorem hexValue_hexDigit : ∀ n < 16, hexValue (hexDigit n) = some n := by decide

omit [JsonNumber F] in
theorem escapeChar_ne_nil (c : Char) : ∃ d ds, escapeChar c = d :: ds ∧ d ≠ '"' := by
  unfold escapeChar
  split_ifs with hquote
  all_goals first
    | exact ⟨_, _, rfl, by decide⟩
    | exact ⟨_, _, rfl, hquote⟩

theorem readChar_of_ne {c : Char} (hc : c ≠ '\\') (rest : List Char) :
    readChar (c :: rest) = if c.toNat < 32 then none else some (c, rest) := by
  rw [readChar]
  exact fun _ _ h => absurd h hc

theorem readChars_of_ne {c : Char} (hc : c ≠ '"') (n : Nat) (rest : List Char) :
    readChars (n + 1) (c :: rest) = match readChar (c :: rest) with
      | some (c, cs) => (readChars n cs).map fun done => (c :: done.1, done.2)
      | none => none := by
  rw [readChars]
  exact fun _ h => absurd (List.cons.inj h).1 hc

theorem readChar_escapeChar (c : Char) (rest : List Char) :
    readChar (escapeChar c ++ rest) = some (c, rest) := by
  unfold escapeChar
  split_ifs with hquote hback hline hreturn htab hb hf hcontrol
  · subst hquote
    rfl
  · subst hback
    rfl
  · subst hline
    rfl
  · subst hreturn
    rfl
  · subst htab
    rfl
  · change some (Char.ofNat 8, rest) = _
    rw [← hb, Char.ofNat_toNat]
  · change some (Char.ofNat 12, rest) = _
    rw [← hf, Char.ofNat_toNat]
  · have hunit : readUnit ('0' :: '0' :: hexDigit (c.toNat / 16) :: hexDigit (c.toNat % 16) ::
        rest) = some (c.toNat, rest) := by
      have hzero : hexValue '0' = some 0 := by decide
      rw [readUnit, hzero, hexValue_hexDigit _ (by omega), hexValue_hexDigit _ (by omega)]
      dsimp only
      congr 2
      omega
    change (match readUnit ('0' :: '0' :: hexDigit (c.toNat / 16) :: hexDigit (c.toNat % 16) ::
        rest) with
      | some (unit, cs) =>
          if 0xD800 ≤ unit ∧ unit < 0xDC00 then readLow unit cs
          else if 0xDC00 ≤ unit ∧ unit < 0xE000 then none
          else some (Char.ofNat unit, cs)
      | none => none) = _
    rw [hunit]
    dsimp only
    rw [if_neg (by omega), if_neg (by omega), Char.ofNat_toNat]
  · rw [List.singleton_append, readChar_of_ne hback, if_neg hcontrol]

theorem readChars_escaped (cs : List Char) {n : Nat} (hn : cs.length < n) (rest : List Char) :
    readChars n (cs.flatMap escapeChar ++ '"' :: rest) = some (cs, rest) := by
  induction cs generalizing n with
  | nil =>
      obtain ⟨n, rfl⟩ : ∃ k, n = k + 1 := ⟨n - 1, by omega⟩
      rfl
  | cons c cs ih =>
      obtain ⟨n, rfl⟩ : ∃ k, n = k + 1 := ⟨n - 1, by omega⟩
      have hread := readChar_escapeChar c (cs.flatMap escapeChar ++ '"' :: rest)
      obtain ⟨d, ds, hescape, hne⟩ := escapeChar_ne_nil c
      rw [List.flatMap_cons, List.append_assoc]
      rw [hescape] at hread ⊢
      rw [List.cons_append, readChars_of_ne hne, ← List.cons_append, hread]
      simp only [ih (show cs.length < n by simpa using hn), Option.map_some]

/-! ## Numbers -/

/-- What follows a number does not continue it. -/
def Delimited (rest : List Char) : Prop := ∀ c ∈ rest.head?, isNumberChar c = false

theorem delimited_cons {c : Char} (hc : isNumberChar c = false) (rest : List Char) :
    Delimited (c :: rest) := fun _ h => (Option.mem_some.1 h) ▸ hc

theorem takeWhile_number {t rest : List Char} (ht : ∀ c ∈ t, isNumberChar c)
    (hrest : Delimited rest) :
    (t ++ rest).takeWhile isNumberChar = t ∧ (t ++ rest).dropWhile isNumberChar = rest := by
  induction t with
  | nil =>
      cases rest with
      | nil => exact ⟨rfl, rfl⟩
      | cons c cs =>
          have hc := hrest c rfl
          exact ⟨List.takeWhile_cons_of_neg (by simp [hc]),
            List.dropWhile_cons_of_neg (by simp [hc])⟩
  | cons c cs ih =>
      have hc := ht c List.mem_cons_self
      obtain ⟨htake, hdrop⟩ := ih fun d hd => ht d (List.mem_cons_of_mem c hd)
      exact ⟨by rw [List.cons_append, List.takeWhile_cons_of_pos hc, htake],
        by rw [List.cons_append, List.dropWhile_cons_of_pos hc, hdrop]⟩

theorem readNumber_toText {x : F} {t : List Char} (hx : JsonNumber.toText x = some t)
    {rest : List Char} (hrest : Delimited rest) :
    readNumber (t ++ rest) = some (written (.num x), rest) := by
  obtain ⟨htake, hdrop⟩ := takeWhile_number (JsonNumber.chars_toText hx) hrest
  obtain ⟨y, hy, -⟩ := JsonNumber.ofText_toText hx
  rw [readNumber, htake, hdrop, hy, written, hx]
  simp only [Option.map_some, Option.bind_some, hy, Option.elim_some]

/-! ## Values -/

theorem skipSpace_of_not {c : Char} (hc : isSpace c = false) (cs : List Char) :
    skipSpace (c :: cs) = c :: cs := List.dropWhile_cons_of_neg (by simp [hc])

theorem isSpace_of_number {c : Char} (hc : c.isDigit ∨ c = '-') : isSpace c = false := by
  rcases hc with hc | rfl
  · simp only [isSpace, Bool.or_eq_false_iff, decide_eq_false_iff_not]
    refine ⟨⟨⟨?_, ?_⟩, ?_⟩, ?_⟩ <;> rintro rfl <;> exact absurd hc (by decide)
  · decide

theorem readValue_number {c : Char} (hc : c.isDigit ∨ c = '-') (n : Nat) (cs : List Char) :
    readValue (n + 1) (c :: cs) = readNumber (F := F) (c :: cs) := by
  rw [readValue, skipSpace_of_not (isSpace_of_number hc)]
  split <;> first
    | rfl
    | (obtain ⟨rfl, -⟩ := List.cons.inj ‹c :: cs = _›
       exact absurd hc (by decide))

theorem head_stringify (v : Json F) :
    ∃ c cs, stringify v = c :: cs ∧ isSpace c = false ∧ c ≠ ']' := by
  cases v with
  | null => exact ⟨_, _, by rw [stringify], by decide, by decide⟩
  | bool b => cases b <;> exact ⟨_, _, by rw [stringify], by decide, by decide⟩
  | num x =>
      rw [stringify]
      cases hx : JsonNumber.toText x with
      | none => exact ⟨_, _, rfl, by decide, by decide⟩
      | some t =>
          obtain ⟨c, cs, rfl, hc⟩ := JsonNumber.head_toText hx
          refine ⟨c, cs, rfl, isSpace_of_number hc, ?_⟩
          rintro rfl
          exact absurd hc (by decide)
  | str s => exact ⟨_, _, by rw [stringify, quote], by decide, by decide⟩
  | arr items => cases items <;> exact ⟨_, _, by rw [stringify], by decide, by decide⟩
  | obj members =>
      cases members <;> exact ⟨_, _, by rw [stringify], by decide, by decide⟩

theorem stringifyItems_delimited (vs : List (Json F)) (rest : List Char) :
    Delimited (stringifyItems vs ++ rest) := by
  cases vs <;> exact delimited_cons (by decide) _

theorem stringifyMembers_delimited (ms : List (String × Json F)) (rest : List Char) :
    Delimited (stringifyMembers ms ++ rest) := by
  cases ms with
  | nil | cons => exact delimited_cons (by decide) _

theorem length_le_escaped (cs : List Char) : cs.length ≤ (cs.flatMap escapeChar).length := by
  induction cs with
  | nil => exact Nat.le_refl 0
  | cons c cs ih =>
      obtain ⟨d, ds, hescape, -⟩ := escapeChar_ne_nil c
      rw [List.flatMap_cons, List.length_append, hescape, List.length_cons, List.length_cons]
      omega

/-- What stands between the quotes of a string, up to the closing one. -/
theorem readChars_quoted (k : String) (rest : List Char) :
    readChars ((k.toList.flatMap escapeChar ++ '"' :: rest).length + 1)
      (k.toList.flatMap escapeChar ++ '"' :: rest) = some (k.toList, rest) := by
  refine readChars_escaped k.toList ?_ rest
  have hle := length_le_escaped k.toList
  rw [List.length_append]
  omega

theorem quote_append (k : String) (rest : List Char) :
    quote k ++ rest = '"' :: (k.toList.flatMap escapeChar ++ '"' :: rest) := by
  rw [quote, List.cons_append, List.append_assoc, List.singleton_append]

theorem readValue_quote (n : Nat) (s : String) (rest : List Char) :
    readValue (F := F) (n + 1) (quote s ++ rest) = some (.str s, rest) := by
  rw [quote_append]
  change (readChars (_ + 1) _).map _ = _
  rw [readChars_quoted, Option.map_some, String.ofList_toList]

theorem readValue_open {c : Char} (hspace : isSpace c = false) (hc : c ≠ ']') (n : Nat)
    (cs : List Char) : readValue (F := F) (n + 1) ('[' :: c :: cs) =
      (readItems n (c :: cs)).map fun done => (.arr done.1, done.2) := by
  change (match skipSpace (c :: cs) with
    | ']' :: cs => some (Json.arr [], cs)
    | cs => (readItems n cs).map fun (done : List (Json F) × List Char) =>
        (Json.arr done.1, done.2)) = _
  rw [skipSpace_of_not hspace]
  split
  · exact absurd (List.cons.inj ‹_›).1 hc
  · rfl

theorem readValue_members (n : Nat) (k : String) (cs : List Char) :
    readValue (F := F) (n + 1) ('{' :: (quote k ++ cs)) =
      (readMembers n (quote k ++ cs)).map fun done => (.obj done.1, done.2) := by
  rw [quote_append]
  rfl

theorem readName_quote (k : String) (cs : List Char) :
    readName (quote k ++ ':' :: cs) = some (k, cs) := by
  rw [quote_append]
  change (match readChars (_ + 1) _ with
    | some (k, cs) =>
        match skipSpace cs with
        | ':' :: cs => some (String.ofList k, cs)
        | _ => none
    | none => none) = _
  rw [readChars_quoted]
  change some (String.ofList k.toList, cs) = _
  rw [String.ofList_toList]

theorem readItems_last {n : Nat} {cs rest : List Char} {v : Json F}
    (hv : readValue n cs = some (v, ']' :: rest)) :
    readItems (n + 1) cs = some ([v], rest) := by
  rw [readItems, hv]
  rfl

theorem readItems_more {n : Nat} {cs rest : List Char} {v : Json F}
    (hv : readValue n cs = some (v, ',' :: rest)) :
    readItems (n + 1) cs = (readItems n rest).map fun done => (v :: done.1, done.2) := by
  rw [readItems, hv]
  rfl

theorem readMembers_last {n : Nat} {cs rest : List Char} {v : Json F} (k : String)
    (hv : readValue n cs = some (v, '}' :: rest)) :
    readMembers (n + 1) (quote k ++ ':' :: cs) = some ([(k, v)], rest) := by
  rw [readMembers, quote_append, skipSpace_of_not (by decide), ← quote_append, readName_quote]
  dsimp only
  rw [hv]
  rfl

theorem readMembers_more {n : Nat} {cs rest : List Char} {v : Json F} (k : String)
    (hv : readValue n cs = some (v, ',' :: rest)) :
    readMembers (n + 1) (quote k ++ ':' :: cs) =
      (readMembers n rest).map fun done => ((k, v) :: done.1, done.2) := by
  rw [readMembers, quote_append, skipSpace_of_not (by decide), ← quote_append, readName_quote]
  dsimp only
  rw [hv]
  rfl

mutual

/-- Reading the text of a value, whatever follows it. -/
theorem readValue_stringify : ∀ (v : Json F) {n : Nat}, (stringify v).length < n →
    ∀ {rest : List Char}, Delimited rest →
    readValue n (stringify v ++ rest) = some (written v, rest)
  | .null, n + 1, _, rest, _ => by
      rw [stringify, written]
      rfl
  | .bool true, n + 1, _, rest, _ => by
      rw [stringify, written]
      rfl
  | .bool false, n + 1, _, rest, _ => by
      rw [stringify, written]
      rfl
  | .num x, n + 1, _, rest, hrest => by
      rw [stringify]
      cases hx : JsonNumber.toText x with
      | none =>
          rw [written, hx]
          rfl
      | some t =>
          have hread := readNumber_toText hx hrest
          obtain ⟨c, cs, rfl, hc⟩ := JsonNumber.head_toText hx
          rw [Option.getD_some, List.cons_append, readValue_number hc, ← List.cons_append, hread]
  | .str s, n + 1, _, rest, _ => by
      rw [stringify, written]
      exact readValue_quote n s rest
  | .arr [], n + 1, _, rest, _ => by
      rw [stringify, written, writtenItems]
      rfl
  | .arr (v :: vs), n + 1, hn, rest, _ => by
      rw [stringify, List.length_cons] at hn
      have hitems := readItems_stringify v vs (Nat.lt_of_succ_lt_succ hn) rest
      obtain ⟨c, cs, hhead, hspace, hc⟩ := head_stringify v
      rw [stringify, written, List.cons_append]
      rw [hhead] at hitems ⊢
      rw [List.append_assoc, List.cons_append] at hitems ⊢
      rw [readValue_open hspace hc, hitems, Option.map_some]
  | .obj [], n + 1, _, rest, _ => by
      rw [stringify, written, writtenMembers]
      rfl
  | .obj ((k, v) :: ms), n + 1, hn, rest, _ => by
      rw [stringify, List.length_cons] at hn
      have hmembers := readMembers_stringify k v ms (Nat.lt_of_succ_lt_succ hn) rest
      rw [stringify, written, List.cons_append, List.append_assoc, readValue_members,
        ← List.append_assoc, hmembers, Option.map_some]

theorem readItems_stringify : ∀ (v : Json F) (vs : List (Json F)) {n : Nat},
    (stringify v ++ stringifyItems vs).length < n → ∀ rest : List Char,
    readItems n (stringify v ++ stringifyItems vs ++ rest) =
      some (writtenItems (v :: vs), rest)
  | v, vs, n + 1, hn, rest => by
      rw [List.length_append] at hn
      have hv := readValue_stringify v (n := n)
        (by cases vs <;> simp only [stringifyItems, List.length_cons] at hn <;> omega)
        (stringifyItems_delimited vs rest)
      rw [List.append_assoc]
      cases vs with
      | nil =>
          rw [stringifyItems] at hv ⊢
          exact readItems_last hv
      | cons w ws =>
          rw [stringifyItems, List.length_cons] at hn
          have hws := readItems_stringify w ws (n := n) (by omega) rest
          rw [stringifyItems, List.cons_append] at hv ⊢
          rw [readItems_more hv, hws, Option.map_some, writtenItems.eq_2 v]

theorem readMembers_stringify : ∀ (k : String) (v : Json F) (ms : List (String × Json F))
    {n : Nat}, (quote k ++ ':' :: (stringify v ++ stringifyMembers ms)).length < n →
    ∀ rest : List Char,
    readMembers n (quote k ++ ':' :: (stringify v ++ stringifyMembers ms) ++ rest) =
      some (writtenMembers ((k, v) :: ms), rest)
  | k, v, ms, n + 1, hn, rest => by
      rw [List.length_append, List.length_cons, List.length_append] at hn
      have hv := readValue_stringify v (n := n) (by omega) (stringifyMembers_delimited ms rest)
      rw [List.append_assoc, List.cons_append, List.append_assoc]
      cases ms with
      | nil =>
          rw [stringifyMembers] at hv ⊢
          exact readMembers_last k hv
      | cons m ms =>
          obtain ⟨l, w⟩ := m
          rw [stringifyMembers, List.length_cons] at hn
          have hms := readMembers_stringify l w ms (n := n) (by omega) rest
          rw [stringifyMembers, List.cons_append] at hv ⊢
          rw [readMembers_more k hv, hms, Option.map_some, writtenMembers.eq_2 k]

end

theorem parse_stringify (v : Json F) : parse (stringify v) = some (written v) := by
  have hread := readValue_stringify v (Nat.lt_succ_self _)
    (show Delimited [] from fun _ h => absurd h (by simp))
  rw [List.append_nil] at hread
  rw [parse, hread]
  rfl

mutual

/-- The value read back has the same text. -/
theorem stringify_written : ∀ v : Json F, stringify (written v) = stringify v
  | .null => by rw [written]
  | .bool b => by rw [written]
  | .num x => by
      rw [written]
      cases hx : JsonNumber.toText x with
      | none =>
          rw [stringify, hx]
          rfl
      | some t =>
          obtain ⟨y, hy, hyt⟩ := JsonNumber.ofText_toText hx
          rw [Option.bind_some, hy, Option.elim_some, stringify, stringify, hx, hyt]
  | .str s => by rw [written]
  | .arr [] => by rw [written, writtenItems]
  | .arr (v :: vs) => by
      rw [written, writtenItems, stringify, stringify, stringify_written v,
        stringifyItems_written vs]
  | .obj [] => by rw [written, writtenMembers]
  | .obj ((k, v) :: ms) => by
      rw [written, writtenMembers, stringify, stringify, stringify_written v,
        stringifyMembers_written ms]

theorem stringifyItems_written : ∀ vs : List (Json F),
    stringifyItems (writtenItems vs) = stringifyItems vs
  | [] => by rw [writtenItems]
  | v :: vs => by
      rw [writtenItems, stringifyItems, stringifyItems, stringify_written v,
        stringifyItems_written vs]

theorem stringifyMembers_written : ∀ ms : List (String × Json F),
    stringifyMembers (writtenMembers ms) = stringifyMembers ms
  | [] => by rw [writtenMembers]
  | (k, v) :: ms => by
      rw [writtenMembers, stringifyMembers, stringifyMembers, stringify_written v,
        stringifyMembers_written ms]

end

/-- Values have the same text exactly when the same value is read back of them. -/
theorem stringify_eq_iff {v w : Json F} : stringify v = stringify w ↔ written v = written w := by
  constructor
  · intro h
    have hv := parse_stringify v
    rw [h, parse_stringify w] at hv
    exact (Option.some.inj hv).symm
  · intro h
    rw [← stringify_written v, h, stringify_written w]

/-! ## What is lost in a text -/

variable [DecidableEq F]

mutual

/-- The numbers that are not read back as they were, by their places among the numbers and the
`null`s of the value. -/
def lost : Json F → List (Option F)
  | .null => [none]
  | .bool _ => []
  | .num x => [if (JsonNumber.toText x).bind JsonNumber.ofText = some x then none else some x]
  | .str _ => []
  | .arr items => lostItems items
  | .obj members => lostMembers members

def lostItems : List (Json F) → List (Option F)
  | [] => []
  | v :: vs => lost v ++ lostItems vs

def lostMembers : List (String × Json F) → List (Option F)
  | [] => []
  | (_, v) :: ms => lost v ++ lostMembers ms

end

omit [DecidableEq F] in
theorem written_num (x : F) : written (.num x) = .null ∨ ∃ y, written (.num x) = .num y := by
  rw [written]
  cases (JsonNumber.toText x).bind (JsonNumber.ofText (F := F)) with
  | none => exact Or.inl rfl
  | some y => exact Or.inr ⟨y, rfl⟩

mutual

theorem length_lost_written : ∀ v : Json F, (lost (written v)).length = (lost v).length
  | .null => by rw [written]
  | .bool b => by rw [written]
  | .num x => by
      rcases written_num x with h | ⟨y, h⟩ <;> rw [h, lost, lost] <;> rfl
  | .str s => by rw [written]
  | .arr items => by
      rw [written, lost, lost]
      exact length_lostItems_written items
  | .obj members => by
      rw [written, lost, lost]
      exact length_lostMembers_written members

theorem length_lostItems_written : ∀ vs : List (Json F),
    (lostItems (writtenItems vs)).length = (lostItems vs).length
  | [] => by rw [writtenItems]
  | v :: vs => by
      rw [writtenItems, lostItems, lostItems, List.length_append, List.length_append,
        length_lost_written v, length_lostItems_written vs]

theorem length_lostMembers_written : ∀ ms : List (String × Json F),
    (lostMembers (writtenMembers ms)).length = (lostMembers ms).length
  | [] => by rw [writtenMembers]
  | (k, v) :: ms => by
      rw [writtenMembers, lostMembers, lostMembers, List.length_append, List.length_append,
        length_lost_written v, length_lostMembers_written ms]

end

theorem length_lost_congr {v w : Json F} (h : written v = written w) :
    (lost v).length = (lost w).length := by
  rw [← length_lost_written v, h, length_lost_written w]

theorem eq_num_of_lost {x y : F} (hwritten : written (.num x) = written (.num y))
    (hlost : lost (.num x) = lost (.num y)) : x = y := by
  rw [lost, lost] at hlost
  have hlost := (List.cons.inj hlost).1
  split_ifs at hlost with hx hy
  · rw [written, written, hx, hy] at hwritten
    exact Json.num.inj hwritten
  · exact Option.some.inj hlost

theorem eq_null_of_lost {x : F} (hwritten : written (.num x) = .null)
    (hlost : lost (.num x) = [none]) : False := by
  rw [lost] at hlost
  have hlost := (List.cons.inj hlost).1
  split_ifs at hlost with hx
  rw [written, hx] at hwritten
  exact nomatch hwritten

mutual

theorem eq_of_lost : ∀ (v w : Json F), written v = written w → lost v = lost w → v = w
  | .null, w, hwritten, hlost => by
      cases w with
      | null => rfl
      | num x => exact (eq_null_of_lost hwritten.symm hlost.symm).elim
      | _ => exact nomatch hwritten
  | .bool b, w, hwritten, _ => by
      cases w with
      | bool c => exact hwritten
      | num x => rcases written_num x with h | ⟨y, h⟩ <;> exact nomatch hwritten.trans h
      | _ => exact nomatch hwritten
  | .num x, w, hwritten, hlost => by
      cases w with
      | null => exact (eq_null_of_lost hwritten hlost).elim
      | num y => rw [eq_num_of_lost hwritten hlost]
      | _ => rcases written_num x with h | ⟨y, h⟩ <;> exact nomatch h.symm.trans hwritten
  | .str s, w, hwritten, _ => by
      cases w with
      | str t => exact hwritten
      | num x => rcases written_num x with h | ⟨y, h⟩ <;> exact nomatch hwritten.trans h
      | _ => exact nomatch hwritten
  | .arr vs, w, hwritten, hlost => by
      cases w with
      | arr ws =>
          rw [written, written] at hwritten
          rw [lost, lost] at hlost
          rw [eq_of_lostItems vs ws (Json.arr.inj hwritten) hlost]
      | num x => rcases written_num x with h | ⟨y, h⟩ <;> exact nomatch hwritten.trans h
      | _ => exact nomatch hwritten
  | .obj ms, w, hwritten, hlost => by
      cases w with
      | obj ns =>
          rw [written, written] at hwritten
          rw [lost, lost] at hlost
          rw [eq_of_lostMembers ms ns (Json.obj.inj hwritten) hlost]
      | num x => rcases written_num x with h | ⟨y, h⟩ <;> exact nomatch hwritten.trans h
      | _ => exact nomatch hwritten

theorem eq_of_lostItems : ∀ vs ws : List (Json F), writtenItems vs = writtenItems ws →
    lostItems vs = lostItems ws → vs = ws
  | [], ws, hwritten, _ => by
      cases ws with
      | nil => rfl
      | cons w ws => exact nomatch hwritten
  | v :: vs, ws, hwritten, hlost => by
      cases ws with
      | nil => exact nomatch hwritten
      | cons w ws =>
          rw [writtenItems, writtenItems] at hwritten
          rw [lostItems, lostItems] at hlost
          obtain ⟨hhead, htail⟩ := List.cons.inj hwritten
          obtain ⟨hv, hvs⟩ := List.append_inj hlost (length_lost_congr hhead)
          rw [eq_of_lost v w hhead hv, eq_of_lostItems vs ws htail hvs]

theorem eq_of_lostMembers : ∀ ms ns : List (String × Json F),
    writtenMembers ms = writtenMembers ns → lostMembers ms = lostMembers ns → ms = ns
  | [], ns, hwritten, _ => by
      cases ns with
      | nil => rfl
      | cons n ns => exact nomatch hwritten
  | (k, v) :: ms, ns, hwritten, hlost => by
      cases ns with
      | nil => exact nomatch hwritten
      | cons n ns =>
          obtain ⟨l, w⟩ := n
          rw [writtenMembers, writtenMembers] at hwritten
          rw [lostMembers, lostMembers] at hlost
          obtain ⟨hhead, htail⟩ := List.cons.inj hwritten
          obtain ⟨hkey, hvalue⟩ := Prod.mk.inj hhead
          obtain ⟨hv, hms⟩ := List.append_inj hlost (length_lost_congr hvalue)
          rw [hkey, eq_of_lost v w hvalue hv, eq_of_lostMembers ms ns htail hms]

end

end Json

/-! ## Integers -/

namespace JsonNumber

def intText : Int → List Char
  | .ofNat n => Nat.toDigits 10 n
  | .negSucc n => '-' :: Nat.toDigits 10 (n + 1)

/-- The decision that looks at the characters of the text alone. -/
local instance {cs : List Char} {p : Char → Bool} : Decidable (∀ c ∈ cs, p c) :=
  List.decidableBAll _ cs

def ofDigits (cs : List Char) : Option Nat :=
  if cs ≠ [] ∧ ∀ c ∈ cs, c.isDigit then some (Nat.ofDigitChars 10 cs 0) else none

def intOfText : List Char → Option Int
  | '-' :: cs => (ofDigits cs).map fun n => -(n : Int)
  | cs => (ofDigits cs).map Int.ofNat

theorem isDigit_toDigits {n : Nat} {c : Char} (hc : c ∈ Nat.toDigits 10 n) : c.isDigit :=
  Nat.isDigit_of_mem_toDigits (by decide) (by decide) hc

theorem ofDigits_toDigits (n : Nat) : ofDigits (Nat.toDigits 10 n) = some n := by
  rw [ofDigits, if_pos ⟨Nat.toDigits_ne_nil, fun c hc => isDigit_toDigits hc⟩,
    Nat.ofDigitChars_ten_toDigits]

theorem head_intText (x : Int) : ∃ c cs, intText x = c :: cs ∧ (c.isDigit ∨ c = '-') := by
  cases x with
  | ofNat n =>
      cases htext : Nat.toDigits 10 n with
      | nil => exact absurd htext Nat.toDigits_ne_nil
      | cons c cs =>
          exact ⟨c, cs, htext, Or.inl (isDigit_toDigits (htext ▸ List.mem_cons_self))⟩
  | negSucc n => exact ⟨'-', _, rfl, Or.inr rfl⟩

theorem chars_intText {x : Int} : ∀ c ∈ intText x, isNumberChar c := by
  have hdigit (c : Char) (hc : c.isDigit) : isNumberChar c := by simp [isNumberChar, hc]
  intro c hc
  cases x with
  | ofNat n => exact hdigit c (isDigit_toDigits hc)
  | negSucc n =>
      rcases List.mem_cons.1 hc with rfl | hc
      · decide
      · exact hdigit c (isDigit_toDigits hc)

theorem intOfText_intText (x : Int) : intOfText (intText x) = some x := by
  cases x with
  | ofNat n =>
      obtain ⟨c, cs, htext, -⟩ := head_intText (.ofNat n)
      have hdigit : c.isDigit := isDigit_toDigits (n := n) (by
        rw [show Nat.toDigits 10 n = c :: cs from htext]
        exact List.mem_cons_self)
      have hread : intOfText (c :: cs) = (ofDigits (c :: cs)).map Int.ofNat := by
        rw [intOfText]
        rintro cs h
        rw [(List.cons.inj h).1] at hdigit
        exact absurd hdigit (by decide)
      rw [htext, hread, ← htext]
      exact congrArg (Option.map Int.ofNat) (ofDigits_toDigits n)
  | negSucc n =>
      rw [intText, intOfText, ofDigits_toDigits]
      rfl

/-- Whole numbers, written in decimal. -/
instance : JsonNumber Int where
  toText x := some (intText x)
  ofText := intOfText
  head_toText h := Option.some.inj h ▸ head_intText _
  chars_toText h := Option.some.inj h ▸ chars_intText
  ofText_toText {x} _ h := ⟨x, Option.some.inj h ▸ intOfText_intText x, h⟩

end JsonNumber

end Libeam.Lib
