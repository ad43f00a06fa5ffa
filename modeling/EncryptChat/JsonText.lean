/-
**The text of JSON values: `json.dumps` and a strict reader.**

The writer is `json.dumps` with `ensure_ascii=False` and the separators `","` and `":"`.  Two of its
habits matter here: a character above U+001F other than the quotation mark and the backslash is
written as it is, a lone surrogate included, and a float that is not finite is written as `NaN`,
`Infinity` or `-Infinity`, which no grammar of JSON has.  The reader is strict: it reads exactly the
JSON grammar, keeps the members of an object in the order of the text, and refuses everything else.

What a finite float looks like is left to `Python.FloatText`; the limits an interpreter sets on the
depth of a value and on the digits of an integer are the same for reading and for writing, and are
not modelled: a value that was read is within them.

Main definitions:

* `Python.Json.all` — every string and every float in a value passes a test;
* `Python.dumps` — the writer;
* `Python.strictLoads` — the reader;
* `Python.Json.induction` — induction over values, through lists and items.

Main results:

* `Python.character_escapeChar`, `Python.string_quoted` — a string is read back from its text,
  whatever its characters.
-/

import EncryptChat.PyText

set_option relaxedAutoImplicit false
set_option autoImplicit false

namespace Python

/-- The code point of a character. -/
def ch (c : Char) : CodePoint := Fin.ofNat 0x110000 c.toNat

/-! ### Walking through a value -/

namespace Json

mutual

/-- Every string, key or value, passes `str`, and every float passes `flt`. -/
def all (str : PyStr → Bool) (flt : PyFloat → Bool) : Json → Bool
  | .null => true
  | .bool _ => true
  | .int _ => true
  | .float x => flt x
  | .str s => str s
  | .list vs => allList str flt vs
  | .dict items => allItems str flt items

/-- `Json.all` of the elements of a list. -/
def allList (str : PyStr → Bool) (flt : PyFloat → Bool) : List Json → Bool
  | [] => true
  | v :: vs => v.all str flt && allList str flt vs

/-- `Json.all` of the items of a dictionary. -/
def allItems (str : PyStr → Bool) (flt : PyFloat → Bool) : List (PyStr × Json) → Bool
  | [] => true
  | (k, v) :: items => (str k && v.all str flt) && allItems str flt items

end

/-- **Induction over values**: a list through its elements, a dictionary through its values. -/
theorem induction {P : Json → Prop} (null : P .null) (bool : ∀ b, P (.bool b))
    (int : ∀ i, P (.int i)) (float : ∀ x, P (.float x)) (str : ∀ s, P (.str s))
    (list : ∀ vs, (∀ v ∈ vs, P v) → P (.list vs))
    (dict : ∀ items : Dict, (∀ item ∈ items, P item.2) → P (.dict items)) (v : Json) : P v :=
  Json.rec (motive_1 := P) (motive_2 := fun vs => ∀ v ∈ vs, P v)
    (motive_3 := fun items => ∀ item ∈ items, P item.2) (motive_4 := fun item => P item.2)
    null bool int float str (fun vs => list vs) (fun items => dict items) (by simp)
    (fun _ _ hv hvs => List.forall_mem_cons.2 ⟨hv, hvs⟩) (by simp)
    (fun _ _ hv hvs => List.forall_mem_cons.2 ⟨hv, hvs⟩) (fun _ _ hv => hv) v

variable (str : PyStr → Bool) (flt : PyFloat → Bool)

theorem allList_eq (vs : List Json) : allList str flt vs = List.all vs (all str flt) := by
  induction vs with
  | nil => rfl
  | cons v vs ih => rw [allList, ih, List.all_cons]

theorem allItems_eq (items : Dict) :
    allItems str flt items = List.all items fun item => str item.1 && item.2.all str flt := by
  induction items with
  | nil => rfl
  | cons item items ih => rw [allItems, ih, List.all_cons]

@[simp] theorem all_null : null.all str flt = true := by rw [all]

@[simp] theorem all_bool (b : Bool) : (bool b).all str flt = true := by rw [all]

@[simp] theorem all_int (i : ℤ) : (int i).all str flt = true := by rw [all]

@[simp] theorem all_float (x : PyFloat) : (float x).all str flt = flt x := by rw [all]

@[simp] theorem all_str (s : PyStr) : (Json.str s).all str flt = str s := by rw [all]

@[simp] theorem all_list (vs : List Json) :
    (list vs).all str flt = List.all vs (all str flt) := by rw [all, allList_eq]

@[simp] theorem all_dict (items : Dict) :
    (dict items).all str flt = List.all items fun item => str item.1 && item.2.all str flt := by
  rw [all, allItems_eq]

/-- A test that everything passes. -/
theorem all_true (v : Json) : v.all (fun _ => true) (fun _ => true) = true := by
  induction v using Json.induction with
  | null | bool | int | str | float => simp
  | list vs ih => simpa using ih
  | dict items ih => simpa using fun k v hmem => ih (k, v) hmem

/-- A weaker test of the floats is passed too. -/
theorem all_mono {str : PyStr → Bool} {flt flt' : PyFloat → Bool} {v : Json}
    (h : v.all str flt = true) (hflt : ∀ x, flt x = true → flt' x = true) :
    v.all str flt' = true := by
  induction v using Json.induction with
  | null | bool | int => simp
  | str s => simpa using h
  | float x =>
      rw [all_float] at h ⊢
      exact hflt x h
  | list vs ih =>
      rw [all_list, List.all_eq_true] at h ⊢
      exact fun v hv => ih v hv (h v hv)
  | dict items ih =>
      simp only [all_dict, List.all_eq_true, Bool.and_eq_true] at h ⊢
      exact fun item hitem => ⟨(h item hitem).1, ih item hitem (h item hitem).2⟩

end Json

/-- The float is finite. -/
def PyFloat.isFinite : PyFloat → Bool
  | finite .. => true
  | _ => false

/-- No float in the value is `nan` or infinite. -/
def Json.finite (v : Json) : Bool := v.all (fun _ => true) PyFloat.isFinite

/-- No string in the value has a lone surrogate. -/
def Json.encodable (v : Json) : Bool := v.all (fun s => !s.any isSurrogate) fun _ => true

/-! ### The writer -/

/-- How a finite float is written, `float.__repr__`, and read, `float`. -/
structure FloatText where
  repr : PyFloat → PyStr
  read : PyStr → PyFloat

/-- A digit of a hexadecimal numeral, in lower case. -/
def hexDigit (n : ℕ) : CodePoint :=
  if n < 10 then Fin.ofNat 0x110000 ('0'.toNat + n) else Fin.ofNat 0x110000 ('a'.toNat + (n - 10))

/-- `ESCAPE_DCT`: the characters with an escape of their own, and what follows the backslash. -/
def escapeDct : List (CodePoint × CodePoint) :=
  [(ch '\\', ch '\\'), (ch '"', ch '"'), (0x08, ch 'b'), (0x0C, ch 'f'), (ch '\n', ch 'n'),
    (ch '\r', ch 'r'), (ch '\t', ch 't')]

/-- A character inside quotation marks. -/
def escapeChar (c : CodePoint) : PyStr :=
  match escapeDct.lookup c with
  | some e => [ch '\\', e]
  | none =>
      if c.val < 0x20 then py "\\u00" ++ [hexDigit (c.val / 16), hexDigit (c.val % 16)] else [c]

/-- `encode_basestring(s)`. -/
def quoted (s : PyStr) : PyStr := ch '"' :: s.flatMap escapeChar ++ [ch '"']

/-- `int.__repr__(i)`. -/
def intRepr (i : ℤ) : PyStr :=
  (if i < 0 then [ch '-'] else []) ++ (Nat.toDigits 10 i.natAbs).map ch

/-- `floatstr(x)`: what is not finite is written under the names JavaScript gives it. -/
def floatstr (f : FloatText) : PyFloat → PyStr
  | .nan => py "NaN"
  | .inf false => py "Infinity"
  | .inf true => py "-Infinity"
  | x => f.repr x

mutual

/-- `json.dumps(v, ensure_ascii=False, separators=(",", ":"))`. -/
def dumps (f : FloatText) : Json → PyStr
  | .null => py "null"
  | .bool true => py "true"
  | .bool false => py "false"
  | .int i => intRepr i
  | .float x => floatstr f x
  | .str s => quoted s
  | .list [] => py "[]"
  | .list (v :: vs) => ch '[' :: (dumps f v ++ dumpsElements f vs)
  | .dict [] => [ch '\x7b', ch '\x7d']
  | .dict ((k, v) :: items) => ch '\x7b' :: (quoted k ++ ch ':' :: dumps f v ++ dumpsItems f items)

/-- The elements of a list after the first, and the bracket. -/
def dumpsElements (f : FloatText) : List Json → PyStr
  | [] => [ch ']']
  | v :: vs => ch ',' :: (dumps f v ++ dumpsElements f vs)

/-- The items of a dictionary after the first, and the brace. -/
def dumpsItems (f : FloatText) : List (PyStr × Json) → PyStr
  | [] => [ch '\x7d']
  | (k, v) :: items => ch ',' :: (quoted k ++ ch ':' :: dumps f v ++ dumpsItems f items)

end

/-! ### The strict reader: tokens -/

/-- The white space of JSON. -/
def isJsonSpace (c : CodePoint) : Bool :=
  c.val == 0x20 || c.val == 0x09 || c.val == 0x0A || c.val == 0x0D

/-- The character `x`, white space before it skipped. -/
def expect (x : Char) (s : PyStr) : Option PyStr :=
  match s.dropWhile isJsonSpace with
  | c :: rest => if isChar x c then some rest else none
  | [] => none

/-- The value of a hexadecimal digit. -/
def hexValue (c : CodePoint) : Option ℕ :=
  if inRange '0' '9' c then some (c.val - '0'.toNat)
  else if inRange 'a' 'f' c then some (c.val - 'a'.toNat + 10)
  else if inRange 'A' 'F' c then some (c.val - 'A'.toNat + 10)
  else none

/-- Four hexadecimal digits: a code unit. -/
def codeUnit : PyStr → Option (ℕ × PyStr)
  | a :: b :: c :: d :: s => do
      let a ← hexValue a
      let b ← hexValue b
      let c ← hexValue c
      let d ← hexValue d
      return (((a * 16 + b) * 16 + c) * 16 + d, s)
  | _ => none

/-- The escape of the second unit of a surrogate pair. -/
def lowSurrogate : PyStr → Option (ℕ × PyStr)
  | a :: b :: s =>
      if isChar '\\' a && isChar 'u' b then
        (codeUnit s).filter fun low => 0xDC00 ≤ low.1 && low.1 ≤ 0xDFFF
      else none
  | _ => none

/-- What follows `\u`; two units that are a surrogate pair are one character. -/
def unicodeEscape (s : PyStr) : Option (CodePoint × PyStr) :=
  (codeUnit s).map fun unit =>
    match (if 0xD800 ≤ unit.1 ∧ unit.1 ≤ 0xDBFF then lowSurrogate unit.2 else none) with
    | some low =>
        (Fin.ofNat 0x110000 (0x10000 + (unit.1 - 0xD800) * 0x400 + (low.1 - 0xDC00)), low.2)
    | none => (Fin.ofNat 0x110000 unit.1, unit.2)

/-- The escapes of one character. -/
def backslash : List (CodePoint × CodePoint) :=
  [(ch '"', ch '"'), (ch '\\', ch '\\'), (ch '/', ch '/'), (ch 'b', 0x08), (ch 'f', 0x0C),
    (ch 'n', ch '\n'), (ch 'r', ch '\r'), (ch 't', ch '\t')]

/-- A character of a string; a control character has to be escaped. -/
def character : PyStr → Option (CodePoint × PyStr)
  | [] => none
  | c :: s =>
      if isChar '\\' c then
        match s with
        | [] => none
        | e :: rest =>
            if isChar 'u' e then unicodeEscape rest else (backslash.lookup e).map fun x => (x, rest)
      else if c.val < 0x20 then none
      else some (c, s)

/-- The characters up to the closing quotation mark, at most `n` of them with it. -/
def characters : ℕ → PyStr → Option (PyStr × PyStr)
  | 0, _ => none
  | n + 1, s =>
      if (s.head?).any (isChar '"') then some ([], s.tail)
      else
        (character s).bind fun first =>
          (characters n first.2).map fun others => (first.1 :: others.1, others.2)

/-- A string after its opening quotation mark. -/
def string (s : PyStr) : Option (PyStr × PyStr) := characters s.length s

/-- A character of a number. -/
def isNumberChar (c : CodePoint) : Bool :=
  inRange '0' '9' c || isChar '-' c || isChar '+' c || isChar '.' c || isChar 'e' c || isChar 'E' c

/-- A decimal digit. -/
def isDigit (c : CodePoint) : Bool := inRange '0' '9' c

/-- Digits without a leading zero. -/
def isNatural : PyStr → Bool
  | [] => false
  | c :: s => isDigit c && (!isChar '0' c || s.isEmpty) && s.all isDigit

/-- One digit or more. -/
def isDigits (s : PyStr) : Bool := !s.isEmpty && s.all isDigit

/-- The exponent of a number, which may be absent. -/
def isExponent : PyStr → Bool
  | [] => true
  | [_] => false
  | c :: d :: s =>
      (isChar 'e' c || isChar 'E' c) &&
        (if isChar '-' d || isChar '+' d then isDigits s else isDigits (d :: s))

/-- The fraction and the exponent of a number, either of which may be absent. -/
def isFraction : PyStr → Bool
  | [] => true
  | c :: s =>
      if isChar '.' c then isDigits (s.takeWhile isDigit) && isExponent (s.dropWhile isDigit)
      else isExponent (c :: s)

/-- A number without its sign. -/
def unsigned : PyStr → PyStr
  | [] => []
  | c :: s => if isChar '-' c then s else c :: s

/-- The number is negative. -/
def isNegative (t : PyStr) : Bool := (t.head?).any (isChar '-')

/-- A number with a fraction or an exponent. -/
def isFloatLiteral (t : PyStr) : Bool :=
  let body := unsigned t
  isNatural (body.takeWhile isDigit) && !(body.dropWhile isDigit).isEmpty &&
    isFraction (body.dropWhile isDigit)

/-- The value of a number: an integer unless it has a fraction or an exponent. -/
def numberValue (f : FloatText) (t : PyStr) : Option Json :=
  if isNatural (unsigned t) then
    (numeral (unsigned t)).map fun i => .int (if isNegative t then -i else i)
  else if isFloatLiteral t then some (.float (f.read t))
  else none

/-- A number, which goes as far as it can. -/
def number (f : FloatText) (s : PyStr) : Option (Json × PyStr) :=
  (numberValue f (s.takeWhile isNumberChar)).map fun v => (v, s.dropWhile isNumberChar)

/-- One of the three names. -/
def literal (s : PyStr) : Option (Json × PyStr) :=
  if (py "null").isPrefixOf s then some (.null, s.drop 4)
  else if (py "true").isPrefixOf s then some (.bool true, s.drop 4)
  else if (py "false").isPrefixOf s then some (.bool false, s.drop 5)
  else none

/-! ### The strict reader: values -/

section

variable {α : Type}

/-- The rest of a sequence after its first element, at most `n` characters of structure of it. -/
def following (element : PyStr → Option (α × PyStr)) (close : Char) :
    ℕ → PyStr → Option (List α × PyStr)
  | 0, _ => none
  | n + 1, s =>
      match expect ',' s with
      | some rest =>
          (element rest).bind fun first =>
            (following element close n first.2).map fun others => (first.1 :: others.1, others.2)
      | none => (expect close s).map fun rest => ([], rest)

/-- A sequence after its opening bracket. -/
def sequence (element : PyStr → Option (α × PyStr)) (close : Char) (s : PyStr) :
    Option (List α × PyStr) :=
  match expect close s with
  | some rest => some ([], rest)
  | none =>
      (element s).bind fun first =>
        (following element close first.2.length first.2).map fun others =>
          (first.1 :: others.1, others.2)

end

/-- A member of an object: a key, a colon and a value. -/
def member (value : PyStr → Option (Json × PyStr)) (s : PyStr) : Option ((PyStr × Json) × PyStr) :=
  (expect '"' s).bind fun opened =>
    (string opened).bind fun key =>
      (expect ':' key.2).bind fun rest =>
        (value rest).map fun v => ((key.1, v.1), v.2)

/-- A value, nested at most `n` deep. -/
def value (f : FloatText) : ℕ → PyStr → Option (Json × PyStr)
  | 0, _ => none
  | n + 1, s =>
      match s.dropWhile isJsonSpace with
      | [] => none
      | c :: rest =>
          if isChar '"' c then (string rest).map fun p => (.str p.1, p.2)
          else if isChar '[' c then
            (sequence (value f n) ']' rest).map fun p => (.list p.1, p.2)
          else if isChar '\x7b' c then
            (sequence (member (value f n)) '\x7d' rest).map fun p => (.dict p.1, p.2)
          else (literal (c :: rest)).or (number f (c :: rest))

/-- A text that is one value, white space around it aside. -/
def strictLoads (f : FloatText) (s : PyStr) : Option Json :=
  match value f s.length s with
  | some (v, rest) => if rest.all isJsonSpace then some v else none
  | none => none

/-! ### Single characters -/

theorem val_ch (x : Char) : (ch x).val = x.toNat := by
  have h := x.valid
  simp only [UInt32.isValidChar, Nat.isValidChar] at h
  have hx : x.toNat < 0x110000 := by
    change x.val.toNat < _
    omega
  exact Nat.mod_eq_of_lt hx

theorem isChar_iff {x : Char} {c : CodePoint} : isChar x c = true ↔ c = ch x := by
  rw [isChar, beq_iff_eq, Fin.ext_iff, val_ch]

@[simp] theorem isChar_ch (x y : Char) : isChar x (ch y) = (y == x) := by
  rw [isChar, val_ch, Bool.eq_iff_iff, beq_iff_eq, beq_iff_eq, Char.toNat_inj]

theorem expect_ch {x : Char} (hx : isJsonSpace (ch x) = false) (rest : PyStr) :
    expect x (ch x :: rest) = some rest := by
  simp [expect, hx]

theorem expect_eq_none {x : Char} {c : CodePoint} (hc : isJsonSpace c = false)
    (hx : isChar x c = false) (rest : PyStr) : expect x (c :: rest) = none := by
  simp [expect, hc, hx]

/-! ### Strings -/

theorem mem_of_lookup_escapeDct {c e : CodePoint} (h : escapeDct.lookup c = some e) :
    (c, e) ∈ escapeDct := by
  rw [List.lookup_eq_some_iff] at h
  obtain ⟨l₁, l₂, heq, -⟩ := h
  simp [heq]

/-- The escapes written are among those read. -/
theorem lookup_backslash : ∀ p ∈ escapeDct, isChar 'u' p.2 = false ∧
    backslash.lookup p.2 = some p.1 := by
  have hall : escapeDct.all (fun p => !isChar 'u' p.2 &&
      decide (backslash.lookup p.2 = some p.1)) = true := by decide
  intro p hp
  simpa using List.all_eq_true.mp hall p hp

theorem hexValue_hexDigit : ∀ n < 16, hexValue (hexDigit n) = some n := by decide

/-- A character that is written as it is needs no escape. -/
theorem not_special_of_lookup {c : CodePoint} (h : escapeDct.lookup c = none) :
    isChar '"' c = false ∧ isChar '\\' c = false := by
  rw [List.lookup_eq_none_iff] at h
  have hquote := h (ch '"', ch '"') (by decide)
  have hslash := h (ch '\\', ch '\\') (by decide)
  constructor
  · refine Bool.eq_false_iff.2 fun heq => ?_
    rw [isChar_iff.1 heq] at hquote
    exact absurd hquote (by decide)
  · refine Bool.eq_false_iff.2 fun heq => ?_
    rw [isChar_iff.1 heq] at hslash
    exact absurd hslash (by decide)

/-- The escape of a control character, after the `\u`. -/
theorem unicodeEscape_control {c : CodePoint} (hc : c.val < 0x20) (s : PyStr) :
    unicodeEscape (ch '0' :: ch '0' :: hexDigit (c.val / 16) :: hexDigit (c.val % 16) :: s) =
      some (c, s) := by
  have hzero : hexValue (ch '0') = some 0 := by decide
  have hhigh := hexValue_hexDigit (c.val / 16) (by omega)
  have hlow := hexValue_hexDigit (c.val % 16) (by omega)
  have hunit : codeUnit (ch '0' :: ch '0' :: hexDigit (c.val / 16) :: hexDigit (c.val % 16) :: s) =
      some (c.val, s) := by
    simp only [codeUnit, hzero, hhigh, hlow, Option.bind_eq_bind, Option.bind_some,
      Option.pure_def, Option.some.injEq, Prod.mk.injEq, and_true]
    omega
  have hnot : ¬ (0xD800 ≤ c.val ∧ c.val ≤ 0xDBFF) := by omega
  have hval : Fin.ofNat 0x110000 c.val = c := Fin.ext (Nat.mod_eq_of_lt c.isLt)
  rw [unicodeEscape, hunit, Option.map_some, if_neg hnot]
  dsimp only
  rw [hval]

/-- **A character is read back from what is written for it.** -/
theorem character_escapeChar (c : CodePoint) (s : PyStr) :
    character (escapeChar c ++ s) = some (c, s) := by
  unfold escapeChar
  cases h : escapeDct.lookup c with
  | some e =>
      obtain ⟨hu, hback⟩ := lookup_backslash _ (mem_of_lookup_escapeDct h)
      simp only at hu hback
      simp [character, hu, hback]
  | none =>
      by_cases hc : c.val < 0x20
      · have hpy : py "\\u00" = [ch '\\', ch 'u', ch '0', ch '0'] := by decide
        simp [hc, hpy, character, unicodeEscape_control hc s]
      · simp [hc, character, (not_special_of_lookup h).2]

theorem escapeChar_ne_nil (c : CodePoint) : escapeChar c ≠ [] := by
  unfold escapeChar
  cases h : escapeDct.lookup c with
  | some e => simp
  | none => by_cases hc : c.val < 0x20 <;> simp [hc]

/-- No character is written so that it looks like the end of the string. -/
theorem head_escapeChar (c : CodePoint) (s : PyStr) :
    ((escapeChar c ++ s).head?).any (isChar '"') = false := by
  unfold escapeChar
  cases h : escapeDct.lookup c with
  | some e => simp
  | none =>
      by_cases hc : c.val < 0x20
      · have hpy : py "\\u00" = [ch '\\', ch 'u', ch '0', ch '0'] := by decide
        simp [hc, hpy]
      · simp [hc, (not_special_of_lookup h).1]

theorem characters_escaped (s rest : PyStr) {n : ℕ} (hn : s.length < n) :
    characters n (s.flatMap escapeChar ++ ch '"' :: rest) = some (s, rest) := by
  induction s generalizing n with
  | nil =>
      obtain ⟨n, rfl⟩ : ∃ k, n = k + 1 := ⟨n - 1, by simp at hn; omega⟩
      simp [characters]
  | cons c s ih =>
      obtain ⟨n, rfl⟩ : ∃ k, n = k + 1 := ⟨n - 1, by simp at hn; omega⟩
      have ih' := ih (n := n) (by simp at hn; omega)
      rw [List.flatMap_cons, List.append_assoc, characters, head_escapeChar]
      simp [character_escapeChar, ih']

theorem length_le_flatMap_escapeChar (s : PyStr) : s.length ≤ (s.flatMap escapeChar).length := by
  induction s with
  | nil => simp
  | cons c s ih =>
      have hpos := List.length_pos_iff.2 (escapeChar_ne_nil c)
      rw [List.flatMap_cons, List.length_append, List.length_cons]
      omega

/-- **A string is read back from its text**, whatever its characters. -/
theorem string_quoted (s rest : PyStr) :
    string (s.flatMap escapeChar ++ ch '"' :: rest) = some (s, rest) := by
  refine characters_escaped s rest ?_
  have := length_le_flatMap_escapeChar s
  rw [List.length_append, List.length_cons]
  omega

theorem quoted_append (s rest : PyStr) :
    quoted s ++ rest = ch '"' :: (s.flatMap escapeChar ++ ch '"' :: rest) := by
  simp [quoted]

end Python
