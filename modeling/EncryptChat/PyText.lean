/-
**Python text and JSON values.**

A Python `str` is a sequence of code points, lone surrogates included, so it is modelled by a list
of code points and not by `String`.  This module holds what a server written in Python says about
text: literals, the white space `str.strip` removes, the UTF-8 length, and the values `json.loads`
produces.

* `Python.PyStr`, `Python.py` — strings, and the string of a literal;
* `Python.strip` — `str.strip()`;
* `Python.utf8Length` — the length of `s.encode("utf-8")`, an error on a lone surrogate;
* `Python.Json` — the values of `json.loads`, with the non-finite floats it admits;
* `Python.dictGet` — `dict.get`;
* `Python.PyError` — the exceptions the modelled programs tell apart.
-/

import Mathlib.Algebra.Order.Ring.Int
import Mathlib.Data.Fin.Basic
import Mathlib.Data.List.DropRight
import Mathlib.Tactic.Common

set_option relaxedAutoImplicit false
set_option autoImplicit false

namespace Python

/-- A Unicode code point, surrogates included. -/
abbrev CodePoint := Fin 0x110000

instance neZeroCodePoint : NeZero 0x110000 := ⟨by decide⟩

/-- A Python `str`. -/
abbrev PyStr := List CodePoint

instance lawfulBEqPyStr : LawfulBEq PyStr := inferInstance

/-- The Python string of a literal. -/
def py (s : String) : PyStr := s.toList.map fun c => Fin.ofNat 0x110000 c.toNat

/-- An exception, as far as an `except` clause can tell it from others. -/
inductive PyError where
  | typeError
  | valueError
  | overflowError
  | osError
  | unicodeEncodeError
  | recursionError
  | runtimeError
  | timeoutError
  | cancelledError
  | webSocketDisconnect
  /-- A query for at most one row found several. -/
  | multipleResultsFound
  /-- An `UPDATE` of one object found no row. -/
  | staleDataError
  /-- Any other exception. -/
  | other (tag : ℕ)
  deriving DecidableEq

/-- `except RuntimeError` catches it: a `RecursionError` is one. -/
def PyError.IsRuntimeError (e : PyError) : Prop := e = .runtimeError ∨ e = .recursionError

instance decidableIsRuntimeError (e : PyError) : Decidable e.IsRuntimeError :=
  inferInstanceAs (Decidable (_ ∨ _))

/-! ### Classes of characters -/

/-- The character `c` lies between the characters `lo` and `hi`. -/
def inRange (lo hi : Char) (c : CodePoint) : Bool := lo.toNat ≤ c.val && c.val ≤ hi.toNat

/-- The character `c` is the character `x`. -/
def isChar (x : Char) (c : CodePoint) : Bool := c.val == x.toNat

/-- The class `[a-z0-9]`. -/
def isLowerAlnum (c : CodePoint) : Bool := inRange 'a' 'z' c || inRange '0' '9' c

/-- A lone surrogate when it stands in a string. -/
def isSurrogate (c : CodePoint) : Bool := 0xD800 ≤ c.val && c.val ≤ 0xDFFF

/-- The white space `str.strip` removes. -/
def isSpace (c : CodePoint) : Bool :=
  (0x09 ≤ c.val && c.val ≤ 0x0D) || (0x1C ≤ c.val && c.val ≤ 0x20) || c.val == 0x85 ||
    c.val == 0xA0 || c.val == 0x1680 || (0x2000 ≤ c.val && c.val ≤ 0x200A) || c.val == 0x2028 ||
    c.val == 0x2029 || c.val == 0x202F || c.val == 0x205F || c.val == 0x3000

/-- `str.strip()`. -/
def strip (s : PyStr) : PyStr := (s.dropWhile isSpace).rdropWhile isSpace

/-- The shape of `uuid4().hex`. -/
def isUuidHex (s : PyStr) : Bool :=
  s.length == 32 && s.all fun c => inRange '0' '9' c || inRange 'a' 'f' c

/-! ### UTF-8 -/

/-- The number of bytes UTF-8 spends on a code point. -/
def utf8Width (c : CodePoint) : ℕ :=
  if c.val < 0x80 then 1 else if c.val < 0x800 then 2 else if c.val < 0x10000 then 3 else 4

/-- `len(s.encode("utf-8"))`; strict encoding refuses a lone surrogate. -/
def utf8Length (s : PyStr) : Except PyError ℕ :=
  if s.any isSurrogate then .error .unicodeEncodeError else .ok (s.map utf8Width).sum

/-! ### JSON values -/

/-- A Python float: a finite one by sign, mantissa and binary exponent. -/
inductive PyFloat where
  | finite (negative : Bool) (mantissa : ℕ) (exponent : ℤ)
  | inf (negative : Bool)
  | nan
  deriving DecidableEq

/-- The values `json.loads` produces. -/
inductive Json where
  | null
  | bool (b : Bool)
  | int (i : ℤ)
  | float (x : PyFloat)
  | str (s : PyStr)
  | list (xs : List Json)
  | dict (items : List (PyStr × Json))

/-- The value of a decimal numeral, most significant digit first. -/
def numeral (s : PyStr) : Option ℤ :=
  if s = [] ∨ s.any (fun c => !inRange '0' '9' c) = true then none
  else some (s.foldl (fun n c => 10 * n + ((c.val : ℤ) - '0'.toNat)) 0)

/-- `int(s)` of a string of ASCII characters without underscores. -/
def intOfStr (s : PyStr) : Except PyError ℤ :=
  let value :=
    match strip s with
    | c :: cs =>
        if isChar '-' c then (numeral cs).map Neg.neg
        else if isChar '+' c then numeral cs
        else numeral (c :: cs)
    | [] => none
  value.elim (.error .valueError) .ok

/-- `int(x)` of a float: truncation towards zero. -/
def PyFloat.toInt : PyFloat → Except PyError ℤ
  | finite negative mantissa exponent =>
      let magnitude : ℕ :=
        if 0 ≤ exponent then mantissa * 2 ^ exponent.toNat else mantissa / 2 ^ (-exponent).toNat
      .ok (if negative then -magnitude else magnitude)
  | inf _ => .error .overflowError
  | nan => .error .valueError

/-- `int(value)`. -/
def Json.toInt : Json → Except PyError ℤ
  | int i => .ok i
  | bool b => .ok (if b then 1 else 0)
  | float x => x.toInt
  | str s => intOfStr s
  | _ => .error .typeError

/-- The items of a `dict`, in insertion order. -/
abbrev Dict := List (PyStr × Json)

/-- `dict.get(key)`. -/
def dictGet (d : Dict) (key : PyStr) : Option Json := d.lookup key

/-- The outcome of `json.loads`: a value, or the exception it raised. -/
inductive Loads where
  | value (v : Json)
  | jsonDecodeError
  /-- A `ValueError` that is not a `JSONDecodeError`: an integer literal with too many digits. -/
  | valueError
  | recursionError

/-- A UUID, as the 128-bit integer it denotes. -/
abbrev Uuid := BitVec 128

end Python
