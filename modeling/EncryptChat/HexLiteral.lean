/-
**Hexadecimal literals.**

`int(s, 16)` reads far more than hexadecimal digits: white space on both sides, a sign, the prefix
`0x`, an underscore between two digits, and the decimal digits of every script.  The function is
written here as the interpreter computes it, one stage after the other; what it reads is stated
beside it as a language.

The text comes without a hyphen, so the only sign is a plus.

Main definitions:

* `Python.toAscii` — white space and decimal digits of other scripts;
* `Python.scanHex` — the loop over the digits;
* `Python.intHex` — `int(s, 16)`;
* `Python.hexLiteral` — the language of the literals;
* `Python.hexNumber` — the number of a run of digits and nothing else.

Main results:

* `Python.intHex_isSome_iff` — **what is read is the language of the literals**;
* `Python.intHex_of_hexNumber` — a run of digits is read as its number;
* `Python.intHex_lt` — the number is bounded by the length of the text.
-/

import EncryptChat.JsonText
import Mathlib.Computability.Language
import Mathlib.Tactic.Ring

set_option relaxedAutoImplicit false
set_option autoImplicit false

namespace Python

open scoped Computability

/-! ### Characters -/

/-- The white space of the C locale. -/
def isAsciiSpace (c : CodePoint) : Bool := (0x09 ≤ c.val && c.val ≤ 0x0D) || c.val == 0x20

/-- A hexadecimal digit. -/
def isHex (c : CodePoint) : Bool := (hexValue c).isSome

/-- One character, for a table of the decimal digits of all scripts. -/
def charToAscii (decimal : CodePoint → Option (Fin 10)) (c : CodePoint) : Option CodePoint :=
  if c.val < 127 then some c
  else if isSpace c then some (ch ' ')
  else (decimal c).map fun d => hexDigit d.val

/-- `_PyUnicode_TransformDecimalAndSpaceToASCII(s)`; `none` where it leaves a character no literal
has.  A text that is ASCII stays as it is. -/
def toAscii (decimal : CodePoint → Option (Fin 10)) (s : PyStr) : Option PyStr :=
  if s.all (fun c => decide (c.val < 128)) then some s else s.mapM (charToAscii decimal)

theorem hexValue_lt {c : CodePoint} {d : ℕ} (h : hexValue c = some d) : d < 16 := by
  unfold hexValue at h
  split_ifs at h with h₁ h₂ h₃ <;> simp only [Option.some.injEq] at h <;>
    simp only [inRange, Bool.and_eq_true, decide_eq_true_eq] at * <;>
    simp only [Char.reduceToNat] at * <;> omega

/-- A digit is a character of ASCII, and none of those with another meaning. -/
theorem isHex_spec {c : CodePoint} (h : isHex c = true) :
    c.val < 127 ∧ isAsciiSpace c = false ∧ isChar '+' c = false ∧ isChar '_' c = false ∧
      isChar 'x' c = false ∧ isChar 'X' c = false := by
  unfold isHex hexValue at h
  split_ifs at h with h₁ h₂ h₃ <;>
    simp only [isAsciiSpace, isChar, inRange, Bool.and_eq_true, decide_eq_true_eq,
      Bool.or_eq_false_iff, Bool.and_eq_false_iff, decide_eq_false_iff_not,
      beq_eq_false_iff_ne, Char.reduceToNat, Option.isSome_none, Bool.false_eq_true] at * <;>
    omega

/-! ### The reader -/

/-- The character `x` at the front, when it is there. -/
def skipChar (x : Char) : PyStr → PyStr
  | [] => []
  | c :: s => if isChar x c then s else c :: s

/-- The sign. -/
def skipSign (s : PyStr) : PyStr := skipChar '+' s

/-- The prefix, `0x` or `0X`, with the underscore behind it. -/
def skipPrefix : PyStr → PyStr
  | a :: b :: s =>
      if isChar '0' a && (isChar 'x' b || isChar 'X' b) then skipChar '_' s else a :: b :: s
  | s => s

/-- The loop over the digits: `n` has been read, and `under` tells that the last character was an
underscore.  What is returned is the number and the text behind it. -/
def scanHex : ℕ → Bool → PyStr → Option (ℕ × PyStr)
  | n, under, [] => if under then none else some (n, [])
  | n, under, c :: s =>
    match hexValue c with
    | some d => scanHex (16 * n + d) false s
    | none =>
      -- two underscores, or one with no digit behind it
      if under then none
      else if isChar '_' c then scanHex n true s
      else some (n, c :: s)

/-- The digits and the white space behind them.  No literal starts with an underscore, and there is
at least one digit. -/
def readDigits (s : PyStr) : Option ℕ :=
  if s.head?.any isHex then
    (scanHex 0 false s).bind fun r => if r.2.all isAsciiSpace then some r.1 else none
  else none

/-- `PyLong_FromString(s, 16)` of a text without a hyphen. -/
def intHex (s : PyStr) : Option ℕ := readDigits (skipPrefix (skipSign (s.dropWhile isAsciiSpace)))

/-- `int(s, 16)` of a text without a hyphen; `none` is a `ValueError`. -/
def int16 (decimal : CodePoint → Option (Fin 10)) (s : PyStr) : Option ℕ :=
  (toAscii decimal s).bind intHex

/-! ### The language -/

/-- One character of a class. -/
def oneOf (p : CodePoint → Bool) : Language CodePoint := {w | ∃ c, w = [c] ∧ p c = true}

/-- White space. -/
def spaces : Language CodePoint := (oneOf isAsciiSpace)∗

/-- The character `x`, or nothing. -/
def optional (x : Char) : Language CodePoint := 1 + oneOf (isChar x)

/-- The prefix, or nothing. -/
def radix : Language CodePoint :=
  1 + oneOf (isChar '0') * oneOf (fun c => isChar 'x' c || isChar 'X' c) * optional '_'

/-- The digits behind the first, each with an underscore before it or not. -/
def digitTail : Language CodePoint := (optional '_' * oneOf isHex)∗

/-- The literals. -/
def hexLiteral : Language CodePoint :=
  spaces * (optional '+' * (radix * ((oneOf isHex * digitTail) * spaces)))

/-- The number of a run of digits and nothing else, `n` before them. -/
def hexNumber : ℕ → PyStr → Option ℕ
  | n, [] => some n
  | n, c :: s => (hexValue c).bind fun d => hexNumber (16 * n + d) s

/-! ### Words of the parts -/

variable {p : CodePoint → Bool} {x : Char} {c : CodePoint} {s t w : PyStr} {n k : ℕ}

theorem mem_kstar_oneOf : w ∈ (oneOf p)∗ ↔ ∀ c ∈ w, p c = true := by
  constructor
  · rintro ⟨L, rfl, hL⟩ c hc
    obtain ⟨u, hu, hcu⟩ := List.mem_flatten.1 hc
    obtain ⟨d, rfl, hd⟩ := hL u hu
    rw [List.mem_singleton.1 hcu]
    exact hd
  · intro h
    induction w with
    | nil => exact Language.nil_mem_kstar _
    | cons c w ih =>
        rw [← Language.one_add_self_mul_kstar_eq_kstar]
        have hw := ih fun d hd => h d (List.mem_cons_of_mem c hd)
        exact .inr (Language.mem_mul.2 ⟨[c], ⟨c, rfl, h c List.mem_cons_self⟩, w, hw, rfl⟩)

theorem mem_optional : w ∈ optional x ↔ w = [] ∨ ∃ c, w = [c] ∧ isChar x c = true := Iff.rfl

/-- What is skipped, and what is left. -/
theorem exists_skipChar (x : Char) (s : PyStr) : ∃ w ∈ optional x, s = w ++ skipChar x s := by
  cases s with
  | nil => exact ⟨[], .inl rfl, rfl⟩
  | cons c s =>
      rw [skipChar]
      split_ifs with hc
      · exact ⟨[c], .inr ⟨c, rfl, hc⟩, rfl⟩
      · exact ⟨[], .inl rfl, rfl⟩

theorem skipChar_append (hw : w ∈ optional x) (hs : s.head?.any (isChar x) = false) :
    skipChar x (w ++ s) = s := by
  rcases mem_optional.1 hw with rfl | ⟨c, rfl, hc⟩
  · cases s with
    | nil => rfl
    | cons c s =>
        rw [List.nil_append, skipChar, if_neg]
        simpa using hs
  · rw [List.cons_append, List.nil_append, skipChar, if_pos hc]

/-- The prefix, and what is left. -/
theorem exists_skipPrefix (s : PyStr) : ∃ w ∈ radix, s = w ++ skipPrefix s := by
  have hnone : ∃ w ∈ radix, s = w ++ s := ⟨[], .inl rfl, rfl⟩
  match s with
  | [] => exact hnone
  | [c] => exact hnone
  | a :: b :: s =>
      rw [skipPrefix]
      split_ifs with hx
      · rw [Bool.and_eq_true] at hx
        obtain ⟨u, hu, hs⟩ := exists_skipChar '_' s
        refine ⟨a :: b :: u, .inr ?_, by rw [List.cons_append, List.cons_append, ← hs]⟩
        refine Language.mem_mul.2 ⟨[a, b], ?_, u, hu, rfl⟩
        exact Language.mem_mul.2 ⟨[a], ⟨a, rfl, hx.1⟩, [b], ⟨b, rfl, hx.2⟩, rfl⟩
      · exact hnone

/-- A prefix is taken off, and only a prefix. -/
theorem skipPrefix_append (hw : w ∈ radix) (hc : isHex c = true)
    (ht : t.head?.any (fun c => isChar 'x' c || isChar 'X' c) = false) :
    skipPrefix (w ++ c :: t) = c :: t := by
  obtain ⟨-, -, -, hunder, -, -⟩ := isHex_spec hc
  rcases hw with rfl | hw
  · cases t with
    | nil => rfl
    | cons d t =>
        rw [List.nil_append, skipPrefix, if_neg]
        simp only [List.head?_cons, Option.any_some] at ht
        rw [ht, Bool.and_false]
        exact Bool.false_ne_true
  · obtain ⟨v, hv, u, hu, rfl⟩ := Language.mem_mul.1 hw
    obtain ⟨_, ⟨a, rfl, ha⟩, _, ⟨b, rfl, hb⟩, rfl⟩ := Language.mem_mul.1 hv
    have hskip : skipChar '_' (u ++ c :: t) = c :: t := skipChar_append hu hunder
    have hletter : (isChar 'x' b || isChar 'X' b) = true := hb
    simp only [List.cons_append, List.nil_append]
    rw [skipPrefix, ha, hletter, Bool.and_self, if_pos rfl, hskip]

/-! ### Runs of digits -/

theorem nil_mem_digitTail : [] ∈ digitTail := Language.nil_mem_kstar _

theorem append_mem_digitTail {u : PyStr} (hu : u ∈ optional '_') (hc : isHex c = true)
    (hw : w ∈ digitTail) : u ++ c :: w ∈ digitTail := by
  unfold digitTail
  rw [← Language.one_add_self_mul_kstar_eq_kstar]
  refine .inr (Language.mem_mul.2 ⟨u ++ [c], ?_, w, hw, by simp⟩)
  exact Language.mem_mul.2 ⟨u, hu, [c], ⟨c, rfl, hc⟩, rfl⟩

theorem exists_hexValue (h : isHex c = true) : ∃ d, hexValue c = some d :=
  Option.isSome_iff_exists.1 h

theorem scanHex_digit {d : ℕ} (h : hexValue c = some d) (under : Bool) :
    scanHex n under (c :: s) = scanHex (16 * n + d) false s := by
  rw [scanHex, h]

theorem scanHex_underscore (h : isChar '_' c = true) :
    scanHex n false (c :: s) = scanHex n true s := by
  have hnone : hexValue c = none := by
    rw [isChar_iff.1 h]
    decide
  simp only [scanHex, hnone, h, if_true, Bool.false_eq_true, if_false]

/-- The loop stops at white space, and at the end. -/
theorem scanHex_spaces (h : ∀ c ∈ s, isAsciiSpace c = true) : scanHex n false s = some (n, s) := by
  cases s with
  | nil => rfl
  | cons c s =>
      have hc := h c List.mem_cons_self
      have hnone : hexValue c = none := by
        by_contra hsome
        have hhex : isHex c = true := Option.isSome_iff_ne_none.2 hsome
        rw [(isHex_spec hhex).2.1] at hc
        cases hc
      have hunder : isChar '_' c = false := by
        refine Bool.eq_false_iff.2 fun heq => ?_
        rw [isChar_iff.1 heq] at hc
        exact absurd hc (by decide)
      simp only [scanHex, hnone, hunder, Bool.false_eq_true, if_false]

/-- What stands before the rest of the digits: an underscore that was read last. -/
def pending : Bool → Language CodePoint
  | false => 1
  | true => oneOf (isChar '_')

theorem mem_optional_of_pending {under : Bool} (h : w ∈ pending under) : w ∈ optional '_' := by
  cases under with
  | false => exact .inl h
  | true => exact .inr h

/-- **What the loop does at a character**: it reads a digit, it passes an underscore, or it stops. -/
theorem scanHex_cases {under : Bool} {rest : PyStr} (h : scanHex n under (c :: s) = some (k, rest)) :
    (∃ d, hexValue c = some d ∧ scanHex (16 * n + d) false s = some (k, rest)) ∨
      under = false ∧ (isChar '_' c = true ∧ scanHex n true s = some (k, rest) ∨
        n = k ∧ rest = c :: s) := by
  cases hc : hexValue c with
  | some d =>
      rw [scanHex_digit hc] at h
      exact .inl ⟨d, rfl, h⟩
  | none =>
      cases under with
      | true => simp [scanHex, hc] at h
      | false =>
          refine .inr ⟨rfl, ?_⟩
          cases hunder : isChar '_' c with
          | true =>
              rw [scanHex_underscore hunder] at h
              exact .inl ⟨rfl, h⟩
          | false =>
              have hstop : n = k ∧ c :: s = rest := by simpa [scanHex, hc, hunder] using h
              exact .inr ⟨hstop.1, hstop.2.symm⟩

/-- At the end of the text the loop stops. -/
theorem scanHex_nil {under : Bool} {rest : PyStr} (h : scanHex n under [] = some (k, rest)) :
    under = false ∧ n = k ∧ rest = [] := by
  cases under with
  | true => simp [scanHex] at h
  | false =>
      have hstop : n = k ∧ [] = rest := by simpa [scanHex] using h
      exact ⟨rfl, hstop.1, hstop.2.symm⟩

/-- **What the loop takes is a run of digits.** -/
theorem exists_digits {under : Bool} {rest : PyStr} (h : scanHex n under s = some (k, rest)) :
    ∃ w, s = w ++ rest ∧ ∀ u ∈ pending under, u ++ w ∈ digitTail := by
  have hnone : ∀ u ∈ pending false, u ++ [] ∈ digitTail := by
    intro u hu
    rw [(Language.mem_one u).1 hu]
    exact nil_mem_digitTail
  induction s generalizing n under with
  | nil =>
      obtain ⟨rfl, -, rfl⟩ := scanHex_nil h
      exact ⟨[], rfl, hnone⟩
  | cons c s ih =>
      rcases scanHex_cases h with ⟨d, hd, h⟩ | ⟨rfl, ⟨hunder, h⟩ | ⟨-, rfl⟩⟩
      · obtain ⟨w, rfl, hw⟩ := ih h
        refine ⟨c :: w, rfl, fun u hu => ?_⟩
        have hhex : isHex c = true := by simp [isHex, hd]
        exact append_mem_digitTail (mem_optional_of_pending hu) hhex (hw [] rfl)
      · obtain ⟨w, rfl, hw⟩ := ih h
        refine ⟨c :: w, rfl, fun u hu => ?_⟩
        rw [(Language.mem_one u).1 hu]
        exact hw [c] ⟨c, rfl, hunder⟩
      · exact ⟨[], rfl, hnone⟩

/-- **A run of digits is taken**, when white space is behind it. -/
theorem scanHex_append (hw : w ∈ digitTail) (hs : ∀ c ∈ s, isAsciiSpace c = true) (n : ℕ) :
    ∃ k, scanHex n false (w ++ s) = some (k, s) := by
  obtain ⟨L, rfl, hL⟩ := Language.mem_kstar.1 hw
  clear hw
  induction L generalizing n with
  | nil => exact ⟨n, scanHex_spaces hs⟩
  | cons y L ih =>
      obtain ⟨u, hu, _, ⟨c, rfl, hc⟩, rfl⟩ := Language.mem_mul.1 (hL y List.mem_cons_self)
      have hL' : ∀ y ∈ L, y ∈ optional '_' * oneOf isHex :=
        fun y hy => hL y (List.mem_cons_of_mem _ hy)
      obtain ⟨d, hd⟩ := exists_hexValue hc
      obtain ⟨k, hk⟩ := ih (16 * n + d) hL'
      refine ⟨k, ?_⟩
      rcases mem_optional.1 hu with rfl | ⟨a, rfl, ha⟩
      · simp only [List.flatten_cons, List.nil_append, List.cons_append]
        rw [scanHex_digit hd, hk]
      · simp only [List.flatten_cons, List.nil_append, List.cons_append]
        rw [scanHex_underscore ha, scanHex_digit hd, hk]

/-- The number that was read is bounded by the length of the text. -/
theorem scanHex_lt {under : Bool} {rest : PyStr} (h : scanHex n under s = some (k, rest)) :
    k < (n + 1) * 16 ^ s.length := by
  induction s generalizing n under with
  | nil =>
      obtain ⟨-, rfl, -⟩ := scanHex_nil h
      simp
  | cons c s ih =>
      have hpos : 0 < 16 ^ s.length := Nat.pow_pos (by decide)
      have hmono : (n + 1) * 16 ^ s.length ≤ (n + 1) * (16 ^ s.length * 16) :=
        Nat.mul_le_mul_left _ (by omega)
      rw [List.length_cons, Nat.pow_succ]
      rcases scanHex_cases h with ⟨d, hd, h⟩ | ⟨-, ⟨-, h⟩ | ⟨rfl, -⟩⟩
      · have hlt := hexValue_lt hd
        have hstep : (16 * n + d + 1) * 16 ^ s.length ≤ (16 * n + 16) * 16 ^ s.length :=
          Nat.mul_le_mul_right _ (by omega)
        calc k < (16 * n + d + 1) * 16 ^ s.length := ih h
          _ ≤ (16 * n + 16) * 16 ^ s.length := hstep
          _ = (n + 1) * (16 ^ s.length * 16) := by ring
      · exact (ih h).trans_le hmono
      · refine lt_of_lt_of_le ?_ hmono
        exact Nat.lt_of_lt_of_le n.lt_succ_self (Nat.le_mul_of_pos_right _ hpos)

/-- The loop reads a run of digits as its number. -/
theorem scanHex_of_hexNumber (h : hexNumber n s = some k) : scanHex n false s = some (k, []) := by
  induction s generalizing n with
  | nil => simpa [hexNumber, scanHex] using h
  | cons c s ih =>
      obtain ⟨d, hd, hs⟩ := Option.bind_eq_some_iff.1 h
      rw [scanHex_digit hd]
      exact ih hs

/-! ### The whole literal -/

theorem exists_readDigits (h : readDigits s = some k) :
    s ∈ (oneOf isHex * digitTail) * spaces := by
  unfold readDigits at h
  split_ifs at h with hhead
  obtain ⟨⟨m, rest⟩, hscan, hrest⟩ := Option.bind_eq_some_iff.1 h
  cases s with
  | nil => cases hhead
  | cons c s =>
      obtain ⟨d, hd⟩ := exists_hexValue hhead
      rw [scanHex_digit hd] at hscan
      obtain ⟨w, rfl, hw⟩ := exists_digits hscan
      split_ifs at hrest with hspaces
      have hspace : rest ∈ spaces := mem_kstar_oneOf.2 (List.all_eq_true.1 hspaces)
      refine Language.mem_mul.2 ⟨c :: w, ?_, rest, hspace, rfl⟩
      exact Language.mem_mul.2 ⟨[c], ⟨c, rfl, hhead⟩, w, hw [] rfl, rfl⟩

/-- What stands behind the first digit is no letter of a prefix. -/
theorem not_radix_of_digitTail (hw : w ∈ digitTail) (hs : ∀ c ∈ s, isAsciiSpace c = true) :
    (w ++ s).head?.any (fun c => isChar 'x' c || isChar 'X' c) = false := by
  obtain ⟨L, rfl, hL⟩ := Language.mem_kstar.1 hw
  have hspace : ∀ c, isAsciiSpace c = true → (isChar 'x' c || isChar 'X' c) = false := by
    intro c hc
    refine Bool.eq_false_iff.2 fun hx => ?_
    rcases Bool.or_eq_true_iff.1 hx with hx | hx <;> rw [isChar_iff.1 hx] at hc <;>
      exact absurd hc (by decide)
  cases L with
  | nil =>
      cases s with
      | nil => rfl
      | cons c s => exact hspace c (hs c List.mem_cons_self)
  | cons y L =>
      obtain ⟨u, hu, _, ⟨c, rfl, hc⟩, rfl⟩ := Language.mem_mul.1 (hL y List.mem_cons_self)
      rcases mem_optional.1 hu with rfl | ⟨a, rfl, ha⟩
      · obtain ⟨-, -, -, -, hx, hX⟩ := isHex_spec hc
        simp [hx, hX]
      · rw [isChar_iff.1 ha]
        simp only [List.flatten_cons, List.cons_append, List.head?_cons, Option.any_some]
        decide

/-- A run of digits with white space behind it is read. -/
theorem readDigits_isSome (hc : isHex c = true) (ht : t ∈ digitTail)
    (hs : ∀ c ∈ s, isAsciiSpace c = true) : (readDigits (c :: (t ++ s))).isSome = true := by
  obtain ⟨d, hd⟩ := exists_hexValue hc
  obtain ⟨k, hk⟩ := scanHex_append ht hs (16 * 0 + d)
  have hhead : (c :: (t ++ s)).head?.any isHex = true := hc
  rw [readDigits, if_pos hhead, scanHex_digit hd, hk, Option.bind_some,
    if_pos (List.all_eq_true.2 hs), Option.isSome_some]

/-- Prefix or not, the text now starts with a digit. -/
theorem exists_cons_of_radix (hw : w ∈ radix) (hc : isHex c = true) (t : PyStr) :
    ∃ d u, w ++ c :: t = d :: u ∧ isHex d = true := by
  rcases hw with rfl | hw
  · exact ⟨c, t, rfl, hc⟩
  · obtain ⟨v, hv, u, -, rfl⟩ := Language.mem_mul.1 hw
    obtain ⟨_, ⟨a, rfl, ha⟩, _, ⟨b, rfl, -⟩, rfl⟩ := Language.mem_mul.1 hv
    refine ⟨a, b :: (u ++ c :: t), by simp, ?_⟩
    rw [isChar_iff.1 ha]
    decide

/-- White space before a sign or a digit is dropped, and nothing else. -/
theorem dropWhile_spaces_append (hs : ∀ c ∈ s, isAsciiSpace c = true) (hw : w ∈ optional '+')
    (hc : isHex c = true) (t : PyStr) :
    (s ++ (w ++ c :: t)).dropWhile isAsciiSpace = w ++ c :: t := by
  rw [List.dropWhile_append_of_pos hs]
  rcases mem_optional.1 hw with rfl | ⟨a, rfl, ha⟩
  · have hspace := (isHex_spec hc).2.1
    rw [List.nil_append, List.dropWhile_cons_of_neg (by simp [hspace])]
  · have hspace : isAsciiSpace a = false := by
      rw [isChar_iff.1 ha]
      decide
    rw [List.cons_append, List.dropWhile_cons_of_neg (by simp [hspace])]

/-- **What `int(s, 16)` reads is the language of the literals.** -/
theorem intHex_isSome_iff : (intHex s).isSome = true ↔ s ∈ hexLiteral := by
  constructor
  · intro h
    obtain ⟨k, hk⟩ := Option.isSome_iff_exists.1 h
    obtain ⟨v, hv, hsign⟩ := exists_skipChar '+' (s.dropWhile isAsciiSpace)
    obtain ⟨w, hw, hradix⟩ := exists_skipPrefix (skipSign (s.dropWhile isAsciiSpace))
    have hspaces : s.takeWhile isAsciiSpace ∈ spaces :=
      mem_kstar_oneOf.2 fun c hc => List.mem_takeWhile_imp hc
    refine Language.mem_mul.2 ⟨_, hspaces, _, ?_, List.takeWhile_append_dropWhile⟩
    refine Language.mem_mul.2 ⟨v, hv, _, ?_, hsign.symm⟩
    exact Language.mem_mul.2 ⟨w, hw, _, exists_readDigits hk, hradix.symm⟩
  · intro h
    obtain ⟨a, ha, r₁, h₁, rfl⟩ := Language.mem_mul.1 h
    obtain ⟨v, hv, r₂, h₂, rfl⟩ := Language.mem_mul.1 h₁
    obtain ⟨w, hw, r₃, h₃, rfl⟩ := Language.mem_mul.1 h₂
    obtain ⟨r₄, h₄, b, hb, rfl⟩ := Language.mem_mul.1 h₃
    obtain ⟨_, ⟨c, rfl, hc⟩, t, ht, rfl⟩ := Language.mem_mul.1 h₄
    have hb' : ∀ c ∈ b, isAsciiSpace c = true := mem_kstar_oneOf.1 hb
    obtain ⟨d, u, hdu, hd⟩ := exists_cons_of_radix hw hc (t ++ b)
    -- the stages take off the white space, the sign and the prefix
    have hdrop : (a ++ (v ++ (w ++ c :: (t ++ b)))).dropWhile isAsciiSpace =
        v ++ (w ++ c :: (t ++ b)) := by
      rw [hdu]
      exact dropWhile_spaces_append (mem_kstar_oneOf.1 ha) hv hd u
    have hsign : skipSign (v ++ (w ++ c :: (t ++ b))) = w ++ c :: (t ++ b) := by
      rw [hdu]
      exact skipChar_append hv (isHex_spec hd).2.2.1
    have hradix : skipPrefix (w ++ c :: (t ++ b)) = c :: (t ++ b) :=
      skipPrefix_append hw hc (not_radix_of_digitTail ht hb')
    have hread := readDigits_isSome hc ht hb'
    rw [← hradix, ← hsign, ← hdrop] at hread
    exact hread

/-- **A run of digits is read as its number.** -/
theorem intHex_of_hexNumber (hne : s ≠ []) (h : hexNumber 0 s = some k) : intHex s = some k := by
  obtain ⟨c, t, rfl⟩ := List.exists_cons_of_ne_nil hne
  obtain ⟨d, hd, ht⟩ := Option.bind_eq_some_iff.1 h
  have hc : isHex c = true := by simp [isHex, hd]
  have hdrop : (c :: t).dropWhile isAsciiSpace = c :: t :=
    dropWhile_spaces_append (w := []) (fun _ hc => absurd hc List.not_mem_nil) (.inl rfl) hc t
  have hsign : skipSign (c :: t) = c :: t :=
    skipChar_append (w := []) (.inl rfl) (isHex_spec hc).2.2.1
  have hnot : t.head?.any (fun c => isChar 'x' c || isChar 'X' c) = false := by
    cases t with
    | nil => rfl
    | cons e t =>
        obtain ⟨e', he, -⟩ := Option.bind_eq_some_iff.1 ht
        have hhex : isHex e = true := by simp [isHex, he]
        obtain ⟨-, -, -, -, hx, hX⟩ := isHex_spec hhex
        simp [hx, hX]
  have hradix : skipPrefix (c :: t) = c :: t := skipPrefix_append (w := []) (.inl rfl) hc hnot
  have hhead : (c :: t).head?.any isHex = true := hc
  rw [intHex, hdrop, hsign, hradix, readDigits, if_pos hhead, scanHex_of_hexNumber h]
  rfl

theorem skipChar_suffix (x : Char) (s : PyStr) : skipChar x s <:+ s := by
  obtain ⟨w, -, hs⟩ := exists_skipChar x s
  exact ⟨w, hs.symm⟩

theorem skipPrefix_suffix (s : PyStr) : skipPrefix s <:+ s := by
  obtain ⟨w, -, hs⟩ := exists_skipPrefix s
  exact ⟨w, hs.symm⟩

/-- The number that is read is bounded by the length of the text. -/
theorem intHex_lt (h : intHex s = some k) : k < 16 ^ s.length := by
  unfold intHex readDigits at h
  split_ifs at h
  obtain ⟨⟨m, rest⟩, hscan, hrest⟩ := Option.bind_eq_some_iff.1 h
  split_ifs at hrest
  obtain rfl : m = k := by simpa using hrest
  have hsuffix : skipPrefix (skipSign (s.dropWhile isAsciiSpace)) <:+ s :=
    ((skipPrefix_suffix _).trans (skipChar_suffix '+' _)).trans (List.dropWhile_suffix _)
  calc m < (0 + 1) * 16 ^ (skipPrefix (skipSign (s.dropWhile isAsciiSpace))).length :=
        scanHex_lt hscan
    _ = 16 ^ (skipPrefix (skipSign (s.dropWhile isAsciiSpace))).length := by omega
    _ ≤ 16 ^ s.length := Nat.pow_le_pow_right (by decide) hsuffix.length_le

/-! ### The digits of other scripts -/

variable {decimal : CodePoint → Option (Fin 10)}

theorem toAscii_of_ascii (h : ∀ c ∈ s, c.val < 128) : toAscii decimal s = some s := by
  rw [toAscii, if_pos]
  exact List.all_eq_true.2 fun c hc => decide_eq_true (h c hc)

theorem length_of_mapM {α β : Type} {f : α → Option β} {l : List α} {l' : List β}
    (h : l.mapM f = some l') : l'.length = l.length := by
  induction l generalizing l' with
  | nil =>
      rw [List.mapM_nil] at h
      cases h
      rfl
  | cons a l ih =>
      simp only [List.mapM_cons, Option.bind_eq_bind, Option.bind_eq_some_iff] at h
      obtain ⟨b, -, m, hm, h⟩ := h
      rw [← Option.some.inj h, List.length_cons, List.length_cons, ih hm]

/-- A character becomes one character. -/
theorem length_of_toAscii (h : toAscii decimal s = some t) : t.length = s.length := by
  unfold toAscii at h
  split_ifs at h
  · rw [Option.some.inj h]
  · exact length_of_mapM h

/-- The number that is read is bounded by the length of the text. -/
theorem int16_lt (h : int16 decimal s = some k) : k < 16 ^ s.length := by
  obtain ⟨t, ht, hk⟩ := Option.bind_eq_some_iff.1 h
  rw [← length_of_toAscii ht]
  exact intHex_lt hk

end Python
