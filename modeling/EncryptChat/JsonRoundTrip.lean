/-
**What `json.dumps` writes reads back, unless it is not JSON.**

A value is read back from its text exactly when no float in it is `nan` or infinite; a text can be
sent exactly when no string in the value has a lone surrogate.  Both are proved for every value, by
induction over its structure: the sequences of a list and of a dictionary are one lemma, stated for
any writer and reader of the elements.

Main definitions:

* `Python.Stops` — a text does not go on as a number;
* `Python.FloatText.faithful` — `float(repr(x)) == x` for a float;
* `Python.ReadsBack` — a reader inverts a writer on a value that passes a test, and refuses it
  otherwise.

Main results:

* `Python.numberValue_intRepr` — an integer is read back from its text;
* `Python.value_dumps`, `Python.strictLoads_dumps` — **a value is read back from its text exactly
  when it is finite**;
* `Python.any_isSurrogate_dumps` — **a text has a lone surrogate exactly when a string of the value
  has one**.
-/

import EncryptChat.JsonText

set_option relaxedAutoImplicit false
set_option autoImplicit false

namespace Python

/-! ### Numbers -/

/-- The text does not go on as a number. -/
def Stops (s : PyStr) : Prop := ∀ c ∈ s.head?, isNumberChar c = false

theorem stops_cons {c : CodePoint} (h : isNumberChar c = false) (s : PyStr) : Stops (c :: s) := by
  simpa [Stops] using h

theorem number_append {t rest : PyStr} (f : FloatText) (ht : t.all isNumberChar = true)
    (hrest : Stops rest) :
    number f (t ++ rest) = (numberValue f t).map fun v => (v, rest) := by
  rw [List.all_eq_true] at ht
  have htake : rest.takeWhile isNumberChar = [] := by
    cases rest with
    | nil => rfl
    | cons c rest => simp [hrest c rfl]
  have hdrop : rest.dropWhile isNumberChar = rest := by
    cases rest with
    | nil => rfl
    | cons c rest => simp [hrest c rfl]
  rw [number, List.takeWhile_append_of_pos ht, List.dropWhile_append_of_pos ht, htake, hdrop,
    List.append_nil]

/-- A character of a number opens neither a string nor a list, a dictionary or a name. -/
theorem isNumberChar_cases {c : CodePoint} (h : isNumberChar c = true) :
    isJsonSpace c = false ∧ isSurrogate c = false ∧
      ∀ x ∈ ['"', '[', ']', '\x7b', '\x7d', ',', ':', 'n', 't', 'f'], isChar x c = false := by
  simp only [isNumberChar, inRange, isChar, Bool.or_eq_true, Bool.and_eq_true, decide_eq_true_eq,
    beq_iff_eq, Char.reduceToNat] at h
  refine ⟨?_, ?_, ?_⟩
  · simp only [isJsonSpace, Bool.or_eq_false_iff, beq_eq_false_iff_ne]
    omega
  · simp only [isSurrogate, Bool.and_eq_false_iff, decide_eq_false_iff_not]
    omega
  · simp only [List.forall_mem_cons, isChar, beq_eq_false_iff_ne, Char.reduceToNat]
    simp only [List.not_mem_nil, false_imp_iff, implies_true, and_true]
    omega

theorem isNumberChar_of_isDigit {c : CodePoint} (h : isDigit c = true) :
    isNumberChar c = true := by
  rw [isDigit] at h
  simp [isNumberChar, h]

theorem isNatural_all {s : PyStr} (h : isNatural s = true) : s.all isDigit = true := by
  cases s with
  | nil => rfl
  | cons c s =>
      simp only [isNatural, Bool.and_eq_true] at h
      rw [List.all_cons, h.1.1, h.2, Bool.and_self]

theorem isDigit_ch_of_isDigit {d : Char} (h : d.isDigit = true) : isDigit (ch d) = true := by
  simp only [Char.isDigit, Bool.and_eq_true, decide_eq_true_eq] at h
  have hlo : '0'.toNat ≤ d.toNat := h.1
  have hhi : d.toNat ≤ '9'.toNat := h.2
  simp only [isDigit, inRange, val_ch, Bool.and_eq_true, decide_eq_true_eq]
  exact ⟨hlo, hhi⟩

/-- The digits of a number, as they are written. -/
theorem all_isDigit_toDigits (n : ℕ) : ((Nat.toDigits 10 n).map ch).all isDigit = true := by
  rw [List.all_eq_true]
  intro c hc
  obtain ⟨d, hd, rfl⟩ := List.mem_map.1 hc
  exact isDigit_ch_of_isDigit (Nat.isDigit_of_mem_toDigits (by omega) (by omega) hd)

/-- Only zero is written with a leading zero. -/
theorem exists_head_toDigits {n : ℕ} (hn : 0 < n) :
    ∃ d l, Nat.toDigits 10 n = d :: l ∧ d ≠ '0' := by
  induction n using Nat.strong_induction_on with
  | _ n ih =>
      rcases Nat.lt_or_ge n 10 with hlt | hge
      · have hdigit : ∀ k < 10, 0 < k → k.digitChar ≠ '0' := by decide
        exact ⟨n.digitChar, [], Nat.toDigits_of_lt_base hlt, hdigit n hlt hn⟩
      · obtain ⟨d, l, heq, hd⟩ := ih (n / 10) (by omega) (by omega)
        refine ⟨d, l ++ [(n % 10).digitChar], ?_, hd⟩
        rw [Nat.toDigits_of_base_le (by omega) hge, heq, List.cons_append]

theorem isNatural_toDigits (n : ℕ) : isNatural ((Nat.toDigits 10 n).map ch) = true := by
  rcases Nat.eq_zero_or_pos n with rfl | hn
  · decide
  · obtain ⟨d, l, heq, hd⟩ := exists_head_toDigits hn
    have hall := all_isDigit_toDigits n
    rw [heq, List.map_cons, List.all_cons, Bool.and_eq_true] at hall
    have hzero : isChar '0' (ch d) = false := by simpa using hd
    rw [heq, List.map_cons, isNatural, hall.1, hall.2, hzero]
    rfl

/-- The value of digits that continue a number. -/
theorem foldl_ch (l : List Char) (hl : ∀ d ∈ l, d.isDigit = true) (k : ℕ) :
    (l.map ch).foldl (fun n c => 10 * n + ((c.val : ℤ) - '0'.toNat)) (k : ℤ) =
      (Nat.ofDigitChars 10 l k : ℕ) := by
  induction l generalizing k with
  | nil => simp [Nat.ofDigitChars]
  | cons d l ih =>
      rw [List.forall_mem_cons] at hl
      have hd := hl.1
      simp only [Char.isDigit, Bool.and_eq_true, decide_eq_true_eq] at hd
      have hlo : '0'.toNat ≤ d.toNat := hd.1
      have hstep : 10 * (k : ℤ) + (((ch d).val : ℤ) - '0'.toNat) =
          ((10 * k + (d.toNat - '0'.toNat) : ℕ) : ℤ) := by
        rw [val_ch]
        omega
      rw [List.map_cons, List.foldl_cons, hstep, ih hl.2, Nat.ofDigitChars_cons]

theorem numeral_toDigits (n : ℕ) : numeral ((Nat.toDigits 10 n).map ch) = some (n : ℤ) := by
  have hne : (Nat.toDigits 10 n).map ch ≠ [] := by simp [Nat.toDigits_ne_nil]
  have hall := all_isDigit_toDigits n
  have hdigit : ∀ d ∈ Nat.toDigits 10 n, d.isDigit = true := fun d hd =>
    Nat.isDigit_of_mem_toDigits (by omega) (by omega) hd
  have hnone : ¬ (((Nat.toDigits 10 n).map ch).any fun c => !inRange '0' '9' c) = true := by
    simpa [isDigit] using hall
  have := foldl_ch _ hdigit 0
  rw [numeral, if_neg (not_or.2 ⟨hne, hnone⟩)]
  rw [Nat.ofDigitChars_ten_toDigits] at this
  simpa using this

/-- The parts of a float literal: a sign, digits, and a fraction or an exponent. -/
theorem isFloatLiteral_iff {t : PyStr} : isFloatLiteral t = true ↔
    isNatural ((unsigned t).takeWhile isDigit) = true ∧ (unsigned t).dropWhile isDigit ≠ [] ∧
      isFraction ((unsigned t).dropWhile isDigit) = true := by
  simp [isFloatLiteral, and_assoc]

theorem isDigits_all {s : PyStr} (h : isDigits s = true) : s.all isNumberChar = true := by
  simp only [isDigits, Bool.and_eq_true, List.all_eq_true] at h ⊢
  exact fun c hc => isNumberChar_of_isDigit (h.2 c hc)

theorem isExponent_all {s : PyStr} (h : isExponent s = true) : s.all isNumberChar = true := by
  rcases s with - | ⟨c, - | ⟨d, s⟩⟩
  · rfl
  · cases h
  · simp only [isExponent, Bool.and_eq_true, Bool.or_eq_true] at h
    have hc : isNumberChar c = true := by
      rcases h.1 with hc | hc <;> simp [isNumberChar, hc]
    rw [List.all_cons, hc, Bool.true_and]
    split_ifs at h with hd
    · have hd' : isNumberChar d = true := by
        rcases hd with hd | hd <;> simp [isNumberChar, hd]
      rw [List.all_cons, hd', isDigits_all h.2, Bool.and_self]
    · exact isDigits_all h.2

theorem isFraction_all {s : PyStr} (h : isFraction s = true) : s.all isNumberChar = true := by
  cases s with
  | nil => rfl
  | cons c s =>
      rw [isFraction] at h
      split_ifs at h with hc
      · rw [Bool.and_eq_true] at h
        have hdot : isNumberChar c = true := by simp [isNumberChar, hc]
        have happ : s.takeWhile isDigit ++ s.dropWhile isDigit = s :=
          List.takeWhile_append_dropWhile
        rw [List.all_cons, hdot, ← happ, List.all_append, isDigits_all h.1, isExponent_all h.2]
        rfl
      · exact isExponent_all h

/-- A number is its sign and its digits. -/
theorem all_unsigned {t : PyStr} (h : (unsigned t).all isNumberChar = true) :
    t.all isNumberChar = true := by
  cases t with
  | nil => rfl
  | cons c t =>
      rw [unsigned] at h
      split_ifs at h with hc
      · have hsign : isNumberChar c = true := by simp [isNumberChar, hc]
        rw [List.all_cons, hsign, h, Bool.and_self]
      · exact h

theorem all_of_isDigit {s : PyStr} (h : s.all isDigit = true) : s.all isNumberChar = true := by
  rw [List.all_eq_true] at h ⊢
  exact fun c hc => isNumberChar_of_isDigit (h c hc)

/-- A float literal is a run of characters of numbers. -/
theorem isFloatLiteral_all {t : PyStr} (h : isFloatLiteral t = true) :
    t.all isNumberChar = true := by
  obtain ⟨hwhole, -, hfraction⟩ := isFloatLiteral_iff.1 h
  refine all_unsigned ?_
  have happ : (unsigned t).takeWhile isDigit ++ (unsigned t).dropWhile isDigit = unsigned t :=
    List.takeWhile_append_dropWhile
  rw [← happ, List.all_append, all_of_isDigit (isNatural_all hwhole), isFraction_all hfraction]
  rfl

/-- A float is written as a number that is not an integer and reads back; what is not finite has no
text in JSON. -/
def FloatText.faithful (f : FloatText) (x : PyFloat) : Bool :=
  !x.isFinite || (isFloatLiteral (f.repr x) && f.read (f.repr x) == x)

theorem numberValue_repr {f : FloatText} {x : PyFloat} (hlit : isFloatLiteral (f.repr x) = true)
    (hread : f.read (f.repr x) = x) : numberValue f (f.repr x) = some (.float x) := by
  have hnat : isNatural (unsigned (f.repr x)) = false := by
    refine Bool.eq_false_iff.2 fun hnat => (isFloatLiteral_iff.1 hlit).2.1 ?_
    have hall := isNatural_all hnat
    rwa [List.all_eq_true, ← List.dropWhile_eq_nil_iff] at hall
  rw [numberValue, hnat, hlit, hread]
  rfl

/-- The text of an integer without its sign. -/
theorem unsigned_intRepr (i : ℤ) :
    unsigned (intRepr i) = (Nat.toDigits 10 i.natAbs).map ch ∧
      isNegative (intRepr i) = decide (i < 0) := by
  by_cases hi : i < 0
  · simp [intRepr, hi, unsigned, isNegative]
  · have hall := all_isDigit_toDigits i.natAbs
    have hne : Nat.toDigits 10 i.natAbs ≠ [] := Nat.toDigits_ne_nil
    obtain ⟨d, l, heq⟩ := List.exists_cons_of_ne_nil hne
    rw [heq, List.map_cons, List.all_cons, Bool.and_eq_true] at hall
    have hsign : isChar '-' (ch d) = false := by
      refine Bool.eq_false_iff.2 fun hc => ?_
      rw [isChar_iff.1 hc] at hall
      exact absurd hall.1 (by decide)
    simp only [intRepr, hi, if_false, List.nil_append, heq, List.map_cons, unsigned, hsign,
      isNegative, List.head?_cons, Option.any_some, decide_false]
    simp

theorem all_intRepr (i : ℤ) : (intRepr i).all isNumberChar = true := by
  refine all_unsigned ?_
  rw [(unsigned_intRepr i).1]
  exact all_of_isDigit (all_isDigit_toDigits _)

/-- **An integer is read back from its text.** -/
theorem numberValue_intRepr (f : FloatText) (i : ℤ) :
    numberValue f (intRepr i) = some (.int i) := by
  obtain ⟨hdigits, hsign⟩ := unsigned_intRepr i
  rw [numberValue, hdigits, isNatural_toDigits, if_pos rfl, numeral_toDigits, Option.map_some,
    hsign]
  by_cases hi : i < 0
  · simp only [hi, decide_true, if_true]
    congr 2
    omega
  · simp only [hi, decide_false, Bool.false_eq_true, if_false]
    congr 2
    omega

/-! ### Sequences -/

section

variable {α : Type} (write : α → PyStr) (close : Char)

/-- The elements of a sequence after the first, and the bracket. -/
def continued : List α → PyStr
  | [] => [ch close]
  | v :: vs => ch ',' :: (write v ++ continued vs)

/-- The elements of a sequence, and the bracket. -/
def joined : List α → PyStr
  | [] => [ch close]
  | v :: vs => write v ++ continued write close vs

/-- The reader inverts the writer on a value that passes the test, and refuses one that does not. -/
def ReadsBack (element : PyStr → Option (α × PyStr)) (good : α → Bool) (v : α) : Prop :=
  ∀ rest, Stops rest → element (write v ++ rest) = if good v then some (v, rest) else none

variable {write close} {element : PyStr → Option (α × PyStr)} {good : α → Bool}

theorem stops_continued (write : α → PyStr) (hclose : isNumberChar (ch close) = false)
    (vs : List α) (rest : PyStr) :
    Stops (continued write close vs ++ rest) := by
  cases vs with
  | nil => exact stops_cons hclose rest
  | cons v vs => exact stops_cons (by decide) _

theorem length_lt_continued (write : α → PyStr) (close : Char) (vs : List α) :
    vs.length < (continued write close vs).length := by
  induction vs with
  | nil => simp [continued]
  | cons v vs ih =>
      rw [continued, List.length_cons, List.length_cons, List.length_append]
      omega

theorem length_le_continued (write : α → PyStr) (close : Char) {v : α} {vs : List α} (hv : v ∈ vs) :
    (write v).length ≤ (continued write close vs).length := by
  induction vs with
  | nil => cases hv
  | cons w vs ih =>
      rw [continued, List.length_cons, List.length_append]
      rcases List.mem_cons.1 hv with rfl | hv
      · omega
      · have := ih hv
        omega

theorem length_le_joined (write : α → PyStr) (close : Char) {v : α} {vs : List α} (hv : v ∈ vs) :
    (write v).length ≤ (joined write close vs).length := by
  cases vs with
  | nil => cases hv
  | cons w vs =>
      rw [joined, List.length_append]
      rcases List.mem_cons.1 hv with rfl | hv
      · omega
      · have := length_le_continued write close hv
        omega

/-- The elements after the first are read back. -/
theorem following_continued (hspace : isJsonSpace (ch close) = false)
    (hnumber : isNumberChar (ch close) = false) (hcomma : isChar ',' (ch close) = false)
    {vs : List α} (hvs : ∀ v ∈ vs, ReadsBack write element good v) (rest : PyStr) {n : ℕ}
    (hn : vs.length < n) :
    following element close n (continued write close vs ++ rest) =
      if vs.all good then some (vs, rest) else none := by
  induction vs generalizing n with
  | nil =>
      obtain ⟨n, rfl⟩ : ∃ k, n = k + 1 := ⟨n - 1, by simp at hn; omega⟩
      simp only [continued, List.cons_append, List.nil_append, following, List.all_nil, if_true]
      rw [expect_eq_none hspace hcomma, expect_ch hspace]
      rfl
  | cons v vs ih =>
      obtain ⟨n, rfl⟩ : ∃ k, n = k + 1 := ⟨n - 1, by simp at hn; omega⟩
      rw [List.forall_mem_cons] at hvs
      have hv := hvs.1 _ (stops_continued write hnumber vs rest)
      have hrest := ih hvs.2 (n := n) (by simp at hn; omega)
      rw [continued, List.cons_append, List.append_assoc, following, expect_ch (by decide)]
      dsimp only
      rw [hv, List.all_cons]
      cases hgood : good v with
      | false => rfl
      | true =>
          simp only [if_true, Option.bind_some, hrest, Bool.true_and]
          split_ifs <;> rfl

/-- **A sequence is read back from its text**, exactly when every element is. -/
theorem sequence_joined (hspace : isJsonSpace (ch close) = false)
    (hnumber : isNumberChar (ch close) = false) (hcomma : isChar ',' (ch close) = false)
    {vs : List α} (hvs : ∀ v ∈ vs, ReadsBack write element good v)
    (hopen : ∀ v ∈ vs, ∀ rest, expect close (write v ++ rest) = none) (rest : PyStr) :
    sequence element close (joined write close vs ++ rest) =
      if vs.all good then some (vs, rest) else none := by
  cases vs with
  | nil =>
      rw [joined, List.singleton_append, sequence, expect_ch hspace]
      rfl
  | cons v vs =>
      rw [List.forall_mem_cons] at hvs
      have hv := hvs.1 _ (stops_continued write hnumber vs rest)
      have hlen : vs.length < (continued write close vs ++ rest).length := by
        have := length_lt_continued write close vs
        rw [List.length_append]
        omega
      have hrest := following_continued hspace hnumber hcomma hvs.2 rest hlen
      rw [joined, List.append_assoc, sequence, hopen v (by simp)]
      dsimp only
      rw [hv, List.all_cons]
      cases hgood : good v with
      | false => rfl
      | true =>
          simp only [if_true, Option.bind_some, hrest, Bool.true_and]
          split_ifs <;> rfl

theorem any_continued {p : CodePoint → Bool} (hclose : p (ch close) = false)
    (hcomma : p (ch ',') = false) (vs : List α) :
    (continued write close vs).any p = vs.any fun v => (write v).any p := by
  induction vs with
  | nil => simp [continued, hclose]
  | cons v vs ih => simp [continued, hcomma, ih]

theorem any_joined {p : CodePoint → Bool} (hclose : p (ch close) = false)
    (hcomma : p (ch ',') = false) (vs : List α) :
    (joined write close vs).any p = vs.any fun v => (write v).any p := by
  cases vs with
  | nil => simp [joined, hclose]
  | cons v vs => simp [joined, any_continued hclose hcomma]

end

/-! ### Values -/

/-- A member of an object. -/
def itemText (f : FloatText) (item : PyStr × Json) : PyStr :=
  quoted item.1 ++ ch ':' :: dumps f item.2

theorem dumpsElements_eq (f : FloatText) (vs : List Json) :
    dumpsElements f vs = continued (dumps f) ']' vs := by
  induction vs with
  | nil => rw [dumpsElements, continued]
  | cons v vs ih => rw [dumpsElements, continued, ih]

theorem dumpsItems_eq (f : FloatText) (items : Dict) :
    dumpsItems f items = continued (itemText f) '\x7d' items := by
  induction items with
  | nil => rw [dumpsItems, continued]
  | cons item items ih => rw [dumpsItems, continued, ih, itemText]

theorem dumps_list (f : FloatText) (vs : List Json) :
    dumps f (.list vs) = ch '[' :: joined (dumps f) ']' vs := by
  cases vs with
  | nil => rw [dumps, joined]; rfl
  | cons v vs => rw [dumps, joined, dumpsElements_eq]

theorem dumps_dict (f : FloatText) (items : Dict) :
    dumps f (.dict items) = ch '\x7b' :: joined (itemText f) '\x7d' items := by
  cases items with
  | nil => rw [dumps, joined]
  | cons item items => rw [dumps, joined, dumpsItems_eq, itemText]

/-- Neither a string, a list nor a dictionary: a name or a number. -/
theorem value_scalar (f : FloatText) (n : ℕ) {c : CodePoint} (hspace : isJsonSpace c = false)
    (hquote : isChar '"' c = false) (hlist : isChar '[' c = false)
    (hdict : isChar '\x7b' c = false) (s : PyStr) :
    value f (n + 1) (c :: s) = (literal (c :: s)).or (number f (c :: s)) := by
  simp [value, hspace, hquote, hlist, hdict]

theorem literal_eq_none {c : CodePoint} (hn : isChar 'n' c = false) (ht : isChar 't' c = false)
    (hf : isChar 'f' c = false) (s : PyStr) : literal (c :: s) = none := by
  have hne : ∀ {x : Char}, isChar x c = false → (ch x == c) = false := fun h =>
    beq_false_of_ne fun heq => by simp [← heq] at h
  have hnull : py "null" = [ch 'n', ch 'u', ch 'l', ch 'l'] := by decide
  have htrue : py "true" = [ch 't', ch 'r', ch 'u', ch 'e'] := by decide
  have hfalse : py "false" = [ch 'f', ch 'a', ch 'l', ch 's', ch 'e'] := by decide
  simp [literal, hnull, htrue, hfalse, List.isPrefixOf_cons_cons, hne hn, hne ht, hne hf]

/-- A number is read back as the value it denotes, if any. -/
theorem value_number (f : FloatText) (n : ℕ) {t rest : PyStr} (hne : t ≠ [])
    (ht : t.all isNumberChar = true) (hrest : Stops rest) :
    value f (n + 1) (t ++ rest) = (numberValue f t).map fun v => (v, rest) := by
  obtain ⟨c, s, rfl⟩ := List.exists_cons_of_ne_nil hne
  have hc : isNumberChar c = true := by
    rw [List.all_cons, Bool.and_eq_true] at ht
    exact ht.1
  obtain ⟨hspace, -, hchars⟩ := isNumberChar_cases hc
  simp only [List.forall_mem_cons] at hchars
  obtain ⟨hquote, hlist, -, hdict, -, -, -, hn, ht', hf, -⟩ := hchars
  rw [← number_append f ht hrest, List.cons_append,
    value_scalar f n hspace hquote hlist hdict, literal_eq_none hn ht' hf, Option.none_or]

/-- What every value is written with starts neither with white space nor with a closing bracket. -/
def Opens (s : PyStr) : Prop :=
  ∃ c rest, s = c :: rest ∧ isJsonSpace c = false ∧ isChar ']' c = false ∧ isChar '\x7d' c = false

theorem Opens.append {s : PyStr} (h : Opens s) (rest : PyStr) : Opens (s ++ rest) := by
  obtain ⟨c, s, rfl, hc⟩ := h
  exact ⟨c, s ++ rest, rfl, hc⟩

theorem opens_ch {x : Char} (hspace : isJsonSpace (ch x) = false) (hx : x ∉ [']', '\x7d'])
    (s : PyStr) : Opens (ch x :: s) := by
  simp only [List.mem_cons, List.not_mem_nil, or_false, not_or] at hx
  exact ⟨ch x, s, rfl, hspace, by simp [hx.1], by simp [hx.2]⟩

theorem opens_of_number {t : PyStr} (hne : t ≠ []) (ht : t.all isNumberChar = true) : Opens t := by
  obtain ⟨c, s, rfl⟩ := List.exists_cons_of_ne_nil hne
  rw [List.all_cons, Bool.and_eq_true] at ht
  obtain ⟨hspace, -, hchars⟩ := isNumberChar_cases ht.1
  exact ⟨c, s, rfl, hspace, hchars _ (by decide), hchars _ (by decide)⟩

theorem intRepr_ne_nil (i : ℤ) : intRepr i ≠ [] := by
  have : Nat.toDigits 10 i.natAbs ≠ [] := Nat.toDigits_ne_nil
  simp [intRepr, this]

/-- A finite float has the text of a number. -/
theorem FloatText.faithful_iff {f : FloatText} {x : PyFloat} (hx : x.isFinite = true) :
    f.faithful x = true ↔ isFloatLiteral (f.repr x) = true ∧ f.read (f.repr x) = x := by
  simp [FloatText.faithful, hx]

theorem isFloatLiteral_ne_nil {t : PyStr} (h : isFloatLiteral t = true) : t ≠ [] := by
  rintro rfl
  cases h

/-- The floats of the value are written faithfully. -/
def Json.faithful (f : FloatText) (v : Json) : Bool := v.all (fun _ => true) f.faithful

theorem opens_dumps {f : FloatText} {v : Json} (hv : v.faithful f = true) : Opens (dumps f v) := by
  cases v with
  | null =>
      rw [dumps]
      exact opens_ch (x := 'n') (by decide) (by decide) _
  | bool b =>
      cases b with
      | false =>
          rw [dumps]
          exact opens_ch (x := 'f') (by decide) (by decide) _
      | true =>
          rw [dumps]
          exact opens_ch (x := 't') (by decide) (by decide) _
  | int i =>
      rw [dumps]
      exact opens_of_number (intRepr_ne_nil i) (all_intRepr i)
  | float x =>
      rw [dumps]
      cases x with
      | nan => exact opens_ch (x := 'N') (by decide) (by decide) _
      | inf negative =>
          cases negative with
          | false => exact opens_ch (x := 'I') (by decide) (by decide) _
          | true => exact opens_ch (x := '-') (by decide) (by decide) _
      | finite negative mantissa exponent =>
          rw [Json.faithful, Json.all_float, FloatText.faithful_iff rfl] at hv
          exact opens_of_number (isFloatLiteral_ne_nil hv.1) (isFloatLiteral_all hv.1)
  | str s =>
      rw [dumps]
      exact opens_ch (by decide) (by decide) _
  | list vs =>
      rw [dumps_list]
      exact opens_ch (by decide) (by decide) _
  | dict items =>
      rw [dumps_dict]
      exact opens_ch (by decide) (by decide) _

theorem Json.finite_list (vs : List Json) : (Json.list vs).finite = vs.all Json.finite :=
  Json.all_list _ _ vs

theorem Json.finite_dict (items : Dict) :
    (Json.dict items).finite = List.all items fun item => item.2.finite := by
  simp [Json.finite]

/-- A value is not the end of a sequence. -/
theorem expect_of_opens {s : PyStr} (h : Opens s) :
    expect ']' s = none ∧ expect '\x7d' s = none := by
  obtain ⟨c, rest, rfl, hspace, hlist, hdict⟩ := h
  exact ⟨expect_eq_none hspace hlist rest, expect_eq_none hspace hdict rest⟩

/-- A float is read back if it is finite; the other three have no text in JSON. -/
theorem value_float {f : FloatText} {x : PyFloat} (hx : f.faithful x = true) (n : ℕ) {rest : PyStr}
    (hrest : Stops rest) :
    value f (n + 1) (floatstr f x ++ rest) =
      if x.isFinite then some (.float x, rest) else none := by
  cases x with
  | finite negative mantissa exponent =>
      rw [FloatText.faithful_iff rfl] at hx
      have hvalue := numberValue_repr hx.1 hx.2
      rw [floatstr, value_number f n (isFloatLiteral_ne_nil hx.1) (isFloatLiteral_all hx.1) hrest,
        hvalue]
      · rfl
      · simp
      · simp
      · simp
  | nan =>
      have hnan : py "NaN" = [ch 'N', ch 'a', ch 'N'] := by decide
      rw [floatstr, hnan, List.cons_append, value_scalar f n (by decide) (by decide) (by decide)
        (by decide), literal_eq_none (by decide) (by decide) (by decide), Option.none_or]
      rfl
  | inf negative =>
      cases negative with
      | false =>
          have hinf : py "Infinity" =
              [ch 'I', ch 'n', ch 'f', ch 'i', ch 'n', ch 'i', ch 't', ch 'y'] := by decide
          rw [floatstr, hinf, List.cons_append, value_scalar f n (by decide) (by decide) (by decide)
            (by decide), literal_eq_none (by decide) (by decide) (by decide), Option.none_or]
          rfl
      | true =>
          have hinf : py "-Infinity" =
              [ch '-', ch 'I', ch 'n', ch 'f', ch 'i', ch 'n', ch 'i', ch 't', ch 'y'] := by decide
          rw [floatstr, hinf, List.cons_append, value_scalar f n (by decide) (by decide) (by decide)
            (by decide), literal_eq_none (by decide) (by decide) (by decide), Option.none_or]
          rfl

/-- A member is read back if its value is. -/
theorem readsBack_itemText {f : FloatText} {n : ℕ} {item : PyStr × Json}
    (h : ReadsBack (dumps f) (value f n) Json.finite item.2) :
    ReadsBack (itemText f) (member (value f n)) (fun item => item.2.finite) item := by
  intro rest hrest
  have hkey := string_quoted item.1 (ch ':' :: (dumps f item.2 ++ rest))
  have hcolon : expect ':' (ch ':' :: (dumps f item.2 ++ rest)) = some (dumps f item.2 ++ rest) :=
    expect_ch (by decide) _
  rw [itemText, List.append_assoc, quoted_append, List.cons_append, member,
    expect_ch (by decide), Option.bind_some, hkey, Option.bind_some, hcolon, Option.bind_some,
    h rest hrest]
  split_ifs <;> rfl

/-- **A value is read back from its text exactly when every float in it is finite.** -/
theorem value_dumps {f : FloatText} {v : Json} (hv : v.faithful f = true) {n : ℕ}
    (hn : (dumps f v).length ≤ n) : ReadsBack (dumps f) (value f n) Json.finite v := by
  obtain ⟨n, rfl⟩ : ∃ k, n = k + 1 := by
    obtain ⟨c, s, hs, -⟩ := opens_dumps hv
    rw [hs, List.length_cons] at hn
    exact ⟨n - 1, by omega⟩
  intro rest hrest
  -- induction on the value; the fuel left over is enough for a part because its text is shorter
  induction v using Json.induction generalizing n rest with
  | null =>
      have hnull : py "null" = [ch 'n', ch 'u', ch 'l', ch 'l'] := by decide
      rw [dumps, hnull, List.cons_append, value_scalar f n (by decide) (by decide) (by decide)
        (by decide)]
      simp [literal, hnull, Json.finite]
  | bool b =>
      have hnull : py "null" = [ch 'n', ch 'u', ch 'l', ch 'l'] := by decide
      have htrue : py "true" = [ch 't', ch 'r', ch 'u', ch 'e'] := by decide
      have hfalse : py "false" = [ch 'f', ch 'a', ch 'l', ch 's', ch 'e'] := by decide
      have hnt : (ch 'n' == ch 't') = false := by decide
      have hnf : (ch 'n' == ch 'f') = false := by decide
      have htf : (ch 't' == ch 'f') = false := by decide
      cases b with
      | true =>
          rw [dumps, htrue, List.cons_append, value_scalar f n (by decide) (by decide)
            (by decide) (by decide)]
          simp [literal, hnull, htrue, Json.finite, List.isPrefixOf_cons_cons, hnt]
      | false =>
          rw [dumps, hfalse, List.cons_append, value_scalar f n (by decide) (by decide)
            (by decide) (by decide)]
          simp [literal, hnull, htrue, hfalse, Json.finite, List.isPrefixOf_cons_cons, hnf, htf]
  | int i =>
      rw [dumps, value_number f n (intRepr_ne_nil i) (all_intRepr i) hrest, numberValue_intRepr]
      simp [Json.finite]
  | float x =>
      rw [Json.faithful, Json.all_float] at hv
      rw [dumps, value_float hv n hrest, Json.finite, Json.all_float]
  | str s =>
      have hstring := string_quoted s rest
      rw [dumps, quoted_append]
      simp only [value, List.dropWhile_cons, show isJsonSpace (ch '"') = false by decide,
        show isChar '"' (ch '"') = true by decide, Bool.false_eq_true, if_false, if_true, hstring,
        Option.map_some, Json.finite, Json.all_str]
  | list vs ih =>
      rw [Json.faithful, Json.all_list, List.all_eq_true] at hv
      rw [dumps_list] at hn ⊢
      have hreads : ∀ v ∈ vs, ReadsBack (dumps f) (value f n) Json.finite v := by
        intro v hmem rest' hrest'
        have hle := length_le_joined (dumps f) ']' hmem
        obtain ⟨c, s, hs, -⟩ := opens_dumps (hv v hmem)
        have hpos : 0 < (dumps f v).length := by rw [hs]; simp
        rw [List.length_cons] at hn
        obtain ⟨n, rfl⟩ : ∃ k, n = k + 1 := ⟨n - 1, by omega⟩
        exact ih v hmem (hv v hmem) n (by omega) rest' hrest'
      have hopen : ∀ v ∈ vs, ∀ rest, expect ']' (dumps f v ++ rest) = none := fun v hmem rest =>
        (expect_of_opens ((opens_dumps (hv v hmem)).append rest)).1
      have hsequence := sequence_joined (by decide) (by decide) (by decide) hreads hopen rest
      simp only [value, List.cons_append, List.dropWhile_cons,
        show isJsonSpace (ch '[') = false by decide, show isChar '"' (ch '[') = false by decide,
        show isChar '[' (ch '[') = true by decide, Bool.false_eq_true, if_false, if_true, hsequence]
      rw [Json.finite_list]
      cases vs.all Json.finite <;> rfl
  | dict items ih =>
      rw [Json.faithful, Json.all_dict, List.all_eq_true] at hv
      rw [dumps_dict] at hn ⊢
      have hfaithful : ∀ item ∈ items, item.2.faithful f = true := fun item hmem => by
        simpa [Json.faithful] using hv item hmem
      have hreads : ∀ item ∈ items, ReadsBack (itemText f) (member (value f n))
          (fun item => item.2.finite) item := by
        intro item hmem
        refine readsBack_itemText fun rest' hrest' => ?_
        have hle := length_le_joined (itemText f) '\x7d' hmem
        obtain ⟨c, s, hs, -⟩ := opens_dumps (hfaithful item hmem)
        have hpos : 0 < (dumps f item.2).length := by rw [hs]; simp
        have hitem : (dumps f item.2).length ≤ (itemText f item).length := by
          simp [itemText]
          omega
        rw [List.length_cons] at hn
        obtain ⟨n, rfl⟩ : ∃ k, n = k + 1 := ⟨n - 1, by omega⟩
        exact ih item hmem (hfaithful item hmem) n (by omega) rest' hrest'
      have hopen : ∀ item ∈ items, ∀ rest, expect '\x7d' (itemText f item ++ rest) = none := by
        intro item _ rest
        -- an item starts with the quotation mark of its key
        have hopens : Opens (itemText f item ++ rest) := by
          rw [itemText, List.append_assoc, quoted_append]
          exact opens_ch (by decide) (by decide) _
        exact (expect_of_opens hopens).2
      have hsequence := sequence_joined (by decide) (by decide) (by decide) hreads hopen rest
      simp only [value, List.cons_append, List.dropWhile_cons,
        show isJsonSpace (ch '\x7b') = false by decide,
        show isChar '"' (ch '\x7b') = false by decide,
        show isChar '[' (ch '\x7b') = false by decide,
        show isChar '\x7b' (ch '\x7b') = true by decide, Bool.false_eq_true, if_false, if_true,
        hsequence]
      rw [Json.finite_dict]
      cases List.all items fun item => item.2.finite <;> rfl

/-- **The strict reader gives back what the writer wrote**, exactly when it is JSON. -/
theorem strictLoads_dumps {f : FloatText} {v : Json} (hv : v.faithful f = true) :
    strictLoads f (dumps f v) = if v.finite then some v else none := by
  have hreads := value_dumps hv le_rfl [] (by simp [Stops])
  rw [List.append_nil] at hreads
  rw [strictLoads, hreads]
  cases v.finite <;> rfl

/-! ### Lone surrogates -/

theorem isSurrogate_hexDigit : ∀ n < 16, isSurrogate (hexDigit n) = false := by decide

/-- The escapes are ASCII, and what is not escaped is written as it is. -/
theorem any_isSurrogate_escapeChar (c : CodePoint) :
    (escapeChar c).any isSurrogate = isSurrogate c := by
  unfold escapeChar
  cases h : escapeDct.lookup c with
  | some e =>
      have hascii : escapeDct.all (fun p => !isSurrogate p.1 && !isSurrogate p.2) = true := by decide
      have hpair := List.all_eq_true.mp hascii _ (mem_of_lookup_escapeDct h)
      obtain ⟨hc, he⟩ : isSurrogate c = false ∧ isSurrogate e = false := by simpa using hpair
      have hslash : isSurrogate (ch '\\') = false := by decide
      simp [hc, he, hslash]
  | none =>
      by_cases hc : c.val < 0x20
      · have hpy : (py "\\u00").any isSurrogate = false := by decide
        have hhigh := isSurrogate_hexDigit (c.val / 16) (by omega)
        have hlow := isSurrogate_hexDigit (c.val % 16) (by omega)
        have hself : isSurrogate c = false := by
          simp only [isSurrogate, Bool.and_eq_false_iff, decide_eq_false_iff_not]
          omega
        simp only [hc, if_true, List.any_append, hpy, List.any_cons, hhigh, hlow, hself,
          List.any_nil, Bool.or_self]
      · simp [hc]

theorem any_isSurrogate_quoted (s : PyStr) : (quoted s).any isSurrogate = s.any isSurrogate := by
  have hquote : isSurrogate (ch '"') = false := by decide
  have hbody : (s.flatMap escapeChar).any isSurrogate = s.any isSurrogate := by
    induction s with
    | nil => rfl
    | cons c s ih =>
        rw [List.flatMap_cons, List.any_append, any_isSurrogate_escapeChar, ih, List.any_cons]
  rw [quoted, List.cons_append, List.any_cons, List.any_append, hbody, hquote]
  simp [hquote]

theorem any_isSurrogate_number {t : PyStr} (ht : t.all isNumberChar = true) :
    t.any isSurrogate = false := by
  rw [List.all_eq_true] at ht
  exact List.any_eq_false.2 fun c hc => by simp [(isNumberChar_cases (ht c hc)).2.1]

/-- **A text has a lone surrogate exactly when a string of the value has one.** -/
theorem any_isSurrogate_dumps {f : FloatText} {v : Json} (hv : v.faithful f = true) :
    (dumps f v).any isSurrogate = !v.encodable := by
  induction v using Json.induction with
  | null =>
      rw [dumps, Json.encodable, Json.all_null]
      decide
  | bool b =>
      rw [Json.encodable, Json.all_bool]
      cases b with
      | true => rw [dumps]; decide
      | false => rw [dumps]; decide
  | int i =>
      rw [dumps, any_isSurrogate_number (all_intRepr i), Json.encodable, Json.all_int]
      rfl
  | float x =>
      rw [dumps, Json.encodable, Json.all_float]
      cases x with
      | nan =>
          rw [floatstr]
          decide
      | inf negative => cases negative <;> (rw [floatstr]; decide)
      | finite negative mantissa exponent =>
          rw [Json.faithful, Json.all_float, FloatText.faithful_iff rfl] at hv
          exact any_isSurrogate_number (isFloatLiteral_all hv.1)
  | str s => rw [dumps, any_isSurrogate_quoted, Json.encodable, Json.all_str, Bool.not_not]
  | list vs ih =>
      rw [Json.faithful, Json.all_list, List.all_eq_true] at hv
      have hbracket : isSurrogate (ch '[') = false := by decide
      rw [dumps_list, List.any_cons, hbracket, Bool.false_or, any_joined (by decide) (by decide),
        Json.encodable, Json.all_list, List.not_all_eq_any_not]
      rw [Bool.eq_iff_iff, List.any_eq_true, List.any_eq_true]
      -- the brackets and commas are no surrogates, so one is in an element
      refine exists_congr fun v => and_congr_right fun hmem => ?_
      rw [ih v hmem (hv v hmem), Json.encodable]
  | dict items ih =>
      rw [Json.faithful, Json.all_dict, List.all_eq_true] at hv
      have hbrace : isSurrogate (ch '\x7b') = false := by decide
      have hcolon : isSurrogate (ch ':') = false := by decide
      rw [dumps_dict, List.any_cons, hbrace, Bool.false_or, any_joined (by decide) (by decide),
        Json.encodable, Json.all_dict, List.not_all_eq_any_not]
      rw [Bool.eq_iff_iff, List.any_eq_true, List.any_eq_true]
      refine exists_congr fun item => and_congr_right fun hmem => ?_
      have hvalue := ih item hmem (by simpa [Json.faithful] using hv item hmem)
      rw [itemText, List.any_append, List.any_cons, hcolon, any_isSurrogate_quoted, hvalue,
        Json.encodable]
      simp

end Python
