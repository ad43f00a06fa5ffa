/-
**Two readers of a UUID.**

The constructor of the standard library removes the parts that decorate a UUID wherever they
stand and reads what is left as a hexadecimal literal.  The parser of the schema library accepts
four ways of writing thirty-two digits and no other.  Whatever the parser accepts, the constructor
reads as the same UUID; the converse fails in many ways.

Main definitions:

* `Python.uuidRest`, `Python.uuidOfHex` — `uuid.UUID(hex)`;
* `Python.parseUuid`, `Python.uuidOfJson` — the parser of a field declared `UUID`;
* `Python.writings`, `Python.WellFormedUuid` — the four ways of writing a UUID.

Main results:

* `Python.uuidOfHex_isSome_iff` — what the constructor reads: decorated literals;
* `Python.parseUuid_eq_some_iff` — what the parser reads: the four ways;
* `Python.uuidOfHex_of_parseUuid` — **the constructor agrees with the parser** where that accepts.
-/

import EncryptChat.HexLiteral
import EncryptChat.PyStrip

set_option relaxedAutoImplicit false
set_option autoImplicit false

namespace Python

/-! ### The constructor -/

/-- `s.replace(pat, "")` for a text `pat` that is not empty, from left to right: so many characters
of an occurrence are still to be passed over. -/
def removeAll (pat : PyStr) : ℕ → PyStr → PyStr
  | _, [] => []
  | skip + 1, _ :: s => removeAll pat skip s
  | 0, c :: s =>
      if pat.isPrefixOf (c :: s) then removeAll pat (pat.length - 1) s
      else c :: removeAll pat 0 s

/-- The two braces. -/
def leftBrace : CodePoint := Fin.ofNat 0x110000 0x7B

def rightBrace : CodePoint := Fin.ofNat 0x110000 0x7D

/-- A brace, of either side. -/
def isBrace (c : CodePoint) : Bool := c == leftBrace || c == rightBrace

/-- `s.strip` of the two braces. -/
def stripBraces (s : PyStr) : PyStr := (s.dropWhile isBrace).rdropWhile isBrace

/-- What the constructor leaves of its argument. -/
def uuidRest (hex : PyStr) : PyStr :=
  (stripBraces (removeAll (py "uuid:") 0 (removeAll (py "urn:") 0 hex))).filter
    fun c => !isChar '-' c

/-- `uuid.UUID(hex)`; `none` is a `ValueError`. -/
def uuidOfHex (decimal : CodePoint → Option (Fin 10)) (hex : PyStr) : Option Uuid :=
  if (uuidRest hex).length = 32 then
    (int16 decimal (uuidRest hex)).bind fun n =>
      if n < 2 ^ 128 then some (BitVec.ofNat 128 n) else none
  else none

/-! ### The parser -/

/-- The lengths of the groups of digits. -/
def uuidGroups : List ℕ := [8, 4, 4, 4, 12]

/-- The digits of a text in groups, with a hyphen between two groups. -/
def readGroups : List ℕ → PyStr → Option PyStr
  | [], s => if s = [] then some [] else none
  | [n], s => if s.length = n then some s else none
  | n :: n' :: ns, s =>
    match s.drop n with
    | [] => none
    | c :: t =>
        if isChar '-' c then (readGroups (n' :: ns) t).map fun h => s.take n ++ h else none

/-- The digits of a UUID, by the length of its text. -/
def uuidDigitsOf (s : PyStr) : Option PyStr :=
  if s.length = 32 then some s
  else if s.length = 36 then readGroups uuidGroups s
  else if s.length = 38 ∧ s.head? = some leftBrace ∧ s.getLast? = some rightBrace then
    readGroups uuidGroups s.tail.dropLast
  else if s.length = 45 ∧ (py "urn:uuid:").isPrefixOf s = true then
    readGroups uuidGroups (s.drop 9)
  else none

/-- `Uuid::parse_str(s)`. -/
def parseUuid (s : PyStr) : Option Uuid :=
  ((uuidDigitsOf s).bind (hexNumber 0)).map (BitVec.ofNat 128)

/-- The schema library's validation of a field declared `UUID`. -/
def uuidOfJson : Json → Option Uuid
  | .str s => parseUuid s
  | _ => none

/-! ### Ways of writing -/

/-- Digits in groups. -/
def joinGroups : List ℕ → PyStr → PyStr
  | [], _ => []
  | [_], h => h
  | n :: n' :: ns, h => h.take n ++ ch '-' :: joinGroups (n' :: ns) (h.drop n)

/-- Digits with the four hyphens of a UUID. -/
def hyphenated (h : PyStr) : PyStr := joinGroups uuidGroups h

/-- The four ways of writing digits: plain, with hyphens, in braces, as a URN. -/
def writings (h : PyStr) : List PyStr :=
  [h, hyphenated h, leftBrace :: (hyphenated h ++ [rightBrace]),
    py "urn:uuid:" ++ hyphenated h]

/-- The text is a UUID, written in one of the four ways. -/
def WellFormedUuid (s : PyStr) : Prop :=
  ∃ h, h.length = 32 ∧ (∀ c ∈ h, isHex c = true) ∧ s ∈ writings h

/-! ### What the constructor reads -/

variable {decimal : CodePoint → Option (Fin 10)} {s t h : PyStr} {u : Uuid} {c : CodePoint}
  {ns : List ℕ}

/-- **What the constructor reads**: thirty-two characters are left, and they are a literal. -/
theorem uuidOfHex_isSome_iff : (uuidOfHex decimal s).isSome = true ↔
    (uuidRest s).length = 32 ∧ ∃ t, toAscii decimal (uuidRest s) = some t ∧ t ∈ hexLiteral := by
  unfold uuidOfHex
  split_ifs with hlength
  · have hpow : (16 : ℕ) ^ 32 = 2 ^ 128 := by norm_num
    constructor
    · intro hsome
      obtain ⟨u, hu⟩ := Option.isSome_iff_exists.1 hsome
      obtain ⟨n, hn, -⟩ := Option.bind_eq_some_iff.1 hu
      obtain ⟨t, ht, hread⟩ := Option.bind_eq_some_iff.1 hn
      exact ⟨hlength, t, ht, intHex_isSome_iff.1 (by rw [hread, Option.isSome_some])⟩
    · rintro ⟨-, t, ht, hliteral⟩
      obtain ⟨n, hn⟩ := Option.isSome_iff_exists.1 (intHex_isSome_iff.2 hliteral)
      have hint : int16 decimal (uuidRest s) = some n := by rw [int16, ht, Option.bind_some, hn]
      -- thirty-two digits are never too large
      have hlt := int16_lt hint
      rw [hlength, hpow] at hlt
      rw [hint, Option.bind_some, if_pos hlt, Option.isSome_some]
  · simp [hlength]

/-! ### What the parser reads -/

theorem joinGroups_cons (n n' : ℕ) (ns : List ℕ) (h : PyStr) :
    joinGroups (n :: n' :: ns) h = h.take n ++ ch '-' :: joinGroups (n' :: ns) (h.drop n) := rfl

theorem readGroups_cons {n n' : ℕ} {ns : List ℕ} (hs : s.drop n = c :: t) :
    readGroups (n :: n' :: ns) s =
      if isChar '-' c then (readGroups (n' :: ns) t).map fun h => s.take n ++ h else none := by
  rw [readGroups, hs]

/-- **The groups are read back.** -/
theorem readGroups_eq_some_iff :
    readGroups ns s = some h ↔ h.length = ns.sum ∧ s = joinGroups ns h := by
  induction ns generalizing s h with
  | nil =>
      simp only [readGroups, joinGroups, List.sum_nil, List.length_eq_zero_iff]
      split_ifs with hs
      · simp [hs, eq_comm]
      · simp [hs]
  | cons n ns ih =>
      cases ns with
      | nil =>
          simp only [readGroups, joinGroups, List.sum_singleton]
          split_ifs with hs
          · rw [Option.some.injEq]
            constructor
            · rintro rfl
              exact ⟨hs, rfl⟩
            · rintro ⟨-, rfl⟩
              rfl
          · refine iff_of_false (by simp) ?_
            rintro ⟨hlength, rfl⟩
            exact hs hlength
      | cons n' ns =>
          rw [List.sum_cons, joinGroups_cons]
          constructor
          · intro hread
            cases hs : s.drop n with
            | nil => simp [readGroups, hs] at hread
            | cons c t =>
                rw [readGroups_cons hs] at hread
                split_ifs at hread with hc
                obtain ⟨g, hg, rfl⟩ := Option.map_eq_some_iff.1 hread
                obtain ⟨hlength, rfl⟩ := ih.1 hg
                -- a hyphen is behind the group, so the group is whole
                have hn : (s.take n).length = n := by
                  have hdrop := congrArg List.length hs
                  rw [List.length_drop, List.length_cons] at hdrop
                  rw [List.length_take]
                  omega
                refine ⟨by rw [List.length_append, hn, hlength], ?_⟩
                rw [List.take_left' hn, List.drop_left' hn, ← isChar_iff.1 hc, ← hs,
                  List.take_append_drop]
          · rintro ⟨hlength, rfl⟩
            have hn : (h.take n).length = n := by
              rw [List.length_take]
              omega
            have hdash : isChar '-' (ch '-') = true := by decide
            have hrest : readGroups (n' :: ns) (joinGroups (n' :: ns) (h.drop n)) =
                some (h.drop n) := by
              refine ih.2 ⟨?_, rfl⟩
              rw [List.length_drop]
              omega
            rw [readGroups_cons (List.drop_left' hn), if_pos hdash, hrest, Option.map_some,
              List.take_left' hn, List.take_append_drop]

theorem length_joinGroups (n : ℕ) (ns : List ℕ) (hlength : h.length = (n :: ns).sum) :
    (joinGroups (n :: ns) h).length = h.length + ns.length := by
  induction ns generalizing n h with
  | nil => rfl
  | cons n' ns ih =>
      have hdrop : (h.drop n).length = (n' :: ns).sum := by
        rw [List.length_drop, hlength, List.sum_cons]
        omega
      rw [joinGroups_cons, List.length_append, List.length_cons, ih n' hdrop, List.length_drop,
        List.length_take, List.length_cons]
      rw [List.sum_cons] at hlength
      omega

theorem length_hyphenated (hlength : h.length = 32) : (hyphenated h).length = 36 := by
  unfold hyphenated uuidGroups
  rw [length_joinGroups _ _ hlength, hlength]
  rfl

theorem readGroups_hyphenated (hlength : h.length = 32) :
    readGroups uuidGroups (hyphenated h) = some h :=
  readGroups_eq_some_iff.2 ⟨hlength, rfl⟩

/-- A text between its first and its last character. -/
theorem eq_between {a b : CodePoint} {n : ℕ} (hlength : s.length = n + 2) (ha : s.head? = some a)
    (hb : s.getLast? = some b) : s = a :: (s.tail.dropLast ++ [b]) := by
  cases s with
  | nil => cases ha
  | cons c s =>
      obtain rfl : c = a := Option.some.inj ha
      have hne : s ≠ [] := by
        rintro rfl
        simp at hlength
      rw [List.getLast?_cons_of_ne_nil hne] at hb
      rw [List.tail_cons, List.dropLast_append_getLast? b hb]

/-- The digits of each of the four ways. -/
theorem uuidDigitsOf_of_mem_writings (hlength : h.length = 32) (hs : s ∈ writings h) :
    uuidDigitsOf s = some h := by
  have h36 := length_hyphenated hlength
  simp only [writings, List.mem_cons, List.not_mem_nil, or_false] at hs
  rcases hs with rfl | rfl | rfl | rfl
  · rw [uuidDigitsOf, if_pos hlength]
  · rw [uuidDigitsOf, if_neg (by omega), if_pos h36, readGroups_hyphenated hlength]
  · have h38 : (leftBrace :: (hyphenated h ++ [rightBrace])).length = 38 := by
      rw [List.length_cons, List.length_append, h36, List.length_singleton]
    have hlast : (leftBrace :: (hyphenated h ++ [rightBrace])).getLast? = some rightBrace := by
      rw [← List.cons_append, List.getLast?_concat]
    have hinner : (leftBrace :: (hyphenated h ++ [rightBrace])).tail.dropLast = hyphenated h := by
      rw [List.tail_cons, List.dropLast_concat]
    rw [uuidDigitsOf, if_neg (by omega), if_neg (by omega), if_pos ⟨h38, rfl, hlast⟩, hinner,
      readGroups_hyphenated hlength]
  · have h45 : (py "urn:uuid:" ++ hyphenated h).length = 45 := by
      rw [List.length_append, h36]
      rfl
    have hprefix : (py "urn:uuid:").isPrefixOf (py "urn:uuid:" ++ hyphenated h) = true :=
      List.isPrefixOf_iff_prefix.2 (List.prefix_append _ _)
    have hrest : (py "urn:uuid:" ++ hyphenated h).drop 9 = hyphenated h := rfl
    rw [uuidDigitsOf, if_neg (by omega), if_neg (by omega), if_neg (fun h => by omega),
      if_pos ⟨h45, hprefix⟩, hrest, readGroups_hyphenated hlength]

/-- **The digits are those of one of the four ways.** -/
theorem uuidDigitsOf_eq_some_iff :
    uuidDigitsOf s = some h ↔ h.length = 32 ∧ s ∈ writings h := by
  refine ⟨fun hdigits => ?_, fun ⟨hlength, hs⟩ => uuidDigitsOf_of_mem_writings hlength hs⟩
  simp only [writings, List.mem_cons, List.not_mem_nil, or_false]
  unfold uuidDigitsOf at hdigits
  split_ifs at hdigits with h₁ h₂ h₃ h₄
  · obtain rfl := Option.some.inj hdigits
    exact ⟨h₁, .inl rfl⟩
  · obtain ⟨hlength, hs⟩ := readGroups_eq_some_iff.1 hdigits
    exact ⟨hlength, .inr (.inl hs)⟩
  · obtain ⟨hlength, hs⟩ := readGroups_eq_some_iff.1 hdigits
    obtain ⟨hsize, hfirst, hlast⟩ := h₃
    have hinner : s.tail.dropLast = hyphenated h := hs
    refine ⟨hlength, .inr (.inr (.inl ?_))⟩
    rw [← hinner]
    exact eq_between hsize hfirst hlast
  · obtain ⟨hlength, hs⟩ := readGroups_eq_some_iff.1 hdigits
    obtain ⟨t, rfl⟩ := List.isPrefixOf_iff_prefix.1 h₄.2
    exact ⟨hlength, .inr (.inr (.inr (congrArg (py "urn:uuid:" ++ ·) hs)))⟩

theorem exists_hexNumber_iff {n : ℕ} : (∃ k, hexNumber n s = some k) ↔ ∀ c ∈ s, isHex c = true := by
  induction s generalizing n with
  | nil => simp [hexNumber]
  | cons c s ih =>
      rw [List.forall_mem_cons]
      constructor
      · rintro ⟨k, hk⟩
        obtain ⟨d, hd, hs⟩ := Option.bind_eq_some_iff.1 hk
        exact ⟨by simp [isHex, hd], ih.1 ⟨k, hs⟩⟩
      · rintro ⟨hc, hs⟩
        obtain ⟨d, hd⟩ := exists_hexValue hc
        obtain ⟨k, hk⟩ := ih.2 hs
        exact ⟨k, Option.bind_eq_some_iff.2 ⟨d, hd, hk⟩⟩

/-- **What the parser reads**: the number of the digits, written in one of the four ways. -/
theorem parseUuid_eq_some_iff : parseUuid s = some u ↔
    ∃ h n, h.length = 32 ∧ s ∈ writings h ∧ hexNumber 0 h = some n ∧ BitVec.ofNat 128 n = u := by
  rw [parseUuid, Option.map_eq_some_iff]
  constructor
  · rintro ⟨n, hn, hu⟩
    obtain ⟨h, hdigits, hnumber⟩ := Option.bind_eq_some_iff.1 hn
    obtain ⟨hlength, hs⟩ := uuidDigitsOf_eq_some_iff.1 hdigits
    exact ⟨h, n, hlength, hs, hnumber, hu⟩
  · rintro ⟨h, n, hlength, hs, hnumber, hu⟩
    have hdigits := uuidDigitsOf_eq_some_iff.2 ⟨hlength, hs⟩
    exact ⟨n, Option.bind_eq_some_iff.2 ⟨h, hdigits, hnumber⟩, hu⟩

theorem parseUuid_isSome_iff : (parseUuid s).isSome = true ↔ WellFormedUuid s := by
  constructor
  · intro hsome
    obtain ⟨u, hu⟩ := Option.isSome_iff_exists.1 hsome
    obtain ⟨h, n, hlength, hs, hnumber, -⟩ := parseUuid_eq_some_iff.1 hu
    exact ⟨h, hlength, exists_hexNumber_iff.1 ⟨n, hnumber⟩, hs⟩
  · rintro ⟨h, hlength, hhex, hs⟩
    obtain ⟨n, hnumber⟩ := exists_hexNumber_iff.2 hhex
    have hu := parseUuid_eq_some_iff.2 ⟨h, n, hlength, hs, hnumber, rfl⟩
    rw [hu, Option.isSome_some]

/-! ### The constructor agrees -/

/-- Nothing is removed where the pattern does not even begin. -/
theorem removeAll_of_not_mem {pat : PyStr} (hc : c ∉ s) : removeAll (c :: pat) 0 s = s := by
  induction s with
  | nil => rfl
  | cons d s ih =>
      rw [List.mem_cons, not_or] at hc
      obtain ⟨hd, hs⟩ := hc
      have hprefix : ¬ (c :: pat).isPrefixOf (d :: s) = true := by
        simp [List.isPrefixOf_cons_cons, hd]
      rw [removeAll, if_neg hprefix, ih hs]

theorem removeAll_skip (pat : PyStr) (w s : PyStr) :
    removeAll pat w.length (w ++ s) = removeAll pat 0 s := by
  induction w with
  | nil => rfl
  | cons c w ih => rw [List.length_cons, List.cons_append, removeAll, ih]

/-- An occurrence at the front is removed. -/
theorem removeAll_append (c : CodePoint) (pat s : PyStr) :
    removeAll (c :: pat) 0 (c :: pat ++ s) = removeAll (c :: pat) 0 s := by
  have hprefix : (c :: pat).isPrefixOf (c :: pat ++ s) = true :=
    List.isPrefixOf_iff_prefix.2 (List.prefix_append _ _)
  rw [List.cons_append] at hprefix ⊢
  rw [removeAll, if_pos hprefix, List.length_cons, Nat.add_sub_cancel, removeAll_skip]

theorem mem_joinGroups (hc : c ∈ joinGroups ns h) : c ∈ h ∨ c = ch '-' := by
  induction ns generalizing h with
  | nil => cases hc
  | cons n ns ih =>
      cases ns with
      | nil => exact .inl hc
      | cons n' ns =>
          rw [joinGroups_cons, List.mem_append, List.mem_cons] at hc
          rcases hc with hc | hc | hc
          · exact .inl (List.mem_of_mem_take hc)
          · exact .inr hc
          · exact (ih hc).imp_left List.mem_of_mem_drop

/-- Without its hyphens the text is the digits again. -/
theorem filter_joinGroups (n : ℕ) (ns : List ℕ) (hh : ∀ c ∈ h, isChar '-' c = false) :
    (joinGroups (n :: ns) h).filter (fun c => !isChar '-' c) = h := by
  induction ns generalizing n h with
  | nil => exact List.filter_eq_self.2 fun c hc => by rw [hh c hc, Bool.not_false]
  | cons n' ns ih =>
      have hdash : (!isChar '-' (ch '-')) = false := by decide
      have htake : (h.take n).filter (fun c => !isChar '-' c) = h.take n :=
        List.filter_eq_self.2 fun c hc => by rw [hh c (List.mem_of_mem_take hc), Bool.not_false]
      rw [joinGroups_cons, List.filter_append, htake,
        List.filter_cons_of_neg (by rw [hdash]; exact Bool.false_ne_true),
        ih n' fun c hc => hh c (List.mem_of_mem_drop hc), List.take_append_drop]

/-- Braces around a text that has none are stripped. -/
theorem stripBraces_append {a b : PyStr} (ha : ∀ c ∈ a, isBrace c = true) (hne : s ≠ [])
    (hs : ∀ c ∈ s, isBrace c = false) (hb : ∀ c ∈ b, isBrace c = true) :
    stripBraces (a ++ (s ++ b)) = s := by
  have hfront : (s ++ b).dropWhile isBrace = s ++ b := by
    obtain ⟨c, t, rfl⟩ := List.exists_cons_of_ne_nil hne
    have hc := hs c List.mem_cons_self
    rw [List.cons_append, List.dropWhile_cons_of_neg (by simp [hc])]
  have hback : s.rdropWhile isBrace = s := by
    refine List.rdropWhile_eq_self_iff.2 fun hl => ?_
    rw [hs _ (List.getLast_mem hl)]
    exact Bool.false_ne_true
  rw [stripBraces, List.dropWhile_append_of_pos ha, hfront, rdropWhile_append_of_pos hb, hback]

/-- A text without the first letter of the prefixes and without braces. -/
structure Undecorated (s : PyStr) : Prop where
  ne_nil : s ≠ []
  letter : ch 'u' ∉ s
  brace : ∀ c ∈ s, isBrace c = false

theorem uuidRest_of_undecorated (hs : Undecorated s) :
    uuidRest s = s.filter fun c => !isChar '-' c := by
  have hurn : removeAll (py "urn:") 0 s = s := removeAll_of_not_mem hs.letter
  have huuid : removeAll (py "uuid:") 0 s = s := removeAll_of_not_mem hs.letter
  have hnone : ∀ c ∈ ([] : PyStr), isBrace c = true := fun _ hc => absurd hc List.not_mem_nil
  have hstrip := stripBraces_append hnone hs.ne_nil hs.brace hnone
  rw [List.nil_append, List.append_nil] at hstrip
  rw [uuidRest, hurn, huuid, hstrip]

theorem uuidRest_braces (hs : Undecorated s) :
    uuidRest (leftBrace :: (s ++ [rightBrace])) = s.filter fun c => !isChar '-' c := by
  have hnot : ch 'u' ∉ leftBrace :: (s ++ [rightBrace]) := by
    simp only [List.mem_cons, List.mem_append, List.not_mem_nil, or_false, not_or]
    exact ⟨by decide, hs.letter, by decide⟩
  have hurn : removeAll (py "urn:") 0 (leftBrace :: (s ++ [rightBrace])) =
      leftBrace :: (s ++ [rightBrace]) := removeAll_of_not_mem hnot
  have huuid : removeAll (py "uuid:") 0 (leftBrace :: (s ++ [rightBrace])) =
      leftBrace :: (s ++ [rightBrace]) := removeAll_of_not_mem hnot
  have hleft : ∀ c ∈ [leftBrace], isBrace c = true := List.forall_mem_singleton.2 (by decide)
  have hright : ∀ c ∈ [rightBrace], isBrace c = true := List.forall_mem_singleton.2 (by decide)
  have hstrip : stripBraces (leftBrace :: (s ++ [rightBrace])) = s :=
    stripBraces_append hleft hs.ne_nil hs.brace hright
  rw [uuidRest, hurn, huuid, hstrip]

theorem uuidRest_urn (hs : Undecorated s) :
    uuidRest (py "urn:uuid:" ++ s) = s.filter fun c => !isChar '-' c := by
  have hurn : removeAll (py "urn:") 0 (py "urn:uuid:" ++ s) =
      removeAll (py "urn:") 0 (py "uuid:" ++ s) := removeAll_append _ _ _
  -- the prefix `uuid:` has nothing to remove: it only shares the first letter
  have hkeep : removeAll (py "urn:") 0 (py "uuid:" ++ s) =
      py "uuid:" ++ removeAll (py "urn:") 0 s := rfl
  have hs' : removeAll (py "urn:") 0 s = s := removeAll_of_not_mem hs.letter
  have huuid : removeAll (py "uuid:") 0 (py "uuid:" ++ s) = removeAll (py "uuid:") 0 s :=
    removeAll_append _ _ _
  have hrest := uuidRest_of_undecorated hs
  rw [uuidRest, hs'] at hrest
  rw [uuidRest, hurn, hkeep, hs', huuid, hrest]

theorem undecorated_of_hex (hne : s ≠ []) (hs : ∀ c ∈ s, isHex c = true ∨ c = ch '-') :
    Undecorated s := by
  refine ⟨hne, fun hu => ?_, fun c hc => ?_⟩
  · exact absurd (hs _ hu) (by decide)
  · refine Bool.eq_false_iff.2 fun hbrace => ?_
    have hc' := hs c hc
    rcases Bool.or_eq_true_iff.1 hbrace with heq | heq <;> rw [beq_iff_eq.1 heq] at hc' <;>
      exact absurd hc' (by decide)

/-- **What the constructor leaves of a well-formed UUID is its digits.** -/
theorem uuidRest_of_mem_writings (hlength : h.length = 32) (hh : ∀ c ∈ h, isHex c = true)
    (hs : s ∈ writings h) : uuidRest s = h := by
  have hdash : ∀ c ∈ h, isChar '-' c = false := by
    intro c hc
    refine Bool.eq_false_iff.2 fun heq => ?_
    have hhex := hh c hc
    rw [isChar_iff.1 heq] at hhex
    exact absurd hhex (by decide)
  have hfilter : h.filter (fun c => !isChar '-' c) = h :=
    List.filter_eq_self.2 fun c hc => by rw [hdash c hc, Bool.not_false]
  have hgroups : (hyphenated h).filter (fun c => !isChar '-' c) = h :=
    filter_joinGroups 8 [4, 4, 4, 12] hdash
  have hplain : Undecorated h :=
    undecorated_of_hex (List.ne_nil_of_length_pos (by omega)) fun c hc => .inl (hh c hc)
  have hhyphens : Undecorated (hyphenated h) := by
    refine undecorated_of_hex ?_ fun c hc => (mem_joinGroups hc).imp_left (hh c)
    exact List.ne_nil_of_length_pos (by rw [length_hyphenated hlength]; decide)
  simp only [writings, List.mem_cons, List.not_mem_nil, or_false] at hs
  rcases hs with rfl | rfl | rfl | rfl
  · rw [uuidRest_of_undecorated hplain, hfilter]
  · rw [uuidRest_of_undecorated hhyphens, hgroups]
  · rw [uuidRest_braces hhyphens, hgroups]
  · rw [uuidRest_urn hhyphens, hgroups]

/-- **The constructor agrees with the parser** where that accepts. -/
theorem uuidOfHex_of_parseUuid (hu : parseUuid s = some u) : uuidOfHex decimal s = some u := by
  obtain ⟨h, n, hlength, hs, hnumber, rfl⟩ := parseUuid_eq_some_iff.1 hu
  have hhex : ∀ c ∈ h, isHex c = true := exists_hexNumber_iff.1 ⟨n, hnumber⟩
  have hrest := uuidRest_of_mem_writings hlength hhex hs
  have hascii : toAscii decimal h = some h :=
    toAscii_of_ascii fun c hc => by
      have hlt := (isHex_spec (hhex c hc)).1
      omega
  have hne : h ≠ [] := List.ne_nil_of_length_pos (by omega)
  have hint : int16 decimal h = some n := by
    rw [int16, hascii, Option.bind_some, intHex_of_hexNumber hne hnumber]
  have hlt := int16_lt hint
  rw [hlength] at hlt
  have hlt' : n < 2 ^ 128 := hlt.trans_eq (by norm_num)
  rw [uuidOfHex, hrest, if_pos hlength, hint, Option.bind_some, if_pos hlt']

end Python
