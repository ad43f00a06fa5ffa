/-
**Account identifiers: normalization and policy.**

The two Unicode functions of the platform are parameters, collected in `EncryptChat.Unicode`; what
the proofs need of them is `EncryptChat.Unicode.Lawful`.

* `EncryptChat.normalizeUsername`, `EncryptChat.validateUsername` — the policy;
* `EncryptChat.usernameFullmatch` — the pattern of a canonical name;
* `EncryptChat.validateUsername_eq_ok` — what an accepted name satisfies;
* `EncryptChat.normalizeUsername_of_fullmatch` — **a name typed canonically is its own canonical
  form**, white space around it aside.
-/

import EncryptChat.Schemas

set_option relaxedAutoImplicit false
set_option autoImplicit false

namespace EncryptChat

open Python

/-- `unicodedata.normalize("NFKC", s)` and `str.casefold`. -/
structure Unicode where
  nfkc : PyStr → PyStr
  casefold : PyStr → PyStr

/-- A character of the pattern of canonical names is an identifier character. -/
def isCanonical (s : PyStr) : Bool := s.all isIdentifierChar

/-- What is used of the Unicode functions. -/
structure Unicode.Lawful (uni : Unicode) : Prop where
  /-- `casefold` fixes lowercase ASCII. -/
  casefold_canonical : ∀ s, isCanonical s = true → uni.casefold s = s
  /-- NFKC fixes lowercase ASCII, and turns the white space around it into white space. -/
  nfkc_canonical : ∀ s, isCanonical (strip s) = true → strip (uni.nfkc s) = strip s

/-- `USERNAME_PATTERN.fullmatch(s)` for the pattern `^[a-z0-9][a-z0-9._-]{2,31}$`. -/
def usernameFullmatch : PyStr → Bool
  | [] => false
  | c :: cs =>
      isLowerAlnum c && decide (2 ≤ cs.length) && decide (cs.length ≤ 31) &&
        cs.all isIdentifierChar

/-- `MIN_USERNAME_LENGTH`. -/
def minUsernameLength : ℕ := 3

/-- `MAX_USERNAME_LENGTH`. -/
def maxUsernameLength : ℕ := 32

/-- `normalize_username(raw)`. -/
def normalizeUsername (uni : Unicode) (raw : PyStr) : PyStr :=
  uni.casefold (strip (uni.nfkc raw))

/-- `validate_username(raw)`; the error is the reason of the `InvalidUsernameError`. -/
def validateUsername (uni : Unicode) (raw : PyStr) : Except PyStr PyStr :=
  if raw = [] ∨ strip raw = [] then .error (py "username must not be empty")
  else
    let normalized := normalizeUsername uni raw
    if normalized.length < minUsernameLength then
      .error (py "username must be at least 3 characters")
    else if maxUsernameLength < normalized.length then
      .error (py "username must be at most 32 characters")
    else if usernameFullmatch normalized = false then
      .error (py "username may contain only lowercase letters, digits, dot, dash and " ++
        py "underscore, and must start with a letter or digit")
    else .ok normalized

/-- What an accepted name satisfies. -/
theorem validateUsername_eq_ok {uni : Unicode} {raw n : PyStr}
    (h : validateUsername uni raw = .ok n) :
    n = normalizeUsername uni raw ∧ usernameFullmatch n = true := by
  unfold validateUsername at h
  dsimp only at h
  split_ifs at h with hempty hshort hlong hmatch
  cases h
  exact ⟨rfl, by simpa using hmatch⟩

/-- A lowercase letter or a digit is an identifier character. -/
theorem isIdentifierChar_of_isLowerAlnum {c : CodePoint} (h : isLowerAlnum c = true) :
    isIdentifierChar c = true := by
  simp [isIdentifierChar, h]

theorem isCanonical_of_fullmatch {s : PyStr} (h : usernameFullmatch s = true) :
    isCanonical s = true := by
  cases s with
  | nil => cases h
  | cons c cs =>
      simp only [usernameFullmatch, Bool.and_eq_true] at h
      simp only [isCanonical, List.all_cons, Bool.and_eq_true]
      exact ⟨isIdentifierChar_of_isLowerAlnum h.1.1.1, h.2⟩

/-- **A name typed canonically is its own canonical form**, white space around it aside. -/
theorem normalizeUsername_of_fullmatch {uni : Unicode} (huni : uni.Lawful) {raw : PyStr}
    (h : usernameFullmatch (strip raw) = true) : normalizeUsername uni raw = strip raw := by
  have hcanonical := isCanonical_of_fullmatch h
  rw [normalizeUsername, huni.nfkc_canonical raw hcanonical,
    huni.casefold_canonical _ hcanonical]

/-- A canonical name is an identifier of the wire. -/
theorem transportIdentifier_of_fullmatch {s : PyStr} (h : usernameFullmatch s = true) :
    transportIdentifier s = true := by
  cases s with
  | nil => cases h
  | cons c cs =>
      simp only [usernameFullmatch, Bool.and_eq_true, decide_eq_true_eq] at h
      obtain ⟨⟨⟨hc, -⟩, hlen⟩, hcs⟩ := h
      have hfull : identifierFullmatch (c :: cs) = true := by
        simp only [identifierFullmatch, Bool.and_eq_true, decide_eq_true_eq]
        exact ⟨⟨hc, by omega⟩, hcs⟩
      have hmatch : identifierMatch (c :: cs) = true := by simp [identifierMatch, hfull]
      have hmax : cs.length + 1 ≤ maxIdentifierLength := by
        unfold maxIdentifierLength
        omega
      simp only [transportIdentifier, Bool.and_eq_true, decide_eq_true_eq, List.length_cons]
      exact ⟨⟨by omega, hmax⟩, hmatch⟩

end EncryptChat
