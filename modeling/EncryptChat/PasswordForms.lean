/-
**The two forms of a password.**

The policy measures a password as it was typed, the hasher gets its NFKC form, and the two need not
be of one length: a full-width letter is three bytes and becomes one, and there are characters that
become many.  What the policy promises of the hashed string is therefore true of the passwords whose
length NFKC keeps.

Main definitions:

* `EncryptChat.PassesToArgon2` — the string `hash` passes to the library;
* `EncryptChat.HashedWithinPolicy` — an accepted password is hashed as a string within the bounds;
* `EncryptChat.KeepsLength` — NFKC does not change the length.

Main results:

* `EncryptChat.passesToArgon2_iff` — it is the NFKC form, where that can be encoded;
* `EncryptChat.hashed_within_policy_iff` — **which passwords are hashed within the bounds**.
-/

import EncryptChat.SessionAuthority

set_option relaxedAutoImplicit false
set_option autoImplicit false

namespace EncryptChat

open Python

/-! ### What is hashed -/

/-- `hash(password)` passes this string to Argon2: whatever the library is, its hash of the string
is what is returned. -/
def PassesToArgon2 (uni : Unicode) (config : AuthConfig) (password text : PyStr) : Prop :=
  ∀ (argon2 : Argon2) (salt : ℕ),
    hashPassword uni argon2 config salt password = .ok (argon2.hash config.argon2 salt text)

/-- A password whose NFKC form can be encoded is hashed. -/
theorem hashPassword_of_encodable {uni : Unicode} {password : PyStr}
    (h : (uni.nfkc password).any isSurrogate = false) (argon2 : Argon2) (config : AuthConfig)
    (salt : ℕ) :
    hashPassword uni argon2 config salt password =
      .ok (argon2.hash config.argon2 salt (uni.nfkc password)) := by
  simp [hashPassword, encodable, h, Except.map]

/-- **The string that is hashed is the NFKC form.** -/
theorem passesToArgon2_iff {uni : Unicode} {config : AuthConfig} {password text : PyStr} :
    PassesToArgon2 uni config password text ↔
      text = uni.nfkc password ∧ (uni.nfkc password).any isSurrogate = false := by
  constructor
  · intro h
    cases hany : (uni.nfkc password).any isSurrogate with
    | true =>
        have hraises := h ⟨fun _ _ text => text, fun _ _ => false, fun _ _ => false⟩ 0
        simp [hashPassword, encodable, hany, Except.map] at hraises
    | false =>
        -- a library that returns what it gets
        have hspy := h ⟨fun _ _ text => text, fun _ _ => false, fun _ _ => false⟩ 0
        rw [hashPassword_of_encodable hany, Except.ok.injEq] at hspy
        exact ⟨hspy.symm, rfl⟩
  · rintro ⟨rfl, hany⟩ argon2 salt
    exact hashPassword_of_encodable hany argon2 config salt

/-! ### What the policy accepts -/

/-- The length of a string that can be encoded. -/
theorem utf8Length_eq_ok_iff {s : PyStr} {n : ℕ} :
    utf8Length s = .ok n ↔ s.any isSurrogate = false ∧ (s.map utf8Width).sum = n := by
  unfold utf8Length
  split_ifs with h
  · simp [h]
  · simp [h]

/-- **What the policy accepts**: a password that is not empty and whose length, as it was typed, is
within the bounds. -/
theorem validatePolicy_eq_ok_iff {config : AuthConfig} {password : PyStr} :
    validatePolicy config password = .ok () ↔
      password ≠ [] ∧ ∃ n, utf8Length password = .ok n ∧ config.minPasswordLength ≤ n ∧
        n ≤ config.maxPasswordLength := by
  unfold validatePolicy
  split_ifs with hempty
  · simp [hempty]
  · cases hlength : utf8Length password with
    | error e => simp
    | ok n =>
        dsimp only
        split_ifs with hshort hlong
        · simp only [Except.ok.injEq, exists_eq_left', false_iff, not_and, not_le]
          omega
        · simp only [Except.ok.injEq, exists_eq_left', false_iff, not_and, not_le]
          omega
        · simp only [Except.ok.injEq, exists_eq_left', true_iff]
          exact ⟨hempty, by omega, by omega⟩

/-- **The password policy bounds what is really hashed**: where the policy accepts the password, the
string passed to Argon2 has a UTF-8 length within the bounds. -/
def HashedWithinPolicy (uni : Unicode) (config : AuthConfig) (password : PyStr) : Prop :=
  validatePolicy config password = .ok () →
    ∃ text n, PassesToArgon2 uni config password text ∧ utf8Length text = .ok n ∧
      config.minPasswordLength ≤ n ∧ n ≤ config.maxPasswordLength

/-! ### What normalization does to the length -/

/-- NFKC keeps the UTF-8 length of the password; an empty one and one that cannot be encoded are
never accepted. -/
def KeepsLength (uni : Unicode) (password : PyStr) : Prop :=
  password = [] ∨ password.any isSurrogate = true ∨
    utf8Length (uni.nfkc password) = utf8Length password

/-- A password whose length NFKC keeps is hashed within the bounds it is accepted by. -/
theorem KeepsLength.hashedWithinPolicy {uni : Unicode} {password : PyStr}
    (h : KeepsLength uni password) (config : AuthConfig) :
    HashedWithinPolicy uni config password := by
  intro haccepted
  obtain ⟨hne, n, hn, hmin, hmax⟩ := validatePolicy_eq_ok_iff.1 haccepted
  have hsame : utf8Length (uni.nfkc password) = utf8Length password := by
    rcases h with hempty | hsurrogate | hsame
    · exact absurd hempty hne
    · rw [(utf8Length_eq_ok_iff.1 hn).1] at hsurrogate
      cases hsurrogate
    · exact hsame
  rw [hn] at hsame
  exact ⟨_, n, passesToArgon2_iff.2 ⟨rfl, (utf8Length_eq_ok_iff.1 hsame).1⟩, hsame, hmin, hmax⟩

/-- A configuration whose bounds are one length. -/
def exactly (n : ℕ) : AuthConfig where
  signingSecret := []
  minPasswordLength := n
  maxPasswordLength := n

/-- **Which passwords are hashed within the bounds** of every configuration that accepts them: those
whose length NFKC keeps. -/
theorem hashed_within_policy_iff (uni : Unicode) (password : PyStr) :
    (∀ config, HashedWithinPolicy uni config password) ↔ KeepsLength uni password := by
  refine ⟨fun h => ?_, fun h => h.hashedWithinPolicy⟩
  by_cases hempty : password = []
  · exact .inl hempty
  · cases hlength : utf8Length password with
    | error e =>
        refine .inr (.inl ?_)
        unfold utf8Length at hlength
        split_ifs at hlength with hany
        exact hany
    | ok n =>
        have haccepted : validatePolicy (exactly n) password = .ok () :=
          validatePolicy_eq_ok_iff.2 ⟨hempty, n, hlength, le_rfl, le_rfl⟩
        obtain ⟨text, k, hpasses, hk, hmin, hmax⟩ := h (exactly n) haccepted
        obtain ⟨rfl, -⟩ := passesToArgon2_iff.1 hpasses
        have hkn : k = n := le_antisymm hmax hmin
        exact .inr (.inr (by rw [hk, hkn, hlength]))

/-! ### Full-width letters -/

/-- A full-width form becomes the ASCII character it is the form of. -/
def narrow (c : CodePoint) : CodePoint :=
  if 0xFF01 ≤ c.val ∧ c.val ≤ 0xFF5E then Fin.ofNat 0x110000 (c.val - 0xFEE0) else c

/-- NFKC on ASCII and full-width forms. -/
def narrowing : Unicode := ⟨List.map narrow, asciiLower⟩

/-- The capital letter A, full width, four times. -/
def fullWidth : PyStr := List.replicate 4 (Fin.ofNat 0x110000 0xFF21)

/-- **Twelve bytes are accepted where at least twelve are asked for, and four are hashed.** -/
theorem full_width_password_hashed :
    validatePolicy { signingSecret := py "secret" } fullWidth = .ok () ∧
      narrowing.nfkc fullWidth = py "AAAA" ∧
      ¬ HashedWithinPolicy narrowing { signingSecret := py "secret" } fullWidth := by
  have htwelve : utf8Length fullWidth = .ok 12 := by decide +kernel
  have haccepted : validatePolicy { signingSecret := py "secret" } fullWidth = .ok () :=
    validatePolicy_eq_ok_iff.2 ⟨by decide, 12, htwelve, by decide, by decide⟩
  have hnarrow : narrowing.nfkc fullWidth = py "AAAA" := by decide +kernel
  refine ⟨haccepted, hnarrow, fun h => ?_⟩
  obtain ⟨text, n, hpasses, hn, hmin, -⟩ := h haccepted
  obtain ⟨rfl, -⟩ := passesToArgon2_iff.1 hpasses
  have hfour : utf8Length (narrowing.nfkc fullWidth) = .ok 4 := by
    rw [hnarrow]
    decide +kernel
  rw [hfour, Except.ok.injEq] at hn
  subst hn
  exact absurd hmin (by decide)

end EncryptChat
