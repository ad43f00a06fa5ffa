/-
**The policy that is advertised and the one that is enforced.**

A client is told the bounds of the configuration.  A registration passes the bounds of the request
schema, then those of the module that validates names, and only for the password those of the
configuration.

Main definitions:

* `EncryptChat.RegistrationRequest`, `EncryptChat.PasswordPolicyInfo` — the schemas;
* `EncryptChat.passesRegistration` — **the schema, and what `register` validates**;
* `EncryptChat.PasswordPolicyInfo.Admits` — what a client is told to be admitted;
* `EncryptChat.AuthConfig.Agrees` — the configurations under which the two are the same.

Main results:

* `EncryptChat.passesRegistration_iff` — which registrations pass;
* `EncryptChat.advertised_is_enforced_iff` — **under which configurations these are the ones that
  are advertised**.
-/

import EncryptChat.CanonicalNames
import EncryptChat.PasswordForms

set_option relaxedAutoImplicit false
set_option autoImplicit false

namespace EncryptChat

open Python AuthService

/-! ### Schemas -/

/-- `MAX_PASSWORD_FIELD_LENGTH`. -/
def maxPasswordFieldLength : ℕ := 1024

/-- A field declared `str` with a minimal and a maximal length; a text with a lone surrogate is
refused. -/
def boundedField (min max : ℕ) : Json → Option PyStr
  | .str s =>
      if s.any isSurrogate = false ∧ min ≤ s.length ∧ s.length ≤ max then some s else none
  | _ => none

/-- `RegistrationRequest`. -/
structure RegistrationRequest where
  username : PyStr
  password : PyStr

namespace RegistrationRequest

/-- The fields of the request; any other key is refused. -/
def fields : List PyStr := [py "username", py "password"]

/-- `RegistrationRequest.model_validate(body)`; `none` is a `ValidationError`. -/
def modelValidate (body : Dict) : Option RegistrationRequest := do
  guard (body.all fun item => fields.contains item.1)
  let username ← (dictGet body (py "username")).bind (boundedField 1 64)
  let password ← (dictGet body (py "password")).bind (boundedField 1 maxPasswordFieldLength)
  return { username, password }

end RegistrationRequest

/-- `PasswordPolicyInfo`. -/
structure PasswordPolicyInfo where
  minPasswordLength : ℕ
  maxPasswordLength : ℕ
  minUsernameLength : ℕ
  maxUsernameLength : ℕ

/-- `PasswordPolicyInfo.from_config(config)`. -/
def PasswordPolicyInfo.fromConfig (config : AuthConfig) : PasswordPolicyInfo where
  minPasswordLength := config.minPasswordLength
  maxPasswordLength := config.maxPasswordLength
  minUsernameLength := config.minUsernameLength
  maxUsernameLength := config.maxUsernameLength

/-- The name and the password are within the bounds, the password by its UTF-8 length. -/
def PasswordPolicyInfo.Admits (info : PasswordPolicyInfo) (username password : PyStr) : Prop :=
  (info.minUsernameLength ≤ username.length ∧ username.length ≤ info.maxUsernameLength) ∧
    ∃ n, utf8Length password = .ok n ∧ info.minPasswordLength ≤ n ∧ n ≤ info.maxPasswordLength

/-! ### Registrations -/

/-- The body a client sends. -/
def registrationBody (username password : PyStr) : Dict :=
  [(py "username", .str username), (py "password", .str password)]

/-- **The request passes the schema, and what `register` validates.** -/
def passesRegistration (env : AuthEnv) (body : Dict) : Bool :=
  match RegistrationRequest.modelValidate body with
  | none => false
  | some request =>
      (registrationUsername env request.username).isOk &&
        (registrationPolicy env request.password).isOk

/-- The text consists of the permitted characters, and starts with a letter or a digit. -/
def isPermitted (username : PyStr) : Bool :=
  isCanonical username && username.head?.any isLowerAlnum

section Registrations

variable {env : AuthEnv} {username password : PyStr} {n : ℕ}

/-- The pattern of canonical names. -/
theorem usernameFullmatch_iff :
    usernameFullmatch username = true ↔ isPermitted username = true ∧
      minUsernameLength ≤ username.length ∧ username.length ≤ maxUsernameLength := by
  cases username with
  | nil => simp [usernameFullmatch, isPermitted]
  | cons c cs =>
      simp only [usernameFullmatch, isPermitted, isCanonical, List.head?_cons, Option.any_some,
        List.all_cons, Bool.and_eq_true, decide_eq_true_eq, List.length_cons, minUsernameLength,
        maxUsernameLength]
      constructor
      · rintro ⟨⟨⟨hc, hmin⟩, hmax⟩, hcs⟩
        exact ⟨⟨⟨isIdentifierChar_of_isLowerAlnum hc, hcs⟩, hc⟩, by omega, by omega⟩
      · rintro ⟨⟨⟨-, hcs⟩, hc⟩, hmin, hmax⟩
        exact ⟨⟨⟨hc, by omega⟩, by omega⟩, hcs⟩

/-- **Which permitted names are accepted.** -/
theorem isOk_registrationUsername (huni : env.unicode.Lawful) (h : isPermitted username = true) :
    (registrationUsername env username).isOk = true ↔
      minUsernameLength ≤ username.length ∧ username.length ≤ maxUsernameLength := by
  have hcanonical : isCanonical username = true := by
    simp only [isPermitted, Bool.and_eq_true] at h
    exact h.1
  have hvalid : (registrationUsername env username).isOk = true ↔
      ∃ n, validateUsername env.unicode username = .ok n := by
    unfold registrationUsername
    cases validateUsername env.unicode username <;> simp [Except.isOk, Except.toBool]
  rw [hvalid]
  constructor
  · rintro ⟨n, hn⟩
    obtain ⟨hname, hmatch⟩ := validateUsername_eq_ok hn
    have hstrip := strip_of_canonical hcanonical
    rw [normalizeUsername, huni.nfkc_canonical username (by rwa [hstrip]), hstrip,
      huni.casefold_canonical username hcanonical] at hname
    subst hname
    exact (usernameFullmatch_iff.1 hmatch).2
  · intro hlength
    exact ⟨username, validateUsername_canonical huni (usernameFullmatch_iff.2 ⟨h, hlength⟩)⟩

/-- Which passwords are accepted. -/
theorem isOk_registrationPolicy :
    (registrationPolicy env password).isOk = true ↔
      validatePolicy env.config password = .ok () := by
  unfold registrationPolicy
  split <;> simp_all [Except.isOk, Except.toBool]

/-- The schema, of a body with the two fields. -/
theorem modelValidate_registrationBody (username password : PyStr) :
    RegistrationRequest.modelValidate (registrationBody username password) =
      (boundedField 1 64 (.str username)).bind fun username =>
        (boundedField 1 maxPasswordFieldLength (.str password)).bind fun password =>
          some ⟨username, password⟩ := rfl

/-- A permitted name has a first character, and no surrogate. -/
theorem isPermitted_schema (h : isPermitted username = true) :
    1 ≤ username.length ∧ username.any isSurrogate = false := by
  simp only [isPermitted, Bool.and_eq_true] at h
  refine ⟨?_, List.any_eq_false.2 fun c hc => ?_⟩
  · cases username with
    | nil => cases h.2
    | cons c cs => simp
  · have hascii := (isIdentifierChar_ascii (List.all_eq_true.1 h.1 c hc)).1
    simp only [isAscii, decide_eq_true_eq] at hascii
    simp only [isSurrogate, Bool.and_eq_true, decide_eq_true_eq, not_and, not_le]
    omega

/-- **Which registrations pass.** -/
theorem passesRegistration_iff (huni : env.unicode.Lawful) (h : isPermitted username = true) :
    passesRegistration env (registrationBody username password) = true ↔
      (minUsernameLength ≤ username.length ∧ username.length ≤ maxUsernameLength) ∧
        (1 ≤ password.length ∧ password.length ≤ maxPasswordFieldLength) ∧
          ∃ n, utf8Length password = .ok n ∧ env.config.minPasswordLength ≤ n ∧
            n ≤ env.config.maxPasswordLength := by
  obtain ⟨hpos, hplain⟩ := isPermitted_schema h
  have hpolicy : (registrationPolicy env password).isOk = true ↔ _ :=
    isOk_registrationPolicy.trans validatePolicy_eq_ok_iff
  unfold passesRegistration
  rw [modelValidate_registrationBody]
  by_cases hname : username.length ≤ 64
  · rw [boundedField, if_pos ⟨hplain, hpos, hname⟩, Option.bind_some]
    by_cases hfield : password.any isSurrogate = false ∧ 1 ≤ password.length ∧
        password.length ≤ maxPasswordFieldLength
    · rw [boundedField, if_pos hfield]
      simp only [Option.bind_some, Bool.and_eq_true, isOk_registrationUsername huni h, hpolicy]
      refine and_congr_right fun _ => ⟨fun ⟨_, hbounds⟩ => ⟨hfield.2, hbounds⟩,
        fun ⟨_, hbounds⟩ => ⟨?_, hbounds⟩⟩
      rintro rfl
      exact absurd hfield.2.1 (by decide)
    · rw [boundedField, if_neg hfield]
      simp only [Option.bind_none, Bool.false_eq_true, false_iff, not_and]
      rintro - hlength ⟨n, hn, -⟩
      exact hfield ⟨(utf8Length_eq_ok_iff.1 hn).1, hlength⟩
  · rw [boundedField, if_neg fun h => hname h.2.2]
    simp only [Option.bind_none, Bool.false_eq_true, false_iff, not_and]
    rintro ⟨-, hmax⟩
    unfold maxUsernameLength at hmax
    omega

end Registrations

/-! ### Lengths -/

/-- A text takes from one to four bytes a character. -/
theorem utf8Length_bounds {s : PyStr} {n : ℕ} (h : utf8Length s = .ok n) :
    s.length ≤ n ∧ n ≤ 4 * s.length := by
  obtain ⟨-, rfl⟩ := utf8Length_eq_ok_iff.1 h
  clear h
  induction s with
  | nil => simp
  | cons c cs ih =>
      have hwidth : 1 ≤ utf8Width c ∧ utf8Width c ≤ 4 := by
        unfold utf8Width
        split_ifs <;> omega
      simp only [List.map_cons, List.sum_cons, List.length_cons]
      omega

/-- The character of a width. -/
def ofWidth : ℕ → CodePoint
  | 1 => 0x61
  | 2 => 0xE9
  | 3 => 0x20AC
  | _ => 0x1F600

/-- As many characters of four bytes as fit, and one more for what is left. -/
def spelled (n : ℕ) : PyStr :=
  List.replicate (n / 4) (ofWidth 4) ++ if n % 4 = 0 then [] else [ofWidth (n % 4)]

/-- A text of the least number of characters for its bytes. -/
theorem utf8Length_spelled (n : ℕ) :
    utf8Length (spelled n) = .ok n ∧ 4 * (spelled n).length ≤ n + 3 := by
  have hrest : n % 4 = 0 ∨ n % 4 = 1 ∨ n % 4 = 2 ∨ n % 4 = 3 := by omega
  rw [utf8Length_eq_ok_iff]
  have hwide : isSurrogate (ofWidth 4) = false ∧ utf8Width (ofWidth 4) = 4 := by decide
  rcases hrest with h | h | h | h
  · simp [spelled, h, hwide]
    omega
  · have hone : isSurrogate (ofWidth 1) = false ∧ utf8Width (ofWidth 1) = 1 := by decide
    simp [spelled, h, hwide, hone]
    omega
  · have htwo : isSurrogate (ofWidth 2) = false ∧ utf8Width (ofWidth 2) = 2 := by decide
    simp [spelled, h, hwide, htwo]
    omega
  · have hthree : isSurrogate (ofWidth 3) = false ∧ utf8Width (ofWidth 3) = 3 := by decide
    simp [spelled, h, hwide, hthree]
    omega

/-- A text of one character a byte. -/
theorem utf8Length_replicate (n : ℕ) : utf8Length (List.replicate n (ofWidth 1)) = .ok n := by
  have hone : isSurrogate (ofWidth 1) = false ∧ utf8Width (ofWidth 1) = 1 := by decide
  rw [utf8Length_eq_ok_iff]
  simp [hone]

/-- There are permitted names of every length but zero. -/
theorem isPermitted_replicate {n : ℕ} (h : 1 ≤ n) :
    isPermitted (List.replicate n (ofWidth 1)) = true := by
  obtain ⟨n, rfl⟩ : ∃ m, n = m + 1 := ⟨n - 1, by omega⟩
  have hone : isLowerAlnum (ofWidth 1) = true ∧ isIdentifierChar (ofWidth 1) = true := by decide
  simp [isPermitted, isCanonical, List.replicate_succ, hone]

/-! ### Agreement -/

/-- The configurations under which the advertised policy is the enforced one: the bounds on names
are those of the module, and those on passwords are within the bounds of the schema; or no
registration passes, and none is advertised to. -/
def PolicyAgrees (config : AuthConfig) : Prop :=
  ((config.minUsernameLength = minUsernameLength ∧ config.maxUsernameLength = maxUsernameLength) ∧
      1 ≤ config.minPasswordLength ∧ config.maxPasswordLength ≤ maxPasswordFieldLength) ∨
    ((4 * maxPasswordFieldLength < config.minPasswordLength ∨ config.maxPasswordLength = 0) ∧
      (config.maxUsernameLength < config.minUsernameLength ∨ config.maxUsernameLength = 0))

instance (config : AuthConfig) : Decidable (PolicyAgrees config) :=
  inferInstanceAs (Decidable (_ ∨ _))

section Agreement

variable {env : AuthEnv}

/-- The advertised policy is the enforced one. -/
def AdvertisedIsEnforced (env : AuthEnv) : Prop :=
  ∀ username password, isPermitted username = true →
    (passesRegistration env (registrationBody username password) = true ↔
      (PasswordPolicyInfo.fromConfig env.config).Admits username password)

/-- What agreement says of the names of `j` characters. -/
theorem AdvertisedIsEnforced.of_length (h : AdvertisedIsEnforced env) (huni : env.unicode.Lawful)
    {j k : ℕ} (hj : 1 ≤ j) {password : PyStr} (hk : utf8Length password = .ok k)
    (hmin : env.config.minPasswordLength ≤ k) (hmax : k ≤ env.config.maxPasswordLength) :
    ((3 ≤ j ∧ j ≤ 32) ∧ 1 ≤ password.length ∧ password.length ≤ 1024) ↔
      env.config.minUsernameLength ≤ j ∧ j ≤ env.config.maxUsernameLength := by
  have hpermitted := isPermitted_replicate hj
  have hagree := h _ password hpermitted
  rw [passesRegistration_iff huni hpermitted, PasswordPolicyInfo.Admits,
    PasswordPolicyInfo.fromConfig, List.length_replicate] at hagree
  have hbounds : ∃ n, utf8Length password = .ok n ∧ env.config.minPasswordLength ≤ n ∧
      n ≤ env.config.maxPasswordLength := ⟨k, hk, hmin, hmax⟩
  constructor
  · rintro ⟨hname, hpassword⟩
    exact (hagree.1 ⟨hname, hpassword, hbounds⟩).1
  · intro hname
    obtain ⟨hname, hpassword, -⟩ := hagree.2 ⟨hname, hbounds⟩
    exact ⟨hname, hpassword⟩

/-- Under which configurations it can be. -/
theorem AdvertisedIsEnforced.agrees (h : AdvertisedIsEnforced env) (huni : env.unicode.Lawful)
    (hbounds : env.config.minPasswordLength ≤ env.config.maxPasswordLength) :
    PolicyAgrees env.config := by
  simp only [PolicyAgrees, minUsernameLength, maxUsernameLength, maxPasswordFieldLength]
  by_cases hsome : env.config.minPasswordLength ≤ 4096 ∧ 1 ≤ env.config.maxPasswordLength
  · -- some password passes: the names decide
    obtain ⟨k, hk⟩ : ∃ k, k = max 1 env.config.minPasswordLength := ⟨_, rfl⟩
    obtain ⟨hspelled, hshort⟩ := utf8Length_spelled k
    have hlength := utf8Length_bounds hspelled
    have hname : ∀ j, 1 ≤ j → (3 ≤ j ∧ j ≤ 32 ↔
        env.config.minUsernameLength ≤ j ∧ j ≤ env.config.maxUsernameLength) := by
      intro j hj
      rw [← h.of_length huni hj hspelled (by omega) (by omega)]
      exact ⟨fun hj => ⟨hj, by omega, by omega⟩, fun hj => hj.1⟩
    have htwo := hname 2 (by omega)
    have hthree := hname 3 (by omega)
    have hlast := hname 32 (by omega)
    have hnext := hname 33 (by omega)
    refine .inl ⟨⟨by omega, by omega⟩, ?_, ?_⟩
    · by_contra hzero
      have hnil : utf8Length [] = .ok 0 := rfl
      have hempty := h.of_length huni (j := 3) (by omega) hnil (by omega) (by omega)
      rw [List.length_nil] at hempty
      omega
    · by_contra hlong
      obtain ⟨m, hm⟩ : ∃ m, m = max 1025 env.config.minPasswordLength := ⟨_, rfl⟩
      have hwide := h.of_length huni (j := 3) (by omega) (utf8Length_replicate m) (by omega)
        (by omega)
      rw [List.length_replicate] at hwide
      omega
  · -- no password passes: nothing may be advertised
    refine .inr ⟨by omega, ?_⟩
    by_contra hadvertised
    have hnone := h.of_length huni (j := max 1 env.config.minUsernameLength) (by omega)
      (utf8Length_replicate env.config.minPasswordLength) le_rfl hbounds
    rw [List.length_replicate] at hnone
    omega

/-- Under these configurations it is. -/
theorem PolicyAgrees.advertisedIsEnforced (h : PolicyAgrees env.config)
    (huni : env.unicode.Lawful) : AdvertisedIsEnforced env := by
  intro username password hpermitted
  rw [passesRegistration_iff huni hpermitted, PasswordPolicyInfo.Admits,
    PasswordPolicyInfo.fromConfig]
  obtain ⟨hpos, -⟩ := isPermitted_schema hpermitted
  rcases h with ⟨⟨hmin, hmax⟩, hlow, hhigh⟩ | ⟨hpasswords, hnames⟩
  · rw [hmin, hmax]
    refine and_congr_right fun _ => ⟨fun hpassword => hpassword.2, fun hpassword => ⟨?_, hpassword⟩⟩
    obtain ⟨n, hn, hleast, hmost⟩ := hpassword
    have hlength := utf8Length_bounds hn
    dsimp only at hleast hmost
    omega
  · constructor
    · rintro ⟨-, hlength, n, hn, hleast, hmost⟩
      have hbounds := utf8Length_bounds hn
      omega
    · rintro ⟨hname, -⟩
      dsimp only at hname
      omega

end Agreement

/-- **Under which configurations the advertised policy is the enforced one.** -/
theorem advertised_is_enforced_iff {env : AuthEnv} (huni : env.unicode.Lawful)
    (hbounds : env.config.minPasswordLength ≤ env.config.maxPasswordLength) :
    (∀ username password, isPermitted username = true →
      (passesRegistration env (registrationBody username password) = true ↔
        (PasswordPolicyInfo.fromConfig env.config).Admits username password)) ↔
      PolicyAgrees env.config :=
  ⟨fun h => AdvertisedIsEnforced.agrees h huni hbounds, fun h => h.advertisedIsEnforced huni⟩

/-- The defaults agree. -/
theorem advertised_is_enforced_alice :
    passesRegistration (sampleEnv .sqlite) (registrationBody (py "alice") samplePassword) = true ↔
      (PasswordPolicyInfo.fromConfig (sampleEnv .sqlite).config).Admits (py "alice")
        samplePassword :=
  (advertised_is_enforced_iff (standard_sampleEnv .sqlite).lawful (by decide)).2 (by decide) _ _
    (by decide +kernel)

/-! ### Bounds of an operator -/

/-- An operator asks for longer names and allows longer passwords. -/
def tunedEnv : AuthEnv :=
  { sampleEnv .sqlite with
    config :=
      { (sampleEnv .sqlite).config with
        minUsernameLength := 5
        maxPasswordLength := 2048 } }

/-- **A name of four characters is accepted where at least five are advertised, and a password of
1025 where up to 2048 are is refused.** -/
theorem tuned_policy_differs :
    tunedEnv.config.minPasswordLength ≤ tunedEnv.config.maxPasswordLength ∧
      (isPermitted (py "anna") = true ∧
        passesRegistration tunedEnv (registrationBody (py "anna") samplePassword) = true ∧
        ¬ (PasswordPolicyInfo.fromConfig tunedEnv.config).Admits (py "anna") samplePassword) ∧
      isPermitted (py "alice") = true ∧
        passesRegistration tunedEnv
          (registrationBody (py "alice") (List.replicate 1025 (ofWidth 1))) = false ∧
        (PasswordPolicyInfo.fromConfig tunedEnv.config).Admits (py "alice")
          (List.replicate 1025 (ofWidth 1)) := by
  have hpermitted : isPermitted (py "alice") = true := by decide +kernel
  refine ⟨by decide, ⟨by decide +kernel, by decide +kernel, fun h => ?_⟩, hpermitted, ?_, ?_⟩
  · exact absurd h.1.1 (by decide)
  · have huni : tunedEnv.unicode.Lawful := (standard_sampleEnv .sqlite).lawful
    rw [Bool.eq_false_iff, ne_eq, passesRegistration_iff huni hpermitted, List.length_replicate]
    rintro ⟨-, ⟨-, hlength⟩, -⟩
    exact absurd hlength (by decide)
  · exact ⟨by decide, 1025, utf8Length_replicate 1025, by decide, by decide⟩

end EncryptChat
