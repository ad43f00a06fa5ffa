/-
**The hashing work of a failing login.**

A login of a name that no account has verifies a fixed hash, so that it costs what the verification
of a password costs.  The library computes with the parameters it finds in the hash: those of a
stored hash are the configured ones, those of the fixed hash stand in the program.

Main definitions:

* `EncryptChat.dummyParams`, `EncryptChat.dummyHash` — the fixed hash;
* `EncryptChat.Embeds` — what is used of the library;
* `EncryptChat.AuthOp.computations` — **the computations of an operation**;
* `EncryptChat.FailingLogin` — a login that fails for what is, or is not, stored under its name.

Main results:

* `EncryptChat.FailingLogin.costed` — the answer to such a login, and its work;
* `EncryptChat.login_work_uniform_iff` — **it does the same work in all stores exactly when the
  configured parameters are those of the fixed hash**.
-/

import EncryptChat.CanonicalNames
import EncryptChat.RegisteredPassword

set_option relaxedAutoImplicit false
set_option autoImplicit false

namespace EncryptChat

open Python Concurrent AuthService

/-! ### Computations -/

/-- The parameters of `_build_dummy_hash`. -/
def dummyParams : Argon2Params := ⟨3, 65536, 4⟩

/-- `_DUMMY_HASH`, under the salt that was drawn when the module was loaded. -/
def dummyHash (argon2 : Argon2) (salt : ℕ) : PyStr :=
  argon2.hash dummyParams salt (py "dummy-password-for-timing-equalization")

/-- The parameters the library reads in a hash; `none` where it cannot read it. -/
abbrev Reader : Type := PyStr → Option Argon2Params

/-- A hash made with the parameters reads as made with them. -/
def Embeds (argon2 : Argon2) (embedded : Reader) (params : Argon2Params) : Prop :=
  ∀ salt password, embedded (argon2.hash params salt password) = some params

/-- What is computed once the password is encoded. -/
def computed (uni : Unicode) (password : PyStr) (work : List Argon2Params) : List Argon2Params :=
  match encodable (uni.nfkc password) with
  | .ok _ => work
  | .error _ => []

/-- **The computations of an operation**: a hash is made with the configured parameters, and
verified with those that are read in it. -/
def AuthOp.computations (env : AuthEnv) (embedded : Reader) (dummySalt : ℕ) :
    AuthOp → List Argon2Params
  | .hashPassword password => computed env.unicode password [env.config.argon2]
  | .verifyPassword storedHash password =>
      computed env.unicode password (embedded storedHash).toList
  | .dummyVerify => (embedded (dummyHash env.argon2 dummySalt)).toList
  | _ => []

/-! ### Logins that fail -/

/-- How a login fails for what is stored under its name. -/
inductive Fails (env : AuthEnv) (n password : PyStr) (users : List User) : Prop
  | absent (nobody : ∀ user ∈ users, user.usernameNormalized ≠ n)
  | otherPassword {user : User} (stored : user ∈ users) (name : user.usernameNormalized = n)
      (mismatch : env.argon2.verify user.passwordHash (env.unicode.nfkc password) = false)
  | disabled {user : User} (stored : user ∈ users) (name : user.usernameNormalized = n)
      (inactive : user.status = .disabled)

/-- A login under the canonical name `n`, which is not blocked, in a store whose hashes were all
made under the configuration. -/
structure FailingLogin (env : AuthEnv) (n password : PyStr) where
  /-- The number of the request, and what is left open about its steps. -/
  request : ℕ
  others : AuthOp → AuthChoice
  username : PyStr
  asked : ℚ
  recorded : ℚ
  store : AuthState
  valid : validateUsername env.unicode username = .ok n
  unblocked : (store.failedLogins.isBlocked n asked).2 = false
  names : ((store.visible request).users.map User.usernameNormalized).Nodup
  hashes : ∀ user ∈ (store.visible request).users, ∃ salt chosen,
    hashPassword env.unicode env.argon2 env.config salt chosen = .ok user.passwordHash
  fails : Fails env n password (store.visible request).users

namespace FailingLogin

variable {env : AuthEnv} {n password : PyStr}

/-- The attempt. -/
def attempt (l : FailingLogin env n password) : LoginAttempt :=
  ⟨l.username, password, l.asked, l.recorded⟩

/-- The login, run alone, with its computations. -/
def costed (l : FailingLogin env n password) (embedded : Reader) (dummySalt : ℕ) :
    Option ((AuthState × Except AuthFailure AuthResponse) × List Argon2Params) :=
  (authCode env (.login l.username password)).costed (authExec env l.request)
    (l.attempt.choice l.others) (AuthOp.computations env embedded dummySalt) l.store

/-- What the login answers. -/
def answer (l : FailingLogin env n password) : Option (Except AuthFailure AuthResponse) :=
  (EncryptChat.attempt env l.request l.others l.attempt l.store).map Prod.snd

/-- **The computations of the login**, in order. -/
def work (l : FailingLogin env n password) (embedded : Reader) (dummySalt : ℕ) :
    Option (List Argon2Params) := (l.costed embedded dummySalt).map Prod.snd

/-- The store has an account of the name. -/
def present (l : FailingLogin env n password) : Bool :=
  (l.store.visible l.request).users.any fun user => user.usernameNormalized == n

end FailingLogin

/-! ### Their work -/

section Work

variable {env : AuthEnv} {k : ℕ} {others : AuthOp → AuthChoice} {a : LoginAttempt}
  {embedded : Reader} {dummySalt : ℕ} {s : AuthState} {n password : PyStr}

/-- A query costs nothing. -/
theorem costed_query {α : Type} {q : Query} {found : q.Answer}
    (h : (s.visible k).answer env.backend q = .ok found) (f : q.Answer → AuthProgram α) :
    ((AuthProgram.query q).bind f).costed (authExec env k) (a.choice others)
        (AuthOp.computations env embedded dummySalt) s =
      (f found).costed (authExec env k) (a.choice others)
        (AuthOp.computations env embedded dummySalt) s := by
  have hexec : authExec env k (.query q) (a.choice others (.query q)) s = some (s, .ok found) :=
    congrArg (fun answer => some (s, answer)) h
  exact Program.costed_step_free _ _ _ rfl _ hexec

/-- The end of a login that fails: the failure is recorded, and nothing is computed. -/
theorem costed_failLogin {α : Type} (reason : PyStr) :
    (failLogin n reason : AuthProgram α).costed (authExec env k) (a.choice others)
        (AuthOp.computations env embedded dummySalt) s =
      some (({ s with failedLogins := (s.failedLogins.recordFailure n a.recorded).1 },
        .error (invalidCredentials reason)), []) := rfl

/-- A verification costs what it computes. -/
theorem costed_verify {α : Type} (storedHash : PyStr) (f : Bool → AuthProgram α) :
    ((AuthProgram.verify storedHash password).bind f).costed (authExec env k) (a.choice others)
        (AuthOp.computations env embedded dummySalt) s =
      (((AuthProgram.ofPython (verifyPassword env.unicode env.argon2 storedHash password)).bind
        f).costed (authExec env k) (a.choice others)
          (AuthOp.computations env embedded dummySalt) s).map fun later =>
        (later.1, computed env.unicode password (embedded storedHash).toList ++ later.2) := by
  have hexec : authExec env k (.verifyPassword storedHash password)
      (a.choice others (.verifyPassword storedHash password)) s =
        some (s, verifyPassword env.unicode env.argon2 storedHash password) := rfl
  exact Program.costed_step _ _ _ _ _ hexec

/-- **The login of an account that it does not open** computes what the verification computes. -/
theorem costed_loginUser {user : User} (hrejects :
      env.argon2.verify user.passwordHash (env.unicode.nfkc password) = false ∨
        user.isActive = false) :
    ∃ s' e, (loginUser env n user password).costed (authExec env k) (a.choice others)
        (AuthOp.computations env embedded dummySalt) s =
      some ((s', .error e), computed env.unicode password (embedded user.passwordHash).toList) := by
  unfold loginUser
  rw [Program.bind_eq, costed_verify]
  cases hverified : verifyPassword env.unicode env.argon2 user.passwordHash password with
  | error e =>
      refine ⟨s, .python e, ?_⟩
      change some ((s, Except.error (AuthFailure.python e)), computed .. ++ []) = _
      rw [List.append_nil]
  | ok verified =>
      have hmismatch : verified = false ∨ user.isActive = false := by
        refine hrejects.imp_left fun hmismatch => ?_
        unfold verifyPassword encodable at hverified
        split_ifs at hverified
        · cases hverified
        · exact (Except.ok.inj hverified).symm.trans hmismatch
      change ∃ s' e, Option.map _ (Program.costed _ _ _ (if verified = false then _ else _) _) = _
      split_ifs with hfalse hinactive
      · exact ⟨_, _, by rw [costed_failLogin, Option.map_some, List.append_nil]⟩
      · exact ⟨_, _, by rw [costed_failLogin, Option.map_some, List.append_nil]⟩
      · exact absurd hmismatch (not_or.2 ⟨hfalse, hinactive⟩)

/-- **A login that is not blocked and fails for what is stored** computes what the verification of
the stored hash computes or, without an account, that of the fixed hash. -/
theorem costed_loginNormalized (hunblocked : (s.failedLogins.isBlocked n a.asked).2 = false)
    (hnames : ((s.visible k).users.map User.usernameNormalized).Nodup)
    (hfails : Fails env n password (s.visible k).users) :
    ∃ s' e work, (loginNormalized env n password).costed (authExec env k) (a.choice others)
          (AuthOp.computations env embedded dummySalt) s = some ((s', .error e), work) ∧
      ((∀ user ∈ (s.visible k).users, user.usernameNormalized ≠ n) ∧
          work = (embedded (dummyHash env.argon2 dummySalt)).toList ∨
        ∃ user ∈ (s.visible k).users, user.usernameNormalized = n ∧
          work = computed env.unicode password (embedded user.passwordHash).toList) := by
  -- from here on the window has been pruned
  obtain ⟨s₁, hs₁⟩ : ∃ s₁ : AuthState,
      s₁ = { s with failedLogins := (s.failedLogins.isBlocked n a.asked).1 } := ⟨_, rfl⟩
  have hasked : authExec env k (.isBlocked n) (a.choice others (.isBlocked n)) s =
      some (s₁, false) := by
    rw [hs₁, ← hunblocked]
    rfl
  have hvisible : s₁.visible k = s.visible k := by rw [hs₁]; rfl
  obtain ⟨out, hout⟩ : ∃ out, (loginNormalized env n password).costed (authExec env k)
      (a.choice others) (AuthOp.computations env embedded dummySalt) s = out := ⟨_, rfl⟩
  rw [hout]
  have hquery := (Program.costed_step_free _ _ _ rfl _ hasked).symm.trans hout
  rcases answer_userByName_cases hnames env.backend n with ⟨hanswer, hnobody⟩ | ⟨user, huser, hname,
    hanswer⟩
  · rw [← hvisible] at hanswer
    have hend := (costed_query hanswer _).symm.trans hquery
    refine ⟨_, _, _, hend.symm.trans rfl, .inl ⟨hnobody, ?_⟩⟩
    exact List.append_nil _
  · rw [← hvisible] at hanswer
    have hsessions := (costed_query hanswer _).symm.trans hquery
    have hlogin := (costed_query (q := .sessionsOf _) rfl _).symm.trans hsessions
    have hsame : ∀ other ∈ (s.visible k).users, other.usernameNormalized = n → other = user :=
      fun other hother hn => List.inj_on_of_nodup_map hnames hother huser (hn.trans hname.symm)
    have hrejects : env.argon2.verify (env.backend.loadUser user).passwordHash
        (env.unicode.nfkc password) = false ∨ (env.backend.loadUser user).isActive = false := by
      cases hfails with
      | absent nobody => exact absurd hname (nobody user huser)
      | otherPassword hstored hn mismatch => exact .inl (hsame _ hstored hn ▸ mismatch)
      | disabled hstored hn inactive =>
          rw [hsame _ hstored hn] at inactive
          exact .inr (decide_eq_false fun hactive => by cases inactive.symm.trans hactive)
    obtain ⟨s', e, hwork⟩ : ∃ s' e, (loginUser env n (env.backend.loadUser user) password).costed
        (authExec env k) (a.choice others) (AuthOp.computations env embedded dummySalt) s₁ =
          some ((s', .error e), _) := costed_loginUser hrejects
    exact ⟨s', e, _, hlogin.symm.trans hwork, .inr ⟨user, huser, hname, rfl⟩⟩

end Work

namespace FailingLogin

variable {env : AuthEnv} {n password : PyStr} {embedded : Reader}

/-- **What such a login answers and computes.** -/
theorem costed_eq (hconfig : Embeds env.argon2 embedded env.config.argon2)
    (hdummy : Embeds env.argon2 embedded dummyParams) (l : FailingLogin env n password)
    (dummySalt : ℕ) :
    ∃ s' e, l.costed embedded dummySalt = some ((s', .error e),
      if l.present then computed env.unicode password [env.config.argon2] else [dummyParams]) := by
  obtain ⟨s', e, work, hcosted, hwork⟩ : ∃ s' e work,
      (loginNormalized env n password).costed (authExec env l.request) (l.attempt.choice l.others)
        (AuthOp.computations env embedded dummySalt) l.store = some ((s', .error e), work) ∧ _ :=
    costed_loginNormalized l.unblocked l.names l.fails
  have hexpected : work =
      if l.present then computed env.unicode password [env.config.argon2] else [dummyParams] := by
    rcases hwork with ⟨hnobody, rfl⟩ | ⟨user, huser, hname, rfl⟩
    · have habsent : l.present = false := by
        simpa [present] using hnobody
      rw [habsent, dummyHash, hdummy]
      rfl
    · have hpresent : l.present = true := List.any_eq_true.2 ⟨user, huser, beq_iff_eq.2 hname⟩
      obtain ⟨salt, chosen, hhash⟩ := l.hashes user huser
      have hread : embedded user.passwordHash = some env.config.argon2 := by
        unfold hashPassword encodable at hhash
        split_ifs at hhash
        · cases hhash
        · rw [← Except.ok.inj hhash]
          exact hconfig salt _
      rw [hpresent, hread]
      rfl
  refine ⟨s'.rollback l.request, e, ?_⟩
  rw [FailingLogin.costed, authCode_login l.valid, AuthProgram.inSession, Program.bind,
    Program.costed_handle, Program.costed_handle, hcosted, ← hexpected]
  change some ((s'.rollback l.request, Except.error e), (work ++ []) ++ []) = _
  rw [List.append_nil, List.append_nil]

/-- It fails, and its work is what has been said. -/
theorem answer_and_work (hconfig : Embeds env.argon2 embedded env.config.argon2)
    (hdummy : Embeds env.argon2 embedded dummyParams) (l : FailingLogin env n password)
    (dummySalt : ℕ) :
    (∃ e, l.answer = some (.error e)) ∧ l.work embedded dummySalt =
      some (if l.present then computed env.unicode password [env.config.argon2]
        else [dummyParams]) := by
  obtain ⟨s', e, hcosted⟩ := l.costed_eq hconfig hdummy dummySalt
  have halone := congrArg (Option.map Prod.fst) hcosted
  rw [FailingLogin.costed, Program.costed_alone] at halone
  refine ⟨⟨e, ?_⟩, ?_⟩
  · rw [answer, EncryptChat.attempt]
    exact congrArg (Option.map Prod.snd) halone
  · rw [work, hcosted]
    rfl

end FailingLogin

/-- **When a failing login does the same work in two stores.**  Where both have the account, or
neither has, it always does.  Where one has it, it does exactly when the configured parameters are
those of the fixed hash and the password can be encoded. -/
theorem login_work_uniform_iff {env : AuthEnv} {embedded : Reader} {dummySalt : ℕ}
    (hconfig : Embeds env.argon2 embedded env.config.argon2)
    (hdummy : Embeds env.argon2 embedded dummyParams) {n password : PyStr}
    (l l' : FailingLogin env n password) :
    (∃ e, l.answer = some (.error e)) ∧ (∃ e, l'.answer = some (.error e)) ∧
      (l.work embedded dummySalt = l'.work embedded dummySalt ↔
        l.present = l'.present ∨ env.config.argon2 = dummyParams ∧
          (env.unicode.nfkc password).any isSurrogate = false) := by
  obtain ⟨hfails, hwork⟩ := l.answer_and_work hconfig hdummy dummySalt
  obtain ⟨hfails', hwork'⟩ := l'.answer_and_work hconfig hdummy dummySalt
  refine ⟨hfails, hfails', ?_⟩
  rw [hwork, hwork', Option.some.injEq]
  have hone : computed env.unicode password [env.config.argon2] = [dummyParams] ↔
      env.config.argon2 = dummyParams ∧ (env.unicode.nfkc password).any isSurrogate = false := by
    unfold computed encodable
    cases hsurrogate : (env.unicode.nfkc password).any isSurrogate <;> simp
  cases l.present <;> cases l'.present
  · exact ⟨fun _ => .inl rfl, fun _ => rfl⟩
  · simp only [Bool.false_eq_true, if_false, if_true, false_or]
    rw [eq_comm, hone]
  · simp only [Bool.true_eq_false, Bool.false_eq_true, if_false, if_true, false_or]
    exact hone
  · exact ⟨fun _ => .inl rfl, fun _ => rfl⟩

/-! ### A configured time cost -/

section Sample

/-- The parameters in a hash of the sample hasher. -/
def readParams : Reader
  | timeCost :: memoryCost :: parallelism :: _ =>
      some ⟨timeCost.val, memoryCost.val, parallelism.val⟩
  | _ => none

/-- A service whose operator sets `ARGON2_TIME_COST`. -/
def costEnv (timeCost : ℕ) : AuthEnv :=
  { embeddingEnv with config := { embeddingEnv.config with argon2TimeCost := timeCost } }

/-- The account of `alice`, with another password than the one that is tried. -/
def aliceOf (timeCost : ℕ) : User :=
  { aliceAccount with
    passwordHash := embedding.hash (costEnv timeCost).config.argon2 0 samplePassword }

/-- A failing login as `alice` in a store with these users. -/
def aliceTries (timeCost : ℕ) (users : List User)
    (names : (users.map User.usernameNormalized).Nodup)
    (hashes : ∀ user ∈ users, user = aliceOf timeCost)
    (fails : Fails (costEnv timeCost) (py "alice") (py "battery staple") users) :
    FailingLogin (costEnv timeCost) (py "alice") (py "battery staple") where
  request := 0
  others := fun _ => {}
  username := py "alice"
  asked := 0
  recorded := 0
  store := { AuthState.new (costEnv timeCost) with
    committed := { Database.empty with users := users } }
  valid := by
    have hvalid : validateUsername narrowing (py "alice") = .ok (py "alice") := by decide +kernel
    exact hvalid
  unblocked := by
    have hunblocked : ((AuthState.new embeddingEnv).failedLogins.isBlocked (py "alice") 0).2 =
        false := by decide +kernel
    exact hunblocked
  names := names
  hashes := by
    intro user huser
    rw [hashes user huser]
    exact ⟨0, samplePassword, rfl⟩
  fails := fails

/-- The store has no account. -/
def aliceUnknown (timeCost : ℕ) :
    FailingLogin (costEnv timeCost) (py "alice") (py "battery staple") :=
  aliceTries timeCost [] List.nodup_nil (by simp) (.absent (by simp))

/-- The store has the account. -/
def aliceKnown (timeCost : ℕ) :
    FailingLogin (costEnv timeCost) (py "alice") (py "battery staple") :=
  aliceTries timeCost [aliceOf timeCost] (List.nodup_singleton _) (by simp)
    (.otherPassword (List.mem_singleton_self _) rfl rfl)

/-- With the default parameters the two cannot be told apart. -/
theorem login_work_uniform_alice :
    (aliceUnknown 3).work readParams 0 = (aliceKnown 3).work readParams 0 :=
  (login_work_uniform_iff (fun _ _ => rfl) (fun _ _ => rfl) (aliceUnknown 3) (aliceKnown 3)).2.2.2
    (.inr ⟨rfl, by decide +kernel⟩)

/-- **Where the operator raises the time cost, the work tells whether the account exists.** -/
theorem login_work_reveals_account :
    Embeds embedding readParams (costEnv 4).config.argon2 ∧
      Embeds embedding readParams dummyParams ∧
      (aliceUnknown 4).work readParams 0 = some [⟨3, 65536, 4⟩] ∧
      (aliceKnown 4).work readParams 0 = some [⟨4, 65536, 4⟩] ∧
      ¬ ∀ l l' : FailingLogin (costEnv 4) (py "alice") (py "battery staple"),
        l.work readParams 0 = l'.work readParams 0 := by
  have hconfig : Embeds embedding readParams (costEnv 4).config.argon2 := fun _ _ => rfl
  have hdummy : Embeds embedding readParams dummyParams := fun _ _ => rfl
  have hunknown : (aliceUnknown 4).work readParams 0 = some [⟨3, 65536, 4⟩] :=
    ((aliceUnknown 4).answer_and_work hconfig hdummy 0).2
  have hknown : (aliceKnown 4).work readParams 0 = some [⟨4, 65536, 4⟩] :=
    ((aliceKnown 4).answer_and_work hconfig hdummy 0).2.trans (by decide +kernel)
  refine ⟨hconfig, hdummy, hunknown, hknown, fun hall => ?_⟩
  have hsame := hall (aliceUnknown 4) (aliceKnown 4)
  rw [hunknown, hknown] at hsame
  exact absurd hsame (by decide)

end Sample

end EncryptChat
