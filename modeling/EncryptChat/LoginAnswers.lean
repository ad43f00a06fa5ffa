/-
**What a login that fails gives away.**

An unknown account, a wrong password and a disabled account are answered alike, and each is recorded
under the normalized name.  So what a login that fails answers, and what it leaves in the failed-login
tracker, can be computed from the tracker, the name and the time: the database is not asked.

Logins are run one after the other, each alone.  A login that fails performs no operation twice, so
what is left open about its steps is given by the operation: the two clocks of the tracker are part
of the attempt, and everything else may differ between two runs.

Main definitions:

* `EncryptChat.External`, `EncryptChat.external` — what leaves the server;
* `EncryptChat.attempts` — a sequence of logins, each run alone;
* `EncryptChat.refusal` — what a login that fails answers and records, without a database.

Main results:

* `EncryptChat.attempt_refused` — **a login that fails does what the refusal does**;
* `EncryptChat.login_reveals_nothing` — two databases, one sequence of answers.
-/

import EncryptChat.FailedLogins

set_option relaxedAutoImplicit false
set_option autoImplicit false

namespace EncryptChat

open Python Concurrent Transition AuthService

/-! ### What leaves the server -/

/-- What a client of the service gets. -/
inductive External where
  | succeeded (response : AuthResponse)
  /-- The status, the code and the detail of a response. -/
  | refused (statusCode : ℕ) (code detail : PyStr)
  /-- An exception that no handler of the application answers. -/
  | raised (e : PyError)
  deriving DecidableEq

/-- `_auth_error_handler`: the internal reason stays inside. -/
def authErrorHandler (e : AuthError) : External :=
  .refused e.statusCode e.code.value e.code.description

/-- What leaves the server when a request is done. -/
def external : Except AuthFailure AuthResponse → External
  | .ok response => .succeeded response
  | .error (.auth e) => authErrorHandler e
  | .error (.python e) => .raised e

/-! ### Attempts -/

/-- An attempt to log in. -/
structure LoginAttempt where
  username : PyStr
  password : PyStr
  /-- When the tracker is asked. -/
  asked : ℚ
  /-- When a failure is recorded. -/
  recorded : ℚ

/-- What is left open about the steps of an attempt: the clocks of the tracker are those of the
attempt, and the database does not raise. -/
def LoginAttempt.choice (a : LoginAttempt) (others : AuthOp → AuthChoice) (op : AuthOp) :
    AuthChoice :=
  { others op with
    fault := none
    monotonic := match op with
      | .isBlocked _ => a.asked
      | .recordFailure _ => a.recorded
      | _ => (others op).monotonic }

/-- One attempt, run alone. -/
def attempt (env : AuthEnv) (k : ℕ) (others : AuthOp → AuthChoice) (a : LoginAttempt)
    (s : AuthState) : Option (AuthState × Except AuthFailure AuthResponse) :=
  (authCode env (.login a.username a.password)).alone (authExec env k) (a.choice others) s

/-- The attempts `k`, `k + 1`, … one after the other. -/
def attempts (env : AuthEnv) (others : ℕ → AuthOp → AuthChoice) :
    ℕ → List LoginAttempt → AuthState →
      Option (AuthState × List (Except AuthFailure AuthResponse))
  | _, [], s => some (s, [])
  | k, a :: as, s =>
      (attempt env k (others k) a s).bind fun out =>
        (attempts env others (k + 1) as out.1).map fun rest => (rest.1, out.2 :: rest.2)

/-- **A sequence of attempts** is one of the interleavings of the requests. -/
theorem run_of_attempts {env : AuthEnv} {s₀ : AuthState} {others : ℕ → AuthOp → AuthChoice} {k : ℕ}
    {as : List LoginAttempt} {p : AuthPool} {s' : AuthState}
    {rs : List (Except AuthFailure AuthResponse)} (hnew : ∀ j, k ≤ j → p.threads j = none)
    (h : attempts env others k as p.shared = some (s', rs)) :
    ∃ tr t, (poolSystem (authExec env) (authCode env) s₀).Run p tr t ∧ t.shared = s' ∧
      (∀ j < k, t.threads j = p.threads j) ∧
        ∀ j r, rs[j]? = some r → ∃ th, t.threads (k + j) = some th ∧ th.rest = .done r := by
  induction as generalizing k p rs with
  | nil =>
      cases h
      exact ⟨[], p, System.Run.nil p, rfl, fun _ _ => rfl, fun j r hj => by simp at hj⟩
  | cons a as ih =>
      obtain ⟨⟨s₁, r⟩, hfirst, hlater⟩ := Option.bind_eq_some_iff.1 h
      obtain ⟨⟨s₂, rest⟩, hrest, hout⟩ := Option.map_eq_some_iff.1 hlater
      cases hout
      obtain ⟨tr₁, seen, hrun₁⟩ : ∃ tr seen, (poolSystem (authExec env) (authCode env) s₀).Run p tr
          ⟨s₁, Function.update p.threads k (some ⟨_, .done r, seen⟩)⟩ :=
        run_of_request (hnew k le_rfl) hfirst
      have hother : ∀ j ≠ k, Function.update p.threads k (some ⟨.login a.username a.password,
          .done r, seen⟩) j = p.threads j := fun j hj => Function.update_of_ne hj _ _
      obtain ⟨tr₂, t, hrun₂, hshared, hsame, hdone⟩ := ih (k := k + 1) (p := ⟨s₁, _⟩)
        (fun j hj => (hother j (by omega)).trans (hnew j (by omega))) hrest
      refine ⟨tr₁ ++ tr₂, t, hrun₁.trans hrun₂, hshared,
        fun j hj => (hsame j (by omega)).trans (hother j (by omega)), fun j r' hj => ?_⟩
      cases j with
      | zero =>
          cases hj
          exact ⟨_, (hsame k (by omega)).trans (Function.update_self ..), rfl⟩
      | succ j =>
          rw [show k + (j + 1) = k + 1 + j by omega]
          exact hdone j r' hj

/-! ### The refusal -/

/-- The failed login of a well-formed name, as the tracker and the client see it. -/
def refuseNormalized (normalized : PyStr) (a : LoginAttempt) (t : FailedLoginTracker) :
    FailedLoginTracker × AuthErrorCode × ℕ :=
  let asked := t.isBlocked normalized a.asked
  if asked.2 = true then (asked.1, .rateLimited, 429)
  else ((asked.1.recordFailure normalized a.recorded).1, .invalidCredentials, 401)

/-- **A failed login, as the tracker and the client see it.** -/
def refusal (env : AuthEnv) (a : LoginAttempt) (t : FailedLoginTracker) :
    FailedLoginTracker × AuthErrorCode × ℕ :=
  match validateUsername env.unicode a.username with
  | .ok normalized => refuseNormalized normalized a t
  | .error _ => (t, .invalidCredentials, 401)

/-- What leaves the server for the code and the status of a refusal. -/
def refusalAnswer (refused : AuthErrorCode × ℕ) : External :=
  .refused refused.2 refused.1.value refused.1.description

/-! ### One attempt -/

section Attempt

variable {env : AuthEnv} {k : ℕ} {others : AuthOp → AuthChoice} {a : LoginAttempt}
  {s s' : AuthState} {n password : PyStr}

/-- A query of a request that runs alone sees what is committed. -/
theorem alone_query {α : Type} (hidle : s.writer = none) {q : Query} {found : q.Answer}
    (h : s.committed.answer env.backend q = .ok found) (f : q.Answer → AuthProgram α) :
    ((AuthProgram.query q).bind f).alone (authExec env k) (a.choice others) s =
      (f found).alone (authExec env k) (a.choice others) s := by
  have hquery : s.query env k (a.choice others (.query q)) q = .ok found := by
    simp only [AuthState.query, LoginAttempt.choice, AuthState.visible, hidle]
    exact h
  change ((AuthProgram.ofPython (s.query env k (a.choice others (.query q)) q)).bind f).alone
    (authExec env k) (a.choice others) s = _
  rw [hquery]
  rfl

/-- A password that can be encoded is verified. -/
theorem alone_verify {α : Type} {b : Bool} {storedHash : PyStr}
    (h : verifyPassword env.unicode env.argon2 storedHash password = .ok b)
    (f : Bool → AuthProgram α) :
    ((AuthProgram.verify storedHash password).bind f).alone (authExec env k) (a.choice others) s =
      (f b).alone (authExec env k) (a.choice others) s := by
  change ((AuthProgram.ofPython (verifyPassword env.unicode env.argon2 storedHash password)).bind
    f).alone (authExec env k) (a.choice others) s = _
  rw [h]
  rfl

/-- A password that can be encoded is hashed. -/
theorem alone_hash {α : Type} {hash : PyStr}
    (h : hashPassword env.unicode env.argon2 env.config
      (a.choice others (.hashPassword password)).salt password = .ok hash)
    (f : PyStr → AuthProgram α) :
    ((AuthProgram.hash password).bind f).alone (authExec env k) (a.choice others) s =
      (f hash).alone (authExec env k) (a.choice others) s := by
  change ((AuthProgram.ofPython (hashPassword env.unicode env.argon2 env.config
    (a.choice others (.hashPassword password)).salt password)).bind f).alone
      (authExec env k) (a.choice others) s = _
  rw [h]
  rfl

/-- The password of a stored account can be replaced. -/
theorem exists_rehashUser {d : Database} {userId : PyStr}
    (hrow : (d.users.any fun u => u.id == userId) = true) (rehash : Option (PyStr × Datetime)) :
    ∃ d', d.rehashUser userId rehash = .ok d' := by
  cases rehash with
  | none => exact ⟨d, rfl⟩
  | some new => exact ⟨_, if_pos hrow⟩

/-- A write of a request that runs alone is made, where the database has what it needs. -/
theorem write_made {c : AuthChoice} (hfault : c.fault = none) (hidle : s.writer = none) {w : Write}
    (hok : ∃ out, s.committed.write env.sha256 k c.id c.token w = .ok out)
    {answer : Except PyError w.Answer} (h : s.write env k c w = some (s', answer)) :
    ∃ b, answer = .ok b := by
  obtain ⟨out, hout⟩ := hok
  unfold AuthState.write at h
  split at h
  · rename_i e hfault'
    rw [hfault] at hfault'
    cases hfault'
  · cases h
  · rename_i d _ hd
    have hcommitted : d = s.committed := by
      simp only [AuthState.writable, hidle, Option.some.injEq] at hd
      exact hd.symm
    subst hcommitted
    split at h
    · simp only [AuthState.writeTo, hout] at h
      cases h
      exact ⟨_, rfl⟩
    · cases h

/-- A session is opened for an account that is stored. -/
theorem openSession_alone (hidle : s.writer = none) {user : User}
    {rehash : Option (PyStr × Datetime)}
    (hrow : (s.committed.users.any fun u => u.id == user.id) = true)
    {r : Except AuthFailure IssuedCredentials}
    (h : (openSession env user rehash).alone (authExec env k) (a.choice others) s = some (s', r)) :
    ∃ c, r = .ok c := by
  obtain ⟨now, hnow, hrest⟩ := Option.bind_eq_some_iff.1 h
  cases hnow
  obtain ⟨⟨s₁, answer⟩, hwrite, hrest⟩ := Option.bind_eq_some_iff.1 hrest
  obtain ⟨d, hd⟩ := exists_rehashUser hrow rehash
  obtain ⟨drawn, rfl⟩ := write_made rfl hidle (by simp [Database.write, hd, Except.map]) hwrite
  cases hrest
  exact ⟨_, rfl⟩

/-- **The login of an account that exists**: it succeeds, or it is refused and recorded. -/
theorem loginUser_alone (hidle : s.writer = none) {user : User}
    (hrow : (s.committed.users.any fun u => u.id == user.id) = true)
    (hencodable : (env.unicode.nfkc password).any isSurrogate = false)
    {r : Except AuthFailure IssuedCredentials}
    (h : (loginUser env n user password).alone (authExec env k) (a.choice others) s =
      some (s', r)) :
    (∃ c, r = .ok c) ∨ ∃ reason, r = .error (invalidCredentials reason) ∧
      s' = { s with failedLogins := (s.failedLogins.recordFailure n a.recorded).1 } := by
  have hpassword : encodable (env.unicode.nfkc password) = .ok (env.unicode.nfkc password) := by
    simp [encodable, hencodable]
  have hverify : verifyPassword env.unicode env.argon2 user.passwordHash password =
      .ok (env.argon2.verify user.passwordHash (env.unicode.nfkc password)) := by
    simp [verifyPassword, hpassword, Except.map]
  unfold loginUser at h
  rw [Program.bind_eq, alone_verify hverify] at h
  split_ifs at h
  · cases h
    exact .inr ⟨_, rfl, rfl⟩
  · cases h
    exact .inr ⟨_, rfl, rfl⟩
  · refine .inl ?_
    unfold rehashPassword at h
    split_ifs at h
    · have hhash : ∀ salt, hashPassword env.unicode env.argon2 env.config salt password =
          .ok (env.argon2.hash env.config.argon2 salt (env.unicode.nfkc password)) := by
        simp [hashPassword, hpassword, Except.map]
      rw [Program.bind_eq, Program.bind_eq, Program.bind_assoc, alone_hash (hhash _)] at h
      exact openSession_alone (s := { s with failedLogins := s.failedLogins.reset n }) hidle hrow h
    · exact openSession_alone (s := { s with failedLogins := s.failedLogins.reset n }) hidle hrow h

/-- Where names are different, a query by name finds at most one account. -/
theorem exists_answer_userByName {d : Database} (h : (d.users.map User.usernameNormalized).Nodup)
    (b : Backend) (name : PyStr) :
    d.answer b (.userByName name) = .ok none ∨
      ∃ user ∈ d.users, d.answer b (.userByName name) = .ok (some (b.loadUser user)) := by
  by_cases hname : ∃ user ∈ d.users, user.usernameNormalized = name
  · obtain ⟨user, huser, rfl⟩ := hname
    refine .inr ⟨user, huser, ?_⟩
    simp only [Database.answer, Database.filter_eq_singleton h huser]
    rfl
  · refine .inl ?_
    have hnone : (d.users.filter fun u => u.usernameNormalized == name) = [] := by
      rw [List.filter_eq_nil_iff]
      exact fun u hu heq => hname ⟨u, hu, eq_of_beq heq⟩
    simp only [Database.answer, hnone]
    rfl

/-- **The login of a well-formed name**: it succeeds, or it is refused. -/
theorem loginNormalized_alone (hidle : s.writer = none)
    (hnames : (s.committed.users.map User.usernameNormalized).Nodup)
    (hencodable : (env.unicode.nfkc a.password).any isSurrogate = false)
    {r : Except AuthFailure IssuedCredentials}
    (h : (loginNormalized env n a.password).alone (authExec env k) (a.choice others) s =
      some (s', r)) :
    (∃ c, r = .ok c) ∨ ∃ e : AuthError, r = .error (.auth e) ∧
      s' = { s with failedLogins := (refuseNormalized n a s.failedLogins).1 } ∧
        (e.code, e.statusCode) = (refuseNormalized n a s.failedLogins).2 := by
  obtain ⟨out, hasked, hrest⟩ := Option.bind_eq_some_iff.1 h
  cases hasked
  unfold refuseNormalized
  dsimp only at hrest ⊢
  cases hblocked : (s.failedLogins.isBlocked n a.asked).2 with
  | true =>
      have hchoice : (s.failedLogins.isBlocked n (a.choice others (.isBlocked n)).monotonic).2 =
          true := hblocked
      rw [hchoice] at hrest
      cases hrest
      exact .inr ⟨_, rfl, rfl, rfl⟩
  | false =>
      have hchoice : (s.failedLogins.isBlocked n (a.choice others (.isBlocked n)).monotonic).2 =
          false := hblocked
      rw [hchoice] at hrest
      -- from here on the window has been pruned
      obtain ⟨s₁, hs₁⟩ : ∃ s₁ : AuthState,
          s₁ = { s with failedLogins := (s.failedLogins.isBlocked n a.asked).1 } := ⟨_, rfl⟩
      have hidle₁ : s₁.writer = none := by rw [hs₁]; exact hidle
      have hcommitted : s₁.committed = s.committed := by rw [hs₁]
      change ((AuthProgram.query (.userByName n)).bind _).alone _ _
        { s with failedLogins := (s.failedLogins.isBlocked n a.asked).1 } = _ at hrest
      rw [← hs₁] at hrest
      rw [← hcommitted] at hnames
      have hrefused : ∀ reason, r = .error (invalidCredentials reason) →
          s' = { s₁ with failedLogins := (s₁.failedLogins.recordFailure n a.recorded).1 } →
            (∃ c, r = .ok c) ∨ ∃ e : AuthError, r = .error (.auth e) ∧
              s' = { s with failedLogins :=
                ((s.failedLogins.isBlocked n a.asked).1.recordFailure n a.recorded).1 } ∧
              (e.code, e.statusCode) = (AuthErrorCode.invalidCredentials, 401) := by
        rintro reason rfl rfl
        rw [hs₁]
        exact .inr ⟨_, rfl, rfl, rfl⟩
      rcases exists_answer_userByName hnames env.backend n with hnone | ⟨user, huser, hfound⟩
      · have hend := (alone_query hidle₁ hnone _).symm.trans hrest
        cases hend
        exact hrefused _ rfl rfl
      · have hsessions := (alone_query hidle₁ hfound _).symm.trans hrest
        have hlogin := (alone_query (q := .sessionsOf _) hidle₁ rfl _).symm.trans hsessions
        have hrow : (s₁.committed.users.any fun u => u.id == (env.backend.loadUser user).id) =
            true := List.any_eq_true.2 ⟨user, huser, beq_self_eq_true _⟩
        rcases loginUser_alone hidle₁ hrow hencodable hlogin with hok | ⟨reason, hr, hs'⟩
        · exact .inl hok
        · exact hrefused reason hr hs'

theorem rollback_of_idle (hidle : s.writer = none) (i : ℕ) : s.rollback i = s := by
  simp [AuthState.rollback, hidle]

/-- **A login that fails does what the refusal does**, and leaves the database alone. -/
theorem attempt_refused (hidle : s.writer = none)
    (hnames : (s.committed.users.map User.usernameNormalized).Nodup)
    (hencodable : (env.unicode.nfkc a.password).any isSurrogate = false)
    {r : Except AuthFailure AuthResponse} (h : attempt env k others a s = some (s', r))
    (hfails : ∀ response, r ≠ .ok response) :
    s' = { s with failedLogins := (refusal env a s.failedLogins).1 } ∧
      external r = refusalAnswer (refusal env a s.failedLogins).2 := by
  unfold attempt at h
  unfold refusal
  cases hvalid : validateUsername env.unicode a.username with
  | error reason =>
      rw [authCode_login_error hvalid] at h
      cases h
      exact ⟨rollback_of_idle hidle k, rfl⟩
  | ok n =>
      rw [authCode_login hvalid, AuthProgram.inSession, Program.bind, Program.alone_handle,
        Program.alone_handle] at h
      obtain ⟨⟨s₂, r₂⟩, hbody, hend⟩ := Option.bind_eq_some_iff.1 h
      obtain ⟨⟨s₁, r₁⟩, hlogin, hresult⟩ := Option.bind_eq_some_iff.1 hbody
      rcases loginNormalized_alone hidle hnames hencodable hlogin with ⟨c, rfl⟩ | ⟨e, rfl, rfl, he⟩
      · -- the session commits
        cases hresult
        cases hend
        exact absurd rfl (hfails _)
      · cases hresult
        cases hend
        refine ⟨rollback_of_idle (s := { s with
          failedLogins := (refuseNormalized n a s.failedLogins).1 }) hidle k, ?_⟩
        change authErrorHandler e = refusalAnswer (refuseNormalized n a s.failedLogins).2
        rw [← he]
        rfl

end Attempt

/-! ### Sequences of attempts -/

/-- A sequence of attempts that fail, as the tracker and the client see it. -/
def refusals (env : AuthEnv) :
    List LoginAttempt → FailedLoginTracker → FailedLoginTracker × List External
  | [], t => (t, [])
  | a :: as, t =>
      let refused := refusal env a t
      let rest := refusals env as refused.1
      (rest.1, refusalAnswer refused.2 :: rest.2)

/-- **A sequence of logins that fail**, computed without a database. -/
theorem attempts_refused {env : AuthEnv} {others : ℕ → AuthOp → AuthChoice} {k : ℕ}
    {as : List LoginAttempt} {s s' : AuthState} {rs : List (Except AuthFailure AuthResponse)}
    (hidle : s.writer = none) (hnames : (s.committed.users.map User.usernameNormalized).Nodup)
    (hencodable : ∀ a ∈ as, (env.unicode.nfkc a.password).any isSurrogate = false)
    (h : attempts env others k as s = some (s', rs)) (hfails : ∀ r ∈ rs, ∀ response, r ≠ .ok response) :
    s'.failedLogins = (refusals env as s.failedLogins).1 ∧
      rs.map external = (refusals env as s.failedLogins).2 := by
  induction as generalizing k s rs with
  | nil =>
      cases h
      exact ⟨rfl, rfl⟩
  | cons a as ih =>
      obtain ⟨⟨s₁, r⟩, hfirst, hlater⟩ := Option.bind_eq_some_iff.1 h
      obtain ⟨⟨s₂, rest⟩, hrest, hout⟩ := Option.map_eq_some_iff.1 hlater
      cases hout
      obtain ⟨rfl, hanswer⟩ := attempt_refused hidle hnames (hencodable a List.mem_cons_self) hfirst
        (hfails r List.mem_cons_self)
      obtain ⟨htracker, hanswers⟩ := ih (s := { s with
          failedLogins := (refusal env a s.failedLogins).1 }) hidle hnames
        (fun a' ha' => hencodable a' (List.mem_cons_of_mem _ ha')) hrest
        fun r' hr' => hfails r' (List.mem_cons_of_mem _ hr')
      refine ⟨htracker, ?_⟩
      rw [List.map_cons, hanswer, hanswers]
      rfl

/-- **Login does not reveal which accounts exist.**  Over two databases, the same attempts, none of
which succeeds in either, get the same answers, and leave the same tracker. -/
theorem login_reveals_nothing {env : AuthEnv}
    (hnfkc : ∀ x, x.any isSurrogate = false → (env.unicode.nfkc x).any isSurrogate = false)
    {open₁ open₂ : ℕ → AuthOp → AuthChoice} {as : List LoginAttempt}
    (hencodable : ∀ a ∈ as, a.password.any isSurrogate = false) {s₁ s₂ t₁ t₂ : AuthState}
    {rs₁ rs₂ : List (Except AuthFailure AuthResponse)} (hidle₁ : s₁.writer = none)
    (hidle₂ : s₂.writer = none)
    (hnames₁ : (s₁.committed.users.map User.usernameNormalized).Nodup)
    (hnames₂ : (s₂.committed.users.map User.usernameNormalized).Nodup)
    (htracker : s₁.failedLogins = s₂.failedLogins)
    (h₁ : attempts env open₁ 0 as s₁ = some (t₁, rs₁))
    (h₂ : attempts env open₂ 0 as s₂ = some (t₂, rs₂))
    (hfails₁ : ∀ r ∈ rs₁, ∀ response, r ≠ .ok response)
    (hfails₂ : ∀ r ∈ rs₂, ∀ response, r ≠ .ok response) :
    rs₁.map external = rs₂.map external ∧ t₁.failedLogins = t₂.failedLogins := by
  have hpasswords : ∀ a ∈ as, (env.unicode.nfkc a.password).any isSurrogate = false :=
    fun a ha => hnfkc a.password (hencodable a ha)
  obtain ⟨htracker₁, hanswers₁⟩ := attempts_refused hidle₁ hnames₁ hpasswords h₁ hfails₁
  obtain ⟨htracker₂, hanswers₂⟩ := attempts_refused hidle₂ hnames₂ hpasswords h₂ hfails₂
  rw [hanswers₁, hanswers₂, htracker₁, htracker₂, htracker]
  exact ⟨rfl, rfl⟩

/-- Eleven guesses at the password of `alice`, the right one among them. -/
def elevenGuesses : List LoginAttempt :=
  (List.range 11).map fun i =>
    ⟨py "Alice", if i = 5 then samplePassword else py "battery staple", i, i⟩

/-- The account of `alice` is there, and disabled. -/
def aliceDisabled : AuthState :=
  { aliceAlone with
    committed :=
      { aliceAlone.committed with users := [{ aliceAccount with status := .disabled }] } }

/-- What a test of the answers has found. -/
theorem exists_attempts {env : AuthEnv} {others : ℕ → AuthOp → AuthChoice} {as : List LoginAttempt}
    {s : AuthState} (h : (attempts env others 0 as s).map (fun out =>
      out.2.all fun r => r matches .error _) = some true) :
    ∃ t rs, attempts env others 0 as s = some (t, rs) ∧
      ∀ r ∈ rs, ∀ response, r ≠ .ok response := by
  obtain ⟨⟨t, rs⟩, hattempts, hall⟩ := Option.map_eq_some_iff.1 h
  refine ⟨t, rs, hattempts, ?_⟩
  rintro r hr response rfl
  cases List.all_eq_true.1 hall _ hr

/-- No account, and a disabled one. -/
theorem login_reveals_nothing_alice :
    ∃ t₁ rs₁ t₂ rs₂,
      attempts (sampleEnv .instants) (fun _ _ => {}) 0 elevenGuesses (.new (sampleEnv .instants)) =
          some (t₁, rs₁) ∧
        attempts (sampleEnv .instants) (fun _ _ => {}) 0 elevenGuesses aliceDisabled =
          some (t₂, rs₂) ∧
        rs₁.map external = rs₂.map external ∧ t₁.failedLogins = t₂.failedLogins := by
  have hencodable : ∀ a ∈ elevenGuesses, a.password.any isSurrogate = false := by decide +kernel
  have hnobody : ((AuthState.new (sampleEnv .instants)).committed.users.map
      User.usernameNormalized).Nodup := List.nodup_nil
  have hnames : (aliceDisabled.committed.users.map User.usernameNormalized).Nodup := by
    decide +kernel
  have hnone : ((attempts (sampleEnv .instants) (fun _ _ => {}) 0 elevenGuesses
      (.new (sampleEnv .instants))).map fun out => out.2.all fun r => r matches .error _) =
        some true := by decide +kernel
  have hdisabled : ((attempts (sampleEnv .instants) (fun _ _ => {}) 0 elevenGuesses
      aliceDisabled).map fun out => out.2.all fun r => r matches .error _) = some true := by
    decide +kernel
  obtain ⟨t₁, rs₁, h₁, hfails₁⟩ := exists_attempts hnone
  obtain ⟨t₂, rs₂, h₂, hfails₂⟩ := exists_attempts hdisabled
  have hnfkc : ∀ x : PyStr, x.any isSurrogate = false →
      ((sampleEnv .instants).unicode.nfkc x).any isSurrogate = false := fun _ h => h
  have htracker : (AuthState.new (sampleEnv .instants)).failedLogins = aliceDisabled.failedLogins :=
    rfl
  exact ⟨t₁, rs₁, t₂, rs₂, h₁, h₂, login_reveals_nothing hnfkc hencodable rfl rfl hnobody
    hnames htracker h₁ h₂ hfails₁ hfails₂⟩

end EncryptChat
