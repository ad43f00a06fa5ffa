/-
**Which password opens an account.**

A login stores a new hash of what was typed this time whenever the parameters of Argon2 have changed.
What was typed may be spelled otherwise than at the registration, so what the account is opened by
could drift from login to login; it does not, because hash and verification go through one NFKC form.

Registrations and logins run here one after the other, and the service may be restarted with other
settings between them.

Main definitions:

* `EncryptChat.Argon2.Ideal` — a hash verifies the string it is a hash of, and no other;
* `EncryptChat.Deployment`, `EncryptChat.deploymentSystem` — **a service that is restarted now and
  then**, and the registrations and logins it serves;
* `EncryptChat.Registers` — a registration that succeeds;
* `EncryptChat.OpensWith` — the passwords an account verifies.

Main results:

* `EncryptChat.register_eval`, `EncryptChat.login_eval` — what a registration and a login do;
* `EncryptChat.password_never_drifts` — **every account is opened by the passwords that have the NFKC
  form it was registered with, and by no others**.
-/

import EncryptChat.AuthEval
import EncryptChat.LoginAnswers
import EncryptChat.PasswordForms

set_option relaxedAutoImplicit false
set_option autoImplicit false

namespace EncryptChat

open Python Concurrent Transition AuthService

/-! ### What has been written -/

/-- The request has written nothing. -/
structure Unwritten (s s₁ : AuthState) : Prop where
  idle : s₁.writer = none
  committed : s₁.committed = s.committed
  usedIds : s.usedIds ⊆ s₁.usedIds

/-- The request has written these accounts, and nothing has been committed. -/
structure Wrote (k : ℕ) (users : List User) (s s₁ : AuthState) : Prop where
  writer : ∃ d : Database, s₁.writer = some (k, d) ∧ d.users = users
  committed : s₁.committed = s.committed
  usedIds : s.usedIds ⊆ s₁.usedIds

section Write

variable {env : AuthEnv} {k : ℕ} {s s₁ : AuthState} {c : AuthChoice}

theorem Unwritten.refl (h : s.writer = none) : Unwritten s s := ⟨h, rfl, List.Subset.refl _⟩

theorem Unwritten.rollback (h : Unwritten s s₁) : Unwritten s (s₁.rollback k) := by
  have hsame : s₁.rollback k = s₁ := by simp [AuthState.rollback, h.idle]
  rw [hsame]
  exact h

theorem Wrote.rollback {users : List User} (h : Wrote k users s s₁) :
    Unwritten s (s₁.rollback k) := by
  obtain ⟨⟨d, hwriter, -⟩, hcommitted, hused⟩ := h
  have hrolled : s₁.rollback k = { s₁ with writer := none } := by simp [AuthState.rollback, hwriter]
  rw [hrolled]
  exact ⟨rfl, hcommitted, hused⟩

/-- What has been written is committed. -/
theorem Wrote.commit {users : List User} (h : Wrote k users s s₁) :
    (s₁.commit k).writer = none ∧ (s₁.commit k).committed.users = users ∧
      s.usedIds ⊆ (s₁.commit k).usedIds := by
  obtain ⟨⟨d, hwriter, rfl⟩, -, hused⟩ := h
  have hcommits : s₁.commit k = { s₁ with committed := d, writer := none } := by
    simp [AuthState.commit, hwriter]
  rw [hcommits]
  exact ⟨rfl, rfl, hused⟩

/-- **A write of a request that runs alone**: the database raises, or it has what the write makes of
what is committed. -/
theorem write_of_idle (hidle : s.writer = none) {w : Write} {answer : Except PyError w.Answer}
    (h : s.write env k c w = some (s₁, answer)) :
    (∃ e, answer = .error e ∧ s₁ = s ∧
        (c.fault = none → s.committed.write env.sha256 k c.id c.token w = .error e)) ∨
      ∃ d a, answer = .ok a ∧ s.committed.write env.sha256 k c.id c.token w = .ok (d, a) ∧
        s.Fresh c ∧ s₁ = { s with
          writer := some (k, d)
          usedIds := c.id :: s.usedIds
          usedTokens := c.token :: s.usedTokens } := by
  unfold AuthState.write at h
  cases hfault : c.fault with
  | some e =>
      simp only [hfault, Option.some.injEq, Prod.mk.injEq] at h
      exact .inl ⟨e, h.2.symm, h.1.symm, fun hnone => by cases hnone⟩
  | none =>
      have hwritable : s.writable k = some s.committed := by simp [AuthState.writable, hidle]
      simp only [hfault, hwritable] at h
      split_ifs at h with hfresh
      rw [Option.some.injEq, AuthState.writeTo] at h
      cases hw : s.committed.write env.sha256 k c.id c.token w with
      | error e =>
          simp only [hw, Prod.mk.injEq] at h
          exact .inl ⟨e, h.2.symm, h.1.symm, fun _ => rfl⟩
      | ok out =>
          obtain ⟨d, a⟩ := out
          simp only [hw, Prod.mk.injEq] at h
          exact .inr ⟨d, a, h.2.symm, rfl, hfresh, h.1.symm⟩

end Write

/-! ### Registrations -/

/-- `INSERT INTO users` of a name that nobody has. -/
theorem createUser_eq_some {d d' : Database} {id username n hash : PyStr} {now : Datetime}
    {user : User} (h : d.createUser id username n hash now = (d', some user)) :
    (∀ v ∈ d.users, v.usernameNormalized ≠ n) ∧ user.id = id ∧ user.usernameNormalized = n ∧
      user.passwordHash = hash ∧ user.status = .active ∧ d'.users = d.users ++ [user] := by
  unfold Database.createUser at h
  split_ifs at h with htaken
  · cases h
  simp only [Prod.mk.injEq, Option.some.injEq] at h
  obtain ⟨rfl, rfl⟩ := h
  refine ⟨fun v hv heq => htaken ?_, rfl, rfl, rfl, rfl, rfl⟩
  exact List.any_eq_true.2 ⟨v, hv, beq_iff_eq.2 heq⟩

/-- What a registration that succeeds has stored. -/
structure Stores (env : AuthEnv) (s : AuthState) (username password : PyStr) (user : User) :
    Prop where
  name : validateUsername env.unicode username = .ok user.usernameNormalized
  new : ∀ v ∈ s.committed.users, v.usernameNormalized ≠ user.usernameNormalized
  id : user.id ∉ s.usedIds
  active : user.status = .active
  hash : ∃ salt, hashPassword env.unicode env.argon2 env.config salt password =
    .ok user.passwordHash

section Register

variable {env : AuthEnv} {k : ℕ} {s : AuthState} {cs : List AuthChoice} {username password : PyStr}

/-- `register`, alone. -/
theorem register_body (hidle : s.writer = none) {s₁ : AuthState} {r : Except AuthFailure User}
    (h : (register env username password).eval (authExec env k) cs s = some (s₁, r)) :
    (Unwritten s s₁ ∧ ∀ user, r ≠ .ok user) ∨
      ∃ user, r = .ok user ∧ Stores env s username password user ∧
        Wrote k (s.committed.users ++ [user]) s s₁ ∧ user.id ∈ s₁.usedIds := by
  have hraised : ∀ {e : AuthFailure} {out : AuthState × Except AuthFailure User},
      (s₁, r) = out → out = (s, .error e) →
        Unwritten s s₁ ∧ ∀ user, r ≠ .ok user := by
    rintro e out rfl hout
    cases hout
    exact ⟨.refl hidle, fun user huser => by cases huser⟩
  unfold register at h
  rw [Program.bind_eq] at h
  rcases eval_ofExcept_eq_some h with ⟨e, -, hout⟩ | ⟨n, hname, h⟩
  · exact .inl (hraised rfl hout)
  rcases eval_ofExcept_eq_some h with ⟨e, -, hout⟩ | ⟨⟨⟩, -, h⟩
  · exact .inl (hraised rfl hout)
  obtain ⟨c, cs₁, rfl, ⟨e, -, hout⟩ | ⟨hash, hhash, h⟩⟩ := eval_hash_eq_some h
  · exact .inl (hraised rfl hout)
  obtain ⟨c₁, cs₂, mid, rfl, hclock, h⟩ := eval_perform_eq_some h
  cases hclock
  obtain ⟨c₂, cs₃, s₂, answer, rfl, hwrite, hanswer⟩ := eval_write_eq_some h
  rcases write_of_idle hidle hwrite with ⟨e, rfl, rfl, -⟩ | ⟨d, created, rfl, hd, hfresh, rfl⟩
  · rcases hanswer with ⟨e', -, hout⟩ | ⟨a, ha, -⟩
    · exact .inl (hraised rfl hout)
    · cases ha
  · rcases hanswer with ⟨e', he', -⟩ | ⟨a, ha, h⟩
    · cases he'
    cases ha
    have hn : validateUsername env.unicode username = .ok n := by
      unfold registrationUsername at hname
      split at hname
      · rename_i hvalid
        cases hname
        exact hvalid
      · cases hname
    have hused : s.usedIds ⊆ c₂.id :: s.usedIds := List.subset_cons_self _ _
    cases created with
    | none =>
        obtain ⟨c₃, cs₄, mid, -, hroll, hend⟩ := Program.eval_step_eq_some _ h
        cases hroll
        have hend' := Option.some.inj ((eval_raise _).symm.trans hend)
        cases hend'
        -- the name is taken: the write is rolled back
        have hwrote : Wrote k d.users s { s with
          writer := some (k, d)
          usedIds := c₂.id :: s.usedIds
          usedTokens := c₂.token :: s.usedTokens } := ⟨⟨d, rfl, rfl⟩, rfl, hused⟩
        exact .inl ⟨hwrote.rollback, fun user huser => by cases huser⟩
    | some user =>
        have hend := Option.some.inj ((Program.eval_done _ _ _ _).symm.trans h)
        cases hend
        have hcreated : s.committed.createUser c₂.id (strip username) n hash (.utc c₁.time) =
            (d, some user) := Except.ok.inj hd
        obtain ⟨hnew, hid, huser, hstored, hactive, husers⟩ := createUser_eq_some hcreated
        refine .inr ⟨user, rfl, ⟨?_, ?_, ?_, hactive, c.salt, ?_⟩, ?_, ?_⟩
        · rw [huser]
          exact hn
        · rw [huser]
          exact hnew
        · rw [hid]
          exact hfresh.2.2.1
        · rw [hstored]
          exact hhash
        · exact ⟨⟨d, rfl, husers⟩, rfl, hused⟩
        · rw [hid]
          exact List.mem_cons_self

end Register

/-! ### Logins -/

/-- The accounts after a login: as they were, or with the hash of the account replaced by one of what
was typed. -/
def Rehashed (env : AuthEnv) (password userId : PyStr) (users users' : List User) : Prop :=
  users' = users ∨ ∃ salt hash updatedAt,
    hashPassword env.unicode env.argon2 env.config salt password = .ok hash ∧
      users' = users.map fun u =>
        if u.id == userId then { u with passwordHash := hash, updatedAt } else u

/-- The upgrade a login flushes: none, or a hash of what was typed. -/
def IsUpgrade (env : AuthEnv) (password : PyStr) : Option (PyStr × Datetime) → Prop
  | none => True
  | some (hash, _) => ∃ salt,
      hashPassword env.unicode env.argon2 env.config salt password = .ok hash

theorem IsUpgrade.rehashed {env : AuthEnv} {password userId : PyStr} {d d' : Database}
    {rehash : Option (PyStr × Datetime)} (h : IsUpgrade env password rehash)
    (hd : d.rehashUser userId rehash = .ok d') : Rehashed env password userId d.users d'.users := by
  cases rehash with
  | none =>
      cases hd
      exact .inl rfl
  | some new =>
      obtain ⟨hash, updatedAt⟩ := new
      obtain ⟨salt, hsalt⟩ := h
      simp only [Database.rehashUser] at hd
      split_ifs at hd
      cases hd
      exact .inr ⟨salt, hash, updatedAt, hsalt, rfl⟩

section Login

variable {env : AuthEnv} {k : ℕ} {s : AuthState} {cs : List AuthChoice}
  {n username password : PyStr} {user : User}

/-- `_open_session` of an account that is stored: only the database can make it fail. -/
theorem openSession_body (hidle : s.writer = none)
    (hrow : (s.committed.users.any fun u => u.id == user.id) = true)
    {rehash : Option (PyStr × Datetime)} {s₁ : AuthState}
    {r : Except AuthFailure IssuedCredentials}
    (h : (openSession env user rehash).eval (authExec env k) cs s = some (s₁, r)) :
    (Unwritten s s₁ ∧ (∀ credentials, r ≠ .ok credentials) ∧ ∃ c ∈ cs, c.fault ≠ none) ∨
      ∃ credentials d, r = .ok credentials ∧ credentials.userId = user.id ∧
        s.committed.rehashUser user.id rehash = .ok d ∧ Wrote k d.users s s₁ := by
  unfold openSession at h
  rw [Program.bind_eq] at h
  obtain ⟨c, cs₁, mid, rfl, hclock, h⟩ := eval_perform_eq_some h
  cases hclock
  obtain ⟨c₁, cs₂, s₂, answer, rfl, hwrite, hanswer⟩ := eval_write_eq_some h
  obtain ⟨d₁, hd₁⟩ := exists_rehashUser hrow rehash
  rcases write_of_idle hidle hwrite with ⟨e, rfl, rfl, hfault⟩ | ⟨d, drawn, rfl, hd, hfresh, rfl⟩
  · rcases hanswer with ⟨e', -, hout⟩ | ⟨a, ha, -⟩
    · cases hout
      refine .inl ⟨.refl hidle, (fun credentials hr => by cases hr), c₁, by simp, fun hnone => ?_⟩
      have hfails := hfault hnone
      simp only [Database.write, hd₁, Except.map] at hfails
      cases hfails
    · cases ha
  · rcases hanswer with ⟨e', he', -⟩ | ⟨a, ha, h⟩
    · cases he'
    cases ha
    obtain ⟨c₂, cs₃, mid, -, hissue, hend⟩ := eval_perform_eq_some h
    cases hissue
    have hout := Option.some.inj ((Program.eval_done _ _ _ _).symm.trans hend)
    cases hout
    simp only [Database.write, hd₁, Except.map] at hd
    have hpair := Except.ok.inj hd
    refine .inr ⟨_, d₁, rfl, rfl, hd₁, ⟨d, rfl, ?_⟩, rfl, List.subset_cons_self _ _⟩
    rw [← (Prod.mk.inj hpair).1]
    rfl

/-- The upgrade of the hash of an account that has been verified. -/
theorem rehashPassword_body {α : Type} {f : Option (PyStr × Datetime) → AuthProgram α}
    (hencodable : (env.unicode.nfkc password).any isSurrogate = false)
    {out : AuthState × Except AuthFailure α}
    (h : ((rehashPassword env user password).bind f).eval (authExec env k) cs s = some out) :
    ∃ rehash rest, rest <:+ cs ∧ IsUpgrade env password rehash ∧
      (f rehash).eval (authExec env k) rest s = some out := by
  unfold rehashPassword at h
  split_ifs at h
  · rw [Program.bind_eq, Program.bind_assoc] at h
    obtain ⟨c, cs₁, rfl, ⟨e, hfails, -⟩ | ⟨hash, hhash, h⟩⟩ := eval_hash_eq_some h
    · rw [hashPassword_of_encodable hencodable] at hfails
      cases hfails
    obtain ⟨c₁, cs₂, mid, rfl, hclock, h⟩ := eval_perform_eq_some h
    cases hclock
    refine ⟨some (hash, .utc c₁.time), cs₂, ?_, ⟨c.salt, hhash⟩, h⟩
    exact (List.suffix_cons c₁ cs₂).trans (List.suffix_cons c _)
  · exact ⟨none, cs, List.suffix_refl cs, trivial, h⟩

/-- What the tracker does is not written to the database. -/
theorem Unwritten.of_tracker {t : FailedLoginTracker} {s₁ : AuthState}
    (h : Unwritten { s with failedLogins := t } s₁) : Unwritten s s₁ :=
  ⟨h.idle, h.committed, h.usedIds⟩

theorem Wrote.of_tracker {t : FailedLoginTracker} {users : List User} {s₁ : AuthState}
    (h : Wrote k users { s with failedLogins := t } s₁) : Wrote k users s s₁ :=
  ⟨h.writer, h.committed, h.usedIds⟩

/-- A login that is refused writes nothing. -/
theorem failLogin_body {α : Type} (hidle : s.writer = none) {reason : PyStr} {s₁ : AuthState}
    {r : Except AuthFailure α}
    (h : (failLogin n reason : AuthProgram α).eval (authExec env k) cs s = some (s₁, r)) :
    Unwritten s s₁ ∧ ∀ a, r ≠ .ok a := by
  unfold failLogin at h
  rw [Program.bind_eq] at h
  obtain ⟨c, cs₁, mid, rfl, hrecord, hend⟩ := eval_perform_eq_some h
  cases hrecord
  cases Option.some.inj ((eval_raise _).symm.trans hend)
  exact ⟨⟨hidle, rfl, List.Subset.refl _⟩, fun a ha => by cases ha⟩

/-- Where names are different, a query by name finds the account that has it, or there is none. -/
theorem answer_userByName_cases {d : Database} (h : (d.users.map User.usernameNormalized).Nodup)
    (b : Backend) (n : PyStr) :
    (d.answer b (.userByName n) = .ok none ∧ ∀ user ∈ d.users, user.usernameNormalized ≠ n) ∨
      ∃ user ∈ d.users, user.usernameNormalized = n ∧
        d.answer b (.userByName n) = .ok (some (b.loadUser user)) := by
  by_cases hname : ∃ user ∈ d.users, user.usernameNormalized = n
  · obtain ⟨user, huser, rfl⟩ := hname
    refine .inr ⟨user, huser, rfl, ?_⟩
    simp only [Database.answer, Database.filter_eq_singleton h huser]
    rfl
  · have hnobody : ∀ user ∈ d.users, user.usernameNormalized ≠ n := fun user huser heq =>
      hname ⟨user, huser, heq⟩
    refine .inl ⟨?_, hnobody⟩
    have hnone : (d.users.filter fun u => u.usernameNormalized == n) = [] := by
      rw [List.filter_eq_nil_iff]
      exact fun u hu heq => hnobody u hu (eq_of_beq heq)
    simp only [Database.answer, hnone]
    rfl

/-- A query of a request that runs alone sees what is committed, unless the database raises. -/
theorem query_of_idle (hidle : s.writer = none) {c : AuthChoice} {q : Query}
    {answer : Except PyError q.Answer} (h : s.query env k c q = answer) :
    s.committed.answer env.backend q = answer ∨ c.fault ≠ none ∧ ∃ e, answer = .error e := by
  unfold AuthState.query at h
  split at h
  · rename_i e hfault
    exact .inr ⟨by simp [hfault], e, h.symm⟩
  · simp only [AuthState.visible, hidle] at h
    exact .inl h

/-- `login` of an account that exists, alone. -/
theorem loginUser_body (hidle : s.writer = none)
    (hrow : (s.committed.users.any fun u => u.id == user.id) = true) {s₁ : AuthState}
    {r : Except AuthFailure IssuedCredentials}
    (h : (loginUser env n user password).eval (authExec env k) cs s = some (s₁, r)) :
    (Unwritten s s₁ ∧ (∀ credentials, r ≠ .ok credentials) ∧
        ((∃ c ∈ cs, c.fault ≠ none) ∨
          verifyPassword env.unicode env.argon2 user.passwordHash password ≠ .ok true ∨
            user.isActive = false)) ∨
      ∃ credentials users', r = .ok credentials ∧ credentials.userId = user.id ∧
        verifyPassword env.unicode env.argon2 user.passwordHash password = .ok true ∧
        Rehashed env password user.id s.committed.users users' ∧ Wrote k users' s s₁ := by
  unfold loginUser at h
  rw [Program.bind_eq] at h
  obtain ⟨c, cs₁, rfl, ⟨e, hverify, hout⟩ | ⟨verified, hverify, h⟩⟩ := eval_verify_eq_some h
  · cases hout
    refine .inl ⟨.refl hidle, (fun credentials hr => by cases hr), .inr (.inl ?_)⟩
    rw [hverify]
    simp
  split_ifs at h with hmismatch hdisabled
  · obtain ⟨hnothing, hfails⟩ := failLogin_body hidle h
    refine .inl ⟨hnothing, hfails, .inr (.inl ?_)⟩
    rw [hverify, hmismatch]
    simp
  · obtain ⟨hnothing, hfails⟩ := failLogin_body hidle h
    exact .inl ⟨hnothing, hfails, .inr (.inr hdisabled)⟩
  · rw [Bool.not_eq_false] at hmismatch
    subst hmismatch
    -- a password that was verified can be encoded, so hashing it again does not raise
    have hencodable : (env.unicode.nfkc password).any isSurrogate = false := by
      unfold verifyPassword encodable at hverify
      split_ifs at hverify with hany
      · cases hverify
      · simpa using hany
    rw [Program.bind_eq] at h
    obtain ⟨rehash, rest, hsuffix, hupgrade, h⟩ := rehashPassword_body hencodable h
    rw [Program.bind_eq] at h
    obtain ⟨c₁, cs₂, mid, rfl, hreset, h⟩ := eval_perform_eq_some h
    cases hreset
    have hidle' : ({ s with failedLogins := s.failedLogins.reset n } : AuthState).writer = none :=
      hidle
    rcases openSession_body hidle' hrow h with
      ⟨hnothing, hfails, c₂, hc₂, hfault⟩ | ⟨credentials, d, rfl, hid, hd, hwrote⟩
    · refine .inl ⟨hnothing.of_tracker, hfails, .inl ⟨c₂, ?_, hfault⟩⟩
      exact List.mem_cons_of_mem _ (hsuffix.subset (List.mem_cons_of_mem _ hc₂))
    · exact .inr ⟨credentials, d.users, rfl, hid, hverify, hupgrade.rehashed hd,
        hwrote.of_tracker⟩

/-- **A login, alone**: where it fails, something stood in its way; where it succeeds, it has verified
the password of an account of that name, and may have replaced its hash. -/
theorem login_body (hidle : s.writer = none)
    (hnames : (s.committed.users.map User.usernameNormalized).Nodup) {s₁ : AuthState}
    {r : Except AuthFailure IssuedCredentials}
    (h : (login env username password).eval (authExec env k) cs s = some (s₁, r)) :
    (Unwritten s s₁ ∧ (∀ credentials, r ≠ .ok credentials) ∧
        ((∃ c ∈ cs, c.fault ≠ none) ∨ ∀ n, validateUsername env.unicode username = .ok n →
          (∃ c ∈ cs.head?, (s.failedLogins.isBlocked n c.monotonic).2 = true) ∨
            ∀ user ∈ s.committed.users, user.usernameNormalized = n →
              verifyPassword env.unicode env.argon2 user.passwordHash password ≠ .ok true ∨
                user.isActive = false)) ∨
      ∃ credentials users', ∃ user ∈ s.committed.users, r = .ok credentials ∧
        credentials.userId = user.id ∧
        validateUsername env.unicode username = .ok user.usernameNormalized ∧
        verifyPassword env.unicode env.argon2 user.passwordHash password = .ok true ∧
        Rehashed env password user.id s.committed.users users' ∧ Wrote k users' s s₁ := by
  unfold login at h
  cases hvalid : validateUsername env.unicode username with
  | error reason =>
      simp only [hvalid] at h
      rw [Program.bind_eq] at h
      obtain ⟨c, cs₁, mid, rfl, hdummy, hend⟩ := eval_perform_eq_some h
      cases hdummy
      cases Option.some.inj ((eval_raise _).symm.trans hend)
      exact .inl ⟨.refl hidle, (fun credentials hr => by cases hr), .inr fun n hn => by cases hn⟩
  | ok n =>
      simp only [hvalid] at h
      unfold loginNormalized at h
      rw [Program.bind_eq] at h
      obtain ⟨c, cs₁, mid, rfl, hasked, h⟩ := eval_perform_eq_some h
      cases hasked
      dsimp only at h
      split_ifs at h with hblocked
      · cases Option.some.inj ((eval_raise _).symm.trans h)
        refine .inl ⟨⟨hidle, rfl, List.Subset.refl _⟩, (fun credentials hr => by cases hr), .inr ?_⟩
        rintro n' hn'
        cases hn'
        exact .inl ⟨c, rfl, hblocked⟩
      -- from here on the window has been pruned
      obtain ⟨t, ht⟩ : ∃ t, t = (s.failedLogins.isBlocked n c.monotonic).1 := ⟨_, rfl⟩
      rw [← ht] at h
      have hidle' : ({ s with failedLogins := t } : AuthState).writer = none := hidle
      have hlookup : ((AuthProgram.query (.userByName n)).bind _).eval (authExec env k) cs₁
        { s with failedLogins := t } = some (s₁, r) := h
      obtain ⟨c₁, cs₂, rfl, ⟨e, hquery, hout⟩ | ⟨found, hquery, h⟩⟩ := eval_query_eq_some hlookup
      · cases hout
        refine .inl ⟨⟨hidle, rfl, List.Subset.refl _⟩, (fun credentials hr => by cases hr), .inl ?_⟩
        rcases query_of_idle hidle' hquery with hanswer | ⟨hfault, -⟩
        · rcases answer_userByName_cases hnames env.backend n with ⟨heq, -⟩ | ⟨user, -, -, heq⟩
          · cases heq.symm.trans hanswer
          · cases heq.symm.trans hanswer
        · exact ⟨c₁, by simp, hfault⟩
      have hfound : s.committed.answer env.backend (.userByName n) = .ok found := by
        rcases query_of_idle hidle' hquery with hanswer | ⟨-, e, he⟩
        · exact hanswer
        · cases he
      rcases answer_userByName_cases hnames env.backend n with
        ⟨hnone, hnobody⟩ | ⟨user, huser, rfl, hsome⟩
      · cases hfound.symm.trans hnone
        obtain ⟨c₂, cs₃, mid, rfl, hdummy, h⟩ := eval_perform_eq_some h
        cases hdummy
        obtain ⟨hnothing, hfails⟩ := failLogin_body hidle' h
        refine .inl ⟨hnothing.of_tracker, hfails, .inr ?_⟩
        rintro n' hn'
        cases hn'
        exact .inr fun user huser hname => absurd hname (hnobody user huser)
      · cases hfound.symm.trans hsome
        have hload : ((AuthProgram.query (.sessionsOf user.id)).bind fun _ =>
            loginUser env user.usernameNormalized (env.backend.loadUser user) password).eval
              (authExec env k) cs₂ { s with failedLogins := t } = some (s₁, r) := h
        obtain ⟨c₂, cs₃, rfl, ⟨e, hsessions, hout⟩ | ⟨ids, -, h⟩⟩ := eval_query_eq_some hload
        · cases hout
          refine .inl ⟨⟨hidle, rfl, List.Subset.refl _⟩, (fun credentials hr => by cases hr), .inl ?_⟩
          rcases query_of_idle hidle' hsessions with hanswer | ⟨hfault, -⟩
          · cases hanswer
          · exact ⟨c₂, by simp, hfault⟩
        have hrow : (s.committed.users.any fun u => u.id == (env.backend.loadUser user).id) =
            true := List.any_eq_true.2 ⟨user, huser, beq_self_eq_true _⟩
        rcases loginUser_body hidle' hrow h with
          ⟨hnothing, hfails, hreason⟩ | ⟨credentials, users', rfl, hid, hverify, hrehash, hwrote⟩
        · refine .inl ⟨hnothing.of_tracker, hfails, ?_⟩
          rcases hreason with ⟨c₃, hc₃, hfault⟩ | hreason
          · exact .inl ⟨c₃, by simp [hc₃], hfault⟩
          · refine .inr ?_
            rintro n' hn'
            cases hn'
            refine .inr fun user' huser' hname' => ?_
            have hsame : user' = user := List.inj_on_of_nodup_map hnames huser' huser hname'
            rw [hsame]
            exact hreason
        · exact .inr ⟨credentials, users', user, huser, rfl, hid, rfl, hverify, hrehash,
            hwrote.of_tracker⟩

end Login

/-! ### Requests -/

section Request

variable {env : AuthEnv} {k : ℕ} {s s' : AuthState} {cs : List AuthChoice}
  {username password : PyStr} {r : Except AuthFailure AuthResponse}

/-- **What a registration does**: it fails and stores nothing, or it stores an account. -/
theorem register_eval (hidle : s.writer = none)
    (h : (authCode env (.register username password)).eval (authExec env k) cs s = some (s', r)) :
    s'.writer = none ∧ s.usedIds ⊆ s'.usedIds ∧
      ((s'.committed.users = s.committed.users ∧ ∀ response, r ≠ .ok response) ∨
        ∃ user, r = .ok (.registered user) ∧ Stores env s username password user ∧
          user.id ∈ s'.usedIds ∧ s'.committed.users = s.committed.users ++ [user]) := by
  obtain ⟨s₁, r₁, rest, -, hbody, hend⟩ := eval_inSession_eq_some h
  obtain ⟨⟨s₂, r₂⟩, rest₂, -, hregister, hpure⟩ := Program.eval_handle_eq_some _ hbody
  have hsame : ∀ {s₃ : AuthState}, Unwritten s s₃ →
      s₃.writer = none ∧ s.usedIds ⊆ s₃.usedIds ∧ s₃.committed.users = s.committed.users :=
    fun h => ⟨h.idle, h.usedIds, congrArg Database.users h.committed⟩
  rcases register_body hidle hregister with ⟨hnothing, hfails⟩ | ⟨user, rfl, hstores, hwrote, hid⟩
  · cases r₂ with
    | ok user => exact absurd rfl (hfails user)
    | error e =>
        cases Option.some.inj ((Program.eval_done _ _ _ _).symm.trans hpure)
        rcases hend with ⟨a, ha, -⟩ | ⟨⟨e', hout⟩, -⟩
        · cases ha
        · cases hout
          obtain ⟨h₁, h₂, h₃⟩ := hsame hnothing.rollback
          exact ⟨h₁, h₂, .inl ⟨h₃, fun response hr => by cases hr⟩⟩
  · cases Option.some.inj ((Program.eval_done _ _ _ _).symm.trans hpure)
    rcases hend with ⟨a, ha, hout⟩ | ⟨⟨e', hout⟩, -⟩
    · cases ha
      cases hout
      obtain ⟨h₁, h₂, h₃⟩ := hwrote.commit
      have hused : (s₂.commit k).usedIds = s₂.usedIds := by
        unfold AuthState.commit
        split
        · split_ifs <;> rfl
        · rfl
      exact ⟨h₁, h₃, .inr ⟨user, rfl, hstores, hused ▸ hid, h₂⟩⟩
    · cases hout
      obtain ⟨h₁, h₂, h₃⟩ := hsame hwrote.rollback
      exact ⟨h₁, h₂, .inl ⟨h₃, fun response hr => by cases hr⟩⟩

/-- **What a login does**: it fails, something having stood in its way, and leaves the accounts as they
were; or it succeeds, having verified the password of an account of that name. -/
theorem login_eval (hidle : s.writer = none)
    (hnames : (s.committed.users.map User.usernameNormalized).Nodup)
    (h : (authCode env (.login username password)).eval (authExec env k) cs s = some (s', r)) :
    s'.writer = none ∧ s.usedIds ⊆ s'.usedIds ∧
      ((s'.committed.users = s.committed.users ∧ (∀ response, r ≠ .ok response) ∧
          ((∃ c ∈ cs, c.fault ≠ none) ∨ ∀ n, validateUsername env.unicode username = .ok n →
            (∃ c ∈ cs.head?, (s.failedLogins.isBlocked n c.monotonic).2 = true) ∨
              ∀ user ∈ s.committed.users, user.usernameNormalized = n →
                verifyPassword env.unicode env.argon2 user.passwordHash password ≠ .ok true ∨
                  user.isActive = false)) ∨
        ∃ credentials, ∃ user ∈ s.committed.users, r = .ok (.loggedIn credentials) ∧
          credentials.userId = user.id ∧
          validateUsername env.unicode username = .ok user.usernameNormalized ∧
          verifyPassword env.unicode env.argon2 user.passwordHash password = .ok true ∧
          Rehashed env password user.id s.committed.users s'.committed.users) := by
  obtain ⟨s₁, r₁, rest, hrest, hbody, hend⟩ := eval_inSession_eq_some h
  obtain ⟨⟨s₂, r₂⟩, rest₂, hrest₂, hlogin, hpure⟩ := Program.eval_handle_eq_some _ hbody
  have hsame : ∀ {s₃ : AuthState}, Unwritten s s₃ →
      s₃.writer = none ∧ s.usedIds ⊆ s₃.usedIds ∧ s₃.committed.users = s.committed.users :=
    fun h => ⟨h.idle, h.usedIds, congrArg Database.users h.committed⟩
  rcases login_body hidle hnames hlogin with ⟨hnothing, hfails, hreason⟩ |
    ⟨credentials, users', user, huser, rfl, hid, hname, hverify, hrehash, hwrote⟩
  · cases r₂ with
    | ok credentials => exact absurd rfl (hfails credentials)
    | error e =>
        cases Option.some.inj ((Program.eval_done _ _ _ _).symm.trans hpure)
        rcases hend with ⟨a, ha, -⟩ | ⟨⟨e', hout⟩, -⟩
        · cases ha
        · cases hout
          obtain ⟨h₁, h₂, h₃⟩ := hsame hnothing.rollback
          exact ⟨h₁, h₂, .inl ⟨h₃, (fun response hr => by cases hr), hreason⟩⟩
  · cases Option.some.inj ((Program.eval_done _ _ _ _).symm.trans hpure)
    rcases hend with ⟨a, ha, hout⟩ | ⟨⟨e', hout⟩, hfault⟩
    · cases ha
      cases hout
      obtain ⟨h₁, h₂, h₃⟩ := hwrote.commit
      exact ⟨h₁, h₃, .inr ⟨credentials, user, huser, rfl, hid, hname, hverify, h₂ ▸ hrehash⟩⟩
    · cases hout
      obtain ⟨h₁, h₂, h₃⟩ := hsame hwrote.rollback
      -- verified, but the commit raised
      obtain ⟨c, hc, hfaulty⟩ := hfault _ rfl
      exact ⟨h₁, h₂, .inl ⟨h₃, (fun response hr => by cases hr),
        .inl ⟨c, hrest.subset hc, hfaulty⟩⟩⟩

end Request

/-! ### A login returns -/

/-- What is drawn for a request: fresh, and different from choice to choice. -/
structure Draws (choices : List AuthChoice) (s : AuthState) : Prop where
  fresh : ∀ c ∈ choices, s.Fresh c
  ids : (choices.map AuthChoice.id).Nodup
  tokens : (choices.map AuthChoice.token).Nodup

/-- A request that no other one stands in the way of, with what is drawn for the rest of it. -/
structure Unhindered (k : ℕ) (choices : List AuthChoice) (s : AuthState) : Prop where
  free : ∃ d, s.writable k = some d
  draws : Draws choices s

/-- Where no id and no token has been used meanwhile. -/
theorem Unhindered.tail {k : ℕ} {c : AuthChoice} {rest : List AuthChoice} {s s' : AuthState}
    (h : Unhindered k (c :: rest) s) (hfree : ∃ d, s'.writable k = some d)
    (hids : s'.usedIds = s.usedIds) (htokens : s'.usedTokens = s.usedTokens) :
    Unhindered k rest s' := by
  refine ⟨hfree, fun c' hc' => ?_, (List.nodup_cons.1 h.draws.ids).2,
    (List.nodup_cons.1 h.draws.tokens).2⟩
  obtain ⟨hid, htoken, hnewid, hnewtoken⟩ := h.draws.fresh c' (List.mem_cons_of_mem _ hc')
  exact ⟨hid, htoken, hids ▸ hnewid, htokens ▸ hnewtoken⟩

section Returns

variable {env : AuthEnv} {k : ℕ}

/-- A write is made or raises. -/
theorem write_enabled (env : AuthEnv) {c : AuthChoice} {rest : List AuthChoice} {s : AuthState}
    (h : Unhindered k (c :: rest) s) (w : Write) :
    ∃ mid, s.write env k c w = some mid ∧ Unhindered k rest mid.1 := by
  obtain ⟨d, hd⟩ := h.free
  have hfresh := h.draws.fresh c List.mem_cons_self
  unfold AuthState.write
  cases hfault : c.fault with
  | some e => exact ⟨_, rfl, h.tail h.free rfl rfl⟩
  | none =>
      simp only [hd, if_pos hfresh, AuthState.writeTo]
      cases hw : d.write env.sha256 k c.id c.token w with
      | error e => exact ⟨_, rfl, h.tail h.free rfl rfl⟩
      | ok out =>
          refine ⟨_, rfl, ⟨out.1, by simp [AuthState.writable]⟩, fun c' hc' => ?_,
            (List.nodup_cons.1 h.draws.ids).2, (List.nodup_cons.1 h.draws.tokens).2⟩
          obtain ⟨hid, htoken, hnewid, hnewtoken⟩ :=
            h.draws.fresh c' (List.mem_cons_of_mem _ hc')
          refine ⟨hid, htoken, fun hmem => ?_, fun hmem => ?_⟩
          · rcases List.mem_cons.1 hmem with heq | hmem
            · exact (List.nodup_cons.1 h.draws.ids).1 (heq ▸ List.mem_map_of_mem hc')
            · exact hnewid hmem
          · rcases List.mem_cons.1 hmem with heq | hmem
            · exact (List.nodup_cons.1 h.draws.tokens).1 (heq ▸ List.mem_map_of_mem hc')
            · exact hnewtoken hmem

/-- **Every operation of an unhindered request is enabled**, and leaves it unhindered. -/
theorem authExec_enabled (env : AuthEnv) (op : AuthOp) (c : AuthChoice) (rest : List AuthChoice)
    (s : AuthState) (h : Unhindered k (c :: rest) s) :
    ∃ mid, authExec env k op c s = some mid ∧ Unhindered k rest mid.1 := by
  cases op with
  | write w => exact write_enabled env h w
  | clock | isBlocked | recordFailure | resetFailures | hashPassword | verifyPassword | dummyVerify
  | query | issue => exact ⟨_, rfl, h.tail h.free rfl rfl⟩
  | commit =>
      cases hfault : c.fault with
      | some e =>
          simp only [authExec, hfault]
          exact ⟨_, rfl, h.tail h.free rfl rfl⟩
      | none =>
          simp only [authExec, hfault]
          refine ⟨_, rfl, ?_⟩
          unfold AuthState.commit
          split
          · split_ifs
            · exact h.tail ⟨_, rfl⟩ rfl rfl
            · exact h.tail h.free rfl rfl
          · exact h.tail h.free rfl rfl
  | rollback =>
      refine ⟨_, rfl, ?_⟩
      dsimp only
      unfold AuthState.rollback
      split
      · split_ifs
        · exact h.tail ⟨_, rfl⟩ rfl rfl
        · exact h.tail h.free rfl rfl
      · exact h.tail h.free rfl rfl

open Program (Within within_done within_perform)

theorem within_ofPython {β : Type} (r : Except PyError β) :
    Within 0 (AuthProgram.ofPython r) := by
  cases r with
  | ok b => exact within_done 0 _
  | error e => exact within_done 0 _

/-- A call is one operation. -/
theorem within_call {β : Type} {op : AuthOp} {f : op.Answer → AuthProgram β}
    (h : ∀ a, Within 0 (f a)) : Within 1 ((AuthProgram.perform op).bind f) :=
  (within_perform op).bind h

theorem within_query (q : Query) : Within 1 (AuthProgram.query q) := within_call within_ofPython

theorem within_openSession (env : AuthEnv) (user : User) (rehash : Option (PyStr × Datetime)) :
    Within 3 (openSession env user rehash) := by
  have hwrite : ∀ w : Write, Within 1 (AuthProgram.write w) := fun w =>
    within_call within_ofPython
  exact (within_perform _).bind fun now => (hwrite _).bind fun drawn =>
    (within_perform _).bind fun token => within_done 0 _

theorem within_failLogin {α : Type} (n reason : PyStr) :
    Within 1 (failLogin n reason : AuthProgram α) :=
  within_call fun _ => within_done 0 _

theorem within_rehashPassword (env : AuthEnv) (user : User) (password : PyStr) :
    Within 2 (rehashPassword env user password) := by
  have hhash : Within 1 (AuthProgram.hash password) := within_call within_ofPython
  unfold rehashPassword
  split_ifs
  · exact hhash.bind fun passwordHash => (within_perform _).bind fun now => within_done 0 _
  · exact within_done 2 _

theorem within_loginUser (env : AuthEnv) (n : PyStr) (user : User) (password : PyStr) :
    Within 7 (loginUser env n user password) := by
  have hverify : Within 1 (AuthProgram.verify user.passwordHash password) :=
    within_call within_ofPython
  refine hverify.bind (m := 6) fun verified => ?_
  split_ifs
  · exact (within_failLogin _ _).mono (by omega)
  · exact (within_failLogin _ _).mono (by omega)
  · exact (within_rehashPassword env user password).bind fun rehash =>
      (within_perform _).bind fun _ => within_openSession env user rehash

/-- A login performs ten operations at most. -/
theorem within_login (env : AuthEnv) (username password : PyStr) :
    Within 10 (login env username password) := by
  unfold login
  split
  · rename_i n _
    unfold loginNormalized
    refine (within_perform _).bind (m := 9) fun blocked => ?_
    split_ifs
    · exact within_done 9 _
    · refine (within_query _).bind (m := 8) fun found => ?_
      cases found with
      | none => exact ((within_perform _).bind fun _ => within_failLogin _ _).mono (by omega)
      | some user =>
          exact (within_query _).bind fun _ => within_loginUser env n user password
  · exact ((within_perform _).bind fun _ => within_done 0 _).mono (by omega)

/-- A request and the end of its database session. -/
theorem within_inSession {α : Type} {n : ℕ} {p : AuthProgram α} (h : Within n p) :
    Within (n + 2) (AuthProgram.inSession p) := by
  have hrolls : ∀ e, Within 1 (AuthProgram.rollbackAndRaise e : AuthProgram α) := fun e =>
    (within_perform _).bind fun _ => within_done 0 _
  refine h.handle fun r => ?_
  cases r with
  | error e => exact (hrolls e).mono (by omega)
  | ok a =>
      refine (within_perform _).bind (m := 1) fun answer => ?_
      cases answer with
      | ok => exact within_done 1 _
      | error e => exact hrolls _

/-- **A login returns**, when what is drawn for it is fresh. -/
theorem login_returns {s : AuthState} (hidle : s.writer = none) {choices : List AuthChoice}
    (hlength : 12 ≤ choices.length) (hdraws : Draws choices s) (username password : PyStr) :
    ∃ out, (authCode env (.login username password)).eval (authExec env k) choices s =
      some out := by
  have hwithin : Within 12 (authCode env (.login username password)) :=
    within_inSession (n := 10) ((within_login env username password).bind fun _ =>
      within_done 0 _)
  refine Program.eval_returns (authExec env k) (I := Unhindered k)
    (fun op c rest s h => authExec_enabled env op c rest s h) hwithin hlength ⟨?_, hdraws⟩
  exact ⟨s.committed, by simp [AuthState.writable, hidle]⟩

end Returns

/-! ### A service that is restarted now and then -/

/-- The library is ideal: a hash verifies the string it is a hash of and no other, whatever parameters
and salt are embedded in it. -/
def Argon2.Ideal (argon2 : Argon2) : Prop :=
  ∀ params salt x y, argon2.verify (argon2.hash params salt x) y = decide (x = y)

/-- The service under its current settings, and how many requests it has served. -/
structure Deployment where
  config : AuthConfig
  auth : AuthState
  served : ℕ := 0

/-- The service is restarted, or serves a request from its start to its end; what is left open about
the steps of the request is a list. -/
inductive DeploymentAction where
  | restart (config : AuthConfig)
  | register (username password : PyStr) (choices : List AuthChoice)
  | login (username password : PyStr) (choices : List AuthChoice)

namespace Deployment

/-- An empty database. -/
def new (env : AuthEnv) (config : AuthConfig) : Deployment where
  config := config
  auth := .new { env with config := config }

/-- The libraries, under the current settings. -/
def env (s : Deployment) (env : AuthEnv) : AuthEnv := { env with config := s.config }

/-- The request, served alone, and its answer. -/
def serve (env : AuthEnv) (s : Deployment) (request : AuthRequest) (choices : List AuthChoice) :
    Option (AuthState × Except AuthFailure AuthResponse) :=
  (authCode (s.env env) request).eval (authExec (s.env env) s.served) choices s.auth

/-- After a request. -/
def after (s : Deployment) (auth : AuthState) : Deployment :=
  { s with
    auth := auth
    served := s.served + 1 }

/-- One step; the failed logins are kept in memory. -/
def step (env : AuthEnv) (s : Deployment) : DeploymentAction → Option Deployment
  | .restart config =>
      some { s with
        config := config
        auth := { s.auth with failedLogins := .new config } }
  | .register username password choices =>
      (s.serve env (.register username password) choices).map fun out => s.after out.1
  | .login username password choices =>
      (s.serve env (.login username password) choices).map fun out => s.after out.1

/-- The accounts. -/
def users (s : Deployment) : List User := s.auth.committed.users

end Deployment

/-- **Registrations and logins, one after the other**, under settings that change. -/
def deploymentSystem (env : AuthEnv) : System Deployment DeploymentAction where
  init := fun s => ∃ config, s = .new env config
  step := Deployment.step env

/-- The step is a registration that succeeds, of this account. -/
def Registers (env : AuthEnv) (e : Deployment × DeploymentAction) (username password : PyStr)
    (user : User) : Prop :=
  ∃ choices s', e.2 = .register username password choices ∧
    e.1.serve env (.register username password) choices = some (s', .ok (.registered user))

/-- **The account verifies exactly the strings with the NFKC form of this one.** -/
def OpensWith (env : AuthEnv) (user : User) (password : PyStr) : Prop :=
  ∀ q, verifyPassword env.unicode env.argon2 user.passwordHash q = .ok true ↔
    env.unicode.nfkc q = env.unicode.nfkc password

/-- **A hash opens with what it is a hash of.** -/
theorem opensWith_of_hash {env : AuthEnv} (hideal : env.argon2.Ideal) {config : AuthConfig}
    {salt : ℕ} {password : PyStr} {user : User}
    (h : hashPassword env.unicode env.argon2 config salt password = .ok user.passwordHash) :
    OpensWith env user password := by
  intro q
  have hany : (env.unicode.nfkc password).any isSurrogate = false := by
    unfold hashPassword encodable at h
    split_ifs at h with hany
    · cases h
    · simpa using hany
  rw [hashPassword_of_encodable hany, Except.ok.injEq] at h
  rw [← h]
  unfold verifyPassword encodable
  split_ifs with hq
  · refine ⟨(fun heq => by cases heq), fun heq => ?_⟩
    rw [heq, hany] at hq
    cases hq
  · have hverify := hideal config.argon2 salt (env.unicode.nfkc password) (env.unicode.nfkc q)
    simp only [Except.map, Except.ok.injEq, hverify, decide_eq_true_eq]
    exact eq_comm

/-! ### The invariant -/

/-- **What registrations, logins and restarts preserve.** -/
structure Kept (env : AuthEnv) (tr : List (Deployment × DeploymentAction)) (s : Deployment) :
    Prop where
  idle : s.auth.writer = none
  names : (s.users.map User.usernameNormalized).Nodup
  ids : (s.users.map User.id).Nodup
  used : ∀ user ∈ s.users, user.id ∈ s.auth.usedIds
  /-- An account comes from a registration. -/
  origin : ∀ user ∈ s.users, ∃ e ∈ tr, ∃ username password user₀,
    Registers env e username password user₀ ∧ user₀.id = user.id
  /-- A registration has left an account that opens with its password. -/
  opened : ∀ e ∈ tr, ∀ username password user₀, Registers env e username password user₀ →
    ∃ user ∈ s.users, user.id = user₀.id ∧
      user.usernameNormalized = user₀.usernameNormalized ∧ OpensWith env user password

section Kept

variable {env : AuthEnv} {tr : List (Deployment × DeploymentAction)} {s : Deployment}

/-- A step that registers nobody and leaves the accounts as they were, or gives one of them another
hash that opens with the same strings. -/
theorem Kept.of_users (h : Kept env tr s) {a : DeploymentAction} {s' : Deployment}
    (hidle : s'.auth.writer = none) (hused : s.auth.usedIds ⊆ s'.auth.usedIds)
    (hnone : ∀ username password user₀, ¬ Registers env (s, a) username password user₀)
    {f : User → User} (husers : s'.users = s.users.map f)
    (hf : ∀ user ∈ s.users, (f user).id = user.id ∧
      (f user).usernameNormalized = user.usernameNormalized ∧
        ∀ password, OpensWith env user password → OpensWith env (f user) password) :
    Kept env (tr ++ [(s, a)]) s' := by
  have hids : s'.users.map User.id = s.users.map User.id := by
    rw [husers, List.map_map]
    exact List.map_congr_left fun user huser => (hf user huser).1
  have hnames : s'.users.map User.usernameNormalized = s.users.map User.usernameNormalized := by
    rw [husers, List.map_map]
    exact List.map_congr_left fun user huser => (hf user huser).2.1
  refine ⟨hidle, hnames ▸ h.names, hids ▸ h.ids, fun user huser => ?_, fun user huser => ?_, ?_⟩
  · rw [husers] at huser
    obtain ⟨v, hv, rfl⟩ := List.mem_map.1 huser
    rw [(hf v hv).1]
    exact hused (h.used v hv)
  · rw [husers] at huser
    obtain ⟨v, hv, rfl⟩ := List.mem_map.1 huser
    obtain ⟨e, he, username, password, user₀, hreg, hid⟩ := h.origin v hv
    refine ⟨e, List.mem_append_left _ he, username, password, user₀, hreg, ?_⟩
    rw [(hf v hv).1, hid]
  · intro e he username password user₀ hreg
    rcases List.mem_append.1 he with he | he
    · obtain ⟨v, hv, hid, hname, hopens⟩ := h.opened e he username password user₀ hreg
      refine ⟨f v, husers ▸ List.mem_map_of_mem hv, ?_, ?_, (hf v hv).2.2 _ hopens⟩
      · rw [(hf v hv).1, hid]
      · rw [(hf v hv).2.1, hname]
    · rw [List.mem_singleton] at he
      subst he
      exact absurd hreg (hnone _ _ _)

/-- A step that leaves the accounts as they were. -/
theorem Kept.of_same (h : Kept env tr s) {a : DeploymentAction} {s' : Deployment}
    (hidle : s'.auth.writer = none) (hused : s.auth.usedIds ⊆ s'.auth.usedIds)
    (hnone : ∀ username password user₀, ¬ Registers env (s, a) username password user₀)
    (husers : s'.users = s.users) : Kept env (tr ++ [(s, a)]) s' :=
  h.of_users (f := id) hidle hused hnone (by rw [husers, List.map_id])
    fun user _ => ⟨rfl, rfl, fun _ hopens => hopens⟩

/-- **A registration.** -/
theorem Kept.register (hideal : env.argon2.Ideal) (h : Kept env tr s) {username password : PyStr}
    {choices : List AuthChoice} {out : AuthState × Except AuthFailure AuthResponse}
    (hserve : s.serve env (.register username password) choices = some out) :
    Kept env (tr ++ [(s, .register username password choices)]) (s.after out.1) := by
  obtain ⟨auth, r⟩ := out
  obtain ⟨hidle, hused, ⟨husers, hfails⟩ | ⟨user, rfl, hstores, hid, husers⟩⟩ :=
    register_eval h.idle hserve
  · refine h.of_same hidle hused ?_ husers
    rintro username' password' user₀ ⟨choices', s', heq, hserve'⟩
    cases heq
    cases hserve.symm.trans hserve'
    exact hfails _ rfl
  -- the new account has a name and an id of its own
  · have hnew : ∀ v ∈ s.users, v.id ≠ user.id := fun v hv heq =>
      hstores.id (heq ▸ h.used v hv)
    have hall : (s.after auth).users = s.users ++ [user] := husers
    refine ⟨hidle, ?_, ?_, fun v hv => ?_, fun v hv => ?_, ?_⟩
    · rw [hall, List.map_append, List.nodup_append]
      refine ⟨h.names, by simp, ?_⟩
      intro n hn n' hn' heq
      obtain ⟨v, hv, rfl⟩ := List.mem_map.1 hn
      rw [List.map_singleton, List.mem_singleton] at hn'
      exact hstores.new v hv (heq.trans hn')
    · rw [hall, List.map_append, List.nodup_append]
      refine ⟨h.ids, by simp, ?_⟩
      intro i hi i' hi' heq
      obtain ⟨v, hv, rfl⟩ := List.mem_map.1 hi
      rw [List.map_singleton, List.mem_singleton] at hi'
      exact hnew v hv (heq.trans hi')
    · rw [hall] at hv
      rcases List.mem_append.1 hv with hv | hv
      · exact hused (h.used v hv)
      · rw [List.mem_singleton.1 hv]
        exact hid
    · rw [hall] at hv
      rcases List.mem_append.1 hv with hv | hv
      · obtain ⟨e, he, rest⟩ := h.origin v hv
        exact ⟨e, List.mem_append_left _ he, rest⟩
      · rw [List.mem_singleton.1 hv]
        exact ⟨_, List.mem_append_right _ (List.mem_singleton_self _), username, password, user,
          ⟨choices, auth, rfl, hserve⟩, rfl⟩
    · intro e he username' password' user₀ hreg
      rw [hall]
      rcases List.mem_append.1 he with he | he
      · obtain ⟨v, hv, rest⟩ := h.opened e he username' password' user₀ hreg
        exact ⟨v, List.mem_append_left _ hv, rest⟩
      · rw [List.mem_singleton] at he
        subst he
        obtain ⟨choices', s', heq, hserve'⟩ := hreg
        cases heq
        cases hserve.symm.trans hserve'
        obtain ⟨salt, hhash⟩ := hstores.hash
        exact ⟨user, List.mem_append_right _ (List.mem_singleton_self _), rfl, rfl,
          opensWith_of_hash hideal hhash⟩

/-- **A login**: another hash of the account it has verified opens with the same strings. -/
theorem Kept.login (hideal : env.argon2.Ideal) (h : Kept env tr s) {username password : PyStr}
    {choices : List AuthChoice} {out : AuthState × Except AuthFailure AuthResponse}
    (hserve : s.serve env (.login username password) choices = some out) :
    Kept env (tr ++ [(s, .login username password choices)]) (s.after out.1) := by
  obtain ⟨auth, r⟩ := out
  have hnone : ∀ username' password' user₀,
      ¬ Registers env (s, .login username password choices) username' password' user₀ := by
    rintro username' password' user₀ ⟨choices', s', heq, -⟩
    cases heq
  obtain ⟨hidle, hused, ⟨husers, -⟩ | ⟨credentials, user, huser, -, -, -, hverify, hrehash⟩⟩ :=
    login_eval h.idle h.names hserve
  · exact h.of_same hidle hused hnone husers
  · rcases hrehash with husers | ⟨salt, hash, updatedAt, hhash, husers⟩
    · exact h.of_same hidle hused hnone husers
    · refine h.of_users hidle hused hnone husers fun v hv => ?_
      split_ifs with hid
      · have hsame : v = user := List.inj_on_of_nodup_map h.ids hv huser (eq_of_beq hid)
        subst hsame
        refine ⟨rfl, rfl, fun registered hopens q => ?_⟩
        -- what was typed has the form of the registration password
        have hform : env.unicode.nfkc password = env.unicode.nfkc registered :=
          (hopens password).1 hverify
        rw [← hform]
        have hnew : OpensWith env { v with passwordHash := hash, updatedAt := updatedAt } password :=
          opensWith_of_hash hideal hhash
        exact hnew q
      · exact ⟨rfl, rfl, fun _ hopens => hopens⟩

/-- **Every step.** -/
theorem Kept.step (hideal : env.argon2.Ideal) (h : Kept env tr s) {a : DeploymentAction}
    {s' : Deployment} (hstep : s.step env a = some s') : Kept env (tr ++ [(s, a)]) s' := by
  cases a with
  | restart config =>
      cases hstep
      refine h.of_same h.idle (List.Subset.refl _) ?_ rfl
      rintro username password user₀ ⟨choices, s', heq, -⟩
      cases heq
  | register username password choices =>
      obtain ⟨out, hserve, rfl⟩ := Option.map_eq_some_iff.1 hstep
      exact h.register hideal hserve
  | login username password choices =>
      obtain ⟨out, hserve, rfl⟩ := Option.map_eq_some_iff.1 hstep
      exact h.login hideal hserve

/-- **Every run.** -/
theorem kept_of_run (hideal : env.argon2.Ideal) {config : AuthConfig}
    (hrun : (deploymentSystem env).Run (.new env config) tr s) : Kept env tr s := by
  obtain ⟨s₀, hs₀⟩ : ∃ s₀, s₀ = Deployment.new env config := ⟨_, rfl⟩
  rw [← hs₀] at hrun
  induction hrun with
  | nil =>
      subst hs₀
      refine ⟨rfl, List.nodup_nil, List.nodup_nil, ?_, ?_, ?_⟩
      · simp [Deployment.users, Deployment.new, AuthState.new, Database.empty]
      · simp [Deployment.users, Deployment.new, AuthState.new, Database.empty]
      · simp
  | snoc _ hstep ih => exact ih.step hideal hstep

/-- **What a login of an account needs**: without a fault of the database, it succeeds exactly with
the name of the account and a password that opens it. -/
theorem login_succeeds_iff (h : Kept env tr s) {user : User} (huser : user ∈ s.users)
    {password : PyStr} (hopens : OpensWith env user password) {u q : PyStr}
    {choices : List AuthChoice} {auth : AuthState} {r : Except AuthFailure AuthResponse}
    (hserve : s.serve env (.login u q) choices = some (auth, r))
    (hfault : ∀ c ∈ choices, c.fault = none) (hactive : user.isActive = true)
    (hblocked : ∀ c ∈ choices.head?,
      (s.auth.failedLogins.isBlocked user.usernameNormalized c.monotonic).2 = false) :
    (∃ credentials, r = .ok (.loggedIn credentials) ∧ credentials.userId = user.id) ↔
      validateUsername env.unicode u = .ok user.usernameNormalized ∧
        env.unicode.nfkc q = env.unicode.nfkc password := by
  obtain ⟨-, -, ⟨-, hfails, hreason⟩ |
    ⟨credentials, v, hv, rfl, hid, hname, hverify, -⟩⟩ := login_eval h.idle h.names hserve
  · constructor
    · rintro ⟨credentials, hr, -⟩
      exact absurd hr (hfails _)
    · rintro ⟨hname, hform⟩
      -- none of the reasons for which a login fails is there
      rcases hreason with ⟨c, hc, hfaulty⟩ | hreason
      · exact absurd (hfault c hc) hfaulty
      · rcases hreason _ hname with ⟨c, hc, hrefused⟩ | hpassword
        · rw [hblocked c hc] at hrefused
          cases hrefused
        · rcases hpassword user huser rfl with hmismatch | hdisabled
          · exact absurd ((hopens q).2 hform) hmismatch
          · rw [hactive] at hdisabled
            cases hdisabled
  · constructor
    · rintro ⟨credentials', hr, hid'⟩
      cases hr
      have hsame : v = user := List.inj_on_of_nodup_map h.ids hv huser (hid.symm.trans hid')
      subst hsame
      exact ⟨hname, (hopens q).1 hverify⟩
    · rintro ⟨hname', -⟩
      have hn : user.usernameNormalized = v.usernameNormalized :=
        Except.ok.inj (hname'.symm.trans hname)
      have hsame : v = user := List.inj_on_of_nodup_map h.names hv huser hn.symm
      exact ⟨credentials, rfl, hsame ▸ hid⟩

end Kept

/-- **Which password opens an account never drifts.**  In every run of registrations, logins and
restarts under any settings, every account comes from a registration; and every registration has left
an account that verifies exactly the strings with the NFKC form of its password.  Without a fault of
the database, and while the account is active and not blocked, a login returns, and is one of the
account exactly with its name and such a string. -/
theorem password_never_drifts {env : AuthEnv} (hideal : env.argon2.Ideal) {config : AuthConfig}
    {tr : List (Deployment × DeploymentAction)} {s : Deployment}
    (hrun : (deploymentSystem env).Run (.new env config) tr s) :
    (∀ user ∈ s.users, ∃ e ∈ tr, ∃ username password user₀,
        Registers env e username password user₀ ∧ user₀.id = user.id) ∧
      ∀ e ∈ tr, ∀ username password user₀, Registers env e username password user₀ →
        ∃ user ∈ s.users, user.id = user₀.id ∧
          user.usernameNormalized = user₀.usernameNormalized ∧ OpensWith env user password ∧
          ∀ u q choices, (∀ c ∈ choices, c.fault = none) → user.isActive = true →
            (∀ c ∈ choices.head?,
              (s.auth.failedLogins.isBlocked user.usernameNormalized c.monotonic).2 = false) →
            (12 ≤ choices.length → Draws choices s.auth →
              ∃ out, s.serve env (.login u q) choices = some out) ∧
            ∀ auth r, s.serve env (.login u q) choices = some (auth, r) →
              ((∃ credentials, r = .ok (.loggedIn credentials) ∧ credentials.userId = user.id) ↔
                validateUsername env.unicode u = .ok user.usernameNormalized ∧
                  env.unicode.nfkc q = env.unicode.nfkc password) := by
  have hkept := kept_of_run hideal hrun
  refine ⟨hkept.origin, fun e he username password user₀ hreg => ?_⟩
  obtain ⟨user, huser, hid, hname, hopens⟩ := hkept.opened e he username password user₀ hreg
  refine ⟨user, huser, hid, hname, hopens, ?_⟩
  intro u q choices hfault hactive hblocked
  refine ⟨fun hlength hdraws => login_returns hkept.idle hlength hdraws u q, ?_⟩
  intro auth r hserve
  exact login_succeeds_iff hkept huser hopens hserve hfault hactive hblocked

/-! ### An upgrade by another spelling -/

/-- A hasher that keeps its parameters with what it hashes. -/
def embedding : Argon2 where
  hash params _ password := embedded params ++ password
  verify storedHash password := storedHash.drop 3 == password
  checkNeedsRehash params storedHash := storedHash.take 3 != embedded params
where
  /-- The parameters, as characters. -/
  embedded (params : Argon2Params) : PyStr :=
    [Fin.ofNat 0x110000 params.timeCost, Fin.ofNat 0x110000 params.memoryCost,
      Fin.ofNat 0x110000 params.parallelism]

theorem ideal_embedding : embedding.Ideal := by
  intro params salt x y
  rw [Bool.eq_iff_iff]
  simp [embedding, embedding.embedded]

/-- A service with this hasher, on full-width forms. -/
def embeddingEnv : AuthEnv :=
  { sampleEnv .instants with
    unicode := narrowing
    argon2 := embedding }

/-- The password of `alice` in full-width letters. -/
def widePassword : PyStr :=
  samplePassword.map fun c => if c.val = 0x20 then c else Fin.ofNat 0x110000 (c.val + 0xFEE0)

/-- What is drawn for a request. -/
def drawn (i : ℕ) : List AuthChoice :=
  List.replicate 12 { id := hexId i, token := urlsafeToken i }

/-- `alice` registers; the time cost is raised; `alice` logs in on another keyboard. -/
def aliceUpgrades : List DeploymentAction :=
  [.register (py "Alice") samplePassword (drawn 0),
    .restart { (sampleEnv .instants).config with argon2TimeCost := 4 },
    .login (py "alice") widePassword (drawn 1)]

/-- The account a registration has stored. -/
def registeredUser : Option (AuthState × Except AuthFailure AuthResponse) → Option User
  | some (_, .ok (.registered user)) => some user
  | _ => none

theorem exists_of_registeredUser {out : Option (AuthState × Except AuthFailure AuthResponse)}
    (h : (registeredUser out).isSome = true) :
    ∃ auth user, out = some (auth, .ok (.registered user)) := by
  unfold registeredUser at h
  split at h
  · exact ⟨_, _, rfl⟩
  · cases h

/-- After the upgrade, the hash that is stored is one of the full-width password, made with the new
parameters; and the password opens the account however it is spelled. -/
theorem password_never_drifts_alice :
    ∃ tr s, (deploymentSystem embeddingEnv).Run (.new embeddingEnv (sampleEnv .instants).config) tr
        s ∧
      s.users.map User.passwordHash = [embedding.hash ⟨4, 65536, 4⟩ 0 samplePassword] ∧
      ∃ auth credentials, s.serve embeddingEnv (.login (py "ALICE") samplePassword) (drawn 2) =
        some (auth, .ok (.loggedIn credentials)) := by
  have hexec : ((deploymentSystem embeddingEnv).exec (.new embeddingEnv (sampleEnv .instants).config)
      aliceUpgrades).map (fun s => decide (s.users.map User.passwordHash =
        [embedding.hash ⟨4, 65536, 4⟩ 0 samplePassword]) &&
        (s.serve embeddingEnv (.login (py "ALICE") samplePassword) (drawn 2)).isSome &&
        s.users.all fun user => user.isActive && decide (user.usernameNormalized = py "alice") &&
          !(s.auth.failedLogins.isBlocked user.usernameNormalized 0).2) = some true := by
    decide +kernel
  obtain ⟨s, -, hrun, hp⟩ := System.exists_run_of_exec hexec
  simp only [Bool.and_eq_true, decide_eq_true_eq, List.all_eq_true, Bool.not_eq_true'] at hp
  obtain ⟨⟨hhash, hreturns⟩, husers⟩ := hp
  obtain ⟨⟨auth, r⟩, hserve⟩ := Option.isSome_iff_exists.1 hreturns
  have hregistered : (registeredUser ((Deployment.new embeddingEnv
      (sampleEnv .instants).config).serve embeddingEnv (.register (py "Alice") samplePassword)
        (drawn 0))).isSome = true := by decide +kernel
  obtain ⟨auth₀, user₀, hfirst⟩ := exists_of_registeredUser hregistered
  obtain ⟨user, huser, -, -, -, hlogin⟩ := (password_never_drifts ideal_embedding hrun).2 _
    List.mem_cons_self (py "Alice") samplePassword user₀ ⟨drawn 0, auth₀, rfl, hfirst⟩
  obtain ⟨⟨hactive, hname⟩, hblocked⟩ := husers user huser
  have hdrawn : ∀ c ∈ drawn 2, c.fault = none ∧ c.monotonic = 0 := by
    intro c hc
    rw [List.eq_of_mem_replicate hc]
    exact ⟨rfl, rfl⟩
  have hsucceeds := (hlogin (py "ALICE") samplePassword (drawn 2) (fun c hc => (hdrawn c hc).1)
    hactive (fun c hc => by rw [(hdrawn c (List.mem_of_mem_head? hc)).2]; exact hblocked)).2
      auth r hserve
  have hvalid : validateUsername embeddingEnv.unicode (py "ALICE") =
      .ok user.usernameNormalized := by
    rw [hname]
    rfl
  obtain ⟨credentials, rfl, -⟩ := hsucceeds.2 ⟨hvalid, rfl⟩
  exact ⟨_, s, hrun, hhash, auth, credentials, hserve⟩

end EncryptChat
