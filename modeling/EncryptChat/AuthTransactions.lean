/-
**Requests are transactions.**

Every request of the authentication service has a database session of its own: what it writes is
committed at its end, all of it, or rolled back when an exception leaves it.  A request may write
more than once (a deletion revokes the sessions of the account before it deletes the rows), a
registration that the database refuses rolls back before it raises, a commit may itself raise, and
the operations of any number of requests interleave.

So the database is, at any moment, what the requests that have **succeeded** have made of it, one
after the other; a request that failed or that has not ended has left nothing behind; and what a
request has written is fixed by what it was and how it was answered.

Main definitions:

* `EncryptChat.GivesUp`, `EncryptChat.Works`, `EncryptChat.Transacts` — how a program ends its
  database session;
* `EncryptChat.Transaction` — what a request writes;
* `EncryptChat.storePart` — the database as a store with one writer at a time;
* `EncryptChat.Progress` — how far a request has got.

Main results:

* `EncryptChat.works_authBody` — what each request writes;
* `EncryptChat.requests_are_transactions` — **the database is what the successful requests have made
  of it**.
-/

import EncryptChat.AccountAuthority
import EncryptChat.Transactions

set_option relaxedAutoImplicit false
set_option autoImplicit false

namespace EncryptChat

open Python Concurrent AuthService Transition
open Transactions (Act Store Under Once storeSystem serial history writesOf)

/-! ### How a program ends its database session -/

/-- An operation that leaves the database as it is. -/
def AuthOp.reads : AuthOp → Bool
  | .write _ | .commit | .rollback => false
  | _ => true

/-- The writes an operation has done, given its answer. -/
def AuthOp.written : (op : AuthOp) → op.Answer → List Write
  | .write w, .ok _ => [w]
  | _, _ => []

/-- The operation was a commit that has not raised. -/
def AuthOp.commits : (op : AuthOp) → op.Answer → Bool
  | .commit, .ok () => true
  | _, _ => false

variable {α β : Type}

/-- The program rolls back, perhaps more than once, and raises. -/
def GivesUp : AuthProgram α → Prop
  | .done r => ∃ e, r = .error e
  | .step op next => op = .rollback ∧ ∀ a, GivesUp (next a)

/-- The program leaves the commit to its caller, raises after a rollback, and returns only what `Q`
allows for its writes. -/
def Works (Q : List Write → α → Prop) : List Write → AuthProgram α → Prop
  | ws, .done r => ∀ a, r = .ok a → Q ws a
  | ws, .step op next => op ≠ .commit ∧
      ∀ a, (op = .rollback → GivesUp (next a)) ∧ Works Q (ws ++ op.written a) (next a)

/-- The program commits and returns what `Q` allows for its writes, or rolls back and raises. -/
def Transacts (Q : List Write → α → Prop) : List Write → AuthProgram α → Prop
  | _, .done _ => False
  | ws, .step op next => ∀ a,
      (op.commits a = true → ∃ r, next a = .done (.ok r) ∧ Q ws r) ∧
      (op = .rollback → GivesUp (next a)) ∧
      (op.commits a = false → op ≠ .rollback → Transacts Q (ws ++ op.written a) (next a))

theorem givesUp_rollbackAndRaise (e : AuthFailure) :
    GivesUp (AuthProgram.rollbackAndRaise e : AuthProgram α) := ⟨rfl, fun _ => ⟨e, rfl⟩⟩

/-- What gives up does so whatever was to follow. -/
theorem GivesUp.bind {p : AuthProgram α} (h : GivesUp p) (f : α → AuthProgram β) :
    GivesUp (p.bind f) := by
  induction p with
  | done r =>
      obtain ⟨e, rfl⟩ := h
      exact ⟨e, rfl⟩
  | step op next ih => exact ⟨h.1, fun a => ih a (h.2 a)⟩

/-- The database session rolls back once more. -/
theorem GivesUp.inSession {p : AuthProgram α} (h : GivesUp p) :
    GivesUp (AuthProgram.inSession p) := by
  induction p with
  | done r =>
      obtain ⟨e, rfl⟩ := h
      exact givesUp_rollbackAndRaise e
  | step op next ih => exact ⟨h.1, fun a => ih a (h.2 a)⟩

section Rules

variable {Q : List Write → α → Prop} {Q' : List Write → β → Prop} {ws : List Write}

theorem works_pure {a : α} (h : Q ws a) : Works Q ws (.done (.ok a)) := by
  rintro _ ⟨⟩
  exact h

theorem works_raise (e : AuthFailure) : Works Q ws (.done (.error e)) := by
  rintro _ ⟨⟩

theorem works_ofExcept {r : Except AuthFailure β} {f : β → AuthProgram α}
    (h : ∀ b, r = .ok b → Works Q ws (f b)) : Works Q ws ((Program.ofExcept r).bind f) := by
  cases r with
  | ok b => exact h b rfl
  | error e => exact works_raise e

theorem Works.bind {p : AuthProgram α} {f : α → AuthProgram β} (h : Works Q ws p)
    (hf : ∀ ws' a, Q ws' a → Works Q' ws' (f a)) : Works Q' ws (p.bind f) := by
  induction p generalizing ws with
  | done r =>
      cases r with
      | ok a => exact hf ws a (h a rfl)
      | error e => exact works_raise e
  | step op next ih =>
      refine ⟨h.1, fun a => ⟨fun hop => ((h.2 a).1 hop).bind f, ih a (h.2 a).2⟩⟩

/-- An operation that leaves the database as it is. -/
theorem works_perform {op : AuthOp} {f : op.Answer → AuthProgram α} (hreads : op.reads = true)
    (h : ∀ a, Works Q ws (f a)) : Works Q ws ((AuthProgram.perform op).bind f) := by
  refine ⟨?_, fun a => ⟨?_, ?_⟩⟩
  · rintro rfl
    cases hreads
  · rintro rfl
    cases hreads
  · have hnone : op.written a = [] := by
      cases op with
      | write w => cases hreads
      | _ => rfl
    rw [hnone, List.append_nil]
    exact h a

/-- An operation that leaves the database as it is, and may raise. -/
theorem works_ofPython (op : AuthOp) (hreads : op.reads = true)
    (out : op.Answer → Except PyError β) {f : β → AuthProgram α} (h : ∀ b, Works Q ws (f b)) :
    Works Q ws (((AuthProgram.perform op).bind fun a => AuthProgram.ofPython (out a)).bind f) := by
  rw [Program.bind_assoc]
  refine works_perform hreads fun a => ?_
  cases out a with
  | ok b => exact h b
  | error e => exact works_raise _

theorem works_query {q : Query} {f : q.Answer → AuthProgram α} (h : ∀ a, Works Q ws (f a)) :
    Works Q ws ((AuthProgram.query q).bind f) :=
  works_ofPython (.query q) rfl id h

theorem works_hash {password : PyStr} {f : PyStr → AuthProgram α} (h : ∀ a, Works Q ws (f a)) :
    Works Q ws ((AuthProgram.hash password).bind f) :=
  works_ofPython (.hashPassword password) rfl id h

theorem works_verify {storedHash password : PyStr} {f : Bool → AuthProgram α}
    (h : ∀ a, Works Q ws (f a)) : Works Q ws ((AuthProgram.verify storedHash password).bind f) :=
  works_ofPython (.verifyPassword storedHash password) rfl id h

/-- A write that raises has written nothing. -/
theorem works_write {w : Write} {f : w.Answer → AuthProgram α}
    (h : ∀ a, Works Q (ws ++ [w]) (f a)) : Works Q ws ((AuthProgram.write w).bind f) := by
  refine ⟨by rintro ⟨⟩, fun answer => ⟨by rintro ⟨⟩, ?_⟩⟩
  cases answer with
  | ok a => exact h a
  | error e => exact works_raise _

theorem works_write_last {w : Write} {Q : List Write → w.Answer → Prop}
    (h : ∀ a, Q (ws ++ [w]) a) : Works Q ws (AuthProgram.write w) := by
  rw [← Program.bind_pure (AuthProgram.write w)]
  exact works_write fun a => works_pure (h a)

theorem works_rollbackAndRaise (e : AuthFailure) :
    Works Q ws (AuthProgram.rollbackAndRaise e) :=
  ⟨by rintro ⟨⟩, fun _ => ⟨fun _ => ⟨e, rfl⟩, works_raise e⟩⟩

/-- **The database session of a request** commits what the request has written, or nothing. -/
theorem transacts_inSession {p : AuthProgram α} (h : Works Q ws p) :
    Transacts Q ws (AuthProgram.inSession p) := by
  have hraise : ∀ ws e, Transacts Q ws (AuthProgram.rollbackAndRaise e : AuthProgram α) :=
    fun ws e a => ⟨by rintro ⟨⟩, fun _ => ⟨e, rfl⟩, fun _ hne => absurd rfl hne⟩
  induction p generalizing ws with
  | done r =>
      cases r with
      | error e => exact hraise ws e
      | ok a =>
          intro answer
          refine ⟨?_, by rintro ⟨⟩, ?_⟩
          · intro hcommits
            cases answer with
            | ok _ => exact ⟨a, rfl, h a rfl⟩
            | error e => cases hcommits
          · intro hcommits _
            cases answer with
            | ok _ => cases hcommits
            -- the commit has raised
            | error e => exact hraise _ _
  | step op next ih =>
      intro a
      obtain ⟨hrollback, hnext⟩ := h.2 a
      refine ⟨fun hcommits => ?_, fun hop => (hrollback hop).inSession, fun _ _ => ih a hnext⟩
      have hop : op = .commit := by
        cases op with
        | commit => rfl
        | _ => cases hcommits
      exact absurd hop h.1

end Rules

/-! ### What each request writes -/

/-- What a request may have written, given how it was answered. -/
inductive Transaction (env : AuthEnv) : AuthRequest → AuthResponse → List Write → Prop
  | registered {username password normalized : PyStr} (user : User) (passwordHash : PyStr)
      (now : Datetime) (valid : validateUsername env.unicode username = .ok normalized) :
      Transaction env (.register username password) (.registered user)
        [.createUser (strip username) normalized passwordHash now]
  | loggedIn {username password : PyStr} {c : IssuedCredentials} (now : Datetime)
      (rehash : Option (PyStr × Datetime)) :
      Transaction env (.login username password) (.loggedIn c)
        [.createSession c.userId now (refreshExpiry env.config now) rehash]
  | resolved (token : PyStr) (identity : AuthenticatedIdentity) :
      Transaction env (.resolve token) (.resolved identity) []
  | refreshed {token : PyStr} {c : IssuedCredentials} {session : AuthSession} (now : Datetime)
      (same : c.sessionId = session.id) :
      Transaction env (.refresh token) (.refreshed c)
        [.rotate session (refreshExpiry env.config now)]
  | loggedOut {token : PyStr} {identity : AuthenticatedIdentity} (now : Datetime) :
      Transaction env (.logout token) (.loggedOut identity) [.revoke identity.sessionId now]
  /-- The session was revoked before, or its row is gone. -/
  | alreadyOut (token : PyStr) (identity : AuthenticatedIdentity) :
      Transaction env (.logout token) (.loggedOut identity) []
  | deleted {token password : PyStr} {identity : AuthenticatedIdentity} (now : Datetime)
      (sessionIds : List PyStr) :
      Transaction env (.deleteAccount token password) (.deleted identity)
        [.revokeAll identity.userId now, .deleteUser identity.userId sessionIds]

section Programs

variable {env : AuthEnv} {ws : List Write}

theorem works_register (username password : PyStr) :
    Works (fun ws' _ => ∃ normalized passwordHash now,
      validateUsername env.unicode username = .ok normalized ∧
        ws' = ws ++ [.createUser (strip username) normalized passwordHash now]) ws
      (register env username password) := by
  refine works_ofExcept fun normalized hname => works_ofExcept fun _ _ => ?_
  refine works_hash fun passwordHash => works_perform rfl fun now => works_write fun created => ?_
  cases created with
  | some user =>
      exact works_pure ⟨normalized, passwordHash, now, registrationUsername_eq_ok hname, rfl⟩
  -- the name is taken: rolled back here, and once more when the exception leaves the request
  | none => exact works_rollbackAndRaise _

theorem works_rehashPassword (user : User) (password : PyStr) :
    Works (fun ws' _ => ws' = ws) ws (rehashPassword env user password) := by
  unfold rehashPassword
  split_ifs
  · exact works_hash fun passwordHash => works_perform rfl fun now => works_pure rfl
  · exact works_pure rfl

theorem works_failLogin {α : Type} {Q : List Write → α → Prop} (normalized reason : PyStr) :
    Works Q ws (failLogin normalized reason) :=
  works_perform rfl fun _ => works_raise _

theorem works_login (username password : PyStr) :
    Works (fun ws' c => ∃ now rehash,
      ws' = ws ++ [.createSession c.userId now (refreshExpiry env.config now) rehash]) ws
      (login env username password) := by
  unfold login
  split
  · refine works_perform rfl fun blocked => ?_
    cases blocked with
    | true => exact works_raise _
    | false =>
        refine works_query fun found => ?_
        cases found with
        | none => exact works_perform rfl fun _ => works_failLogin _ _
        | some user =>
            refine works_query fun ids => works_verify fun verified => ?_
            cases verified with
            | false => exact works_failLogin _ _
            | true =>
                rw [if_neg (by simp)]
                split_ifs
                · exact works_failLogin _ _
                · refine (works_rehashPassword user password).bind ?_
                  rintro _ rehash rfl
                  refine works_perform rfl fun _ => works_perform rfl fun now => ?_
                  refine works_write fun drawn => works_perform rfl fun accessToken => ?_
                  exact works_pure ⟨now, rehash, rfl⟩
  · exact works_perform rfl fun _ => works_raise _

theorem works_loadUser (userId : PyStr) (e : AuthFailure) :
    Works (fun ws' _ => ws' = ws) ws (loadUser userId e) := by
  refine works_query fun found => ?_
  cases found with
  | none => exact works_raise _
  | some user => exact works_query fun ids => works_pure rfl

theorem works_resolveObjects (token : PyStr) :
    Works (fun ws' _ => ws' = ws) ws (resolveObjects env token) := by
  refine works_perform rfl fun clock => works_ofExcept fun claims _ => ?_
  refine works_perform rfl fun now => works_query fun found => ?_
  cases found with
  | none => exact works_raise _
  | some session =>
      refine works_ofExcept fun _ _ => (works_loadUser _ _).bind ?_
      rintro _ loaded rfl
      exact works_ofExcept fun _ _ => works_pure rfl

theorem works_refresh (token : PyStr) :
    Works (fun ws' c => ∃ session now, c.sessionId = session.id ∧
      ws' = ws ++ [.rotate session (refreshExpiry env.config now)]) ws (refresh env token) := by
  refine Works.bind (Q := fun ws' _ => ws' = ws) ?_ ?_
  · cases hashRefreshToken env.sha256 token with
    | ok hash => exact works_pure rfl
    | error e => exact works_raise _
  · rintro _ tokenHash rfl
    refine works_query fun found => works_perform rfl fun now => ?_
    cases found with
    | none => exact works_raise _
    | some session =>
        refine works_ofExcept fun _ _ => (works_loadUser _ _).bind ?_
        rintro _ loaded rfl
        split_ifs
        · exact works_raise _
        · refine works_write fun refreshToken => works_perform rfl fun accessToken => ?_
          exact works_pure ⟨session, now, rfl, rfl⟩

theorem works_logout (held : AuthSession) :
    Works (fun ws' _ => ws' = ws ∨ ∃ now, ws' = ws ++ [.revoke held.id now]) ws (logout held) := by
  obtain ⟨sessionId, _, _, _, _, revokedAt⟩ := held
  refine works_query fun found => ?_
  cases found with
  | none => exact works_pure (.inl rfl)
  | some _ =>
      refine works_perform rfl fun now => ?_
      cases revokedAt with
      | none => exact works_write_last fun _ => .inr ⟨now, rfl⟩
      | some _ => exact works_pure (.inl rfl)

theorem works_deleteAccount (held : User) (sessionIds : List PyStr) (password : PyStr) :
    Works (fun ws' _ => ∃ now, ws' = ws ++ [.revokeAll held.id now, .deleteUser held.id sessionIds])
      ws (deleteAccount held sessionIds password) := by
  refine works_query fun found => ?_
  cases found with
  | none => exact works_raise _
  | some _ =>
      refine works_verify fun verified => ?_
      cases verified with
      | false => exact works_raise _
      | true =>
          refine works_perform rfl fun now => works_write fun _ => works_write_last fun _ => ?_
          exact ⟨now, List.append_assoc _ _ _⟩

/-- **What each request writes** is of the kind that belongs to what it was and how it was
answered. -/
theorem works_authBody (request : AuthRequest) :
    Works (fun ws r => Transaction env request r ws) [] (authBody env request) := by
  cases request with
  | register username password =>
      refine (works_register username password).bind ?_
      rintro _ user ⟨normalized, passwordHash, now, hvalid, rfl⟩
      exact works_pure (.registered user passwordHash now hvalid)
  | login username password =>
      refine (works_login username password).bind ?_
      rintro _ c ⟨now, rehash, rfl⟩
      exact works_pure (.loggedIn now rehash)
  | resolve token =>
      refine (works_resolveObjects token).bind ?_
      rintro _ resolved rfl
      exact works_pure (.resolved token _)
  | refresh token =>
      refine (works_refresh token).bind ?_
      rintro _ c ⟨session, now, hsame, rfl⟩
      exact works_pure (.refreshed now hsame)
  | logout token =>
      refine (works_resolveObjects token).bind ?_
      rintro _ resolved rfl
      refine (works_logout resolved.session).bind ?_
      rintro _ _ (rfl | ⟨now, rfl⟩)
      · exact works_pure (.alreadyOut token _)
      · exact works_pure (.loggedOut now)
  | deleteAccount token password =>
      refine (works_resolveObjects token).bind ?_
      rintro _ resolved rfl
      refine (works_deleteAccount resolved.user resolved.sessionIds password).bind ?_
      rintro _ _ ⟨now, rfl⟩
      exact works_pure (.deleted now _)

end Programs

/-! ### The store -/

/-- A write with what was drawn for it. -/
structure StoredWrite where
  request : ℕ
  id : PyStr
  token : PyStr
  write : Write

/-- What a write does to a database; one that raises does nothing. -/
def applyWrite (sha256 : PyStr → PyStr) (sw : StoredWrite) (d : Database) : Database :=
  match d.write sha256 sw.request sw.id sw.token sw.write with
  | .ok (d', _) => d'
  | .error _ => d

/-- The database, and the request that holds uncommitted writes. -/
def AuthState.store (s : AuthState) : Store ℕ Database := ⟨s.committed, s.writer⟩

@[simp] theorem AuthState.store_commit (s : AuthState) (i : ℕ) :
    (s.commit i).store = s.store.commit i := by
  obtain ⟨committed, writer, _, _, _, _⟩ := s
  cases writer with
  | none => rfl
  | some w =>
      obtain ⟨j, d⟩ := w
      simp only [AuthState.commit, Store.commit, AuthState.store]
      split_ifs <;> rfl

@[simp] theorem AuthState.store_rollback (s : AuthState) (i : ℕ) :
    (s.rollback i).store = s.store.rollback i := by
  obtain ⟨committed, writer, _, _, _, _⟩ := s
  cases writer with
  | none => rfl
  | some w =>
      obtain ⟨j, d⟩ := w
      simp only [AuthState.rollback, Store.rollback, AuthState.store]
      split_ifs <;> rfl

@[simp] theorem AuthState.store_writable (s : AuthState) (i : ℕ) :
    s.store.writable i = s.writable i := by
  obtain ⟨committed, writer, _, _, _, _⟩ := s
  cases writer with
  | none => rfl
  | some w => rfl

/-- What an operation of the request `i` does to the store. -/
def actOf (env : AuthEnv) (i : ℕ) (c : AuthChoice) (s : AuthState) :
    AuthOp → Option (Act ℕ StoredWrite)
  | .write w =>
      match s.write env i c w with
      | some (_, .ok _) => some (.write i ⟨i, c.id, c.token, w⟩)
      | _ => none
  | .commit => if c.fault.isNone then some (.commit i) else none
  | .rollback => some (.rollback i)
  | _ => none

/-- What an operation has done to the store, given its answer. -/
inductive ActsAs (i : ℕ) : (op : AuthOp) → op.Answer → Option (Act ℕ StoredWrite) → Prop
  | nothing {op : AuthOp} {a : op.Answer} (hcommit : op.commits a = false) (hop : op ≠ .rollback)
      (hwritten : op.written a = []) : ActsAs i op a none
  | wrote {w : Write} (b : w.Answer) (id token : PyStr) :
      ActsAs i (.write w) (.ok b) (some (.write i ⟨i, id, token, w⟩))
  | committed : ActsAs i .commit (.ok ()) (some (.commit i))
  | rolledBack : ActsAs i .rollback () (some (.rollback i))

/-- **An operation acts on the store as its answer says.** -/
theorem actsAs_of_exec {env : AuthEnv} {i : ℕ} {op : AuthOp} {c : AuthChoice} {s s' : AuthState}
    {a : op.Answer} (h : authExec env i op c s = some (s', a)) :
    ActsAs i op a (actOf env i c s op) := by
  cases op with
  | write w =>
      replace h : s.write env i c w = some (s', a) := h
      rcases AuthState.write_eq_some h with ⟨-, e, rfl⟩ | ⟨-, -, b, -, -, -, -, rfl⟩
      · rw [actOf, h]
        exact .nothing rfl (by simp) rfl
      · rw [actOf, h]
        exact .wrote b c.id c.token
  | commit =>
      simp only [authExec] at h
      split at h
      · rename_i hfault
        cases h
        rw [actOf, hfault]
        exact .nothing rfl (by simp) rfl
      · rename_i hfault
        cases h
        rw [actOf, hfault]
        exact .committed
  | rollback => exact .rolledBack
  | _ => exact .nothing rfl (by simp) rfl

/-- **An operation takes one step of the store, or none.** -/
theorem store_of_exec {env : AuthEnv} {i : ℕ} {op : AuthOp} {c : AuthChoice} {s s' : AuthState}
    {a : op.Answer} (h : authExec env i op c s = some (s', a)) :
    (∀ b, actOf env i c s op = some b →
      s.store.step (applyWrite env.sha256) b = some s'.store) ∧
      (actOf env i c s op = none → s'.store = s.store) := by
  cases op with
  | write w =>
      replace h : s.write env i c w = some (s', a) := h
      rcases AuthState.write_eq_some h with
        ⟨rfl, e, rfl⟩ | ⟨d, d', b, hd, -, hwrite, rfl, rfl⟩
      · rw [actOf, h]
        exact ⟨fun _ hb => (by cases hb), fun _ => rfl⟩
      · rw [actOf, h]
        refine ⟨?_, fun hnone => (by cases hnone)⟩
        rintro _ ⟨⟩
        rw [Store.step, AuthState.store_writable, hd, Option.map_some, applyWrite, hwrite]
        rfl
  | commit =>
      simp only [authExec] at h
      split at h
      · rename_i hfault
        cases h
        rw [actOf, hfault]
        exact ⟨fun _ hb => (by cases hb), fun _ => rfl⟩
      · rename_i hfault
        cases h
        rw [actOf, hfault]
        refine ⟨?_, fun hnone => (by cases hnone)⟩
        rintro _ ⟨⟩
        rw [Store.step, AuthState.store_commit]
  | rollback =>
      cases h
      refine ⟨?_, fun hnone => (by cases hnone)⟩
      rintro _ ⟨⟩
      rw [Store.step, AuthState.store_rollback]
  | _ =>
      cases h
      exact ⟨fun _ hb => (by cases hb), fun _ => rfl⟩

/-- What a label does to the store. -/
def actOfLabel (env : AuthEnv) (p : AuthPool) : AuthLabel → Option (Act ℕ StoredWrite)
  | .start _ _ => none
  | .step i c =>
      match p.threads i with
      | some ⟨_, .step op _, _⟩ => actOf env i c p.shared op
      | _ => none

/-- The runs of the database alone. -/
abbrev databaseSystem (env : AuthEnv) : System (Store ℕ Database) (Act ℕ StoredWrite) :=
  storeSystem (applyWrite env.sha256) .empty

/-- **The database is a store with one writer at a time.** -/
def storePart (env : AuthEnv) : System.Projection (authSystem env) (databaseSystem env) where
  state := fun p => p.shared.store
  label := actOfLabel env
  step_of_label := by
    intro p label p' b hstep hlabel
    cases label with
    | start i request => cases hlabel
    | step i c =>
        obtain ⟨request, op, next, seen, s, a, hth, hexec, hshared, -⟩ :=
          Pool.step_step (authExec env) (authCode env) hstep
        rw [actOfLabel, hth] at hlabel
        rw [hshared]
        exact (store_of_exec hexec).1 b hlabel
  state_of_none := by
    intro p label p' hstep hlabel
    cases label with
    | start i request =>
        rw [(Pool.step_start (authExec env) (authCode env) hstep).2.1]
    | step i c =>
        obtain ⟨request, op, next, seen, s, a, hth, hexec, hshared, -⟩ :=
          Pool.step_step (authExec env) (authCode env) hstep
        rw [actOfLabel, hth] at hlabel
        rw [hshared]
        exact (store_of_exec hexec).2 hlabel

/-- What a run does to the store, oldest first. -/
def storeActs (env : AuthEnv) (tr : List (AuthPool × AuthLabel)) : List (Act ℕ StoredWrite) :=
  ((storePart env).trace tr).map Prod.snd

theorem storeActs_snoc (env : AuthEnv) (tr : List (AuthPool × AuthLabel)) (p : AuthPool)
    (label : AuthLabel) :
    storeActs env (tr ++ [(p, label)]) = storeActs env tr ++ (actOfLabel env p label).toList := by
  have hlast : ((storePart env).trace [(p, label)]).map Prod.snd =
      (actOfLabel env p label).toList := by
    simp only [System.Projection.trace, List.filterMap_cons, List.filterMap_nil, storePart]
    cases actOfLabel env p label <;> rfl
  rw [storeActs, System.Projection.trace_append, List.map_append, hlast]
  rfl

/-! ### Requests under way -/

section Progress

variable {env : AuthEnv} {acts : List (Act ℕ StoredWrite)} {i : ℕ} {request : AuthRequest}
  {rest : AuthProgram AuthResponse}

/-- What the request has written. -/
def writtenBy (acts : List (Act ℕ StoredWrite)) (i : ℕ) : List Write :=
  (writesOf i acts).map StoredWrite.write

/-- How far a request has got: it works, it gives up after a rollback, or it has committed. -/
inductive Progress (env : AuthEnv) (acts : List (Act ℕ StoredWrite)) (i : ℕ)
    (request : AuthRequest) : AuthProgram AuthResponse → Prop
  | working {rest : AuthProgram AuthResponse} (under : Under i acts)
      (transacts : Transacts (fun ws r => Transaction env request r ws) (writtenBy acts i) rest) :
      Progress env acts i request rest
  | abandoned {rest : AuthProgram AuthResponse} (never : .commit i ∉ acts)
      (rolledBack : .rollback i ∈ acts) (givesUp : GivesUp rest) :
      Progress env acts i request rest
  | ended {r : AuthResponse} (committed : .commit i ∈ acts)
      (transaction : Transaction env request r (writtenBy acts i)) :
      Progress env acts i request (.done (.ok r))

/-- **What the other requests do does not count.** -/
theorem Progress.snoc_of_ne {act : Act ℕ StoredWrite} (h : Progress env acts i request rest)
    (hi : i ≠ act.actor) : Progress env (acts ++ [act]) i request rest := by
  have hsame : writtenBy (acts ++ [act]) i = writtenBy acts i :=
    congrArg _ (Transactions.writesOf_snoc_of_ne hi acts)
  have hcommit : .commit i ∈ acts ++ [act] ↔ .commit i ∈ acts :=
    Transactions.mem_snoc_of_ne (b := .commit i) hi
  cases h with
  | working hunder htransacts =>
      exact .working (hunder.snoc_of_ne hi) (by rw [hsame]; exact htransacts)
  | abandoned hnever hrolled hgives =>
      exact .abandoned (fun hmem => hnever (hcommit.1 hmem)) (List.mem_append_left _ hrolled) hgives
  | ended hcommitted htransaction =>
      exact .ended (hcommit.2 hcommitted) (by rw [hsame]; exact htransaction)

/-- **An operation of the request** goes on with its transaction, ends it, or gives it up. -/
theorem Progress.step {op : AuthOp} {next : op.Answer → AuthProgram AuthResponse} {a : op.Answer}
    {b : Option (Act ℕ StoredWrite)} (h : Progress env acts i request (.step op next))
    (hacts : ActsAs i op a b) (honce : Once acts) :
    Progress env (acts ++ b.toList) i request (next a) ∧ Once (acts ++ b.toList) := by
  cases h with
  | working hunder htransacts =>
      obtain ⟨hcommit, hrollback, hnext⟩ := htransacts a
      cases hacts with
      | nothing hcommits hop hwritten =>
          have hworking := hnext hcommits hop
          rw [hwritten, List.append_nil] at hworking
          rw [Option.toList_none, List.append_nil]
          exact ⟨.working hunder hworking, honce⟩
      | @wrote w b id token =>
          refine ⟨.working (hunder.snoc_write i _) ?_, honce.write hunder _⟩
          have hwritten : writtenBy (acts ++ [.write i ⟨i, id, token, w⟩]) i =
              writtenBy acts i ++ [w] := by
            rw [writtenBy, Transactions.writesOf_snoc_write, if_pos rfl, List.map_append]
            rfl
          rw [Option.toList_some, hwritten]
          exact hnext rfl (by simp)
      | committed =>
          obtain ⟨r, hr, htransaction⟩ := hcommit rfl
          refine ⟨?_, honce.commit hunder⟩
          rw [hr]
          refine .ended (List.mem_append_right _ List.mem_cons_self) ?_
          rw [writtenBy, Option.toList_some, Transactions.writesOf_snoc_other (by simp)]
          exact htransaction
      | rolledBack =>
          refine ⟨.abandoned ?_ (List.mem_append_right _ List.mem_cons_self) (hrollback rfl),
            honce.rollback hunder.1⟩
          rw [Option.toList_some, List.mem_append, List.mem_singleton]
          exact fun hmem => hmem.elim hunder.1 (by simp)
  | abandoned hnever hrolled hgives =>
      obtain ⟨rfl, hnext⟩ := hgives
      cases hacts with
      | nothing _ hop => exact absurd rfl hop
      | rolledBack =>
          refine ⟨.abandoned ?_ (List.mem_append_left _ hrolled) (hnext _), honce.rollback hnever⟩
          rw [Option.toList_some, List.mem_append, List.mem_singleton]
          exact fun hmem => hmem.elim hnever (by simp)

/-- A request acts under its own number. -/
theorem ActsAs.actor {op : AuthOp} {a : op.Answer} {act : Act ℕ StoredWrite}
    (h : ActsAs i op a (some act)) : act.actor = i := by
  cases h <;> rfl

end Progress

/-- The acts of a run are those of its requests, each as far as it has got. -/
structure Sound (env : AuthEnv) (acts : List (Act ℕ StoredWrite)) (p : AuthPool) : Prop where
  once : Once acts
  /-- Only requests that have arrived have acted. -/
  arrived : ∀ act ∈ acts, p.threads act.actor ≠ none
  progress : ∀ i th, p.threads i = some th → Progress env acts i th.request th.rest

/-- A request that has not arrived has not acted. -/
theorem Sound.absent {env : AuthEnv} {acts : List (Act ℕ StoredWrite)} {p : AuthPool} {i : ℕ}
    (h : Sound env acts p) (hnone : p.threads i = none) : ∀ act ∈ acts, act.actor ≠ i := by
  rintro act hact rfl
  exact h.arrived act hact hnone

/-- **One step of the service** keeps the acts sound. -/
theorem Sound.step {env : AuthEnv} {acts : List (Act ℕ StoredWrite)} {p p' : AuthPool}
    {label : AuthLabel} (h : Sound env acts p) (hstep : (authSystem env).step p label = some p') :
    Sound env (acts ++ (actOfLabel env p label).toList) p' := by
  cases label with
  | start i request =>
      obtain ⟨hnone, -, hupdate⟩ := Pool.step_start (authExec env) (authCode env) hstep
      rw [actOfLabel, Option.toList_none, List.append_nil]
      refine ⟨h.once, fun act hact => ?_, fun j th hth => ?_⟩
      · rw [hupdate, Function.update_apply]
        split_ifs
        · simp
        · exact h.arrived act hact
      · rw [hupdate, Function.update_apply] at hth
        split_ifs at hth with hij
        · cases hth
          have habsent := h.absent hnone
          rw [← hij] at habsent
          refine .working (Transactions.under_of_absent habsent) ?_
          rw [writtenBy, Transactions.writesOf_of_absent habsent]
          exact transacts_inSession (works_authBody request)
        · exact h.progress j th hth
  | step i c =>
      obtain ⟨request, op, next, seen, s, a, hth, hexec, -, hupdate⟩ :=
        Pool.step_step (authExec env) (authCode env) hstep
      have hact : actOfLabel env p (.step i c) = actOf env i c p.shared op := by
        rw [actOfLabel, hth]
      have hacts := actsAs_of_exec hexec
      rw [← hact] at hacts
      obtain ⟨hprogress, honce⟩ := (h.progress i _ hth).step hacts h.once
      -- the other requests have not acted
      have hothers : ∀ j, j ≠ i → ∀ act, actOfLabel env p (.step i c) = some act →
          j ≠ act.actor := by
        intro j hj act hlabel
        rw [hlabel] at hacts
        rw [hacts.actor]
        exact hj
      refine ⟨honce, fun act hact => ?_, fun j th hthread => ?_⟩
      · rw [hupdate, Function.update_apply]
        split_ifs with hij
        · simp
        · rcases List.mem_append.1 hact with hact | hact
          · exact h.arrived act hact
          · rw [Option.mem_toList] at hact
            rw [hact] at hacts
            exact absurd hacts.actor hij
      · rw [hupdate, Function.update_apply] at hthread
        split_ifs at hthread with hij
        · cases hthread
          rw [hij]
          exact hprogress
        · have hrest := h.progress j th hthread
          cases hlabel : actOfLabel env p (.step i c) with
          | none => rw [Option.toList_none, List.append_nil]; exact hrest
          | some act => exact hrest.snoc_of_ne (hothers j hij act hlabel)

section Runs

variable {env : AuthEnv} {tr : List (AuthPool × AuthLabel)} {t : AuthPool}

theorem sound_of_run (h : (authSystem env).Run (.new env) tr t) :
    Sound env (storeActs env tr) t := by
  induction h with
  | nil =>
      refine ⟨.nil, ?_, ?_⟩
      · rintro _ ⟨⟩
      · rintro _ _ ⟨⟩
  | snoc _ hstep ih =>
      rw [storeActs_snoc]
      exact ih.step hstep

/-- A request has committed if and only if it has succeeded. -/
theorem Progress.commit_iff {acts : List (Act ℕ StoredWrite)} {i : ℕ} {request : AuthRequest}
    {rest : AuthProgram AuthResponse} (h : Progress env acts i request rest) :
    .commit i ∈ acts ↔ ∃ r, rest = .done (.ok r) := by
  cases h with
  | working hunder htransacts =>
      refine ⟨fun hmem => absurd hmem hunder.1, ?_⟩
      rintro ⟨r, rfl⟩
      exact htransacts.elim
  | abandoned hnever _ hgives =>
      refine ⟨fun hmem => absurd hmem hnever, ?_⟩
      rintro ⟨r, rfl⟩
      obtain ⟨e, he⟩ := hgives
      cases he
  | @ended r hcommitted _ => exact ⟨fun _ => ⟨r, rfl⟩, fun _ => hcommitted⟩

/-- **The database is what the successful requests have made of it**, one after the other, in every
interleaving: each has committed once, all that it has written, which is of the kind that belongs to
its request and its answer; a request that has failed or has not ended has no part in it. -/
theorem requests_are_transactions (h : (authSystem env).Run (.new env) tr t) :
    let done := (history (storeActs env tr)).committed
    t.shared.committed = serial (applyWrite env.sha256) done .empty ∧
      (done.map Prod.fst).Nodup ∧
      (∀ i, i ∈ done.map Prod.fst ↔ ∃ request r, t.outcome i = some (request, r)) ∧
      ∀ i ws, (i, ws) ∈ done → ws = writesOf i (storeActs env tr) ∧
        ∃ request r, t.outcome i = some (request, r) ∧
          Transaction env request r (ws.map StoredWrite.write) := by
  have hsound := sound_of_run h
  have hsettled := hsound.once.settled
  have hcommitted := Transactions.committed_eq_serial ((storePart env).run h)
  -- the requests that have committed are those that have succeeded
  have hiff : ∀ i, .commit i ∈ storeActs env tr ↔ ∃ request r, t.outcome i = some (request, r) := by
    intro i
    cases hth : t.threads i with
    | none =>
        refine ⟨fun hmem => absurd rfl (hsound.absent hth _ hmem), ?_⟩
        rintro ⟨request, r, hout⟩
        obtain ⟨th, hsome, -, -⟩ := AuthPool.outcome_eq_some hout
        rw [hth] at hsome
        cases hsome
    | some th =>
        refine (hsound.progress i th hth).commit_iff.trans ⟨?_, ?_⟩
        · rintro ⟨r, hrest⟩
          refine ⟨th.request, r, ?_⟩
          obtain ⟨request, rest, seen⟩ := th
          cases hrest
          rw [AuthPool.outcome, hth]
        · rintro ⟨request, r, hout⟩
          obtain ⟨th', hth', -, hrest⟩ := AuthPool.outcome_eq_some hout
          rw [hth] at hth'
          cases hth'
          exact ⟨r, hrest⟩
  refine ⟨hcommitted, hsettled.nodup, fun i => (hsettled.mem_iff i).trans (hiff i), ?_⟩
  intro i ws hmem
  have hws : ws = writesOf i (storeActs env tr) := hsettled.whole (i, ws) hmem
  have hcommit := (hsettled.mem_iff i).1 (List.mem_map_of_mem hmem)
  obtain ⟨request, r, hout⟩ := (hiff i).1 hcommit
  obtain ⟨th, hth, rfl, hrest⟩ := AuthPool.outcome_eq_some hout
  refine ⟨hws, th.request, r, hout, ?_⟩
  have hprogress := hsound.progress i th hth
  rw [hrest] at hprogress
  cases hprogress with
  | working _ htransacts => exact htransacts.elim
  | abandoned _ _ hgives =>
      obtain ⟨e, he⟩ := hgives
      cases he
  | ended _ htransaction =>
      rw [hws]
      exact htransaction

end Runs

/-! ### A deletion that fails -/

/-- `alice` deletes her account, but the commit raises. -/
def deletionFails : List AuthLabel :=
  twoLogins ++ deletesAccount ++ [.step 3 { fault := some (.other 0) }, .step 3 {}]

/-- The deletion has written twice and has failed; three requests have committed. -/
def failedDeletion (t : AuthPool) : Bool :=
  let acts := storeActs (sampleEnv .instants) ((authSystem (sampleEnv .instants)).traceOf
    (.new (sampleEnv .instants)) deletionFails)
  (writesOf 3 acts).length == 2 && (t.outcome 3).isNone &&
    (history acts).committed.map Prod.fst == [0, 1, 2]

/-- Nothing of the deletion is left. -/
theorem requests_are_transactions_alice :
    ∃ tr t done, (authSystem (sampleEnv .instants)).Run (.new (sampleEnv .instants)) tr t ∧
      (writesOf 3 (storeActs (sampleEnv .instants) tr)).length = 2 ∧ t.outcome 3 = none ∧
      done.map Prod.fst = [0, 1, 2] ∧
      t.shared.committed = serial (applyWrite (sampleEnv .instants).sha256) done .empty := by
  have hexec : ((authSystem (sampleEnv .instants)).exec (.new (sampleEnv .instants))
      deletionFails).map failedDeletion = some true := by decide +kernel
  obtain ⟨t, -, hrun, hp⟩ := System.exists_run_of_exec hexec
  simp only [failedDeletion, Bool.and_eq_true, Option.isNone_iff_eq_none, beq_iff_eq] at hp
  obtain ⟨⟨hwrites, hout⟩, hdone⟩ := hp
  exact ⟨_, t, _, hrun, hwrites, hout, hdone, (requests_are_transactions hrun).1⟩

end EncryptChat
