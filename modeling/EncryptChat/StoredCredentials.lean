/-
**What a sign-in stores.**

The credentials of a login or of a refresh name a session and carry a refresh token.  The session is
the one that was just created or rotated, and nothing is written between that and the commit; so for
a request that runs alone the committed session holds the hash of that token.

Main definitions:

* `EncryptChat.Database.HoldsToken` — the session holds the hash of a refresh token;
* `EncryptChat.AuthRequest.answeredBy` — the responses to a request.

Main results:

* `EncryptChat.AuthState.WF.eval` — the invariant of the store, after a request that ran alone;
* `EncryptChat.answeredBy_of_eval` — a request is answered by a response of its kind;
* `EncryptChat.holdsToken_of_eval` — **the session of the credentials holds the hash of their
  token**.
-/

import EncryptChat.AuthEval
import EncryptChat.FreshCredential

set_option relaxedAutoImplicit false
set_option autoImplicit false

namespace EncryptChat

open Python Concurrent AuthService

/-- The session holds the hash of the refresh token. -/
def Database.HoldsToken (sha256 : PyStr → PyStr) (d : Database) (sessionId token : PyStr) : Prop :=
  ∃ session ∈ d.sessions, session.id = sessionId ∧ session.refreshTokenHash = sha256 token

/-- The rows of a session are one. -/
theorem Database.HoldsToken.hash_eq {sha256 : PyStr → PyStr} {usedIds : List PyStr} {d : Database}
    {sessionId token : PyStr} (h : d.HoldsToken sha256 sessionId token) (hwf : WF usedIds d)
    {session : AuthSession} (hsession : session ∈ d.sessions) (hid : session.id = sessionId) :
    session.refreshTokenHash = sha256 token := by
  obtain ⟨row, hrow, hrowId, hhash⟩ := h
  have hsame : row = session :=
    List.inj_on_of_nodup_map hwf.sessions_nodup hrow hsession (hrowId.trans hid.symm)
  rw [← hsame]
  exact hhash

/-! ### Writes -/

section Writes

variable {sha256 : PyStr → PyStr} {d d' : Database} {i : ℕ} {id token : PyStr}

/-- A session that is created holds the token that was drawn for it. -/
theorem Database.holdsToken_createSession {userId : PyStr} {now e : Datetime}
    {rehash : Option (PyStr × Datetime)} {a : PyStr × PyStr}
    (h : d.write sha256 i id token (.createSession userId now e rehash) = .ok (d', a)) :
    d'.HoldsToken sha256 a.1 a.2 := by
  simp only [Database.write] at h
  cases hd : d.rehashUser userId rehash with
  | error e =>
      rw [hd] at h
      cases h
  | ok d₁ =>
      rw [hd] at h
      cases h
      exact ⟨_, List.mem_append_right _ (List.mem_singleton_self _), rfl, rfl⟩

/-- So does one that is rotated. -/
theorem Database.holdsToken_rotate {session : AuthSession} {e : Datetime} {a : PyStr}
    (h : d.write sha256 i id token (.rotate session e) = .ok (d', a)) :
    d'.HoldsToken sha256 session.id a := by
  simp only [Database.write, Database.rotateSession] at h
  cases hrow : d.sessions.find? fun s => s.id == session.id with
  | none =>
      rw [hrow] at h
      cases h
  | some row =>
      rw [hrow] at h
      cases h
      have hid := List.find?_some hrow
      rw [beq_iff_eq] at hid
      refine ⟨_, List.mem_map_of_mem (List.mem_of_find?_eq_some hrow), ?_, ?_⟩
      · rw [if_pos (beq_iff_eq.2 hid)]
        exact hid
      · rw [if_pos (beq_iff_eq.2 hid)]

end Writes

/-! ### Requests that run alone -/

section Eval

variable {env : AuthEnv} {k : ℕ} {α β : Type} {s s' : AuthState} {cs : List AuthChoice}

/-- A program that ends with a value has gone through its first part. -/
theorem eval_bind_eq_ok {p : AuthProgram β} {f : β → AuthProgram α} {a : α}
    (h : (p.bind f).eval (authExec env k) cs s = some (s', .ok a)) :
    ∃ s₁ b rest, p.eval (authExec env k) cs s = some (s₁, .ok b) ∧
      (f b).eval (authExec env k) rest s₁ = some (s', .ok a) := by
  obtain ⟨⟨s₁, r⟩, rest, -, hp, hrest⟩ := Program.eval_handle_eq_some _ h
  cases r with
  | ok b => exact ⟨s₁, b, rest, hp, hrest⟩
  | error e => cases (Program.eval_done _ _ _ _).symm.trans hrest

/-- A program that raises has no value. -/
theorem eval_raise_ne_ok {e : AuthFailure} {a : α}
    (h : (Program.raise e : AuthProgram α).eval (authExec env k) cs s = some (s', .ok a)) :
    False := by
  cases (eval_raise e).symm.trans h

/-- **The invariant of the store, after a program that ran alone.** -/
theorem AuthState.WF.eval (hs : s.WF env) {p : AuthProgram α} {r : Except AuthFailure α}
    (h : p.eval (authExec env k) cs s = some (s', r)) : s'.WF env := by
  induction p generalizing cs s with
  | done r' =>
      cases (Program.eval_done _ _ _ _).symm.trans h
      exact hs
  | step op next ih =>
      obtain ⟨c, rest, mid, rfl, hmid, hrest⟩ := Program.eval_step_eq_some _ h
      exact ih mid.2 (hs.effect (authEffect hmid)) hrest

/-- A write that is answered has been made in the database the request sees. -/
theorem eval_write_eq_ok {w : Write} {f : w.Answer → AuthProgram α} {a : α}
    (h : ((AuthProgram.write w).bind f).eval (authExec env k) cs s = some (s', .ok a)) :
    ∃ c rest d b, (s.visible k).write env.sha256 k c.id c.token w = .ok (d, b) ∧
      (f b).eval (authExec env k) rest (s.wrote k c d) = some (s', .ok a) := by
  obtain ⟨c, rest, s₁, answer, -, hwrite, hrest⟩ := eval_write_eq_some h
  rcases hrest with ⟨e, -, hout⟩ | ⟨b, hb, hrest⟩
  · cases hout
  · rcases AuthState.write_eq_some hwrite with ⟨-, e, he⟩ | ⟨d, d', b', hd, -, hw, hs₁, hb'⟩
    · rw [hb] at he
      cases he
    · obtain ⟨rfl, -⟩ := AuthState.writable_eq_some hd
      rw [hb] at hb'
      cases hb'
      rw [hs₁] at hrest
      exact ⟨c, rest, d', b, hw, hrest⟩

/-- What an opened session holds. -/
theorem openSession_holds {user : User} {rehash : Option (PyStr × Datetime)} {c : IssuedCredentials}
    (h : (openSession env user rehash).eval (authExec env k) cs s = some (s', .ok c)) :
    (s'.visible k).HoldsToken env.sha256 c.sessionId c.refreshToken := by
  obtain ⟨s₁, now, rest, hnow, hrest⟩ := eval_bind_eq_ok h
  obtain ⟨choice, later, d, drawn, hwrite, hissue⟩ := eval_write_eq_ok hrest
  obtain ⟨c', last, mid, -, hmid, hend⟩ := eval_perform_eq_some hissue
  cases hmid
  cases (Program.eval_done _ _ _ _).symm.trans hend
  have hstored := Database.holdsToken_createSession hwrite
  rw [← AuthState.visible_wrote s₁ k choice d] at hstored
  exact hstored

/-- **What the session of a login holds.** -/
theorem login_holds {username password : PyStr} {c : IssuedCredentials}
    (h : (login env username password).eval (authExec env k) cs s = some (s', .ok c)) :
    (s'.visible k).HoldsToken env.sha256 c.sessionId c.refreshToken := by
  unfold login at h
  split at h
  · rename_i n _
    obtain ⟨s₁, blocked, cs₁, -, h⟩ := eval_bind_eq_ok h
    cases blocked with
    | true => exact absurd h eval_raise_ne_ok
    | false =>
        obtain ⟨s₂, found, cs₂, -, h⟩ := eval_bind_eq_ok h
        cases found with
        | none =>
            obtain ⟨s₃, _, cs₃, -, h⟩ := eval_bind_eq_ok h
            obtain ⟨s₄, _, cs₄, -, h⟩ := eval_bind_eq_ok h
            exact absurd h eval_raise_ne_ok
        | some user =>
            obtain ⟨s₃, _, cs₃, -, h⟩ := eval_bind_eq_ok h
            obtain ⟨s₄, verified, cs₄, -, h⟩ := eval_bind_eq_ok h
            split_ifs at h
            · obtain ⟨s₅, _, cs₅, -, h⟩ := eval_bind_eq_ok h
              exact absurd h eval_raise_ne_ok
            · obtain ⟨s₅, _, cs₅, -, h⟩ := eval_bind_eq_ok h
              exact absurd h eval_raise_ne_ok
            · obtain ⟨s₅, rehash, cs₅, -, h⟩ := eval_bind_eq_ok h
              obtain ⟨s₆, _, cs₆, -, h⟩ := eval_bind_eq_ok h
              exact openSession_holds h
  · obtain ⟨s₁, _, cs₁, -, h⟩ := eval_bind_eq_ok h
    exact absurd h eval_raise_ne_ok

/-- **What the session of a refresh holds.** -/
theorem refresh_holds {token : PyStr} {c : IssuedCredentials}
    (h : (refresh env token).eval (authExec env k) cs s = some (s', .ok c)) :
    (s'.visible k).HoldsToken env.sha256 c.sessionId c.refreshToken := by
  obtain ⟨s₁, tokenHash, cs₁, -, h⟩ := eval_bind_eq_ok h
  obtain ⟨s₂, found, cs₂, -, h⟩ := eval_bind_eq_ok h
  obtain ⟨s₃, now, cs₃, -, h⟩ := eval_bind_eq_ok h
  cases found with
  | none => exact absurd h eval_raise_ne_ok
  | some session =>
      obtain ⟨s₄, _, cs₄, -, h⟩ := eval_bind_eq_ok h
      obtain ⟨s₅, loaded, cs₅, -, h⟩ := eval_bind_eq_ok h
      split_ifs at h
      · exact absurd h eval_raise_ne_ok
      · obtain ⟨choice, later, d, drawn, hwrite, hissue⟩ := eval_write_eq_ok h
        obtain ⟨c', last, mid, -, hmid, hend⟩ := eval_perform_eq_some hissue
        cases hmid
        cases (Program.eval_done _ _ _ _).symm.trans hend
        have hstored := Database.holdsToken_rotate hwrite
        rw [← AuthState.visible_wrote s₅ k choice d] at hstored
        exact hstored

/-- The response is one to a request of this kind. -/
def AuthRequest.answeredBy : AuthRequest → AuthResponse → Bool
  | .register _ _, .registered _ | .login _ _, .loggedIn _ | .resolve _, .resolved _
  | .refresh _, .refreshed _ | .logout _, .loggedOut _ | .deleteAccount _ _, .deleted _ => true
  | _, _ => false

/-- What a request has gone through before its commit. -/
theorem body_of_eval {request : AuthRequest} {response : AuthResponse}
    (h : (authCode env request).eval (authExec env k) cs s = some (s', .ok response)) :
    ∃ s₁, (authBody env request).eval (authExec env k) cs s = some (s₁, .ok response) ∧
      s'.committed = s₁.visible k := by
  obtain ⟨s₁, r, rest, -, hbody, hend⟩ := eval_inSession_eq_some h
  rcases hend with ⟨a, rfl, hout⟩ | ⟨⟨e, hout⟩, -⟩
  · simp only [Prod.mk.injEq, Except.ok.injEq] at hout
    obtain ⟨rfl, rfl⟩ := hout
    exact ⟨s₁, hbody, s₁.committed_commit k⟩
  · cases hout

/-- **A request is answered by a response of its kind.** -/
theorem answeredBy_of_eval {request : AuthRequest} {response : AuthResponse}
    (h : (authCode env request).eval (authExec env k) cs s = some (s', .ok response)) :
    request.answeredBy response = true := by
  obtain ⟨s₁, hbody, -⟩ := body_of_eval h
  cases request with
  | register | login | resolve | refresh =>
      obtain ⟨s₂, b, cs', -, hlast⟩ := eval_bind_eq_ok hbody
      cases (Program.eval_done _ _ _ _).symm.trans hlast
      rfl
  | logout | deleteAccount =>
      obtain ⟨s₂, b, cs', -, hlast⟩ := eval_bind_eq_ok hbody
      obtain ⟨s₃, _, cs'', -, hlast⟩ := eval_bind_eq_ok hlast
      cases (Program.eval_done _ _ _ _).symm.trans hlast
      rfl

/-- **The session of the credentials holds the hash of their token**, once the request has ended. -/
theorem holdsToken_of_eval {request : AuthRequest} {response : AuthResponse} {c : IssuedCredentials}
    (h : (authCode env request).eval (authExec env k) cs s = some (s', .ok response))
    (hissued : response.credentials = some c) :
    s'.committed.HoldsToken env.sha256 c.sessionId c.refreshToken := by
  have hkind := answeredBy_of_eval h
  obtain ⟨s₁, hbody, hcommitted⟩ := body_of_eval h
  rw [hcommitted]
  cases response with
  | registered | resolved | loggedOut | deleted => cases hissued
  | loggedIn c' =>
      cases hissued
      cases request with
      | login username password =>
          obtain ⟨s₂, c', cs', hlogin, hlast⟩ := eval_bind_eq_ok hbody
          cases (Program.eval_done _ _ _ _).symm.trans hlast
          exact login_holds hlogin
      | register | resolve | refresh | logout | deleteAccount => cases hkind
  | refreshed c' =>
      cases hissued
      cases request with
      | refresh token =>
          obtain ⟨s₂, c', cs', hrefresh, hlast⟩ := eval_bind_eq_ok hbody
          cases (Program.eval_done _ _ _ _).symm.trans hlast
          exact refresh_holds hrefresh
      | register | login | resolve | logout | deleteAccount => cases hkind

end Eval

end EncryptChat
