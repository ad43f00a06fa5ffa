/-
**Which operations the service performs.**

Every request is a fixed program, so what it may do next can be read off what it has done.  Most
operations are plain ones that several requests share.  The others belong to one kind of request:
only a registration creates an account, only a login asks and feeds the failed-login tracker, only a
login and a refresh mint an access token, only a refresh rotates a refresh token.

Main definitions:

* `EncryptChat.AuthOp.Plain` — an operation that any request may perform;
* `EncryptChat.AuthOp.Shared` — such an operation that opens no session;
* `EncryptChat.AuthOp.Tracks` — an operation on the failed logins of a name;
* `EncryptChat.Admits` — a property of operations that admits those of a request.

Main results:

* `EncryptChat.follows_authCode` — **a request performs its own operations only**.
-/

import EncryptChat.AuthService

set_option relaxedAutoImplicit false
set_option autoImplicit false

namespace EncryptChat

open Python Concurrent AuthService
open Program (Seen Follows)

/-- An operation that any request may perform. -/
def AuthOp.Plain : AuthOp → Prop
  | .issue _ _ _ | .isBlocked _ | .recordFailure _ | .resetFailures _ => False
  | .write (.rotate _ _) | .write (.createUser _ _ _ _) => False
  | _ => True

/-- A plain operation that opens no session. -/
def AuthOp.Shared : AuthOp → Prop
  | .write (.createSession _ _ _ _) => False
  | op => op.Plain

theorem AuthOp.Shared.plain {op : AuthOp} (h : op.Shared) : op.Plain := by
  unfold AuthOp.Shared at h
  split at h
  · trivial
  · exact h

/-- An operation on the failed logins of a name. -/
def AuthOp.Tracks (identifier : PyStr) : AuthOp → Prop
  | .isBlocked x | .recordFailure x | .resetFailures x => x = identifier
  | _ => False

/-- The request signs in: it ends with new credentials. -/
def AuthRequest.signsIn : AuthRequest → Prop
  | .login _ _ | .refresh _ => True
  | _ => False

/-- The property `P` of operations admits those of a request. -/
structure Admits (env : AuthEnv) (request : AuthRequest)
    (P : Seen AuthOp.Answer → AuthOp → Prop) : Prop where
  plain : ∀ seen op, op.Plain → P seen op
  create : ∀ seen username password normalized passwordHash now,
    request = .register username password →
      validateUsername env.unicode username = .ok normalized →
        P seen (.write (.createUser (strip username) normalized passwordHash now))
  track : ∀ seen username password normalized op, request = .login username password →
    validateUsername env.unicode username = .ok normalized → op.Tracks normalized → P seen op
  issue : ∀ seen userId sessionId now, request.signsIn → P seen (.issue userId sessionId now)
  rotate : ∀ seen token x e, request = .refresh token →
    ⟨.query (.sessionByHash (env.sha256 token)), Except.ok (some x)⟩ ∈ seen →
      P seen (.write (.rotate x e))

/-! ### Rules -/

section Rules

variable {α : Type} {P : Seen AuthOp.Answer → AuthOp → Prop} {seen : Seen AuthOp.Answer}

theorem follows_ofPython (r : Except PyError α) : Follows P seen (AuthProgram.ofPython r) := by
  cases r <;> exact Program.follows_done _

theorem follows_ofExcept {β : Type} {r : Except AuthFailure β} {f : β → AuthProgram α}
    (h : ∀ b, r = .ok b → Follows P seen (f b)) :
    Follows P seen ((Program.ofExcept r).bind f) := by
  cases r with
  | ok b => exact h b rfl
  | error e => exact Program.follows_done _

theorem follows_query {q : Query} (h : P seen (.query q)) :
    Follows P seen (AuthProgram.query q) :=
  (Program.follows_perform h).bind fun _ a _ => follows_ofPython a

theorem follows_write {w : Write} (h : P seen (.write w)) : Follows P seen (AuthProgram.write w) :=
  (Program.follows_perform h).bind fun _ a _ => follows_ofPython a

theorem follows_hash {password : PyStr} (h : P seen (.hashPassword password)) :
    Follows P seen (AuthProgram.hash password) :=
  (Program.follows_perform h).bind fun _ a _ => follows_ofPython a

theorem follows_verify {storedHash password : PyStr}
    (h : P seen (.verifyPassword storedHash password)) :
    Follows P seen (AuthProgram.verify storedHash password) :=
  (Program.follows_perform h).bind fun _ a _ => follows_ofPython a

theorem follows_rollbackAndRaise (e : AuthFailure) (h : ∀ seen, P seen .rollback) :
    Follows P seen (AuthProgram.rollbackAndRaise e : AuthProgram α) :=
  (Program.follows_perform (h seen)).bind fun _ _ _ => Program.follows_done _

/-- A request commits or rolls back, and does nothing else besides its body. -/
theorem follows_inSession {p : AuthProgram α} (h : Follows P seen p)
    (hcommit : ∀ seen, P seen .commit) (hrollback : ∀ seen, P seen .rollback) :
    Follows P seen (AuthProgram.inSession p) := by
  refine h.handle fun seen' r _ => ?_
  cases r with
  | error e => exact follows_rollbackAndRaise e hrollback
  | ok a =>
      refine (Program.follows_perform (hcommit seen')).bind fun seen'' b _ => ?_
      cases b with
      | ok _ => exact Program.follows_done _
      | error e => exact follows_rollbackAndRaise _ hrollback

end Rules

/-- A name that may be registered has passed the policy. -/
theorem registrationUsername_eq_ok {env : AuthEnv} {username normalized : PyStr}
    (h : registrationUsername env username = .ok normalized) :
    validateUsername env.unicode username = .ok normalized := by
  unfold registrationUsername at h
  split at h
  · rename_i n hn
    cases h
    exact hn
  · cases h

/-! ### Programs -/

section Programs

variable {P : Seen AuthOp.Answer → AuthOp → Prop} (hP : ∀ seen op, op.Shared → P seen op)
  {seen : Seen AuthOp.Answer}
include hP

theorem follows_loadUser (userId : PyStr) (e : AuthFailure) :
    Follows P seen (loadUser userId e) := by
  refine (follows_query (hP _ _ (by trivial))).bind fun seen₁ found _ => ?_
  cases found with
  | none => exact Program.follows_done _
  | some user =>
      exact (follows_query (hP _ _ (by trivial))).bind fun _ _ _ => Program.follows_done _

/-- A registration creates an account under the name it has validated. -/
theorem follows_register (env : AuthEnv) (username password : PyStr)
    (hcreate : ∀ seen normalized passwordHash now,
      validateUsername env.unicode username = .ok normalized →
        P seen (.write (.createUser (strip username) normalized passwordHash now))) :
    Follows P seen (register env username password) := by
  refine follows_ofExcept fun normalized hname => ?_
  have hvalid := registrationUsername_eq_ok hname
  refine (Program.follows_done _).bind fun seen₁ _ _ => ?_
  refine (follows_hash (hP _ _ (by trivial))).bind fun seen₂ passwordHash _ => ?_
  refine (Program.follows_perform (hP _ _ (by trivial))).bind fun seen₃ now _ => ?_
  refine (follows_write (hcreate _ _ _ _ hvalid)).bind fun seen₄ created _ => ?_
  cases created with
  | some user => exact Program.follows_done _
  | none => exact follows_rollbackAndRaise _ fun seen => hP seen _ trivial

theorem follows_resolveObjects (env : AuthEnv) (token : PyStr) :
    Follows P seen (resolveObjects env token) := by
  refine (Program.follows_perform (hP _ _ (by trivial))).bind fun seen₁ clock _ => ?_
  refine (Program.follows_done _).bind fun seen₂ claims _ => ?_
  refine (Program.follows_perform (hP _ _ (by trivial))).bind fun seen₃ now _ => ?_
  refine (follows_query (hP _ _ (by trivial))).bind fun seen₄ found _ => ?_
  cases found with
  | none => exact Program.follows_done _
  | some session =>
      refine (Program.follows_done _).bind fun seen₅ _ _ => ?_
      refine (follows_loadUser hP _ _).bind fun seen₆ loaded _ => ?_
      exact (Program.follows_done _).bind fun _ _ _ => Program.follows_done _

theorem follows_logout (held : AuthSession) : Follows P seen (logout held) := by
  obtain ⟨_, _, _, _, _, revokedAt⟩ := held
  refine (follows_query (hP _ _ (by trivial))).bind fun seen₁ found _ => ?_
  cases found with
  | none => exact Program.follows_done _
  | some _ =>
      refine (Program.follows_perform (hP _ _ (by trivial))).bind fun seen₂ now _ => ?_
      cases revokedAt with
      | none => exact follows_write (hP _ _ (by trivial))
      | some _ => exact Program.follows_done _

theorem follows_deleteAccount (held : User) (sessionIds : List PyStr) (password : PyStr) :
    Follows P seen (deleteAccount held sessionIds password) := by
  refine (follows_query (hP _ _ (by trivial))).bind fun seen₁ found _ => ?_
  cases found with
  | none => exact Program.follows_done _
  | some _ =>
      refine (follows_verify (hP _ _ (by trivial))).bind fun seen₂ verified _ => ?_
      cases verified with
      | false => exact Program.follows_done _
      | true =>
          refine (Program.follows_perform (hP _ _ (by trivial))).bind fun seen₃ now _ => ?_
          refine (follows_write (hP _ _ (by trivial))).bind fun seen₄ _ _ => ?_
          exact follows_write (hP _ _ (by trivial))

/-- A login asks and feeds the tracker under the normalized name, opens a session, and mints. -/
theorem follows_login (env : AuthEnv) (username password : PyStr)
    (hopen : ∀ seen userId now e rehash, P seen (.write (.createSession userId now e rehash)))
    (hissue : ∀ seen userId sessionId now, P seen (.issue userId sessionId now))
    (htrack : ∀ seen normalized op, validateUsername env.unicode username = .ok normalized →
      op.Tracks normalized → P seen op) :
    Follows P seen (login env username password) := by
  unfold login
  split
  · rename_i normalized hvalid
    have hfail : ∀ seen reason,
        Follows P seen (failLogin normalized reason : AuthProgram IssuedCredentials) :=
      fun seen _ => (Program.follows_perform (htrack seen _ _ hvalid (by rfl))).bind
        fun _ _ _ => Program.follows_done _
    refine (Program.follows_perform (htrack _ _ _ hvalid (by rfl))).bind fun seen₁ blocked _ => ?_
    cases blocked with
    | true => exact Program.follows_done _
    | false =>
        refine (follows_query (hP _ _ (by trivial))).bind fun seen₂ found _ => ?_
        cases found with
        | none =>
            exact (Program.follows_perform (hP _ _ (by trivial))).bind fun _ _ _ => hfail _ _
        | some user =>
            refine (follows_query (hP _ _ (by trivial))).bind fun seen₃ _ _ => ?_
            refine (follows_verify (hP _ _ (by trivial))).bind fun seen₄ verified _ => ?_
            split_ifs
            · exact hfail _ _
            · exact hfail _ _
            · refine Follows.bind ?_ fun seen₅ rehash _ => ?_
              · unfold rehashPassword
                split_ifs
                · refine (follows_hash (hP _ _ (by trivial))).bind fun seen₆ _ _ => ?_
                  exact (Program.follows_perform (hP _ _ (by trivial))).bind
                    fun _ _ _ => Program.follows_done _
                · exact Program.follows_done _
              refine (Program.follows_perform (htrack _ _ _ hvalid (by rfl))).bind
                fun seen₆ _ _ => ?_
              refine (Program.follows_perform (hP _ _ (by trivial))).bind fun seen₇ now _ => ?_
              refine (follows_write (hopen _ _ _ _ _)).bind fun seen₈ drawn _ => ?_
              exact (Program.follows_perform (hissue _ _ _ _)).bind
                fun _ _ _ => Program.follows_done _
  · exact (Program.follows_perform (hP _ _ (by trivial))).bind fun _ _ _ => Program.follows_done _

/-- A refresh mints, and rotates the session it has found by the token. -/
theorem follows_refresh (env : AuthEnv) (token : PyStr)
    (hissue : ∀ seen userId sessionId now, P seen (.issue userId sessionId now))
    (hrotate : ∀ seen x e, ⟨.query (.sessionByHash (env.sha256 token)), Except.ok (some x)⟩ ∈ seen →
      P seen (.write (.rotate x e))) : Follows P seen (refresh env token) := by
  unfold refresh hashRefreshToken
  split_ifs
  · exact Program.follows_done _
  · refine ⟨hP _ _ (by trivial), fun answer => ?_⟩
    cases answer with
    | error e => exact Program.follows_done _
    | ok found =>
        refine (Program.follows_perform (hP _ _ (by trivial))).bind fun seen₁ now hsub₁ => ?_
        cases found with
        | none => exact Program.follows_done _
        | some session =>
            refine (Program.follows_done _).bind fun seen₂ _ hsub₂ => ?_
            refine (follows_loadUser hP _ _).bind fun seen₃ loaded hsub₃ => ?_
            cases hactive : loaded.1.isActive with
            | false =>
                rw [if_pos rfl]
                exact Program.follows_done _
            | true =>
                rw [if_neg (by decide)]
                refine (follows_write (hrotate _ _ _ ?_)).bind fun seen₄ _ _ => ?_
                · exact hsub₃ (hsub₂ (hsub₁ (List.mem_append_right _ List.mem_cons_self)))
                · exact (Program.follows_perform (hissue _ _ _ _)).bind
                    fun _ _ _ => Program.follows_done _

end Programs

/-! ### Requests -/

/-- A login of a name that violates the policy. -/
theorem authCode_login_error {env : AuthEnv} {username password reason : PyStr}
    (h : validateUsername env.unicode username = .error reason) :
    authCode env (.login username password) =
      .step .dummyVerify fun _ => .step .rollback fun _ =>
        .done (.error (invalidCredentials (py "malformed identifier"))) := by
  simp only [authCode, authBody, login, h]
  rfl

/-- A login of a well-formed name. -/
theorem authCode_login {env : AuthEnv} {username password n : PyStr}
    (h : validateUsername env.unicode username = .ok n) :
    authCode env (.login username password) =
      AuthProgram.inSession ((loginNormalized env n password).bind fun credentials =>
        .done (.ok (.loggedIn credentials))) := by
  simp only [authCode, authBody, login, h]
  rfl

/-- **A request performs its own operations only.** -/
theorem follows_authCode {env : AuthEnv} {request : AuthRequest}
    {P : Seen AuthOp.Answer → AuthOp → Prop} (h : Admits env request P) :
    Follows P [] (authCode env request) := by
  have hshared : ∀ seen op, op.Shared → P seen op := fun seen op hop => h.plain seen op hop.plain
  refine follows_inSession ?_ (fun seen => h.plain seen _ (by trivial))
    fun seen => h.plain seen _ (by trivial)
  cases request with
  | register username password =>
      refine (follows_register hshared env username password fun seen n passwordHash now hn => ?_).bind
        fun _ _ _ => Program.follows_done _
      exact h.create seen username password n passwordHash now rfl hn
  | login username password =>
      refine (follows_login hshared env username password
        (fun seen _ _ _ _ => h.plain seen _ (by trivial)) (fun seen _ _ _ => ?_)
        fun seen n op hn hop => ?_).bind fun _ _ _ => Program.follows_done _
      · exact h.issue seen _ _ _ (by trivial)
      · exact h.track seen username password n op rfl hn hop
  | resolve accessToken =>
      exact (follows_resolveObjects hshared env accessToken).bind
        fun _ _ _ => Program.follows_done _
  | refresh token =>
      refine (follows_refresh hshared env token (fun seen _ _ _ => ?_)
        fun seen x e hmem => ?_).bind fun _ _ _ => Program.follows_done _
      · exact h.issue seen _ _ _ (by trivial)
      · exact h.rotate seen token x e rfl hmem
  | logout accessToken =>
      refine (follows_resolveObjects hshared env accessToken).bind fun _ resolved _ => ?_
      exact (follows_logout hshared resolved.session).bind fun _ _ _ => Program.follows_done _
  | deleteAccount accessToken password =>
      refine (follows_resolveObjects hshared env accessToken).bind fun _ resolved _ => ?_
      exact (follows_deleteAccount hshared resolved.user resolved.sessionIds password).bind
        fun _ _ _ => Program.follows_done _

end EncryptChat
