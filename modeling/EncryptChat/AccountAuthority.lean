/-
**Who changes an account.**

The rows of an account are its own row and those of its sessions.  They change when a request
commits, and only a request that has a warrant for the account can: the registration that creates
it, a login that has proved its password, a request with a refresh token or an access token of one
of its sessions.  Each of these sessions was opened by a login that had proved the password, and a
deletion has verified the password again.

Main definitions:

* `EncryptChat.Database.rowsOf` — the rows of an account;
* `EncryptChat.Database.WroteFor` — the account a write is about;
* `EncryptChat.Shows` — what a request has seen before it writes;
* `EncryptChat.Warrant` — **what entitles a request to change the rows of an account**.

Main results:

* `EncryptChat.Database.rowsOf_write` — a write leaves the rows of other accounts alone;
* `EncryptChat.gives_authCode` — a request reads before it writes, and shows what it must;
* `EncryptChat.committed_of_seen` — what a request reads has been committed;
* `EncryptChat.accounts_change_by_warrant` — **the rows of an account change by a warrant for it**.
-/

import EncryptChat.SessionOrigins

set_option relaxedAutoImplicit false
set_option autoImplicit false

namespace EncryptChat

open Python Concurrent Transition AuthService
open Program (Seen Follows Achieves)

/-! ### The rows of an account -/

/-- Rows that a change leaves alone are there before and after it. -/
theorem filter_map_of_kept {α : Type} {l : List α} {p : α → Bool} {f : α → α}
    (hkeeps : ∀ x ∈ l, p (f x) = p x) (hsame : ∀ x ∈ l, p x = true → f x = x) :
    (l.map f).filter p = l.filter p := by
  induction l with
  | nil => rfl
  | cons x l ih =>
      have hrest := ih (fun y hy => hkeeps y (List.mem_cons_of_mem _ hy))
        fun y hy => hsame y (List.mem_cons_of_mem _ hy)
      rw [List.map_cons, List.filter_cons, List.filter_cons, hkeeps x List.mem_cons_self, hrest]
      split
      · rename_i hx
        rw [hsame x List.mem_cons_self hx]
      · rfl

/-- Rows that are not deleted are there before and after it. -/
theorem filter_filter_of_kept {α : Type} {l : List α} {p q : α → Bool}
    (h : ∀ x ∈ l, p x = true → q x = true) : (l.filter q).filter p = l.filter p := by
  rw [List.filter_filter]
  refine List.filter_congr fun x hx => ?_
  cases hp : p x with
  | false => rfl
  | true => rw [h x hx hp, Bool.true_and]

namespace Database

variable {sha256 : PyStr → PyStr} {d d' : Database} {i : ℕ} {id token userId : PyStr} {w : Write}

/-- The rows of an account: its own, and those of its sessions. -/
def rowsOf (d : Database) (userId : PyStr) : List User × List AuthSession :=
  (d.users.filter fun u => u.id == userId, d.sessions.filter fun s => s.userId == userId)

/-- The write, which the database `d` is the result of, is about the account. -/
def WroteFor (d : Database) (userId : PyStr) : (w : Write) → w.Answer → Prop
  | .createUser _ _ _ _, (created : Option User) => ∃ user, created = some user ∧ user.id = userId
  | .createSession owner _ _ _, _ => owner = userId
  | .rotate session _, _ => (session.id, userId) ∈ d.opened
  | .revoke sessionId _, _ => (sessionId, userId) ∈ d.opened
  | .revokeAll owner _, _ => owner = userId
  | .deleteUser owner sessionIds, _ => owner = userId ∨ ∃ id ∈ sessionIds, (id, userId) ∈ d.opened

theorem WroteFor.later {a : w.Answer} (h : d.WroteFor userId w a) (hlater : d.Later d') :
    d'.WroteFor userId w a := by
  cases w with
  | createUser | createSession | revokeAll => exact h
  | rotate | revoke => exact hlater.opened h
  | deleteUser owner sessionIds =>
      rcases h with h | ⟨id, hid, h⟩
      · exact .inl h
      · exact .inr ⟨id, hid, hlater.opened h⟩

/-- A change of sessions none of which is of the account. -/
theorem rowsOf_mapSessions {p : AuthSession → Bool} {f : AuthSession → AuthSession}
    (hf : ∀ s, (f s).userId = s.userId) (h : ∀ s ∈ d.sessions, p s = true → s.userId ≠ userId) :
    (d.mapSessions p f).filter (fun s => s.userId == userId) =
      d.sessions.filter fun s => s.userId == userId := by
  refine filter_map_of_kept (fun s _ => ?_) fun s hs howner => ?_
  · split_ifs <;> simp only [hf]
  · rw [if_neg fun hp => h s hs hp (eq_of_beq howner)]

/-- An `UPDATE users` of another account. -/
theorem rowsOf_rehashUser {owner : PyStr} {rehash : Option (PyStr × Datetime)}
    (h : d.rehashUser owner rehash = .ok d') (hne : owner ≠ userId) :
    d'.rowsOf userId = d.rowsOf userId := by
  cases rehash with
  | none =>
      cases h
      rfl
  | some update =>
      obtain ⟨passwordHash, updatedAt⟩ := update
      simp only [rehashUser] at h
      split_ifs at h
      cases h
      refine Prod.ext (filter_map_of_kept (fun u _ => ?_) fun u _ hu => ?_) rfl
      · split_ifs <;> rfl
      · rw [if_neg fun howner => hne ((eq_of_beq howner).symm.trans (eq_of_beq hu))]

/-- The account of a session that is stored. -/
theorem WF.opened_of_id {usedIds : List PyStr} (hwf : WF usedIds d) {s : AuthSession}
    (hs : s ∈ d.sessions) {sessionId : PyStr} (hid : s.id = sessionId)
    (howner : s.userId = userId) : (sessionId, userId) ∈ d.opened := by
  rw [← hid, ← howner]
  exact hwf.session s hs

/-- **A write leaves the rows of other accounts alone.** -/
theorem rowsOf_write {usedIds : List PyStr} (hwf : WF usedIds d) {a : w.Answer}
    (h : d.write sha256 i id token w = .ok (d', a)) (hother : ¬ d'.WroteFor userId w a) :
    d'.rowsOf userId = d.rowsOf userId := by
  cases w with
  | createUser username normalized passwordHash now =>
      have hcreated : d.createUser id username normalized passwordHash now = (d', a) :=
        Except.ok.inj h
      unfold Database.createUser at hcreated
      split_ifs at hcreated
      · obtain ⟨rfl, -⟩ := Prod.mk.inj hcreated
        rfl
      · obtain ⟨rfl, rfl⟩ := Prod.mk.inj hcreated
        have hne : id ≠ userId := fun heq => hother ⟨_, rfl, heq⟩
        refine Prod.ext ?_ rfl
        simp only [rowsOf, List.filter_append]
        simp [hne]
  | createSession owner now expiresAt rehash =>
      simp only [write] at h
      cases hd : d.rehashUser owner rehash with
      | error e =>
          rw [hd] at h
          cases h
      | ok d₁ =>
          rw [hd] at h
          obtain ⟨rfl, -⟩ := Prod.mk.inj (Except.ok.inj h)
          rw [← rowsOf_rehashUser hd hother]
          refine Prod.ext rfl ?_
          simp only [rowsOf, insertSession, List.filter_append]
          have hne : owner ≠ userId := hother
          simp [hne]
  | rotate session expiresAt =>
      simp only [write, rotateSession] at h
      cases hrow : d.sessions.find? fun s => s.id == session.id with
      | none =>
          rw [hrow] at h
          cases h
      | some row =>
          rw [hrow] at h
          obtain ⟨rfl, -⟩ := Prod.mk.inj (Except.ok.inj h)
          refine Prod.ext rfl (rowsOf_mapSessions (fun _ => rfl) fun s hs hid howner => ?_)
          exact hother (hwf.opened_of_id hs (eq_of_beq hid) howner)
  | revoke sessionId now =>
      simp only [write, revokeSession] at h
      split_ifs at h
      · obtain ⟨rfl, -⟩ := Prod.mk.inj (Except.ok.inj h)
        refine Prod.ext rfl (rowsOf_mapSessions (fun _ => rfl) fun s hs hid howner => ?_)
        exact hother (hwf.opened_of_id hs (eq_of_beq hid) howner)
      · cases h
  | revokeAll owner now =>
      obtain ⟨rfl, -⟩ := Prod.mk.inj (Except.ok.inj h)
      refine Prod.ext rfl (rowsOf_mapSessions (fun _ => rfl) fun s _ hlive howner => ?_)
      have howner' : (s.userId == owner) = true := (Bool.and_eq_true_iff.1 hlive).1
      exact hother ((eq_of_beq howner').symm.trans howner)
  | deleteUser owner sessionIds =>
      obtain ⟨rfl, -⟩ := Prod.mk.inj (Except.ok.inj h)
      refine Prod.ext (filter_filter_of_kept fun u _ hu => ?_)
        (filter_filter_of_kept fun s hs howner => ?_)
      · rw [bne_iff_ne]
        exact fun heq => hother (.inl (heq.symm.trans (eq_of_beq hu)))
      · rw [Bool.not_eq_true']
        refine Bool.eq_false_iff.2 fun hdeleted => hother (.inr ⟨s.id, ?_, ?_⟩)
        · exact List.contains_iff_mem.1 hdeleted
        · exact hwf.opened_of_id hs rfl (eq_of_beq howner)

end Database

/-! ### What a request shows before it writes -/

/-- Nothing has been written yet. -/
def OnlyRead (seen : Seen AuthOp.Answer) : Prop := ∀ e ∈ seen, ∀ w, e.1 ≠ .write w

theorem onlyRead_nil : OnlyRead [] := fun _ he => by cases he

theorem OnlyRead.snoc {seen : Seen AuthOp.Answer} (h : OnlyRead seen) (op : AuthOp)
    (hop : ∀ w, op ≠ .write w) (a : op.Answer) : OnlyRead (seen ++ [⟨op, a⟩]) := by
  intro e he
  rcases List.mem_append.1 he with he | he
  · exact h e he
  · rw [List.mem_singleton] at he
    subst he
    exact hop

/-- What a request has read for the access token it presents: the session the token names, and the
user of that session. -/
structure Presents (env : AuthEnv) (token : PyStr) (seen : Seen AuthOp.Answer)
    (claims : AccessTokenClaims) (r : Resolved) : Prop where
  decoded : ∃ clock, decodeAccessToken env.jwt env.config token clock = .ok claims
  session_read : ⟨.query (.sessionById claims.sessionId), Except.ok (some r.session)⟩ ∈ seen
  user_read : ⟨.query (.userById claims.userId), Except.ok (some r.user)⟩ ∈ seen
  sessions_read : ⟨.query (.sessionsOf r.user.id), Except.ok r.sessionIds⟩ ∈ seen
  owner : r.session.userId = r.user.id

theorem Presents.mono {env : AuthEnv} {token : PyStr} {seen seen' : Seen AuthOp.Answer}
    {claims : AccessTokenClaims} {r : Resolved} (h : Presents env token seen claims r)
    (hsub : seen ⊆ seen') : Presents env token seen' claims r :=
  ⟨h.decoded, hsub h.session_read, hsub h.user_read, hsub h.sessions_read, h.owner⟩

/-- **What a request has seen before it writes.** -/
inductive Shows (env : AuthEnv) (request : AuthRequest) (seen : Seen AuthOp.Answer) : Write → Prop
  | registers {username password normalized passwordHash : PyStr} (now : Datetime)
      (request_eq : request = .register username password)
      (valid : validateUsername env.unicode username = .ok normalized)
      (policy : validatePolicy env.config password = .ok ())
      (hashed : ⟨.hashPassword password, Except.ok passwordHash⟩ ∈ seen) :
      Shows env request seen (.createUser (strip username) normalized passwordHash now)
  | signsIn {normalized password : PyStr} {user : User}
      (proves : ProvesPassword env request seen normalized password user)
      (now expiresAt : Datetime) (rehash : Option (PyStr × Datetime))
      (rehashed : ∀ u, rehash = some u → ⟨.hashPassword password, Except.ok u.1⟩ ∈ seen) :
      Shows env request seen (.createSession user.id now expiresAt rehash)
  | refreshes {token : PyStr} {session : AuthSession} (request_eq : request = .refresh token)
      (found : ⟨.query (.sessionByHash (env.sha256 token)), Except.ok (some session)⟩ ∈ seen)
      (expiresAt : Datetime) : Shows env request seen (.rotate session expiresAt)
  | logsOut {token : PyStr} {claims : AccessTokenClaims} {r : Resolved}
      (request_eq : request = .logout token) (presents : Presents env token seen claims r)
      (now : Datetime) : Shows env request seen (.revoke r.session.id now)
  | revokes {token password : PyStr} {claims : AccessTokenClaims} {r : Resolved}
      (request_eq : request = .deleteAccount token password)
      (presents : Presents env token seen claims r)
      (verified : ⟨.verifyPassword r.user.passwordHash password, Except.ok true⟩ ∈ seen)
      (now : Datetime) : Shows env request seen (.revokeAll r.user.id now)
  | deletes {token password : PyStr} {claims : AccessTokenClaims} {r : Resolved}
      (request_eq : request = .deleteAccount token password)
      (presents : Presents env token seen claims r)
      (verified : ⟨.verifyPassword r.user.passwordHash password, Except.ok true⟩ ∈ seen) :
      Shows env request seen (.deleteUser r.user.id r.sessionIds)

theorem Shows.mono {env : AuthEnv} {request : AuthRequest} {seen seen' : Seen AuthOp.Answer}
    {w : Write} (h : Shows env request seen w) (hsub : seen ⊆ seen') :
    Shows env request seen' w := by
  cases h with
  | registers now request_eq valid policy hashed =>
      exact .registers now request_eq valid policy (hsub hashed)
  | signsIn proves now expiresAt rehash rehashed =>
      exact .signsIn (proves.mono hsub) now expiresAt rehash fun u hu => hsub (rehashed u hu)
  | refreshes request_eq found expiresAt => exact .refreshes request_eq (hsub found) expiresAt
  | logsOut request_eq presents now => exact .logsOut request_eq (presents.mono hsub) now
  | revokes request_eq presents verified now =>
      exact .revokes request_eq (presents.mono hsub) (hsub verified) now
  | deletes request_eq presents verified =>
      exact .deletes request_eq (presents.mono hsub) (hsub verified)

/-- Reads come before writes, and a write is one the request has shown it may do. -/
structure Entitled (env : AuthEnv) (request : AuthRequest) (seen : Seen AuthOp.Answer)
    (op : AuthOp) : Prop where
  reads : ∀ q, op = .query q → OnlyRead seen
  writes : ∀ w, op = .write w → Shows env request seen w

/-- The program reads before it writes, and what it returns is as `Q` says. -/
abbrev Gives {α : Type} (env : AuthEnv) (request : AuthRequest) (Q : Seen AuthOp.Answer → α → Prop)
    (seen : Seen AuthOp.Answer) (p : AuthProgram α) : Prop :=
  Achieves (Entitled env request) (fun seen' r => ∀ a, r = .ok a → Q seen' a) seen p

section Programs

variable {env : AuthEnv} {request : AuthRequest} {seen : Seen AuthOp.Answer} {α β : Type}
  {Q : Seen AuthOp.Answer → α → Prop} {Q' : Seen AuthOp.Answer → β → Prop}

theorem gives_pure {a : α} (h : Q seen a) : Gives env request Q seen (.done (.ok a)) := by
  rintro _ ⟨⟩
  exact h

theorem gives_raise (e : AuthFailure) : Gives env request Q seen (.done (.error e)) := by
  rintro _ ⟨⟩

theorem gives_ofExcept {r : Except AuthFailure β} {f : β → AuthProgram α}
    (h : ∀ b, r = .ok b → Gives env request Q seen (f b)) :
    Gives env request Q seen ((Program.ofExcept r).bind f) := by
  cases r with
  | ok b => exact h b rfl
  | error e => exact gives_raise e

theorem Gives.bind {p : AuthProgram α} {f : α → AuthProgram β} (h : Gives env request Q seen p)
    (hf : ∀ seen' a, seen ⊆ seen' → Q seen' a → Gives env request Q' seen' (f a)) :
    Gives env request Q' seen (p.bind f) := by
  refine Achieves.bind h (fun seen' a hsub hQ => hf seen' a hsub (hQ a rfl)) ?_
  rintro _ _ _ _ _ ⟨⟩

/-- An operation that neither reads nor writes the database. -/
theorem gives_perform {op : AuthOp} {f : op.Answer → AuthProgram α}
    (hread : ∀ q, op ≠ .query q) (hwrite : ∀ w, op ≠ .write w)
    (h : ∀ a, Gives env request Q (seen ++ [⟨op, a⟩]) (f a)) :
    Gives env request Q seen ((AuthProgram.perform op).bind f) :=
  ⟨⟨fun q hq => absurd hq (hread q), fun w hw => absurd hw (hwrite w)⟩, h⟩

theorem gives_query {q : Query} {f : q.Answer → AuthProgram α} (hseen : OnlyRead seen)
    (h : ∀ a, Gives env request Q (seen ++ [⟨.query q, Except.ok a⟩]) (f a)) :
    Gives env request Q seen ((AuthProgram.query q).bind f) := by
  refine ⟨⟨fun _ _ => hseen, fun w hw => (by cases hw)⟩, fun answer => ?_⟩
  cases answer with
  | error e => exact gives_raise _
  | ok a => exact h a

theorem gives_write {w : Write} {f : w.Answer → AuthProgram α} (hshows : Shows env request seen w)
    (h : ∀ a, Gives env request Q (seen ++ [⟨.write w, Except.ok a⟩]) (f a)) :
    Gives env request Q seen ((AuthProgram.write w).bind f) := by
  refine ⟨⟨fun q hq => (by cases hq), fun w' hw => ?_⟩, fun answer => ?_⟩
  · cases hw
    exact hshows
  · cases answer with
    | error e => exact gives_raise _
    | ok a => exact h a

/-- A write that ends a program. -/
theorem gives_write_last {w : Write} (hshows : Shows env request seen w) :
    Gives env request (fun _ _ => True) seen (AuthProgram.write w) := by
  rw [← Program.bind_pure (AuthProgram.write w)]
  exact gives_write hshows fun _ => gives_pure trivial

theorem gives_hash {password : PyStr} {f : PyStr → AuthProgram α}
    (h : ∀ a, Gives env request Q (seen ++ [⟨.hashPassword password, Except.ok a⟩]) (f a)) :
    Gives env request Q seen ((AuthProgram.hash password).bind f) := by
  refine ⟨⟨fun q hq => (by cases hq), fun w hw => (by cases hw)⟩, fun answer => ?_⟩
  cases answer with
  | error e => exact gives_raise _
  | ok a => exact h a

theorem gives_verify {storedHash password : PyStr} {f : Bool → AuthProgram α}
    (h : ∀ b, Gives env request Q (seen ++ [⟨.verifyPassword storedHash password, Except.ok b⟩])
      (f b)) : Gives env request Q seen ((AuthProgram.verify storedHash password).bind f) := by
  refine ⟨⟨fun q hq => (by cases hq), fun w hw => (by cases hw)⟩, fun answer => ?_⟩
  cases answer with
  | error e => exact gives_raise _
  | ok b => exact h b

theorem gives_rollbackAndRaise (e : AuthFailure) :
    Gives env request Q seen (AuthProgram.rollbackAndRaise e) :=
  gives_perform (by simp) (by simp) fun _ => gives_raise e

/-- A commit or a rollback ends the request. -/
theorem gives_inSession {p : AuthProgram α} (h : Gives env request Q seen p) :
    Gives env request (fun _ _ => True) seen (AuthProgram.inSession p) := by
  refine Achieves.handle h fun seen' r _ _ => ?_
  cases r with
  | error e => exact gives_rollbackAndRaise e
  | ok a =>
      refine gives_perform (by simp) (by simp) fun answer => ?_
      cases answer with
      | ok _ => exact gives_pure trivial
      | error e => exact gives_rollbackAndRaise _

/-! ### Each request -/

/-- A registration has validated the name and the password, and hashed the password. -/
theorem gives_register {username password : PyStr}
    (hrequest : request = .register username password) :
    Gives env request (fun _ _ => True) seen (register env username password) := by
  refine gives_ofExcept fun normalized hname => gives_ofExcept fun _ hpolicy => ?_
  refine gives_hash fun passwordHash => gives_perform (by simp) (by simp) fun now => ?_
  have hvalid : validatePolicy env.config password = .ok () := by
    unfold registrationPolicy at hpolicy
    split at hpolicy
    · assumption
    · cases hpolicy
    · cases hpolicy
  refine gives_write (.registers now hrequest (registrationUsername_eq_ok hname) hvalid ?_)
    fun created => ?_
  · exact List.mem_append_left _ (List.mem_append_right _ List.mem_cons_self)
  · cases created with
    | some user => exact gives_pure trivial
    | none => exact gives_rollbackAndRaise _

/-- A new hash is one of the password that was verified. -/
theorem gives_rehashPassword (user : User) (password : PyStr) :
    Gives env request (fun seen' rehash => ∀ u, rehash = some u →
      ⟨.hashPassword password, Except.ok u.1⟩ ∈ seen') seen (rehashPassword env user password) := by
  unfold rehashPassword
  split_ifs
  · refine gives_hash fun passwordHash => gives_perform (by simp) (by simp) fun now => ?_
    refine gives_pure ?_
    rintro _ ⟨⟩
    exact List.mem_append_left _ (List.mem_append_right _ List.mem_cons_self)
  · refine gives_pure ?_
    rintro _ ⟨⟩

theorem gives_failLogin (normalized reason : PyStr) :
    Gives env request Q seen (failLogin normalized reason) :=
  gives_perform (by simp) (by simp) fun _ => gives_raise _

/-- **A login** opens a session once it has verified the password. -/
theorem gives_login {username password : PyStr} (hrequest : request = .login username password)
    (hseen : OnlyRead seen) :
    Gives env request (fun _ _ => True) seen (login env username password) := by
  unfold login
  split
  · rename_i normalized hvalid
    refine gives_perform (by simp) (by simp) fun blocked => ?_
    have hseen₁ := hseen.snoc (.isBlocked normalized) (by simp) blocked
    cases blocked with
    | true => exact gives_raise _
    | false =>
        refine gives_query hseen₁ fun found => ?_
        have hseen₂ := hseen₁.snoc (.query (.userByName normalized)) (by simp) (.ok found)
        cases found with
        | none => exact gives_perform (by simp) (by simp) fun _ => gives_failLogin _ _
        | some user =>
            refine gives_query hseen₂ fun ids => gives_verify fun verified => ?_
            cases verified with
            | false => exact gives_failLogin _ _
            | true =>
                cases hactive : user.isActive with
                | false =>
                    simp only [Bool.true_eq_false, if_false, if_true]
                    exact gives_failLogin _ _
                | true =>
                    simp only [Bool.true_eq_false, if_false]
                    refine (gives_rehashPassword user password).bind
                      fun seen₅ rehash hsub₅ hrehash => ?_
                    refine gives_perform (by simp) (by simp) fun _ => ?_
                    refine gives_perform (by simp) (by simp) fun now => ?_
                    refine gives_write (.signsIn ⟨⟨username, hrequest, hvalid⟩, ?_, ?_, hactive⟩ now
                      _ rehash fun u hu => ?_) fun drawn => ?_
                    · refine List.mem_append_left _ (List.mem_append_left _ (hsub₅ ?_))
                      exact List.mem_append_left _ (List.mem_append_left _
                        (List.mem_append_right _ List.mem_cons_self))
                    · refine List.mem_append_left _ (List.mem_append_left _ (hsub₅ ?_))
                      exact List.mem_append_right _ List.mem_cons_self
                    · exact List.mem_append_left _ (List.mem_append_left _ (hrehash u hu))
                    · exact gives_perform (by simp) (by simp) fun _ => gives_pure trivial
  · exact gives_perform (by simp) (by simp) fun _ => gives_raise _

/-- A user is loaded with its sessions. -/
theorem gives_loadUser (hseen : OnlyRead seen) (userId : PyStr) (e : AuthFailure) :
    Gives env request (fun seen' loaded => seen ⊆ seen' ∧ OnlyRead seen' ∧
      ⟨.query (.userById userId), Except.ok (some loaded.1)⟩ ∈ seen' ∧
      ⟨.query (.sessionsOf loaded.1.id), Except.ok loaded.2⟩ ∈ seen') seen
      (loadUser userId e) := by
  refine gives_query hseen fun found => ?_
  have hseen₁ := hseen.snoc (.query (.userById userId)) (by simp) (.ok found)
  cases found with
  | none => exact gives_raise e
  | some user =>
      refine gives_query hseen₁ fun ids => gives_pure ⟨?_, ?_, ?_, ?_⟩
      · exact fun x hx => List.mem_append_left _ (List.mem_append_left _ hx)
      · exact hseen₁.snoc _ (by simp) _
      · exact List.mem_append_left _ (List.mem_append_right _ List.mem_cons_self)
      · exact List.mem_append_right _ List.mem_cons_self

/-- **A request with an access token** has read the session of the token and its user. -/
theorem gives_resolveObjects (hseen : OnlyRead seen) (token : PyStr) :
    Gives env request (fun seen' r => OnlyRead seen' ∧ ∃ claims, Presents env token seen' claims r)
      seen (resolveObjects env token) := by
  refine gives_perform (by simp) (by simp) fun clock => gives_ofExcept fun claims hclaims => ?_
  refine gives_perform (by simp) (by simp) fun now => ?_
  have hseen₁ := hseen.snoc .clock (by simp) clock
  have hseen₂ := hseen₁.snoc .clock (by simp) now
  refine gives_query hseen₂ fun found => ?_
  have hseen₃ := hseen₂.snoc (.query (.sessionById claims.sessionId)) (by simp) (.ok found)
  cases found with
  | none => exact gives_raise _
  | some session =>
      refine gives_ofExcept fun _ _ => ?_
      refine (gives_loadUser hseen₃ _ _).bind fun seen₄ loaded _ h => ?_
      obtain ⟨hsub, hseen₄, huser, hsessions⟩ := h
      refine gives_ofExcept fun _ haccount => gives_pure ⟨hseen₄, claims, ⟨clock, hclaims⟩, ?_,
        huser, hsessions, (requireAccount_eq_ok haccount).2⟩
      exact hsub (List.mem_append_right _ List.mem_cons_self)

/-- A logout revokes the session of its token. -/
theorem gives_logout {token : PyStr} (hrequest : request = .logout token) (hseen : OnlyRead seen)
    {claims : AccessTokenClaims} {r : Resolved} (hpresents : Presents env token seen claims r) :
    Gives env request (fun _ _ => True) seen (logout r.session) := by
  obtain ⟨⟨id, _, _, _, _, revokedAt⟩, user, ids⟩ := r
  refine gives_query hseen fun found => ?_
  cases found with
  | none => exact gives_pure trivial
  | some _ =>
      refine gives_perform (by simp) (by simp) fun now => ?_
      cases revokedAt with
      | some _ => exact gives_pure trivial
      | none =>
          have hshows := Shows.logsOut hrequest hpresents now
          refine gives_write_last (hshows.mono fun x hx => ?_)
          exact List.mem_append_left _ (List.mem_append_left _ hx)

/-- A deletion has verified the password again. -/
theorem gives_deleteAccount {token password : PyStr}
    (hrequest : request = .deleteAccount token password) (hseen : OnlyRead seen)
    {claims : AccessTokenClaims} {r : Resolved} (hpresents : Presents env token seen claims r) :
    Gives env request (fun _ _ => True) seen (deleteAccount r.user r.sessionIds password) := by
  refine gives_query hseen fun found => ?_
  cases found with
  | none => exact gives_raise _
  | some _ =>
      refine gives_verify fun verified => ?_
      cases verified with
      | false => exact gives_raise _
      | true =>
          refine gives_perform (by simp) (by simp) fun now => ?_
          refine gives_write (.revokes hrequest (hpresents.mono fun x hx => ?_) ?_ now) fun _ => ?_
          · exact List.mem_append_left _ (List.mem_append_left _ (List.mem_append_left _ hx))
          · exact List.mem_append_left _ (List.mem_append_right _ List.mem_cons_self)
          · refine gives_write_last (.deletes hrequest (hpresents.mono fun x hx => ?_) ?_)
            · exact List.mem_append_left _ (List.mem_append_left _ (List.mem_append_left _
                (List.mem_append_left _ hx)))
            · exact List.mem_append_left _ (List.mem_append_left _
                (List.mem_append_right _ List.mem_cons_self))

/-- A refresh rotates the session that is stored with the hash of its token. -/
theorem gives_refresh {token : PyStr} (hrequest : request = .refresh token)
    (hseen : OnlyRead seen) :
    Gives env request (fun _ _ => True) seen (refresh env token) := by
  unfold refresh hashRefreshToken
  split_ifs
  · exact gives_raise _
  · refine gives_query hseen fun found => ?_
    have hseen₁ := hseen.snoc (.query (.sessionByHash (env.sha256 token))) (by simp) (.ok found)
    refine gives_perform (by simp) (by simp) fun now => ?_
    have hseen₂ := hseen₁.snoc .clock (by simp) now
    cases found with
    | none => exact gives_raise _
    | some session =>
        refine gives_ofExcept fun _ _ => ?_
        refine (gives_loadUser hseen₂ _ _).bind fun seen₃ loaded _ h => ?_
        obtain ⟨hsub, -⟩ := h
        cases hactive : loaded.1.isActive with
        | false =>
            rw [if_pos rfl]
            exact gives_raise _
        | true =>
            rw [if_neg (by decide)]
            refine gives_write (.refreshes hrequest (hsub ?_) _) fun _ => ?_
            · exact List.mem_append_left _ (List.mem_append_right _ List.mem_cons_self)
            · exact gives_perform (by simp) (by simp) fun _ => gives_pure trivial

/-- **A request reads before it writes, and shows what it must.** -/
theorem gives_authCode (env : AuthEnv) (request : AuthRequest) :
    Gives env request (fun _ _ => True) [] (authCode env request) := by
  have hnil := onlyRead_nil
  suffices hbody : Gives env request (fun _ _ => True) [] (authBody env request) from
    gives_inSession hbody
  cases request with
  | register username password =>
      exact (gives_register rfl).bind fun _ _ _ _ => gives_pure trivial
  | login username password =>
      exact (gives_login rfl hnil).bind fun _ _ _ _ => gives_pure trivial
  | resolve accessToken =>
      exact (gives_resolveObjects hnil accessToken).bind fun _ _ _ _ => gives_pure trivial
  | refresh token => exact (gives_refresh rfl hnil).bind fun _ _ _ _ => gives_pure trivial
  | logout accessToken =>
      refine (gives_resolveObjects hnil accessToken).bind fun _ resolved _ h => ?_
      obtain ⟨hseen, claims, hpresents⟩ := h
      exact (gives_logout rfl hseen hpresents).bind fun _ _ _ _ => gives_pure trivial
  | deleteAccount accessToken password =>
      refine (gives_resolveObjects hnil accessToken).bind fun _ resolved _ h => ?_
      obtain ⟨hseen, claims, hpresents⟩ := h
      exact (gives_deleteAccount rfl hseen hpresents).bind fun _ _ _ _ => gives_pure trivial

end Programs

/-! ### What is read and what is written -/

/-- An operation that is no write leaves uncommitted writes as they are, or ends them. -/
theorem AuthState.writer_of_effect {env : AuthEnv} {i j : ℕ} {op : AuthOp} {s s' : AuthState}
    {d : Database} (heffect : AuthEffect env j s op s') (hop : ∀ w, op ≠ .write w)
    (hw : s'.writer = some (i, d)) : s.writer = some (i, d) ∧ s'.committed = s.committed := by
  cases heffect with
  | kept _ hsame => exact ⟨hsame.writer ▸ hw, hsame.committed⟩
  | issued => exact ⟨hw, rfl⟩
  | wrote => exact absurd rfl (hop _)
  | committed =>
      unfold commit at hw ⊢
      split at hw
      · split_ifs at hw ⊢
        exact ⟨hw, rfl⟩
      · exact ⟨hw, rfl⟩
  | rolledBack =>
      unfold rollback at hw ⊢
      split at hw
      · split_ifs at hw ⊢
        exact ⟨hw, rfl⟩
      · exact ⟨hw, rfl⟩

section Runs

variable {env : AuthEnv} {tr : List (AuthPool × AuthLabel)} {t : AuthPool}

/-- **Uncommitted writes are those of the request that holds them**: it has written, and for each
account whose rows are not as committed it has written about the account. -/
theorem wrote_of_writer (h : (authSystem env).Run (.new env) tr t) :
    ∀ i d, t.shared.writer = some (i, d) → ∃ th, t.threads i = some th ∧ ¬ OnlyRead th.seen ∧
      ∀ userId, d.rowsOf userId ≠ t.shared.committed.rowsOf userId →
        ∃ w a, ⟨.write w, Except.ok a⟩ ∈ th.seen ∧ d.WroteFor userId w a := by
  induction h with
  | nil =>
      intro i d hw
      cases hw
  | @snoc u v tr label hrun hstep ih =>
      -- where neither the writes nor the committed database have changed
      have hkept : ∀ i d, u.shared.writer = some (i, d) →
          v.shared.committed = u.shared.committed → ∃ th, v.threads i = some th ∧
            ¬ OnlyRead th.seen ∧ ∀ userId, d.rowsOf userId ≠ v.shared.committed.rowsOf userId →
              ∃ w a, ⟨.write w, Except.ok a⟩ ∈ th.seen ∧ d.WroteFor userId w a := by
        intro i d hw hcommitted
        obtain ⟨th, hth, hwritten, hfor⟩ := ih i d hw
        obtain ⟨th', hth', -, hsub⟩ := Pool.persists_of_step hstep hth
        refine ⟨th', hth', fun hnone => hwritten fun e he => hnone e (hsub he), ?_⟩
        intro userId hne
        obtain ⟨w, a, hmem, hwrote⟩ := hfor userId (hcommitted ▸ hne)
        exact ⟨w, a, hsub hmem, hwrote⟩
      intro i d hw
      cases label with
      | start j request =>
          obtain ⟨-, hshared, -⟩ := Pool.step_start (authExec env) (authCode env) hstep
          exact hkept i d (hshared ▸ hw) (by rw [hshared])
      | step j c =>
          obtain ⟨request, op, next, seen, s, a, hu, hexec, hshared, hupdate⟩ :=
            Pool.step_step (authExec env) (authCode env) hstep
          rw [hshared] at hw
          by_cases hop : ∃ w, op = .write w
          · obtain ⟨w, rfl⟩ := hop
            rcases AuthState.write_eq_some hexec with
              ⟨rfl, -⟩ | ⟨d₀, d', b, hd₀, hfresh, hwrite, rfl, rfl⟩
            · exact hkept i d hw (by rw [hshared])
            · obtain ⟨rfl, hlock⟩ := AuthState.writable_eq_some hd₀
              cases hw
              have hwf := wf_of_run hrun
              refine ⟨_, by rw [hupdate, Function.update_self], ?_, fun userId hne => ?_⟩
              · intro hnone
                exact hnone _ (List.mem_append_right _ List.mem_cons_self) w rfl
              by_cases hfor : d.WroteFor userId w b
              · exact ⟨w, b, List.mem_append_right _ List.mem_cons_self, hfor⟩
              rw [Database.rowsOf_write (hwf.visible i).1 hwrite hfor, hshared] at hne
              by_cases hidle : ∃ e, u.shared.writer = some (i, e)
              · obtain ⟨e, he⟩ := hidle
                rw [AuthState.visible_of_writer he] at hne hwrite
                obtain ⟨th, hth, -, hbefore⟩ := ih i e he
                rw [hu, Option.some.injEq] at hth
                subst hth
                obtain ⟨w', a', hmem, hwrote⟩ := hbefore userId hne
                exact ⟨w', a', List.mem_append_left _ hmem, hwrote.later
                  ((Database.writeEffect hwrite).later (hwf.pending i e he).1 hfresh.2.2.1).1⟩
              · rw [AuthState.visible_of_idle fun e he => hidle ⟨e, he⟩] at hne
                exact absurd rfl hne
          · obtain ⟨hw', hcommitted⟩ := AuthState.writer_of_effect (authEffect hexec)
              (fun w heq => hop ⟨w, heq⟩) hw
            exact hkept i d hw' (by rw [hshared, hcommitted])

/-- **What a request reads has been committed**: a fact that an answer tells, and that lasts, holds
of the committed database ever after. -/
theorem committed_of_seen (h : (authSystem env).Run (.new env) tr t) {q : Query} {a : q.Answer}
    {F : Database → Prop} (hlater : ∀ d d', d.Later d' → F d → F d')
    (hread : ∀ usedIds d, Database.WF usedIds d → d.answer env.backend q = .ok a → F d) {i : ℕ}
    {th : AuthThread} (hth : t.threads i = some th)
    (hseen : ⟨.query q, Except.ok a⟩ ∈ th.seen) : F t.shared.committed := by
  induction h generalizing i th with
  | nil => cases hth
  | @snoc u v tr label hrun hstep ih =>
      have hkept : ∀ i th, u.threads i = some th → ⟨.query q, Except.ok a⟩ ∈ th.seen →
          F v.shared.committed := fun i th hth hseen =>
        hlater _ _ (AuthPool.later_of_step (wf_of_run hrun) hstep) (ih hth hseen)
      cases label with
      | start j request =>
          obtain ⟨-, -, hupdate⟩ := Pool.step_start (authExec env) (authCode env) hstep
          rw [hupdate] at hth
          by_cases hij : i = j
          · subst hij
            rw [Function.update_self, Option.some.injEq] at hth
            subst hth
            cases hseen
          · rw [Function.update_of_ne hij] at hth
            exact hkept i th hth hseen
      | step j c =>
          obtain ⟨request, op, next, seen, s, b, hu, hexec, hshared, hupdate⟩ :=
            Pool.step_step (authExec env) (authCode env) hstep
          rw [hupdate] at hth
          by_cases hij : i = j
          · subst hij
            rw [Function.update_self, Option.some.injEq] at hth
            subst hth
            rcases List.mem_append.1 hseen with hseen | hseen
            · exact hkept i _ hu hseen
            · rw [List.mem_singleton] at hseen
              cases hseen
              -- a request that reads has not written, so it sees what is committed
              have honly : OnlyRead seen := (achieves_of_run hrun hu
                (gives_authCode env request)).1.reads q rfl
              have hidle : ∀ d, u.shared.writer ≠ some (i, d) := by
                intro d hw
                obtain ⟨th, hth, hwritten, -⟩ := wrote_of_writer hrun i d hw
                rw [hu, Option.some.injEq] at hth
                subst hth
                exact hwritten honly
              obtain ⟨rfl, hanswer⟩ := Prod.mk.inj (Option.some.inj hexec)
              unfold AuthState.query at hanswer
              split at hanswer
              · cases hanswer
              · rw [AuthState.visible_of_idle hidle] at hanswer
                rw [hshared]
                exact hread _ _ (wf_of_run hrun).committed hanswer
          · rw [Function.update_of_ne hij] at hth
            exact hkept i th hth hseen

/-- The owner of a session that was read by its id. -/
theorem opened_of_sessionById (h : (authSystem env).Run (.new env) tr t) {i : ℕ} {th : AuthThread}
    (hth : t.threads i = some th) {sessionId : PyStr} {session : AuthSession}
    (hseen : ⟨.query (.sessionById sessionId), Except.ok (some session)⟩ ∈ th.seen) :
    session.id = sessionId ∧ (session.id, session.userId) ∈ t.shared.committed.opened := by
  refine committed_of_seen (F := fun d => session.id = sessionId ∧
    (session.id, session.userId) ∈ d.opened) h (fun _ _ hlater hF => ⟨hF.1, hlater.opened hF.2⟩)
    (fun usedIds d hwf hanswer => ?_) hth hseen
  obtain ⟨x, hx, hid, rfl⟩ := Database.answer_sessionById hanswer
  exact ⟨hid, hwf.session x hx⟩

/-- The owner of the sessions that were loaded with a user. -/
theorem opened_of_sessionsOf (h : (authSystem env).Run (.new env) tr t) {i : ℕ} {th : AuthThread}
    (hth : t.threads i = some th) {userId : PyStr} {ids : List PyStr}
    (hseen : ⟨.query (.sessionsOf userId), Except.ok ids⟩ ∈ th.seen) :
    ∀ id ∈ ids, (id, userId) ∈ t.shared.committed.opened := by
  refine committed_of_seen (F := fun d => ∀ id ∈ ids, (id, userId) ∈ d.opened) h
    (fun _ _ hlater hF id hid => hlater.opened (hF id hid)) (fun usedIds d hwf hanswer => ?_) hth
    hseen
  intro id hid
  obtain rfl := Except.ok.inj hanswer
  obtain ⟨x, hx, rfl⟩ := List.mem_map.1 hid
  obtain ⟨hmem, howner⟩ := List.mem_filter.1 hx
  exact hwf.opened_of_id hmem rfl (eq_of_beq howner)

/-- A user that was read by its id. -/
theorem id_of_userById (h : (authSystem env).Run (.new env) tr t) {i : ℕ} {th : AuthThread}
    (hth : t.threads i = some th) {userId : PyStr} {user : User}
    (hseen : ⟨.query (.userById userId), Except.ok (some user)⟩ ∈ th.seen) : user.id = userId := by
  obtain ⟨e, -, c, -, hanswer⟩ := answered_of_seen h hth hseen
  obtain ⟨u, -, hid, rfl⟩ := Database.answer_userById hanswer
  exact hid

/-! ### Warrants -/

/-- The session was opened for the account, by a login that had proved the password. -/
def AuthPool.OpenedFor (env : AuthEnv) (p : AuthPool) (sessionId userId : PyStr) : Prop :=
  ∃ j normalized password user, p.OpenedBy env j sessionId normalized password user ∧
    user.id = userId

/-- The token was minted, by a request that signed in, for a session of the account. -/
structure AuthPool.TokenOf (env : AuthEnv) (p : AuthPool) (token userId : PyStr) (m : Minted) :
    Prop where
  minted : m ∈ p.shared.minted
  token_eq : m.token = token
  signedIn : p.SignedIn m
  opened : p.OpenedFor env m.sessionId userId

/-- **What entitles a request to change the rows of an account.** -/
inductive Warrant (env : AuthEnv) (p : AuthPool) (th : AuthThread) (userId : PyStr) : Prop
  | registers {username password normalized passwordHash : PyStr} {now : Datetime} {user : User}
      (request_eq : th.request = .register username password)
      (valid : validateUsername env.unicode username = .ok normalized)
      (policy : validatePolicy env.config password = .ok ())
      (hashed : ⟨.hashPassword password, Except.ok passwordHash⟩ ∈ th.seen)
      (created : ⟨.write (.createUser (strip username) normalized passwordHash now),
        Except.ok (some user)⟩ ∈ th.seen)
      (id_eq : user.id = userId)
  | signsIn {normalized password : PyStr} {user : User}
      (proves : ProvesPassword env th.request th.seen normalized password user)
      (id_eq : user.id = userId)
  | refreshes {token : PyStr} {session : AuthSession} (request_eq : th.request = .refresh token)
      (found : ⟨.query (.sessionByHash (env.sha256 token)), Except.ok (some session)⟩ ∈ th.seen)
      (opened : p.OpenedFor env session.id userId)
  | logsOut {token : PyStr} {m : Minted} (request_eq : th.request = .logout token)
      (token_of : p.TokenOf env token userId m)
  | deletes {token password : PyStr} {m : Minted} {user : User}
      (request_eq : th.request = .deleteAccount token password)
      (token_of : p.TokenOf env token userId m)
      (read : ⟨.query (.userById userId), Except.ok (some user)⟩ ∈ th.seen)
      (verified : ⟨.verifyPassword user.passwordHash password, Except.ok true⟩ ∈ th.seen)

/-- No minted token is forgotten. -/
theorem AuthPool.minted_of_step {p p' : AuthPool} {label : AuthLabel}
    (h : p.step (authExec env) (authCode env) label = some p') :
    p.shared.minted ⊆ p'.shared.minted := by
  cases label with
  | start i request =>
      obtain ⟨-, hshared, -⟩ := Pool.step_start (authExec env) (authCode env) h
      rw [hshared]
      exact fun _ => id
  | step i c =>
      obtain ⟨request, op, next, seen, s, answer, -, hexec, hshared, -⟩ :=
        Pool.step_step (authExec env) (authCode env) h
      rw [hshared]
      exact AuthState.minted_of_effect (authEffect hexec)

/-- **A token that a request has decoded** was minted by a request that signed in. -/
theorem minted_of_decoded (hround : RoundTrip env) (h : (authSystem env).Run (.new env) tr t)
    (hunforged : UnforgedRun env tr) {i : ℕ} {th : AuthThread} (hth : t.threads i = some th)
    {token : PyStr} (htoken : th.request.accessToken = some token) {clock : Datetime}
    {claims : AccessTokenClaims}
    (hdecoded : decodeAccessToken env.jwt env.config token clock = .ok claims) :
    ∃ m ∈ t.shared.minted, m.token = token ∧ m.sessionId = claims.sessionId ∧ t.SignedIn m := by
  obtain ⟨⟨v, label⟩, he, hstart⟩ := started_of_run h hth
  obtain ⟨tr₁, tr₂, v', -, hrun₁, hstep, hrun₂⟩ := h.of_mem he
  obtain ⟨m, hm, hminted, -, hsession⟩ := exists_minted_of_decoded hround (wf_of_run hrun₁)
    (hunforged _ he i th.request hstart) htoken hdecoded
  have hlast : m ∈ t.shared.minted := hrun₂.invariant (P := fun p => m ∈ p.shared.minted)
    (fun p a p' hp hp' => AuthPool.minted_of_step hp' hp) (AuthPool.minted_of_step hstep hm)
  exact ⟨m, hlast, hminted, hsession, exists_signIn_of_minted h m hlast⟩

/-- A write that a request has performed is one it has shown it may do. -/
theorem shows_of_seen (h : (authSystem env).Run (.new env) tr t) {i : ℕ} {th : AuthThread}
    (hth : t.threads i = some th) {w : Write} {a : w.Answer}
    (hseen : ⟨.write w, Except.ok a⟩ ∈ th.seen) : Shows env th.request th.seen w := by
  refine performed_of_run (P := fun request seen op => ∀ w, op = .write w →
    Shows env request seen w) h (fun request => ?_) ?_ hth hseen w rfl
  · exact (gives_authCode env request).follows.mono fun _ _ hP => hP.writes
  · intro request seen seen' op hsub hP w hw
    exact (hP w hw).mono hsub

/-- **Who has written about an account** has a warrant for it. -/
theorem warrant_of_wrote (hround : RoundTrip env) (h : (authSystem env).Run (.new env) tr t)
    (hunforged : UnforgedRun env tr) {i : ℕ} {th : AuthThread} (hth : t.threads i = some th)
    {w : Write} {a : w.Answer} (hseen : ⟨.write w, Except.ok a⟩ ∈ th.seen) {userId : PyStr}
    (hfor : (t.shared.visible i).WroteFor userId w a) : Warrant env t th userId := by
  obtain ⟨hwf, hlater⟩ := (wf_of_run h).visible i
  have hopened : ∀ sessionId, (sessionId, userId) ∈ (t.shared.visible i).opened →
      t.OpenedFor env sessionId userId := fun sessionId ho => exists_openedBy h (sessionId, userId)
    (AuthState.records_of_visible (P := fun d => (sessionId, userId) ∈ d.opened) ho)
  -- what an access token stands for
  have htokenOf : ∀ token claims r, th.request.accessToken = some token →
      Presents env token th.seen claims r → (r.session.id, userId) ∈ (t.shared.visible i).opened →
        ∃ m, t.TokenOf env token userId m := by
    intro token claims r htoken hpresents ho
    obtain ⟨clock, hdecoded⟩ := hpresents.decoded
    obtain ⟨m, hm, hminted, hsession, hsigned⟩ :=
      minted_of_decoded hround h hunforged hth htoken hdecoded
    refine ⟨m, hm, hminted, hsigned, hopened _ ?_⟩
    rw [hsession, ← (opened_of_sessionById h hth hpresents.session_read).1]
    exact ho
  have hdeletes : ∀ token password claims r, th.request = .deleteAccount token password →
      Presents env token th.seen claims r → r.user.id = userId →
        ⟨.verifyPassword r.user.passwordHash password, Except.ok true⟩ ∈ th.seen →
          Warrant env t th userId := by
    intro token password claims r hrequest hpresents hid hverified
    obtain ⟨m, hm⟩ := htokenOf token claims r (by rw [hrequest]; rfl) hpresents (hlater.opened (by
      rw [← hid, ← hpresents.owner]
      exact (opened_of_sessionById h hth hpresents.session_read).2))
    refine .deletes hrequest hm ?_ hverified
    rw [← hid]
    exact (id_of_userById h hth hpresents.user_read) ▸ hpresents.user_read
  cases shows_of_seen h hth hseen with
  | registers now hrequest hvalid hpolicy hhashed =>
      obtain ⟨user, rfl, hid⟩ := hfor
      exact .registers hrequest hvalid hpolicy hhashed hseen hid
  | signsIn hproves => exact .signsIn hproves hfor
  | refreshes hrequest hfound => exact .refreshes hrequest hfound (hopened _ hfor)
  | @logsOut token claims r hrequest hpresents =>
      obtain ⟨m, hm⟩ := htokenOf token claims r (by rw [hrequest]; rfl) hpresents hfor
      exact .logsOut hrequest hm
  | revokes hrequest hpresents hverified => exact hdeletes _ _ _ _ hrequest hpresents hfor hverified
  | deletes hrequest hpresents hverified =>
      refine hdeletes _ _ _ _ hrequest hpresents ?_ hverified
      rcases hfor with hid | ⟨id, hid, ho⟩
      · exact hid
      · -- a session has one owner
        have howner := hlater.opened (opened_of_sessionsOf h hth hpresents.sessions_read id hid)
        exact (Prod.mk.inj (List.inj_on_of_nodup_map hwf.opened_nodup howner ho rfl)).2

/-- **The rows of an account change by a warrant for it.**  In a run in which no token is forged, a
step that changes the committed rows of an account, its own or those of its sessions, is the commit
of a request with a warrant for that account. -/
theorem accounts_change_by_warrant (hround : RoundTrip env)
    (h : (authSystem env).Run (.new env) tr t) (hunforged : UnforgedRun env tr) {label : AuthLabel}
    {t' : AuthPool} (hstep : (authSystem env).step t label = some t') {userId : PyStr}
    (hchanged : t'.shared.committed.rowsOf userId ≠ t.shared.committed.rowsOf userId) :
    ∃ i c th next, label = .step i c ∧ t.threads i = some th ∧ th.rest = .step .commit next ∧
      Warrant env t th userId := by
  cases label with
  | start i request =>
      obtain ⟨-, hshared, -⟩ := Pool.step_start (authExec env) (authCode env) hstep
      exact absurd (by rw [hshared]) hchanged
  | step i c =>
      obtain ⟨request, op, next, seen, s, a, hth, hexec, hshared, -⟩ :=
        Pool.step_step (authExec env) (authCode env) hstep
      rw [hshared] at hchanged
      cases authEffect hexec with
      | kept _ hsame => exact absurd (by rw [hsame.committed]) hchanged
      | issued | wrote => exact absurd rfl hchanged
      | rolledBack =>
          unfold AuthState.rollback at hchanged
          split at hchanged
          · split_ifs at hchanged <;> exact absurd rfl hchanged
          · exact absurd rfl hchanged
      | committed =>
          rw [AuthState.committed_commit] at hchanged
          by_cases hidle : ∃ d, t.shared.writer = some (i, d)
          · obtain ⟨d, hd⟩ := hidle
            obtain ⟨th, hth', -, hfor⟩ := wrote_of_writer h i d hd
            rw [AuthState.visible_of_writer hd] at hchanged
            obtain ⟨w, b, hseen, hwrote⟩ := hfor userId hchanged
            rw [← AuthState.visible_of_writer hd] at hwrote
            rw [hth, Option.some.injEq] at hth'
            subst hth'
            exact ⟨i, c, _, next, rfl, hth, rfl,
              warrant_of_wrote hround h hunforged hth hseen hwrote⟩
          · rw [AuthState.visible_of_idle fun d hd => hidle ⟨d, hd⟩] at hchanged
            exact absurd rfl hchanged

end Runs

/-- `alice` deletes her account, up to the commit. -/
def deletesAccount : List AuthLabel :=
  requestOf 3 9 0 (.deleteAccount (aliceToken 1) samplePassword) ++
    [.step 3 { id := hexId 4, token := urlsafeToken 4 }]

/-- No token is forged, and the commit deletes the account. -/
def deletesByWarrant (t : AuthPool) : Bool :=
  presentsMinted ((authSystem (sampleEnv .instants)).traceOf (.new (sampleEnv .instants))
      (twoLogins ++ deletesAccount)) &&
    (t.shared.committed.rowsOf (hexId 0)).1.length == 1 &&
    ((authSystem (sampleEnv .instants)).step t (.step 3 {})).any fun t' =>
      (t'.shared.committed.rowsOf (hexId 0)).1.length == 0

/-- `alice` deletes her account: the commit has a warrant. -/
theorem accounts_change_by_warrant_alice :
    ∃ tr t t' th, (authSystem (sampleEnv .instants)).Run (.new (sampleEnv .instants)) tr t ∧
      (authSystem (sampleEnv .instants)).step t (.step 3 {}) = some t' ∧
      t'.shared.committed.rowsOf (hexId 0) ≠ t.shared.committed.rowsOf (hexId 0) ∧
      t.threads 3 = some th ∧ Warrant (sampleEnv .instants) t th (hexId 0) := by
  have hexec : ((authSystem (sampleEnv .instants)).exec (.new (sampleEnv .instants))
      (twoLogins ++ deletesAccount)).map deletesByWarrant = some true := by decide +kernel
  obtain ⟨t, -, hrun, hp⟩ := System.exists_run_of_exec hexec
  simp only [deletesByWarrant, Bool.and_eq_true, Option.any_eq_true, beq_iff_eq] at hp
  obtain ⟨⟨hminted, hbefore⟩, t', hstep, hafter⟩ := hp
  have hchanged : t'.shared.committed.rowsOf (hexId 0) ≠ t.shared.committed.rowsOf (hexId 0) := by
    intro heq
    rw [heq, hbefore] at hafter
    cases hafter
  obtain ⟨i, c, th, -, hlabel, hth, -, hwarrant⟩ :=
    accounts_change_by_warrant (roundTrip_sampleEnv .instants) hrun
      (unforgedRun_of_presentsMinted hminted) hstep hchanged
  cases hlabel
  exact ⟨_, t, t', th, hrun, hstep, hchanged, hth, hwarrant⟩

end EncryptChat
