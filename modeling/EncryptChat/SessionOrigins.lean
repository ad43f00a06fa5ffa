/-
**No message without a password.**

A session is opened by a login, and by nothing else.  Before it opens one, a login has read the
account of the name and verified the password against the hash stored there.  An access token
resolves to a session that was opened, so behind every identity a connection is bound to there is
such a login; and behind every message that is on a queue there is such a connection.

Main definitions:

* `EncryptChat.ProvesPassword` — what a login has seen before it opens a session;
* `EncryptChat.AuthPool.OpenedBy` — the request that opened a session;
* `EncryptChat.VouchedFor` — **what stands behind an identity**.

Main results:

* `EncryptChat.follows_opening` — only a login that has proved a password opens a session;
* `EncryptChat.exists_openedBy` — every session was opened so;
* `EncryptChat.vouchedFor_of_resolved` — an identity that was resolved is vouched for;
* `EncryptChat.receipts_need_a_password` — **so is the sender of every message on a queue**.
-/

import EncryptChat.BoundAccounts
import EncryptChat.SenderAuthenticity

set_option relaxedAutoImplicit false
set_option autoImplicit false

namespace EncryptChat

open Python Concurrent Transition AuthService
open Program (Seen Follows)

/-! ### Opening a session -/

/-- What a login has seen before it opens a session: the account of the name, which is active, and
that the password matches the hash stored for it. -/
structure ProvesPassword (env : AuthEnv) (request : AuthRequest) (seen : Seen AuthOp.Answer)
    (normalized password : PyStr) (user : User) : Prop where
  login : ∃ username, request = .login username password ∧
    validateUsername env.unicode username = .ok normalized
  found : ⟨.query (.userByName normalized), Except.ok (some user)⟩ ∈ seen
  verified : ⟨.verifyPassword user.passwordHash password, Except.ok true⟩ ∈ seen
  active : user.isActive = true

theorem ProvesPassword.mono {env : AuthEnv} {request : AuthRequest}
    {seen seen' : Seen AuthOp.Answer} {normalized password : PyStr} {user : User}
    (h : ProvesPassword env request seen normalized password user) (hsub : seen ⊆ seen') :
    ProvesPassword env request seen' normalized password user :=
  ⟨h.login, hsub h.found, hsub h.verified, h.active⟩

/-- A session is opened for the account whose password has been proved. -/
def Opening (env : AuthEnv) (request : AuthRequest) (seen : Seen AuthOp.Answer) (op : AuthOp) :
    Prop :=
  ∀ userId now expiresAt rehash, op = .write (.createSession userId now expiresAt rehash) →
    ∃ normalized password user, ProvesPassword env request seen normalized password user ∧
      user.id = userId

/-- Other operations open none. -/
theorem opening_of_ne {env : AuthEnv} {request : AuthRequest} {seen : Seen AuthOp.Answer}
    {op : AuthOp} (h : ∀ userId now expiresAt rehash,
      op ≠ .write (.createSession userId now expiresAt rehash)) : Opening env request seen op :=
  fun userId now expiresAt rehash hop => absurd hop (h userId now expiresAt rehash)

theorem AuthOp.Shared.opening {env : AuthEnv} {request : AuthRequest} {seen : Seen AuthOp.Answer}
    {op : AuthOp} (h : op.Shared) : Opening env request seen op := by
  refine opening_of_ne ?_
  rintro userId now expiresAt rehash rfl
  exact h

section Programs

variable {env : AuthEnv} {request : AuthRequest} {seen : Seen AuthOp.Answer}

/-- `_open_session` opens its session for the account whose password has been proved. -/
theorem follows_opening_openSession {normalized password : PyStr} {user : User}
    (h : ProvesPassword env request seen normalized password user)
    (rehash : Option (PyStr × Datetime)) :
    Follows (Opening env request) seen (openSession env user rehash) := by
  refine (Program.follows_perform (AuthOp.Shared.opening (by trivial))).bind
    fun seen₁ now hsub₁ => ?_
  refine (follows_write ?_).bind fun seen₂ drawn _ => ?_
  · rintro _ _ _ _ ⟨⟩
    exact ⟨normalized, password, user, h.mono hsub₁, rfl⟩
  · exact (Program.follows_perform (opening_of_ne (by simp))).bind
      fun _ _ _ => Program.follows_done _

/-- A login that fails opens no session. -/
theorem follows_opening_failLogin {α : Type} (normalized reason : PyStr) :
    Follows (Opening env request) seen (failLogin normalized reason : AuthProgram α) :=
  (Program.follows_perform (opening_of_ne (by simp))).bind fun _ _ _ => Program.follows_done _

/-- The upgrade of a password hash opens none. -/
theorem follows_opening_rehashPassword (user : User) (password : PyStr) :
    Follows (Opening env request) seen (rehashPassword env user password) := by
  unfold rehashPassword
  split_ifs
  · refine (follows_hash (AuthOp.Shared.opening (by trivial))).bind fun _ _ _ => ?_
    exact (Program.follows_perform (AuthOp.Shared.opening (by trivial))).bind
      fun _ _ _ => Program.follows_done _
  · exact Program.follows_done _

/-- **A login opens a session once the password has been verified.** -/
theorem follows_opening_login (username password : PyStr) :
    Follows (Opening env (.login username password)) seen (login env username password) := by
  unfold login
  split
  · rename_i normalized hvalid
    refine (Program.follows_perform (opening_of_ne (by simp))).bind fun seen₁ blocked _ => ?_
    cases blocked with
    | true => exact Program.follows_done _
    | false =>
        refine ⟨AuthOp.Shared.opening (by trivial), fun answer => ?_⟩
        rcases answer with e | found
        · exact Program.follows_done _
        cases found with
        | none =>
            exact (Program.follows_perform (AuthOp.Shared.opening (by trivial))).bind
              fun _ _ _ => follows_opening_failLogin _ _
        | some user =>
            refine (follows_query (AuthOp.Shared.opening (by trivial))).bind fun seen₃ _ hsub₃ => ?_
            refine ⟨AuthOp.Shared.opening (by trivial), fun answer => ?_⟩
            rcases answer with e | verified
            · exact Program.follows_done _
            cases verified with
            | false => exact follows_opening_failLogin _ _
            | true =>
                cases hactive : user.isActive with
                | false =>
                    simp only [if_true]
                    exact follows_opening_failLogin _ _
                | true =>
                    simp only [Bool.true_eq_false, if_false]
                    refine (follows_opening_rehashPassword _ _).bind fun seen₅ rehash hsub₅ => ?_
                    refine (Program.follows_perform (opening_of_ne (by simp))).bind
                      fun seen₆ _ hsub₆ => ?_
                    refine follows_opening_openSession
                      ⟨⟨username, rfl, hvalid⟩, ?_, ?_, hactive⟩ rehash
                    · exact hsub₆ (hsub₅ (List.mem_append_left _
                        (hsub₃ (List.mem_append_right _ List.mem_cons_self))))
                    · exact hsub₆ (hsub₅ (List.mem_append_right _ List.mem_cons_self))
  · exact (Program.follows_perform (AuthOp.Shared.opening (by trivial))).bind
      fun _ _ _ => Program.follows_done _

/-- **Only a login that has proved a password opens a session.** -/
theorem follows_opening (env : AuthEnv) (request : AuthRequest) :
    Follows (Opening env request) [] (authCode env request) := by
  have hshared : ∀ seen op, op.Shared → Opening env request seen op := fun _ _ hop => hop.opening
  refine follows_inSession ?_ (fun _ => AuthOp.Shared.opening (by trivial))
    fun _ => AuthOp.Shared.opening (by trivial)
  cases request with
  | login username password =>
      exact (follows_opening_login username password).bind fun _ _ _ => Program.follows_done _
  | register username password =>
      refine (follows_register hshared env username password fun _ _ _ _ _ => ?_).bind
        fun _ _ _ => Program.follows_done _
      exact opening_of_ne (by simp)
  | resolve accessToken =>
      exact (follows_resolveObjects hshared env accessToken).bind
        fun _ _ _ => Program.follows_done _
  | refresh token =>
      refine (follows_refresh hshared env token (fun _ _ _ _ => ?_) fun _ _ _ _ => ?_).bind
        fun _ _ _ => Program.follows_done _
      · exact opening_of_ne (by simp)
      · exact opening_of_ne (by simp)
  | logout accessToken =>
      refine (follows_resolveObjects hshared env accessToken).bind fun _ resolved _ => ?_
      exact (follows_logout hshared resolved.session).bind fun _ _ _ => Program.follows_done _
  | deleteAccount accessToken password =>
      refine (follows_resolveObjects hshared env accessToken).bind fun _ resolved _ => ?_
      exact (follows_deleteAccount hshared resolved.user resolved.sessionIds password).bind
        fun _ _ _ => Program.follows_done _

end Programs

/-! ### Every session -/

/-- The request has opened the session for the account whose password it has proved. -/
def AuthPool.OpenedBy (env : AuthEnv) (p : AuthPool) (i : ℕ) (sessionId : PyStr)
    (normalized password : PyStr) (user : User) : Prop :=
  ∃ th, p.threads i = some th ∧ ProvesPassword env th.request th.seen normalized password user ∧
    ∃ now expiresAt rehash token, ⟨.write (.createSession user.id now expiresAt rehash),
      Except.ok (sessionId, token)⟩ ∈ th.seen

/-- **A session that was not there before an operation was opened by it.** -/
theorem opened_of_exec {env : AuthEnv} {i : ℕ} {op : AuthOp} {c : AuthChoice} {s s' : AuthState}
    {a : op.Answer} (h : authExec env i op c s = some (s', a)) {o : PyStr × PyStr}
    (ho : s'.Records fun d => o ∈ d.opened) :
    (s.Records fun d => o ∈ d.opened) ∨ ∃ now expiresAt rehash token,
      (⟨op, a⟩ : Σ op : AuthOp, op.Answer) =
        ⟨.write (.createSession o.2 now expiresAt rehash), Except.ok (o.1, token)⟩ := by
  by_cases hop : ∃ userId now expiresAt rehash,
      op = .write (.createSession userId now expiresAt rehash)
  · obtain ⟨userId, now, expiresAt, rehash, rfl⟩ := hop
    rcases AuthState.write_eq_some h with ⟨rfl, -⟩ | ⟨d, d', b, hd, -, hwrite, rfl, rfl⟩
    · exact .inl ho
    · obtain ⟨rfl, -⟩ := AuthState.writable_eq_some hd
      obtain ⟨rfl, hopened, -⟩ := Database.createSession_eq_ok hwrite
      rcases ho with ho | ⟨j, e, he, ho⟩
      · exact .inl (.inl ho)
      · cases he
        rw [hopened] at ho
        rcases List.mem_append.1 ho with ho | ho
        · exact .inl (AuthState.records_of_visible (P := fun d => o ∈ d.opened) ho)
        · rw [List.mem_singleton] at ho
          subst ho
          exact .inr ⟨now, expiresAt, rehash, c.token, rfl⟩
  · refine .inl ?_
    rcases AuthState.records_of_effect (authEffect h) ho with ho | ⟨id, token, w, d', rfl, heff, ho⟩
    · exact ho
    refine AuthState.records_of_visible (P := fun d => o ∈ d.opened) (i := i) ?_
    cases heff with
    | sessionOpened userId now expiresAt rehash => exact absurd ⟨_, _, _, _, rfl⟩ hop
    | nameTaken | userCreated | rotated | sessionRevoked | sessionsRevoked | userDeleted => exact ho

section Runs

variable {env : AuthEnv} {tr : List (AuthPool × AuthLabel)} {t : AuthPool}

/-- What a request has done it has done. -/
theorem AuthPool.OpenedBy.of_step {p p' : AuthPool} {label : AuthLabel} {i : ℕ}
    {sessionId normalized password : PyStr} {user : User}
    (h : p.OpenedBy env i sessionId normalized password user)
    (hstep : p.step (authExec env) (authCode env) label = some p') :
    p'.OpenedBy env i sessionId normalized password user := by
  obtain ⟨th, hth, hproves, now, expiresAt, rehash, token, hopens⟩ := h
  obtain ⟨th', hth', hrequest, hsub⟩ := Pool.persists_of_step hstep hth
  refine ⟨th', hth', ?_, now, expiresAt, rehash, token, hsub hopens⟩
  rw [hrequest]
  exact hproves.mono hsub

/-- **Every session was opened by a login that had proved the password** of its account. -/
theorem exists_openedBy (h : (authSystem env).Run (.new env) tr t) :
    ∀ o, (t.shared.Records fun d => o ∈ d.opened) → ∃ i normalized password user,
      t.OpenedBy env i o.1 normalized password user ∧ user.id = o.2 := by
  induction h with
  | nil =>
      rintro o (ho | ⟨i, d, hw, -⟩)
      · cases ho
      · cases hw
  | @snoc u w tr label hrun hstep ih =>
      have hkept : ∀ o, (u.shared.Records fun d => o ∈ d.opened) → ∃ i normalized password user,
          w.OpenedBy env i o.1 normalized password user ∧ user.id = o.2 := by
        intro o ho
        obtain ⟨i, normalized, password, user, hopened, hid⟩ := ih o ho
        exact ⟨i, normalized, password, user, hopened.of_step hstep, hid⟩
      intro o ho
      cases label with
      | start i request =>
          obtain ⟨-, hshared, -⟩ := Pool.step_start (authExec env) (authCode env) hstep
          rw [hshared] at ho
          exact hkept o ho
      | step i c =>
          obtain ⟨request, op, next, seen, s, a, hu, hexec, hshared, hupdate⟩ :=
            Pool.step_step (authExec env) (authCode env) hstep
          rw [hshared] at ho
          rcases opened_of_exec hexec ho with ho | ⟨now, expiresAt, rehash, token, heq⟩
          · exact hkept o ho
          · obtain ⟨normalized, password, user, hproves, hid⟩ :=
              (follows_of_run hrun hu (follows_opening env request)).1 _ _ _ _
                (congrArg Sigma.fst heq)
            refine ⟨i, normalized, password, user, ⟨⟨request, next a, seen ++ [⟨op, a⟩]⟩, ?_,
              hproves.mono (List.subset_append_left _ _), now, expiresAt, rehash, token, ?_⟩, hid⟩
            · rw [hupdate, Function.update_self]
            · rw [hid]
              exact List.mem_append_right _ (List.mem_singleton.2 heq.symm)

end Runs

/-! ### Every identity -/

section Identities

variable {env : AuthEnv} {tr : List (AuthPool × AuthLabel)} {t : AuthPool} {i : ℕ} {s : AuthState}

/-- What a response that names an identity tells: which request it answers, and that the session was
opened for the account. -/
def ResolvesOpened (request : AuthRequest) (r : AuthResponse) (d : Database) : Prop :=
  ∀ identity, r = .resolved identity → (∃ token, request = .resolve token) ∧
    (identity.sessionId, identity.userId) ∈ d.opened

/-- The outline of a request, as to the session it resolves. -/
theorem ensures_resolvesOpened (hs : s.WF env) (request : AuthRequest) :
    (authDiscipline env).Ensures i (fun _ r s' => ResolvesOpened request r s'.committed) []
      (authCode env request) s := by
  refine ensures_inSession_later (P := fun r d => ResolvesOpened request r d) (authRules env)
    (fun _ _ _ hlater h identity hr => ⟨(h identity hr).1, hlater.opened (h identity hr).2⟩) ?_ hs
  cases request with
  | register | login | refresh =>
      refine (Discipline.ensures_true _).bind hs fun seen _ s₁ _ _ => ?_
      exact Discipline.Ensures.pure fun _ _ _ _ hr => by cases hr
  | logout | deleteAccount =>
      refine (Discipline.ensures_true _).bind hs fun seen _ s₁ hs₁ _ => ?_
      refine (Discipline.ensures_true _).bind hs₁ fun seen _ s₂ _ _ => ?_
      exact Discipline.Ensures.pure fun _ _ _ _ hr => by cases hr
  | resolve token =>
      refine (ensures_resolveObjects (P := fun d x => (x.id, x.userId) ∈ d.opened)
        (T := fun _ _ => True) (authRules env) (fun _ _ => opened_of_mem (authRules env))
        (fun _ _ _ hlater hx => hlater.opened hx) (fun _ _ _ _ => trivial)
        (fun _ _ _ _ _ => trivial) token).bind hs ?_
      rintro seen r s₁ - ⟨-, hopened, -, clock, now, claims, hby⟩
      refine Discipline.Ensures.pure fun s₂ _ henv₂ identity hr => ?_
      cases hr
      refine ⟨⟨token, rfl⟩, henv₂.visible.opened ?_⟩
      rw [hby.owner] at hopened
      exact hopened

/-- The session of an identity that was resolved. -/
theorem opened_of_resolved (h : (authSystem env).Run (.new env) tr t) {th : AuthThread}
    (hth : t.threads i = some th) {identity : AuthenticatedIdentity}
    (hrest : th.rest = .done (.ok (.resolved identity))) :
    (∃ token, th.request = .resolve token) ∧
      (identity.sessionId, identity.userId) ∈ t.shared.committed.opened := by
  obtain ⟨hinv, houtlines⟩ := (authDiscipline env).outline_of_run
    (fun _ request s hs _ => ensures_resolvesOpened (s := s) hs request) h (meets_of_run tr)
    (AuthState.wf_new env)
  obtain ⟨request, rest, seen⟩ := th
  subst hrest
  exact (houtlines i _ hth rfl).result hinv _ rfl identity rfl

/-- What the operation `verifyPassword` of a request has answered. -/
theorem verifyPassword_of_seen (h : (authSystem env).Run (.new env) tr t) {th : AuthThread}
    (hth : t.threads i = some th) {storedHash password : PyStr} {b : Bool}
    (hseen : ⟨.verifyPassword storedHash password, Except.ok b⟩ ∈ th.seen) :
    verifyPassword env.unicode env.argon2 storedHash password = .ok b := by
  obtain ⟨e, -, c, s, -, hexec⟩ := answered_of_run h hth hseen
  exact (Prod.mk.inj (Option.some.inj hexec)).2

/-- **What stands behind an identity.**  Its account was created under its name.  A request has
resolved it, from a token that was minted for its session and account by a request that signed in.
And its session was opened by a login, which was answered with the account by the database, and
verified the password against the hash it had read. -/
structure VouchedFor (env : AuthEnv) (tr : List (AuthPool × AuthLabel)) (p : AuthPool)
    (identity : AuthenticatedIdentity) : Prop where
  account : (identity.userId, identity.username) ∈ p.shared.committed.accounts
  resolved : ∃ i th token m, p.threads i = some th ∧ th.request = .resolve token ∧
    th.rest = .done (.ok (.resolved identity)) ∧ m ∈ p.shared.minted ∧ m.token = token ∧
    m.userId = identity.userId ∧ m.sessionId = identity.sessionId ∧ p.SignedIn m ∧
    Justified env tr i identity
  login : ∃ j normalized password user,
    p.OpenedBy env j identity.sessionId normalized password user ∧ user.id = identity.userId ∧
    Answered env tr j (.userByName normalized) (some user) ∧
    verifyPassword env.unicode env.argon2 user.passwordHash password = .ok true

/-- **An identity that was resolved is vouched for.** -/
theorem vouchedFor_of_resolved (hround : RoundTrip env)
    (h : (authSystem env).Run (.new env) tr t) (hunforged : UnforgedRun env tr) {th : AuthThread}
    (hth : t.threads i = some th) {identity : AuthenticatedIdentity}
    (hrest : th.rest = .done (.ok (.resolved identity))) : VouchedFor env tr t identity := by
  obtain ⟨⟨token, hrequest⟩, hopened⟩ := opened_of_resolved h hth hrest
  have htoken : th.request.accessToken = some token := by
    rw [hrequest]
    rfl
  obtain ⟨⟨m, hm, hminted, huser, hsession, hsigned⟩, hjustified⟩ :=
    justified_of_run hround h hunforged hth htoken hrest rfl
  obtain ⟨j, normalized, password, user, hby, hid⟩ :=
    exists_openedBy h (identity.sessionId, identity.userId) (.inl hopened)
  obtain ⟨th', hth', hproves, -⟩ := id hby
  exact
    { account := account_of_resolved h hth hrest
      resolved := ⟨i, th, token, m, hth, hrequest, hrest, hm, hminted, huser, hsession, hsigned,
        hjustified⟩
      login := ⟨j, normalized, password, user, hby, hid, answered_of_seen h hth' hproves.found,
        verifyPassword_of_seen h hth' hproves.verified⟩ }

end Identities

/-! ### Every message -/

/-- **No message without a password.**  In a run of the application in which no token is forged, a
receipt that is on a queue, be it of a connection or of those that wait, was put there by a frame of
a connection; that connection had been bound, at an earlier step, to the identity it sent as; and at
that step the identity was vouched for: its session had been opened by a login that verified the
password of the account against the hash in the database. -/
theorem receipts_need_a_password {lib : Libraries} {env : AuthEnv} {limits : TransportLimits}
    (hround : RoundTrip env) {t : Application} {tr : List (Application × ApplicationAction)}
    (h : (applicationSystem lib env limits).Run (.new env limits) tr t)
    (hunforged : UnforgedRun env ((accountsPart lib env limits).trace tr)) {r : MessageReceipt}
    (hheld : t.server.manager.Held (.messageReceipt r)) :
    ∃ tr₁ s₁ a₁ tr₂ s₂ a₂ tr₃ cid identity rawText now clock c,
      tr = tr₁ ++ (s₁, a₁) :: tr₂ ++ (s₂, a₂) :: tr₃ ∧
      s₁.serverAction a₁ = some (.act cid (.resolved (.ok identity))) ∧
      VouchedFor env ((accountsPart lib env limits).trace tr₁) s₁.auth identity ∧
      s₂.serverAction a₂ = some (.act cid (.frame rawText now clock)) ∧
      Routes lib s₂.server cid rawText c r ∧ c.identity = identity.bound ∧
      identity.username = r.sender := by
  have hnone : ¬ (Application.new env limits).server.manager.Held (.messageReceipt r) := by
    rintro (⟨cid, c, hc, -⟩ | ⟨k, hmem⟩)
    · simp [Application.new, ServerState.new, ConnectionManager.new] at hc
    · simp [Application.new, ServerState.new, ConnectionManager.new, OfflineQueue.new,
        OfflineQueue.queued] at hmem
  obtain ⟨tr', tr₃, s₂, a₂, s₂', rfl, hrun', hstep₂, -, hbefore, hafter⟩ :=
    h.exists_creator (P := fun u => u.server.manager.Held (.messageReceipt r)) hnone hheld
  rcases Application.step_cases hstep₂ with ⟨-, -, -, -, hsame⟩ | ⟨action, -, haction, hserver, -⟩
  · exact absurd (hsame ▸ hafter) hbefore
  obtain ⟨cid, rawText, now, clock, c, rfl, hroutes⟩ :=
    ((inv_of_run (serverRun_of_run hrun')).held_step hserver hafter).resolve_left hbefore
  obtain ⟨hc, hauth, hname, -⟩ := id hroutes
  -- the step that bound the connection
  obtain ⟨v, identity, hmem, hbound⟩ :=
    exists_resolved_of_authenticated (serverRun_of_run hrun') hc hauth
  obtain ⟨s₁, a₁, hmem₁, -, hbinds⟩ := (serverPart lib env limits).mem_trace.1 hmem
  obtain ⟨tr₁, tr₂, s₁', rfl, hrun₁, hstep₁, -⟩ := hrun'.of_mem hmem₁
  obtain ⟨i, th, hth, hrest⟩ := Application.exists_resolved_of_binding hstep₁ hbinds
  refine ⟨tr₁, s₁, a₁, tr₂, s₂, a₂, tr₃, cid, identity, rawText, now, clock, c, rfl, hbinds, ?_,
    haction, hroutes, hbound, ?_⟩
  · refine vouchedFor_of_resolved hround (authRun_of_run hrun₁) (fun e he => ?_) hth hrest
    refine hunforged e ?_
    rw [System.Projection.trace_append, System.Projection.trace_append]
    exact List.mem_append_left _ (List.mem_append_left _ he)
  · have hsent : c.accountUsername = some identity.username :=
      congrArg (fun i => i.2.2.1) hbound
    rw [hname, Option.some.injEq] at hsent
    exact hsent.symm

/-- `alice` writes to `bob`, and both are connected. -/
theorem receipts_need_a_password_alice :
    ∃ tr t c r identity, (applicationSystem accountLibraries (sampleEnv .instants) {}).Run
        (.new (sampleEnv .instants) {}) tr t ∧ t.server.manager.contexts bobId = some c ∧
      r ∈ c.receipts ∧ r.sender = py "alice" ∧ identity.username = py "alice" ∧
      ∃ tr₁ p, VouchedFor (sampleEnv .instants) tr₁ p identity := by
  have hexec : ((applicationSystem accountLibraries (sampleEnv .instants) {}).exec
      (.new (sampleEnv .instants) {}) (aliceWritesTo (py "bob"))).map (fun t =>
        ((t.server.manager.contexts bobId).any fun c =>
          c.receipts.any fun r => r.sender == py "alice") &&
        presentsMinted ((accountsPart accountLibraries (sampleEnv .instants) {}).trace
          ((applicationSystem accountLibraries (sampleEnv .instants) {}).traceOf
            (.new (sampleEnv .instants) {}) (aliceWritesTo (py "bob"))))) = some true := by
    decide +kernel
  obtain ⟨t, -, hrun, hp⟩ := System.exists_run_of_exec hexec
  simp only [Bool.and_eq_true, Option.any_eq_true, List.any_eq_true, beq_iff_eq] at hp
  obtain ⟨⟨c, hc, r, hr, hsender⟩, hminted⟩ := hp
  obtain ⟨tr₁, s₁, -, -, -, -, -, -, identity, -, -, -, -, -, -, hvouched, -, -, -, hname⟩ :=
    receipts_need_a_password (roundTrip_sampleEnv .instants) hrun
      (unforgedRun_of_presentsMinted hminted)
      (.inl ⟨bobId, c, hc, ConnectionContext.mem_receipts.1 hr⟩)
  exact ⟨_, t, c, r, identity, hrun, hc, hr, hsender, hname.trans hsender, _, _, hvouched⟩

end EncryptChat
