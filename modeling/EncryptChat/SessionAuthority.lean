/-
**The authority of a session, and its end.**

A request that resolves an access token acts in the name of the session of the token.  Its authority
is sound: the token was minted for that session and its user by a request that signed in, and the
rows it read were the ones of a usable session and an active user.  And it ends for good: what a
logout or a deletion has committed stays true in every later database, so that nothing that starts
afterwards finds the session usable, whatever was under way.

Main definitions:

* `EncryptChat.Answered` — a query of a request and what the database answered at that step;
* `EncryptChat.Justified` — what stands behind the identity a request has resolved;
* `EncryptChat.Ending` — what a request has put an end to.

Main results:

* `EncryptChat.exists_signIn_of_minted` — only requests that sign in mint tokens;
* `EncryptChat.in_of_run` — what a request that has finished put an end to has ended;
* `EncryptChat.not_covers_of_run` — what has ended, no later request acts in the name of;
* `EncryptChat.session_authority` — **soundness and finality**.
-/

import EncryptChat.AuthFollows
import EncryptChat.AuthOutlines

set_option relaxedAutoImplicit false
set_option autoImplicit false

namespace EncryptChat

open Python Concurrent Transition AuthService
open Program (Seen Follows)

/-! ### Who mints tokens -/

/-- The access token a request presents. -/
def AuthRequest.accessToken : AuthRequest → Option PyStr
  | .resolve token | .logout token | .deleteAccount token _ => some token
  | _ => none

/-- A request that does not sign in mints no token. -/
theorem mintsNothing_authCode (env : AuthEnv) {request : AuthRequest} (h : ¬ request.signsIn) :
    Follows (fun _ op => ∀ userId sessionId now, op ≠ .issue userId sessionId now) []
      (authCode env request) := by
  refine follows_authCode ⟨?_, ?_, ?_, ?_, ?_⟩
  · rintro _ _ hop userId sessionId now rfl
    exact hop
  · simp
  · rintro _ _ _ _ _ - - htracks userId sessionId now rfl
    exact htracks
  · exact fun _ _ _ _ hsigns => absurd hsigns h
  · simp

/-- The request signs in, and the operation that minted the token is one it has performed. -/
def AuthPool.SignedIn (p : AuthPool) (m : Minted) : Prop :=
  ∃ th, p.threads m.request = some th ∧ th.request.signsIn ∧
    ⟨.issue m.userId m.sessionId m.now, m.token⟩ ∈ th.seen

/-- A token that was not there before an operation was minted by it. -/
theorem minted_of_exec {env : AuthEnv} {i : ℕ} {op : AuthOp} {c : AuthChoice} {s s' : AuthState}
    {a : op.Answer} (h : authExec env i op c s = some (s', a)) {m : Minted} (hm : m ∈ s'.minted) :
    m ∈ s.minted ∨ m.request = i ∧
      (⟨op, a⟩ : Σ op : AuthOp, op.Answer) = ⟨.issue m.userId m.sessionId m.now, m.token⟩ := by
  by_cases hop : ∃ userId sessionId now, op = .issue userId sessionId now
  · obtain ⟨userId, sessionId, now, rfl⟩ := hop
    cases h
    rcases List.mem_append.1 hm with hm | hm
    · exact .inl hm
    · rw [List.mem_singleton] at hm
      subst hm
      exact .inr ⟨rfl, rfl⟩
  · refine .inl ?_
    cases authEffect h with
    | kept _ hsame => rwa [hsame.minted] at hm
    | issued c userId sessionId now => exact absurd ⟨userId, sessionId, now, rfl⟩ hop
    | wrote => exact hm
    | committed =>
        unfold AuthState.commit at hm
        split at hm
        · split_ifs at hm <;> exact hm
        · exact hm
    | rolledBack =>
        unfold AuthState.rollback at hm
        split at hm
        · split_ifs at hm <;> exact hm
        · exact hm

/-- **Only requests that sign in mint tokens.** -/
theorem exists_signIn_of_minted {env : AuthEnv} {t : AuthPool} {tr : List (AuthPool × AuthLabel)}
    (h : (authSystem env).Run (.new env) tr t) :
    ∀ m ∈ t.shared.minted, t.SignedIn m := by
  induction h with
  | nil => simp [AuthPool.new, AuthState.new]
  | @snoc u w tr label hrun hstep ih =>
      -- a thread that has performed an operation goes on to have performed it
      have hkept : ∀ m, u.SignedIn m → w.SignedIn m := by
        rintro m ⟨th, hth, hsigns, hmem⟩
        cases label with
        | start i request =>
            obtain ⟨hnone, -, hupdate⟩ := Pool.step_start (authExec env) (authCode env) hstep
            refine ⟨th, ?_, hsigns, hmem⟩
            rw [hupdate, Function.update_of_ne ?_]
            · exact hth
            · rintro rfl
              rw [hnone] at hth
              cases hth
        | step i c =>
            obtain ⟨request, op, next, seen, s, a, hu, -, -, hupdate⟩ :=
              Pool.step_step (authExec env) (authCode env) hstep
            by_cases hi : m.request = i
            · subst hi
              rw [hu, Option.some.injEq] at hth
              subst hth
              refine ⟨⟨request, next a, seen ++ [⟨op, a⟩]⟩, ?_, hsigns, List.mem_append_left _ hmem⟩
              rw [hupdate, Function.update_self]
            · exact ⟨th, by rw [hupdate, Function.update_of_ne hi]; exact hth, hsigns, hmem⟩
      intro m hm
      cases label with
      | start i request =>
          obtain ⟨-, hshared, -⟩ := Pool.step_start (authExec env) (authCode env) hstep
          rw [hshared] at hm
          exact hkept m (ih m hm)
      | step i c =>
          obtain ⟨request, op, next, seen, s, a, hu, hexec, hshared, hupdate⟩ :=
            Pool.step_step (authExec env) (authCode env) hstep
          rw [hshared] at hm
          rcases minted_of_exec hexec hm with hm | ⟨rfl, heq⟩
          · exact hkept m (ih m hm)
          · refine ⟨⟨request, next a, seen ++ [⟨op, a⟩]⟩, ?_, ?_, ?_⟩
            · rw [hupdate, Function.update_self]
            · by_contra hnot
              have hfollows := follows_of_run hrun hu (mintsNothing_authCode env hnot)
              exact hfollows.1 _ _ _ (congrArg Sigma.fst heq)
            · exact List.mem_append_right _ (List.mem_singleton.2 heq.symm)

/-! ### What stands behind an identity -/

/-- A query of the request `i`, and what the database answered at that step of the run. -/
def Answered (env : AuthEnv) (tr : List (AuthPool × AuthLabel)) (i : ℕ) (q : Query)
    (a : q.Answer) : Prop :=
  ∃ e ∈ tr, ∃ c, e.2 = .step i c ∧ (e.1.shared.visible i).answer env.backend q = .ok a

/-- The time the request `i` read from the clock at a step of the run. -/
def ClockRead (tr : List (AuthPool × AuthLabel)) (i : ℕ) (now : Datetime) : Prop :=
  ∃ e ∈ tr, ∃ c, e.2 = .step i c ∧ now = .utc c.time

/-- A session and a user that make up an identity, and may be used at the time `now`. -/
structure UsableFor (identity : AuthenticatedIdentity) (session : AuthSession) (user : User)
    (now : Datetime) : Prop where
  session_id : session.id = identity.sessionId
  owner : session.userId = identity.userId
  unrevoked : session.revokedAt = none
  unexpired : now.lt? session.expiresAt = .ok true
  user_id : user.id = identity.userId
  username : user.username = identity.username
  active : user.isActive = true

/-- What a request has seen of the database was answered at a step of its own. -/
theorem answered_of_seen {env : AuthEnv} {tr : List (AuthPool × AuthLabel)} {t : AuthPool}
    (h : (authSystem env).Run (.new env) tr t) {i : ℕ} {th : AuthThread}
    (hth : t.threads i = some th) {q : Query} {a : q.Answer}
    (ha : ⟨.query q, Except.ok a⟩ ∈ th.seen) : Answered env tr i q a := by
  obtain ⟨e, he, c, s, hlabel, hexec⟩ := answered_of_run h hth ha
  refine ⟨e, he, c, hlabel, ?_⟩
  have hanswer : e.1.shared.query env i c q = .ok a := (Prod.mk.inj (Option.some.inj hexec)).2
  unfold AuthState.query at hanswer
  split at hanswer
  · cases hanswer
  · exact hanswer

/-- What stands behind an identity that the request `i` has resolved: the session and the user it
read. -/
def Justified (env : AuthEnv) (tr : List (AuthPool × AuthLabel)) (i : ℕ)
    (identity : AuthenticatedIdentity) : Prop :=
  ∃ session user now, UsableFor identity session user now ∧
    Answered env tr i (.sessionById identity.sessionId) (some session) ∧
      Answered env tr i (.userById identity.userId) (some user) ∧ ClockRead tr i now

/-- What the library gives back of a minted token are the claims it was minted with. -/
def RoundTrip (env : AuthEnv) : Prop :=
  ∀ userId sessionId tokenId minted time payload,
    env.jwt.decode (issueAccessToken env.jwt env.config userId sessionId tokenId minted)
      env.config.signingSecret env.config.algorithm env.config.issuer env.config.audience time =
        .ok payload →
      payload = accessClaims env.config userId sessionId tokenId minted

/-- A token the library accepts has been minted before. -/
def Unforged (env : AuthEnv) (request : AuthRequest) (s : AuthState) : Prop :=
  ∀ token, request.accessToken = some token → ∀ time payload,
    env.jwt.decode token env.config.signingSecret env.config.algorithm env.config.issuer
      env.config.audience time = .ok payload → ∃ m ∈ s.minted, m.token = token

/-- A token that is accepted names the user and the session it was minted for. -/
theorem exists_minted_of_decoded {env : AuthEnv} (hround : RoundTrip env) {s : AuthState}
    (hs : s.WF env) {request : AuthRequest} {token : PyStr} (hpresents : Unforged env request s)
    (htoken : request.accessToken = some token) {clock : Datetime} {claims : AccessTokenClaims}
    (h : decodeAccessToken env.jwt env.config token clock = .ok claims) :
    ∃ m ∈ s.minted, m.token = token ∧ m.userId = claims.userId ∧ m.sessionId = claims.sessionId := by
  obtain ⟨payload, hpayload⟩ := decode_of_decodeAccessToken h
  obtain ⟨m, hm, rfl⟩ := hpresents token htoken clock payload hpayload
  have hclaims := decodeAccessToken_of_accessClaims (fun payload' hpayload' =>
    hround _ _ _ _ _ payload' (hs.minted m hm ▸ hpayload')) h
  exact ⟨m, hm, rfl, hclaims.1.symm, hclaims.2.symm⟩

/-- Reading a session tells who it was opened for. -/
theorem opened_of_mem {env : AuthEnv} {D : Discipline (authExec env)} (hD : AuthRules D) {i : ℕ}
    {s : AuthState} {x : AuthSession} (hs : D.Inv s) (hx : x ∈ (s.visible i).sessions) :
    (x.id, x.userId) ∈ (s.visible i).opened := ((hD.wf s hs).visible i).1.session x hx

/-- What a request has found of the identity it has resolved from a token. -/
def Found (token : PyStr) (identity : AuthenticatedIdentity) (seen : Seen AuthOp.Answer)
    (s : AuthState) : Prop :=
  (∃ m ∈ s.minted, m.token = token ∧ m.userId = identity.userId ∧
    m.sessionId = identity.sessionId) ∧
  ∃ session user now, UsableFor identity session user now ∧
    ⟨.query (.sessionById identity.sessionId), Except.ok (some session)⟩ ∈ seen ∧
    ⟨.query (.userById identity.userId), Except.ok (some user)⟩ ∈ seen ∧ ⟨.clock, now⟩ ∈ seen

theorem Found.mono {token : PyStr} {identity : AuthenticatedIdentity}
    {seen seen' : Seen AuthOp.Answer} {s s' : AuthState} (h : Found token identity seen s)
    (hseen : seen ⊆ seen') (hminted : s.minted ⊆ s'.minted) : Found token identity seen' s' := by
  obtain ⟨⟨m, hm, hfor⟩, session, user, now, husable, h₁, h₂, h₃⟩ := h
  exact ⟨⟨m, hminted hm, hfor⟩, session, user, now, husable, hseen h₁, hseen h₂, hseen h₃⟩

/-- The identity a request has resolved from the token it presents. -/
def AuthResponse.identity : AuthResponse → Option AuthenticatedIdentity
  | .resolved identity | .loggedOut identity | .deleted identity => some identity
  | _ => none

section Found

variable {env : AuthEnv} {i : ℕ} {s : AuthState}

/-- What has been found stays so whatever the request does next. -/
theorem ensures_found {α : Type} {token : PyStr} {identity : AuthenticatedIdentity}
    {seen : Seen AuthOp.Answer} (h : Found token identity seen s) (p : AuthProgram α) :
    (authDiscipline env).Ensures i (fun seen _ s' => Found token identity seen s') seen p s := by
  refine Discipline.ensures_of_kept (Q := Found token identity) ?_ ?_ h p
  · exact fun seen s s' henv hfound => hfound.mono (fun _ => id) henv.minted
  · exact fun seen op c s s' a _ hexec hfound =>
      hfound.mono (List.subset_append_left _ _) (AuthState.minted_of_effect (authEffect hexec))

/-- **A token that resolves** was minted for the user and the session whose rows were read. -/
theorem ensures_found_resolveObjects (hround : RoundTrip env) {request : AuthRequest}
    {token : PyStr} (htoken : request.accessToken = some token) (hs : s.WF env)
    (hpresents : Unforged env request s) :
    (authDiscipline env).Ensures i (fun seen r s' => Found token r.identity seen s') []
      (resolveObjects env token) s := by
  refine ((ensures_resolveObjects (P := fun _ _ => True) (T := fun _ _ => True) (authRules env)
    (fun _ _ _ _ => trivial) (fun _ _ _ _ _ => trivial) (fun _ _ _ _ => trivial)
    (fun _ _ _ _ _ => trivial) token).mono hs ?_)
  rintro seen r s₁ - ⟨henv, -, -, clock, now, claims, hby⟩
  obtain ⟨m, hm, hminted, huser, hsession⟩ :=
    exists_minted_of_decoded hround hs hpresents htoken hby.decoded
  obtain ⟨hunrevoked, hunexpired⟩ := isUsable_eq_ok hby.usable
  refine ⟨⟨m, henv.minted hm, hminted, huser.trans hby.user_id.symm,
    hsession.trans hby.session_id.symm⟩, r.session, r.user, now, ?_, ?_, ?_, hby.now_read⟩
  · exact ⟨rfl, hby.owner, hunrevoked, hunexpired, rfl, rfl, hby.active⟩
  · change ⟨.query (.sessionById r.session.id), _⟩ ∈ seen
    rw [hby.session_id]
    exact hby.session_read
  · change ⟨.query (.userById r.user.id), _⟩ ∈ seen
    rw [hby.user_id]
    exact hby.user_read

/-- What a request that resolves a token has found when it succeeds. -/
theorem ensures_found_authCode (hround : RoundTrip env) {request : AuthRequest} (hs : s.WF env)
    (hpresents : Unforged env request s) :
    (authDiscipline env).Ensures i (fun seen r s' => ∀ token identity,
      request.accessToken = some token → r.identity = some identity →
        Found token identity seen s') [] (authCode env request) s := by
  refine ensures_inSession (Q := fun seen r s' => ∀ token identity,
    request.accessToken = some token → r.identity = some identity →
      Found token identity seen s') ?_ hs ?_ ?_
  · cases request with
    | register | login | refresh =>
        refine (Discipline.ensures_true _).bind hs fun seen _ s₁ _ _ => ?_
        refine Discipline.Ensures.pure fun s₂ _ _ token identity htoken => ?_
        cases htoken
    | resolve token =>
        refine (ensures_found_resolveObjects hround rfl hs hpresents).bind hs ?_
        intro seen r s₁ _ hfound
        refine Discipline.Ensures.pure fun s₂ _ henv token' identity htoken hidentity => ?_
        cases htoken
        cases hidentity
        exact hfound.mono (fun _ => id) henv.minted
    | logout token | deleteAccount token =>
        refine (ensures_found_resolveObjects hround rfl hs hpresents).bind hs ?_
        intro seen r s₁ hs₁ hfound
        refine (ensures_found hfound _).bind hs₁ fun seen₂ _ s₂ _ hfound₂ => ?_
        refine Discipline.Ensures.pure fun s₃ _ henv token' identity htoken hidentity => ?_
        cases htoken
        cases hidentity
        exact hfound₂.mono (fun _ => id) henv.minted
  · intro seen r t t' _ henv hQ token identity htoken hidentity
    exact (hQ token identity htoken hidentity).mono (fun _ => id) henv.minted
  · intro seen r t t' _ hQ _ henv token identity htoken hidentity
    refine (hQ token identity htoken hidentity).mono (List.subset_append_left _ _) ?_
    have heffect : AuthEffect env i t .commit (t.commit i) := AuthEffect.committed
    have hcommit := AuthState.minted_of_effect heffect
    exact fun m hm => henv.minted (hcommit hm)

end Found

/-! ### What a request puts an end to -/

/-- What a request has put an end to: a session, or an account with all its sessions. -/
inductive Ending where
  | session (sessionId : PyStr)
  | account (userId : PyStr)
  deriving DecidableEq

namespace Ending

/-- It has ended, in the database `d`. -/
def In (d : Database) : Ending → Prop
  | session sessionId => d.Revoked sessionId
  | account userId => d.Gone userId

/-- The session is that session, or was opened for that account. -/
def Covers (d : Database) : Ending → PyStr → Prop
  | session sessionId, x => x = sessionId
  | account userId, x => (x, userId) ∈ d.opened

/-- The session, opened for the user, is another one. -/
def Spares : Ending → PyStr → PyStr → Prop
  | session sessionId, x, _ => x ≠ sessionId
  | account userId, _, y => y ≠ userId

theorem In.later {e : Ending} {d d' : Database} (h : e.In d) (hlater : d.Later d') : e.In d' := by
  cases e with
  | session sessionId => exact Database.Revoked.later h hlater
  | account userId => exact Database.Gone.later h hlater

theorem Spares.not_covers {e : Ending} {usedIds : List PyStr} {d : Database}
    (hwf : Database.WF usedIds d) {sessionId userId : PyStr} (h : e.Spares sessionId userId)
    (hopened : (sessionId, userId) ∈ d.opened) : ¬ e.Covers d sessionId := by
  cases e with
  | session _ => exact h
  | account userId' =>
      intro hcovers
      have heq := List.inj_on_of_nodup_map hwf.opened_nodup hopened hcovers rfl
      rw [Prod.mk.injEq] at heq
      exact h heq.2

/-- A usable session and its user have not ended. -/
theorem spares_of_usable {e : Ending} {session : AuthSession} {user : User} {now : Datetime}
    (hsession : ∀ x, e = .session x → session.id = x → session.revokedAt.isSome = true)
    (huser : ∀ x, e = .account x → user.id ≠ x) (husable : session.isUsable now = .ok true)
    (howner : session.userId = user.id) : e.Spares session.id session.userId := by
  cases e with
  | session x =>
      intro hid
      have hrevoked := hsession x rfl hid
      rw [(isUsable_eq_ok husable).1] at hrevoked
      cases hrevoked
  | account x =>
      change session.userId ≠ x
      rw [howner]
      exact huser x rfl

end Ending

/-- What the request has put an end to. -/
def AuthResponse.ending : AuthResponse → Option Ending
  | .loggedOut identity => some (.session identity.sessionId)
  | .deleted identity => some (.account identity.userId)
  | _ => none

/-- The session a resolved access token or an exchanged refresh token belongs to. -/
def AuthResponse.session : AuthResponse → Option PyStr
  | .resolved identity => some identity.sessionId
  | .refreshed credentials => some credentials.sessionId
  | _ => none

section Endings

variable {env : AuthEnv} {i : ℕ} {s : AuthState}

/-- **A logout that has committed has ended its session, a deletion its account.** -/
theorem ensures_in (hs : s.WF env) (request : AuthRequest) :
    (authDiscipline env).Ensures i (fun _ r s' => ∀ e, r.ending = some e → e.In s'.committed) []
      (authCode env request) s := by
  refine ensures_inSession_later (P := fun (r : AuthResponse) d => ∀ e, r.ending = some e → e.In d)
    (authRules env) (fun _ _ _ hlater h e he => (h e he).later hlater) ?_ hs
  cases request with
  | register | login | resolve | refresh =>
      refine (Discipline.ensures_true _).bind hs fun seen _ s₁ _ _ => ?_
      refine Discipline.Ensures.pure fun s₂ _ _ e he => ?_
      cases he
  | logout token =>
      refine (ensures_resolveObjects (P := fun d x => (x.id, x.userId) ∈ d.opened)
        (T := fun _ _ => True) (authRules env) (fun _ _ => opened_of_mem (authRules env))
        (fun _ _ _ hlater hx => hlater.opened hx) (fun _ _ _ _ => trivial)
        (fun _ _ _ _ _ => trivial) token).bind hs ?_
      rintro seen r s₁ hs₁ ⟨-, hopened, -, clock, now, claims, hby⟩
      refine (ensures_logout (authRules env) (isUsable_eq_ok hby.usable).1 ⟨_, hopened⟩).bind hs₁ ?_
      intro seen₂ _ s₂ _ hrevoked
      refine Discipline.Ensures.pure fun s₃ _ henv₃ e he => ?_
      cases he
      exact Database.Revoked.later hrevoked henv₃.visible
  | deleteAccount token password =>
      refine (ensures_resolveObjects (P := fun _ _ => True)
        (T := fun d u => (u.id, u.username) ∈ d.accounts) (authRules env)
        (fun _ _ _ _ => trivial) (fun _ _ _ _ _ => trivial)
        (fun s u hs hu => (hs.visible i).1.account u hu)
        (fun _ _ _ hlater hu => hlater.accounts hu) token).bind hs ?_
      rintro seen r s₁ hs₁ ⟨-, -, hcreated, -⟩
      refine (ensures_deleteAccount (authRules env) password ⟨_, hcreated⟩).bind hs₁ ?_
      intro seen₂ _ s₂ _ hgone
      refine Discipline.Ensures.pure fun s₃ _ henv₃ e he => ?_
      cases he
      exact Database.Gone.later hgone henv₃.visible

/-- The discipline after an ending. -/
def endedDiscipline (env : AuthEnv) (e : Ending) : Discipline (authExec env) :=
  (authDiscipline env).strengthen (fun s => e.In s.committed) (fun _ _ _ => True)
    fun _ _ _ _ _ _ hs _ he _ hexec => he.later (AuthState.later_of_effect hs (authEffect hexec))

theorem endedRules (env : AuthEnv) (e : Ending) : AuthRules (endedDiscipline env e) :=
  (authRules env).strengthen _

/-- **After an ending**, what is resolved or refreshed is another session. -/
theorem ensures_spares {e : Ending} (hs : (endedDiscipline env e).Inv s) (request : AuthRequest) :
    (endedDiscipline env e).Ensures i (fun _ r s' => ∀ x, r.session = some x →
      ∃ y, (x, y) ∈ s'.committed.opened ∧ e.Spares x y) [] (authCode env request) s := by
  let P : Database → AuthSession → Prop := fun d x => (x.id, x.userId) ∈ d.opened ∧
    ∀ y, e = .session y → x.id = y → x.revokedAt.isSome = true
  let P' : Database → User → Prop := fun _ u => ∀ y, e = .account y → u.id ≠ y
  have hread : ∀ s x, (endedDiscipline env e).Inv s → x ∈ (s.visible i).sessions →
      P (s.visible i) (env.backend.loadSession x) := by
    intro s x hs hx
    refine ⟨opened_of_mem (x := x) (endedRules env e) hs hx, fun y he hid => ?_⟩
    have hin := hs.2.later (hs.1.visible i).2
    rw [he] at hin
    have hrevoked := hin.2 x hx hid
    change (x.revokedAt.map _).isSome = true
    rw [Option.isSome_map]
    exact hrevoked
  have hread' : ∀ s u, (endedDiscipline env e).Inv s → u ∈ (s.visible i).users →
      P' (s.visible i) (env.backend.loadUser u) := by
    intro s u hs hu y he
    have hin := hs.2.later (hs.1.visible i).2
    rw [he] at hin
    exact hin.2 u hu
  have hlater : ∀ d d' x, d.Later d' → P d x → P d' x :=
    fun _ _ _ hlater hx => ⟨hlater.opened hx.1, hx.2⟩
  refine ensures_inSession_later (P := fun (r : AuthResponse) d => ∀ x, r.session = some x →
    ∃ y, (x, y) ∈ d.opened ∧ e.Spares x y) (endedRules env e) ?_ ?_ hs
  · -- a session once opened stays among those that were opened
    intro r d d' hlater h x hx
    obtain ⟨y, hopened, hspares⟩ := h x hx
    exact ⟨y, hlater.opened hopened, hspares⟩
  · cases request with
    | register | login =>
        refine (Discipline.ensures_true _).bind hs fun seen _ s₁ _ _ => ?_
        refine Discipline.Ensures.pure fun s₂ _ _ e he => ?_
        cases he
    | logout | deleteAccount =>
        refine (Discipline.ensures_true _).bind hs fun seen _ s₁ hs₁ _ => ?_
        refine (Discipline.ensures_true _).bind hs₁ fun seen _ s₁ _ _ => ?_
        refine Discipline.Ensures.pure fun s₂ _ _ e he => ?_
        cases he
    | resolve token =>
        refine (ensures_resolveObjects (endedRules env e) hread hlater hread'
          (fun _ _ _ _ => id) token).bind hs ?_
        rintro seen r s₁ - ⟨-, hP, hP', clock, now, claims, hby⟩
        refine Discipline.Ensures.pure fun s₂ _ henv x hx => ?_
        cases hx
        exact ⟨r.session.userId, henv.visible.opened hP.1,
          Ending.spares_of_usable hP.2 hP' hby.usable hby.owner⟩
    | refresh token =>
        refine (ensures_refresh (R := fun _ _ _ => True) (endedRules env e)
          (fun s x hs hx _ => hread s x hs hx) hlater hread' (fun _ _ _ _ => id)
          (fun _ _ _ _ _ _ _ _ _ _ _ => trivial) (fun _ _ _ _ _ _ => trivial)).bind hs ?_
        rintro seen c s₁ - ⟨session, user, hP, hP', -, hfrom⟩
        refine Discipline.Ensures.pure fun s₂ _ henv x hx => ?_
        cases hx
        obtain ⟨now, husable⟩ := hfrom.usable
        rw [hfrom.issued.session_id]
        exact ⟨session.userId, henv.visible.opened hP.1,
          Ending.spares_of_usable hP.2 hP' husable hfrom.owner⟩

end Endings

/-! ### Every interleaving -/

section Runs

variable {env : AuthEnv}

/-- Every token that is accepted in the run had been minted when it was presented. -/
def UnforgedRun (env : AuthEnv) (tr : List (AuthPool × AuthLabel)) : Prop :=
  ∀ e ∈ tr, ∀ i request, e.2 = .start i request → Unforged env request e.1.shared

/-- A run in which no token is forged meets the discipline of the service. -/
theorem meets_of_unforged {tr : List (AuthPool × AuthLabel)} (h : UnforgedRun env tr) :
    ∀ e ∈ tr, (authDiscipline env).Meets (Unforged env) e.1 e.2 := by
  rintro ⟨p, label⟩ he
  cases label with
  | start i request => exact h _ he i request rfl
  | step i c => exact fun _ _ _ _ _ => trivial

/-- **An identity that has been resolved** is justified by what was read, and its token was minted
for it by a request that signed in. -/
theorem justified_of_run (hround : RoundTrip env) {tr : List (AuthPool × AuthLabel)} {t : AuthPool}
    (h : (authSystem env).Run (.new env) tr t) (hunforged : UnforgedRun env tr)
    {i : ℕ} {th : AuthThread} (hth : t.threads i = some th) {token : PyStr}
    (htoken : th.request.accessToken = some token) {r : AuthResponse}
    (hrest : th.rest = .done (.ok r)) {identity : AuthenticatedIdentity}
    (hidentity : r.identity = some identity) :
    (∃ m ∈ t.shared.minted, m.token = token ∧ m.userId = identity.userId ∧
      m.sessionId = identity.sessionId ∧ t.SignedIn m) ∧ Justified env tr i identity := by
  obtain ⟨hinv, houtlines⟩ := (authDiscipline env).outline_of_run
    (fun i request s hs => @ensures_found_authCode env i s hround request hs) h
    (meets_of_unforged hunforged) (AuthState.wf_new env)
  obtain ⟨request, rest, seen⟩ := th
  subst hrest
  obtain ⟨⟨m, hm, hfor⟩, session, user, now, husable, h₁, h₂, h₃⟩ :=
    (houtlines i _ hth rfl).result hinv r rfl token identity htoken hidentity
  refine ⟨⟨m, hm, hfor.1, hfor.2.1, hfor.2.2, exists_signIn_of_minted h m hm⟩, session, user, now,
    husable, ?_, ?_, ?_⟩
  · exact answered_of_seen h hth h₁
  · exact answered_of_seen h hth h₂
  · obtain ⟨e, he, c, s, hlabel, hexec⟩ := answered_of_run h hth h₃
    cases hexec
    exact ⟨e, he, c, hlabel, rfl⟩

/-- **What a request that has finished put an end to** has ended. -/
theorem in_of_run {tr : List (AuthPool × AuthLabel)} {t : AuthPool}
    (h : (authSystem env).Run (.new env) tr t) {i : ℕ} {th : AuthThread}
    (hth : t.threads i = some th) {r : AuthResponse} (hrest : th.rest = .done (.ok r)) {e : Ending}
    (he : r.ending = some e) : e.In t.shared.committed := by
  obtain ⟨hinv, houtlines⟩ := (authDiscipline env).outline_of_run
    (fun _ _ s hs _ => ensures_in (s := s) hs _) h (meets_of_run tr) (AuthState.wf_new env)
  obtain ⟨request, rest, seen⟩ := th
  subst hrest
  exact (houtlines i _ hth rfl).result hinv r rfl e he

/-- **What has ended**, no request that starts afterwards acts in the name of. -/
theorem not_covers_of_run {e : Ending} {tr : List (AuthPool × AuthLabel)} {v t : AuthPool}
    (h : (authSystem env).Run v tr t) (hv : v.shared.WF env) (he : e.In v.shared.committed) {j : ℕ}
    {th : AuthThread} (hth : t.threads j = some th) (hnew : v.threads j = none) {r : AuthResponse}
    (hrest : th.rest = .done (.ok r)) {x : PyStr} (hx : r.session = some x) :
    ¬ e.Covers t.shared.committed x := by
  have hmeets : ∀ l ∈ tr, (endedDiscipline env e).Meets (fun _ _ => True) l.1 l.2 := by
    rintro ⟨p, label⟩ _
    cases label with
    | start i request => trivial
    | step i c => exact fun _ _ _ _ _ => ⟨trivial, trivial⟩
  obtain ⟨hinv, houtlines⟩ := (endedDiscipline env e).outline_of_run
    (fun _ _ s hs _ => ensures_spares (s := s) hs _) h hmeets ⟨hv, he⟩
  obtain ⟨request, rest, seen⟩ := th
  subst hrest
  obtain ⟨y, hopened, hspares⟩ := (houtlines j _ hth hnew).result hinv r rfl x hx
  exact hspares.not_covers hinv.1.committed hopened

/-- **Session authority is sound, and its end is final**: an identity that has been resolved is
justified, its token minted for it by a request that signed in; and once a logout or a deletion has
finished, no request that starts afterwards resolves or refreshes what it has put an end to, whatever
was under way. -/
theorem session_authority (hround : RoundTrip env) {tr₁ tr₂ : List (AuthPool × AuthLabel)}
    {v t : AuthPool} (h₁ : (authSystem env).Run (.new env) tr₁ v)
    (h₂ : (authSystem env).Run v tr₂ t) (hunforged : UnforgedRun env (tr₁ ++ tr₂)) :
    (∀ i th token r identity, t.threads i = some th → th.request.accessToken = some token →
      th.rest = .done (.ok r) → r.identity = some identity →
        (∃ m ∈ t.shared.minted, m.token = token ∧ m.userId = identity.userId ∧
          m.sessionId = identity.sessionId ∧ t.SignedIn m) ∧
        Justified env (tr₁ ++ tr₂) i identity) ∧
      ∀ i th r e, v.threads i = some th → th.rest = .done (.ok r) → r.ending = some e →
        ∀ j th' r' x, t.threads j = some th' → v.threads j = none → th'.rest = .done (.ok r') →
          r'.session = some x → ¬ e.Covers t.shared.committed x := by
  refine ⟨?_, ?_⟩
  · intro i th token r identity hth htoken hrest hidentity
    exact justified_of_run hround (h₁.trans h₂) hunforged hth htoken hrest hidentity
  · intro i th r e hth hrest he j th' r' x hth' hnew hrest' hx
    exact not_covers_of_run h₂ (wf_of_run h₁) (in_of_run h₁ hth hrest he) hth' hnew hrest' hx

end Runs

/-! ### One session of two is revoked -/

/-- A string with an end mark. -/
def marked (s : PyStr) : PyStr := s.flatMap (fun c => [1, c]) ++ [0]

/-- The string before the first end mark, and what follows it. -/
def unmarked : PyStr → Option (PyStr × PyStr)
  | m :: c :: rest =>
      if m = 0 then some ([], c :: rest)
      else (unmarked rest).map fun found => (c :: found.1, found.2)
  | [m] => if m = 0 then some ([], []) else none
  | [] => none

theorem unmarked_marked (s rest : PyStr) : unmarked (marked s ++ rest) = some (s, rest) := by
  induction s with
  | nil => cases rest <;> simp [marked, unmarked]
  | cons c s ih =>
      have hcons : marked (c :: s) ++ rest = 1 :: c :: (marked s ++ rest) := by simp [marked]
      rw [hcons, unmarked, ih, if_neg (by decide)]
      rfl

/-- A number, as its sign and its absolute value. -/
def numberMark (n : ℤ) : PyStr := (if n < 0 then 0 else 1) :: List.replicate n.natAbs 0

/-- The number of a mark. -/
def numberOfMark : PyStr → ℤ
  | [] => 0
  | sign :: s => if sign = 0 then -s.length else s.length

theorem numberOfMark_numberMark (n : ℤ) : numberOfMark (numberMark n) = n := by
  simp only [numberMark, numberOfMark, List.length_replicate]
  split_ifs with hneg hzero hzero
  · omega
  · exact absurd rfl hzero
  · simp at hzero
  · omega

/-- The string a claim holds. -/
def claimStr (claims : Dict) (key : String) : PyStr :=
  match dictGet claims (py key) with
  | some (.str s) => s
  | _ => []

/-- The number a claim holds. -/
def claimInt (claims : Dict) (key : String) : ℤ :=
  match dictGet claims (py key) with
  | some (.int n) => n
  | _ => 0

/-- The fields of a token: the secret it was made with, and its claims. -/
def readToken (token : PyStr) : Option (PyStr × PyStr × PyStr × PyStr × ℤ × ℤ) := do
  let (secret, token) ← unmarked token
  let (sub, token) ← unmarked token
  let (sid, token) ← unmarked token
  let (jti, token) ← unmarked token
  let (iat, token) ← unmarked token
  let (exp, _) ← unmarked token
  some (secret, sub, sid, jti, numberOfMark iat, numberOfMark exp)

/-- A library whose tokens are their claims and the secret. -/
def sampleJwt : Jwt where
  encode claims secret _ :=
    marked secret ++ (marked (claimStr claims "sub") ++ (marked (claimStr claims "sid") ++
      (marked (claimStr claims "jti") ++ (marked (numberMark (claimInt claims "iat")) ++
        (marked (numberMark (claimInt claims "exp")) ++ [])))))
  decode token secret _ issuer audience now :=
    match readToken token with
    | none => .error (.invalidTokenError (py "DecodeError"))
    | some (signer, sub, sid, jti, iat, exp) =>
        if signer ≠ secret then .error (.invalidTokenError (py "InvalidSignatureError"))
        else if exp * 1000000 ≤ now.instant then .error .expiredSignatureError
        else .ok [(py "sub", .str sub), (py "sid", .str sid), (py "jti", .str jti),
          (py "iat", .int iat), (py "exp", .int exp), (py "iss", .str issuer),
          (py "aud", .str audience), (py "token_type", .str tokenTypeAccess)]

/-- ASCII letters in lower case. -/
def asciiLower (s : PyStr) : PyStr :=
  s.map fun c => if inRange 'A' 'Z' c then Fin.ofNat 0x110000 (c.val + 32) else c

/-- A service with these libraries, whose tokens live for a minute. -/
def sampleEnv (backend : Backend) : AuthEnv where
  config := { signingSecret := py "secret", accessTokenTtlMinutes := 1 }
  backend := backend
  unicode := ⟨id, asciiLower⟩
  argon2 := ⟨fun _ _ password => password, fun h password => h == password, fun _ _ => false⟩
  jwt := sampleJwt
  sha256 := id

/-- What the library reads in a token that was minted. -/
theorem readToken_issued (config : AuthConfig) (userId sessionId tokenId : PyStr) (now : Datetime) :
    readToken (issueAccessToken sampleJwt config userId sessionId tokenId now) =
      some (config.signingSecret, userId, sessionId, tokenId, now.timestampSeconds,
        (now.addMicroseconds config.accessTokenTtl).timestampSeconds) := by
  simp only [readToken, issueAccessToken, sampleJwt, unmarked_marked, Option.bind_eq_bind,
    Option.bind_some, numberOfMark_numberMark]
  rfl

/-- A token that was minted is accepted, with its claims, until it expires. -/
theorem decode_issued (config : AuthConfig) (userId sessionId tokenId : PyStr) (now time : Datetime) :
    sampleJwt.decode (issueAccessToken sampleJwt config userId sessionId tokenId now)
        config.signingSecret config.algorithm config.issuer config.audience time =
      if (now.addMicroseconds config.accessTokenTtl).timestampSeconds * 1000000 ≤ time.instant then
        .error .expiredSignatureError
      else .ok (accessClaims config userId sessionId tokenId now) := by
  have hread := readToken_issued config userId sessionId tokenId now
  simp only [sampleJwt] at hread ⊢
  rw [hread]
  simp only [ne_eq, not_true, if_false]
  rfl

theorem roundTrip_sampleEnv (backend : Backend) : RoundTrip (sampleEnv backend) := by
  intro userId sessionId tokenId minted time payload h
  change sampleJwt.decode (issueAccessToken sampleJwt _ userId sessionId tokenId minted) _ _ _ _ _ =
    _ at h
  rw [decode_issued] at h
  split_ifs at h
  cases h
  rfl

/-- An id of the shape `uuid4().hex`. -/
def hexId (n : ℕ) : PyStr := List.replicate 31 48 ++ [Fin.ofNat 0x110000 (48 + n)]

/-- A token of the shape `secrets.token_urlsafe(32)`. -/
def urlsafeToken (n : ℕ) : PyStr := List.replicate 42 65 ++ [Fin.ofNat 0x110000 (65 + n)]

/-- The request `i`, run to its end in `n` steps at the time `time`. -/
def requestOf (i n : ℕ) (time : ℤ) (request : AuthRequest) : List AuthLabel :=
  .start i request ::
    List.replicate n (.step i { id := hexId i, token := urlsafeToken i, time := time })

/-- A password of `alice`. -/
def samplePassword : PyStr := py "correct horse"

/-- The access token of `alice` of the session `i`, minted at the epoch. -/
def aliceToken (i : ℕ) : PyStr :=
  issueAccessToken sampleJwt (sampleEnv .instants).config (hexId 0) (hexId i) (hexId i) (.utc 0)

/-- The identity of `alice` in the session `i`. -/
def aliceIdentity (i : ℕ) : AuthenticatedIdentity := ⟨hexId 0, py "alice", hexId i⟩

/-- `alice` registers and logs in twice. -/
def twoLogins : List AuthLabel :=
  requestOf 0 4 0 (.register (py "alice") samplePassword) ++
    requestOf 1 9 0 (.login (py "alice") samplePassword) ++
    requestOf 2 9 0 (.login (py "alice") samplePassword)

/-- Every token that is presented has been minted. -/
def presentsMinted (tr : List (AuthPool × AuthLabel)) : Bool :=
  tr.all fun e =>
    match e.2 with
    | .start _ request =>
        (request.accessToken.map fun token =>
          e.1.shared.minted.any fun m => m.token == token).getD true
    | .step _ _ => true

theorem unforgedRun_of_presentsMinted {env : AuthEnv} {tr : List (AuthPool × AuthLabel)}
    (h : presentsMinted tr = true) : UnforgedRun env tr := by
  rintro ⟨p, label⟩ he i request rfl token htoken time payload -
  have hany := List.all_eq_true.1 h _ he
  simp only [htoken, Option.map_some, Option.getD_some, List.any_eq_true, beq_iff_eq] at hany
  exact hany

/-- `alice` logs out of the first session. -/
def firstLogout : List AuthLabel := requestOf 3 9 0 (.logout (aliceToken 1))

/-- `alice` uses the second one. -/
def secondUse : List AuthLabel := requestOf 4 6 0 (.resolve (aliceToken 2))

/-- The first session has been revoked, and then the second one has been used. -/
def revokedThenUsed (v t : AuthPool) : Bool :=
  presentsMinted ((authSystem (sampleEnv .instants)).traceOf (.new (sampleEnv .instants))
      (twoLogins ++ firstLogout) ++ (authSystem (sampleEnv .instants)).traceOf v secondUse) &&
    v.outcome 3 == some (.logout (aliceToken 1), .loggedOut (aliceIdentity 1)) &&
    (v.threads 4).isNone &&
    t.outcome 4 == some (.resolve (aliceToken 2), .resolved (aliceIdentity 2))

/-- `alice` logs out of one session; the other one goes on to be hers, and is not covered. -/
theorem session_authority_two_sessions :
    ∃ tr₁ tr₂ v t, (authSystem (sampleEnv .instants)).Run (.new (sampleEnv .instants)) tr₁ v ∧
      (authSystem (sampleEnv .instants)).Run v tr₂ t ∧
      Justified (sampleEnv .instants) (tr₁ ++ tr₂) 4 (aliceIdentity 2) ∧
      ¬ (Ending.session (hexId 1)).Covers t.shared.committed (hexId 2) := by
  have hexec : (((authSystem (sampleEnv .instants)).exec (.new (sampleEnv .instants))
      (twoLogins ++ firstLogout)).bind fun v =>
        ((authSystem (sampleEnv .instants)).exec v secondUse).map (revokedThenUsed v)) =
      some true := by decide +kernel
  obtain ⟨v, t, h₁, h₂, hp⟩ := System.exists_runs_of_exec hexec
  simp only [revokedThenUsed, Bool.and_eq_true, beq_iff_eq, Option.isNone_iff_eq_none] at hp
  obtain ⟨⟨⟨hminted, hout⟩, hnew⟩, hin⟩ := hp
  obtain ⟨th, hth, -, hrest⟩ := AuthPool.outcome_eq_some hout
  obtain ⟨th', hth', hrequest, hrest'⟩ := AuthPool.outcome_eq_some hin
  obtain ⟨hsound, hfinal⟩ := session_authority (roundTrip_sampleEnv .instants) h₁ h₂
    (unforgedRun_of_presentsMinted hminted)
  refine ⟨_, _, v, t, h₁, h₂, ?_, ?_⟩
  · exact (hsound 4 th' (aliceToken 2) _ _ hth' (by rw [hrequest]; rfl) hrest' rfl).2
  · exact hfinal 3 th _ _ hth hrest rfl 4 th' _ _ hth' hnew hrest' rfl

end EncryptChat
