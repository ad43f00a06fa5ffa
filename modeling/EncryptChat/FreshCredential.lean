/-
**A fresh access token in a new database session.**

A stored datetime is read back through the column type of the backend.  SQLite keeps the wall clock
and drops the offset, the clock of the service knows its offset, and Python refuses to order the two:
the usability test of a session that is read from the database raises `TypeError`.

Main definitions:

* `EncryptChat.LiveAt` — from the minting of a token until its expiry, in whole seconds;
* `EncryptChat.resolvedAlone` — `resolve_access_token` in a new database session.

Main results:

* `EncryptChat.ensures_opened` — credentials name a session that has been opened for their user;
* `EncryptChat.fresh_credential_raises` — **on SQLite no fresh credential works**.
-/

import EncryptChat.AuthEval
import EncryptChat.SessionAuthority

set_option relaxedAutoImplicit false
set_option autoImplicit false

namespace EncryptChat

open Python Concurrent Transition AuthService
open Program (Seen)

/-! ### Credentials and the session they name -/

/-- The credentials a request hands out. -/
def AuthResponse.credentials : AuthResponse → Option IssuedCredentials
  | .loggedIn credentials | .refreshed credentials => some credentials
  | _ => none

/-- The access token is minted for the user and the session of the credentials. -/
def IssuedCredentials.MintedAt (env : AuthEnv) (c : IssuedCredentials) (minted : ℤ) : Prop :=
  ∃ tokenId, c.accessToken =
    issueAccessToken env.jwt env.config c.userId c.sessionId tokenId (.utc minted)

theorem IssuedTo.mintedAt {env : AuthEnv} {user : User} {sessionId : PyStr}
    {c : IssuedCredentials} (h : IssuedTo env user sessionId c) : ∃ minted, c.MintedAt env minted := by
  obtain ⟨tokenId, minted, htoken⟩ := h.minted
  exact ⟨minted, tokenId, by rw [htoken, h.user_id, h.session_id]⟩

/-- **Credentials name a session that has been opened for their user**, and their access token is
minted for it. -/
theorem ensures_opened {env : AuthEnv} {i : ℕ} {s : AuthState} (hs : s.WF env)
    (request : AuthRequest) :
    (authDiscipline env).Ensures i (fun _ r s' => ∀ c, r.credentials = some c →
      (c.sessionId, c.userId) ∈ s'.committed.opened ∧ ∃ minted, c.MintedAt env minted) []
      (authCode env request) s := by
  refine ensures_inSession_later (P := fun (r : AuthResponse) d => ∀ c, r.credentials = some c →
    (c.sessionId, c.userId) ∈ d.opened ∧ ∃ minted, c.MintedAt env minted) (authRules env)
    (fun _ _ _ hlater h c hc => (h c hc).imp_left fun hopened => hlater.opened hopened) ?_ hs
  cases request with
  | register | resolve =>
      refine (Discipline.ensures_true _).bind hs fun seen _ s₁ _ _ => ?_
      refine Discipline.Ensures.pure fun s₂ _ _ c hc => ?_
      cases hc
  | logout | deleteAccount =>
      refine (Discipline.ensures_true _).bind hs fun seen _ s₁ hs₁ _ => ?_
      refine (Discipline.ensures_true _).bind hs₁ fun seen _ s₁ _ _ => ?_
      refine Discipline.Ensures.pure fun s₂ _ _ c hc => ?_
      cases hc
  | login username password =>
      refine (ensures_login (T := fun _ _ => True)
        (R := fun d u sessionId _ => (sessionId, u.id) ∈ d.opened)
        (authRules env) (fun _ _ _ _ => trivial) (fun _ _ _ _ _ => trivial) ?_
        (fun _ _ _ _ _ hlater h => hlater.opened h) username password).bind hs ?_
      · intro s u now e rehash c d' a _ _ _ hwrite
        obtain ⟨rfl, hopened, -⟩ := Database.createSession_eq_ok hwrite
        rw [hopened]
        exact List.mem_append_right _ (List.mem_singleton_self _)
      · rintro seen c s₁ - ⟨user, sessionId, -, hopened, hto⟩
        refine Discipline.Ensures.pure fun s₂ _ henv c' hc => ?_
        cases hc
        rw [hto.session_id, hto.user_id]
        exact ⟨henv.visible.opened hopened, hto.mintedAt⟩
  | refresh token =>
      refine (ensures_refresh (P := fun d x => (x.id, x.userId) ∈ d.opened)
        (T := fun _ _ => True) (R := fun _ _ _ => True)
        (authRules env) (fun s x hs hx _ => opened_of_mem (x := x) (authRules env) hs hx)
        (fun _ _ _ hlater h => hlater.opened h) (fun _ _ _ _ => trivial)
        (fun _ _ _ _ _ => trivial) (fun _ _ _ _ _ _ _ _ _ _ _ => trivial)
        (fun _ _ _ _ _ _ => trivial)).bind hs ?_
      rintro seen c s₁ - ⟨session, user, hopened, -, -, hfrom⟩
      refine Discipline.Ensures.pure fun s₂ _ henv c' hc => ?_
      cases hc
      rw [hfrom.issued.session_id, hfrom.issued.user_id, ← hfrom.owner]
      exact ⟨henv.visible.opened hopened, hfrom.issued.mintedAt⟩

/-! ### Reading a stored session -/

/-- The row of an id is found. -/
theorem Database.answer_of_mem {usedIds : List PyStr} {d : Database} (hwf : WF usedIds d)
    {row : AuthSession} (hrow : row ∈ d.sessions) (b : Backend) :
    d.answer b (.sessionById row.id) = .ok (some (b.loadSession row)) := by
  simp only [answer, filter_eq_singleton hwf.sessions_nodup hrow]
  rfl

/-- A session that has been opened and is not revoked is stored. -/
theorem Database.exists_row_of_not_revoked {d : Database} {sessionId userId : PyStr}
    (hopened : (sessionId, userId) ∈ d.opened) (h : ¬ d.Revoked sessionId) :
    ∃ row ∈ d.sessions, row.id = sessionId ∧ row.revokedAt = none := by
  by_contra hnone
  refine h ⟨⟨userId, hopened⟩, fun s hs hid => ?_⟩
  cases hrevoked : s.revokedAt with
  | some _ => rfl
  | none => exact absurd ⟨s, hs, hid, hrevoked⟩ hnone

/-- The session of a row that SQLite gives back cannot be tested. -/
theorem isUsable_sqlite {row : AuthSession} (h : row.revokedAt = none) (now : ℤ) :
    (Backend.sqlite.loadSession row).isUsable (.utc now) = .error .typeError := by
  simp [AuthSession.isUsable, Backend.loadSession, Backend.sqlite, h, Datetime.lt?,
    Datetime.dropOffset, Datetime.utc]

/-! ### A new database session -/

/-- The token minted at `minted` is live at `now`: it expires in whole seconds, and a `datetime` can
show the times it holds. -/
structure LiveAt (config : AuthConfig) (minted now : ℤ) : Prop where
  epoch : 0 ≤ minted
  minted_le : minted ≤ now
  lt_expiry : now < (minted + config.accessTokenTtl) / 1000000 * 1000000
  shown : (minted + config.accessTokenTtl) / 1000000 ≤ 253402300799

/-- The library accepts a token that was minted while it is live, and gives its claims back. -/
def AcceptsLive (env : AuthEnv) : Prop :=
  ∀ userId sessionId tokenId minted now, LiveAt env.config minted now →
    env.jwt.decode (issueAccessToken env.jwt env.config userId sessionId tokenId (.utc minted))
      env.config.signingSecret env.config.algorithm env.config.issuer env.config.audience
      (.utc now) = .ok (accessClaims env.config userId sessionId tokenId (.utc minted))

/-- A live token is decoded to the user and the session it was minted for. -/
theorem decodeAccessToken_of_live {env : AuthEnv} (haccepts : AcceptsLive env)
    {userId sessionId tokenId : PyStr} {minted now : ℤ} (hlive : LiveAt env.config minted now) :
    ∃ claims, decodeAccessToken env.jwt env.config
      (issueAccessToken env.jwt env.config userId sessionId tokenId (.utc minted)) (.utc now) =
        .ok claims ∧ claims.userId = userId ∧ claims.sessionId = sessionId := by
  have hshown : ∀ t : ℤ, minted / 1000000 ≤ t →
      t ≤ (minted + env.config.accessTokenTtl) / 1000000 →
        fromTimestamp t = .ok (.utc (t * 1000000)) := by
    intro t hle hle'
    have hepoch := hlive.epoch
    have hshown := hlive.shown
    exact fromTimestamp_of_shown (by omega) (by omega)
  have hexpiry : minted / 1000000 ≤ (minted + env.config.accessTokenTtl) / 1000000 := by
    have hle := hlive.minted_le
    have hlt := hlive.lt_expiry
    omega
  obtain ⟨issuedAt, hiat⟩ : ∃ issuedAt, claimTime (accessClaims env.config userId sessionId tokenId
      (.utc minted)) (py "iat") = .ok issuedAt :=
    ⟨_, hshown (Datetime.utc minted).timestampSeconds (by simp [Datetime.timestampSeconds])
      (by simpa [Datetime.timestampSeconds] using hexpiry)⟩
  obtain ⟨expiresAt, hexp⟩ : ∃ expiresAt, claimTime (accessClaims env.config userId sessionId tokenId
      (.utc minted)) (py "exp") = .ok expiresAt :=
    ⟨_, hshown ((Datetime.utc minted).addMicroseconds env.config.accessTokenTtl).timestampSeconds
      (by simpa [Datetime.timestampSeconds] using hexpiry) (by simp [Datetime.timestampSeconds])⟩
  unfold decodeAccessToken
  rw [haccepts userId sessionId tokenId minted now hlive]
  refine ⟨⟨userId, sessionId, tokenId, issuedAt, expiresAt⟩, ?_, rfl, rfl⟩
  exact readClaims_accessClaims hiat hexp

/-- What `resolve_access_token` returns or raises, alone in the new database session `k` at the time
`now`. -/
def resolvedAlone (env : AuthEnv) (s : AuthState) (k : ℕ) (now : ℤ) (token : PyStr) :
    Option (Except AuthFailure AuthenticatedIdentity) :=
  ((resolveObjects env token).eval (authExec env k) (List.replicate 5 { time := now }) s).map
    fun out => out.2.map Resolved.identity

/-- A live token is decoded, and then the session it names is read and tested. -/
theorem resolvedAlone_of_read {env : AuthEnv} {s : AuthState} {k : ℕ} {now : ℤ} {token : PyStr}
    {claims : AccessTokenClaims} {session : AuthSession} {e : PyError}
    (hdecoded : decodeAccessToken env.jwt env.config token (.utc now) = .ok claims)
    (hread : (s.visible k).answer env.backend (.sessionById claims.sessionId) =
      .ok (some session))
    (husable : session.isUsable (.utc now) = .error e) :
    resolvedAlone env s k now token = some (.error (.python e)) := by
  have heval : (resolveObjects env token).eval (authExec env k) (List.replicate 5 { time := now }) s =
      some (s, .error (.python e)) := by
    have hquery : s.query env k { time := now } (.sessionById claims.sessionId) =
        .ok (some session) := hread
    refine (eval_now _).trans ((eval_ofExcept hdecoded _).trans ((eval_now _).trans ?_))
    refine (eval_query hquery _).trans ((eval_ofExcept_error ?_ _))
    simp only [requireUsable, husable]
  rw [resolvedAlone, heval]
  rfl

/-- **On SQLite no fresh credential works**: whatever a login or a refresh has handed out, as long as
its session is stored and not revoked, and its access token live, resolving the token in a new
database session raises `TypeError`. -/
theorem fresh_credential_raises {env : AuthEnv} (hbackend : env.backend = .sqlite)
    (haccepts : AcceptsLive env) {tr : List (AuthPool × AuthLabel)} {t : AuthPool}
    (h : (authSystem env).Run (.new env) tr t) {i : ℕ} {th : AuthThread}
    (hth : t.threads i = some th) {r : AuthResponse} (hrest : th.rest = .done (.ok r))
    {c : IssuedCredentials} (hc : r.credentials = some c)
    (hrevoked : ¬ t.shared.committed.Revoked c.sessionId) {k : ℕ}
    (hnew : ∀ d, t.shared.writer ≠ some (k, d)) :
    ∃ minted, c.MintedAt env minted ∧ ∀ now, LiveAt env.config minted now →
      resolvedAlone env t.shared k now c.accessToken = some (.error (.python .typeError)) := by
  obtain ⟨hinv, houtlines⟩ := (authDiscipline env).outline_of_run
    (fun _ request s hs _ => ensures_opened (s := s) hs request) h (meets_of_run tr)
    (AuthState.wf_new env)
  obtain ⟨request, rest, seen⟩ := th
  subst hrest
  obtain ⟨hopened, minted, tokenId, htoken⟩ := (houtlines i _ hth rfl).result hinv r rfl c hc
  refine ⟨minted, ⟨tokenId, htoken⟩, fun now hlive => ?_⟩
  obtain ⟨row, hrow, hid, hunrevoked⟩ := Database.exists_row_of_not_revoked hopened hrevoked
  obtain ⟨claims, hclaims, -, hsession⟩ := decodeAccessToken_of_live haccepts hlive
  refine @resolvedAlone_of_read _ _ _ _ _ claims (env.backend.loadSession row) _ ?_ ?_ ?_
  · rw [htoken]
    exact hclaims
  · rw [hsession, ← hid, AuthState.visible_of_idle hnew]
    exact Database.answer_of_mem hinv.committed hrow env.backend
  · rw [hbackend]
    exact isUsable_sqlite hunrevoked now

/-! ### The credentials of a login -/

theorem acceptsLive_sampleEnv (backend : Backend) : AcceptsLive (sampleEnv backend) := by
  intro userId sessionId tokenId minted now hlive
  refine (decode_issued _ userId sessionId tokenId _ _).trans (if_neg ?_)
  have hlt := hlive.lt_expiry
  simp only [Datetime.timestampSeconds, Datetime.addMicroseconds_utc, Datetime.utc_instant]
  exact not_le.2 hlt

/-- `alice` registers and logs in. -/
def oneLogin : List AuthLabel :=
  requestOf 0 4 0 (.register (py "alice") samplePassword) ++
    requestOf 1 9 0 (.login (py "alice") samplePassword)

/-- The request `1` has logged in and its session is stored, not revoked, for an active account; no
request holds uncommitted writes. -/
def loggedInLive (p : AuthPool) : Bool :=
  match p.outcome 1 with
  | some (.login _ _, .loggedIn c) =>
      c.sessionId == hexId 1 && c.userId == hexId 0 && c.username == py "alice" &&
        c.accessToken == aliceToken 1 &&
        (p.shared.committed.sessions.any fun s => s.id == hexId 1 && s.revokedAt.isNone) &&
        (p.shared.committed.users.any fun u => u.id == hexId 0 && u.isActive) &&
        p.shared.writer.isNone
  | _ => false

theorem exists_of_loggedInLive {p : AuthPool} (h : loggedInLive p = true) :
    ∃ th c, p.threads 1 = some th ∧ th.rest = .done (.ok (.loggedIn c)) ∧
      c.sessionId = hexId 1 ∧ c.userId = hexId 0 ∧ c.username = py "alice" ∧
      c.accessToken = aliceToken 1 ∧ ¬ p.shared.committed.Revoked c.sessionId ∧
      (∃ u ∈ p.shared.committed.users, u.id = c.userId ∧ u.isActive = true) ∧
      p.shared.writer = none := by
  unfold loggedInLive at h
  split at h
  · rename_i hout
    simp only [Bool.and_eq_true, List.any_eq_true, beq_iff_eq, Option.isNone_iff_eq_none] at h
    obtain ⟨⟨⟨⟨⟨⟨hsession, huser⟩, hname⟩, htoken⟩, row, hrow, hid, hlive⟩, u, hu⟩, hwriter⟩ := h
    obtain ⟨th, hth, -, hrest⟩ := AuthPool.outcome_eq_some hout
    refine ⟨th, _, hth, hrest, hsession, huser, hname, htoken, ?_, ?_, hwriter⟩
    · rw [hsession]
      intro hrevoked
      have hsome := hrevoked.2 row hrow hid
      rw [hlive] at hsome
      cases hsome
    · rw [huser]
      exact ⟨u, hu⟩
  · cases h

/-- A token minted at the epoch is live a second later. -/
theorem liveAt_sampleEnv : LiveAt (sampleEnv .sqlite).config 0 1000000 := by
  constructor <;> decide

/-- `alice` registers, logs in, and presents her access token a second later. -/
theorem fresh_credential_raises_alice :
    ∃ tr t, (authSystem (sampleEnv .sqlite)).Run (.new (sampleEnv .sqlite)) tr t ∧
      ∃ th c, t.threads 1 = some th ∧ th.rest = .done (.ok (.loggedIn c)) ∧
        ∃ minted, c.MintedAt (sampleEnv .sqlite) minted ∧
          ∀ now, LiveAt (sampleEnv .sqlite).config minted now →
            resolvedAlone (sampleEnv .sqlite) t.shared 2 now c.accessToken =
              some (.error (.python .typeError)) := by
  have hexec : ((authSystem (sampleEnv .sqlite)).exec (.new (sampleEnv .sqlite)) oneLogin).map
      loggedInLive = some true := by decide +kernel
  obtain ⟨t, -, hrun, hp⟩ := System.exists_run_of_exec hexec
  obtain ⟨th, c, hth, hrest, -, -, -, -, hrevoked, -, hwriter⟩ := exists_of_loggedInLive hp
  exact ⟨_, t, hrun, th, c, hth, hrest, fresh_credential_raises rfl (acceptsLive_sampleEnv .sqlite)
    hrun hth hrest rfl hrevoked fun d hd => by rw [hwriter] at hd; cases hd⟩

/-- **A fresh credential that does not work**: the access token of `alice`, a second after her login,
with her session stored and her account active. -/
theorem fresh_credential_of_alice :
    ∃ tr t, (authSystem (sampleEnv .sqlite)).Run (.new (sampleEnv .sqlite)) tr t ∧
      ∃ th c, t.threads 1 = some th ∧ th.rest = .done (.ok (.loggedIn c)) ∧
        ¬ t.shared.committed.Revoked c.sessionId ∧
          (∃ u ∈ t.shared.committed.users, u.id = c.userId ∧ u.isActive = true) ∧
            LiveAt (sampleEnv .sqlite).config 0 1000000 ∧ c.MintedAt (sampleEnv .sqlite) 0 ∧
              resolvedAlone (sampleEnv .sqlite) t.shared 2 1000000 c.accessToken ≠
                some (.ok ⟨c.userId, c.username, c.sessionId⟩) := by
  have hexec : ((authSystem (sampleEnv .sqlite)).exec (.new (sampleEnv .sqlite)) oneLogin).map
      (fun t => loggedInLive t && decide (resolvedAlone (sampleEnv .sqlite) t.shared 2 1000000
        (aliceToken 1) ≠ some (.ok ⟨hexId 0, py "alice", hexId 1⟩))) = some true := by
    decide +kernel
  obtain ⟨t, -, hrun, hp⟩ := System.exists_run_of_exec hexec
  rw [Bool.and_eq_true, decide_eq_true_eq] at hp
  obtain ⟨th, c, hth, hrest, hsession, huser, hname, htoken, hrevoked, hactive, -⟩ :=
    exists_of_loggedInLive hp.1
  refine ⟨_, t, hrun, th, c, hth, hrest, hrevoked, hactive, liveAt_sampleEnv, ⟨hexId 1, ?_⟩,
    ?_⟩
  · rw [htoken, hsession, huser]
    rfl
  · rw [htoken, hsession, huser, hname]
    exact hp.2

end EncryptChat
