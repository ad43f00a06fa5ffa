/-
**Outlines of the service's operations.**

What an operation of the service has read and checked when it succeeds, and what it leaves in the
database its session sees.  What reading a row tells is a parameter: a property of the database that
every later database keeps.

Main definitions:

* `EncryptChat.ResolvedBy` — what `resolve_access_token` has read and checked when it succeeds;
* `EncryptChat.RefreshedFrom` — what `refresh` has;
* `EncryptChat.IssuedTo` — what `login` has.

Main results:

* `EncryptChat.ensures_resolveObjects`, `EncryptChat.ensures_refresh`, `EncryptChat.ensures_login` —
  **the outlines**;
* `EncryptChat.ensures_logout`, `EncryptChat.ensures_deleteAccount` — a logout leaves a revoked
  session, a deletion no account.
-/

import EncryptChat.AuthFrame

set_option relaxedAutoImplicit false
set_option autoImplicit false

namespace EncryptChat

open Python Concurrent AuthService
open Program (Seen)

variable {env : AuthEnv} {D : Discipline (authExec env)} {i : ℕ} {seen : Seen AuthOp.Answer}
  {s : AuthState} {P : Database → AuthSession → Prop} {T : Database → User → Prop}

/-! ### Accounts -/

/-- A user that is loaded. -/
theorem ensures_loadUser (hD : AuthRules D)
    (hread : ∀ s u, D.Inv s → u ∈ (s.visible i).users → T (s.visible i) (env.backend.loadUser u))
    (hlater : ∀ d d' x, d.Later d' → T d x → T d' x) (userId : PyStr) (e : AuthFailure) :
    D.Ensures i (fun seen' (x : User × List PyStr) s' => D.Env i s s' ∧ seen ⊆ seen' ∧
        x.1.id = userId ∧ T (s'.visible i) x.1 ∧
          ⟨.query (.userById userId), Except.ok (some x.1)⟩ ∈ seen') seen (loadUser userId e) s := by
  refine ensures_query fun s₁ found hs₁ henv₁ hfound => ?_
  cases found with
  | none => exact Discipline.Ensures.raise e
  | some user =>
      obtain ⟨u, hu, hid, rfl⟩ := Database.answer_userById hfound
      have hP := hread s₁ u hs₁ hu
      refine ensures_query fun s₂ ids hs₂ henv₂ _ => ?_
      refine Discipline.Ensures.pure fun s₃ _ henv₃ => ?_
      have henv := D.env_trans i _ _ _ henv₂ henv₃
      refine ⟨D.env_trans i _ _ _ henv₁ henv, ?_, hid, ?_, ?_⟩
      · exact fun x hx => List.mem_append_left _ (List.mem_append_left _ hx)
      · exact hlater _ _ _ (hD.relies i _ _ henv).visible hP
      · exact List.mem_append_left _ (List.mem_append_right _ List.mem_cons_self)

/-! ### Resolving an access token -/

/-- What `resolve_access_token` has read and checked when it succeeds. -/
structure ResolvedBy (env : AuthEnv) (token : PyStr) (seen : Seen AuthOp.Answer) (r : Resolved)
    (clock now : Datetime) (claims : AccessTokenClaims) : Prop where
  decoded : decodeAccessToken env.jwt env.config token clock = .ok claims
  session_id : r.session.id = claims.sessionId
  user_id : r.user.id = claims.userId
  usable : r.session.isUsable now = .ok true
  active : r.user.isActive = true
  owner : r.session.userId = r.user.id
  now_read : ⟨.clock, now⟩ ∈ seen
  session_read : ⟨.query (.sessionById claims.sessionId), Except.ok (some r.session)⟩ ∈ seen
  user_read : ⟨.query (.userById claims.userId), Except.ok (some r.user)⟩ ∈ seen

theorem isUsable_eq_ok {session : AuthSession} {now : Datetime}
    (h : session.isUsable now = .ok true) :
    session.revokedAt = none ∧ now.lt? session.expiresAt = .ok true := by
  unfold AuthSession.isUsable at h
  split_ifs at h with hrevoked
  · cases h
  · exact ⟨by simpa using hrevoked, h⟩

theorem requireUsable_eq_ok {session : AuthSession} {now : Datetime}
    (h : requireUsable session now = .ok ()) : session.isUsable now = .ok true := by
  unfold requireUsable at h
  split at h
  · cases h
  · assumption
  · cases h

theorem requireAccount_eq_ok {session : AuthSession} {user : User}
    (h : requireAccount session user = .ok ()) :
    user.isActive = true ∧ session.userId = user.id := by
  unfold requireAccount at h
  split_ifs at h with hactive howner
  exact ⟨by simpa using hactive, not_not.1 howner⟩

/-- **The outline of `resolve_access_token`**: `P` and `T` are what reading a session and a user
tells. -/
theorem ensures_resolveObjects (hD : AuthRules D)
    (hread : ∀ s x, D.Inv s → x ∈ (s.visible i).sessions →
      P (s.visible i) (env.backend.loadSession x))
    (hlater : ∀ d d' x, d.Later d' → P d x → P d' x)
    (hread' : ∀ s u, D.Inv s → u ∈ (s.visible i).users → T (s.visible i) (env.backend.loadUser u))
    (hlater' : ∀ d d' x, d.Later d' → T d x → T d' x) (token : PyStr) :
    D.Ensures i (fun seen' r s' => D.Env i s s' ∧ P (s'.visible i) r.session ∧
      T (s'.visible i) r.user ∧ ∃ clock now claims, ResolvedBy env token seen' r clock now claims)
      seen (resolveObjects env token) s := by
  refine ensures_now fun s₁ clock _ henv₁ => ?_
  refine Discipline.Ensures.ofExcept fun claims hclaims => ?_
  refine ensures_now fun s₂ now _ henv₂ => ?_
  refine ensures_query fun s₃ found hs₃ henv₃ hfound => ?_
  cases found with
  | none => exact Discipline.Ensures.raise _
  | some session =>
      obtain ⟨row, hrow, hid, rfl⟩ := Database.answer_sessionById hfound
      have hP := hread s₃ row hs₃ hrow
      refine Discipline.Ensures.ofExcept fun _ husable => ?_
      refine (ensures_loadUser hD hread' hlater' claims.userId _).bind hs₃ ?_
      rintro seen₄ loaded s₄ hs₄ ⟨henv₄, hsub, huser, hT, hmem⟩
      refine Discipline.Ensures.ofExcept fun _ haccount => ?_
      refine Discipline.Ensures.pure fun s₅ _ henv₅ => ?_
      obtain ⟨hactive, howner⟩ := requireAccount_eq_ok haccount
      have henv := D.env_trans i _ _ _ henv₄ henv₅
      refine ⟨?_, hlater _ _ _ (hD.relies i _ _ henv).visible hP,
        hlater' _ _ _ (hD.relies i _ _ henv₅).visible hT, .utc clock, .utc now, claims, ?_⟩
      · exact D.env_trans i _ _ _ (D.env_trans i _ _ _ (D.env_trans i _ _ _ henv₁ henv₂) henv₃) henv
      · refine ⟨hclaims, hid, huser, requireUsable_eq_ok husable, hactive, howner, hsub ?_, hsub ?_,
          hmem⟩
        · exact List.mem_append_left _ (List.mem_append_right _ List.mem_cons_self)
        · exact List.mem_append_right _ List.mem_cons_self

/-! ### Credentials -/

/-- Credentials of a user and a session: the access token is minted for these. -/
structure IssuedTo (env : AuthEnv) (user : User) (sessionId : PyStr) (c : IssuedCredentials) :
    Prop where
  user_id : c.userId = user.id
  username : c.username = user.username
  session_id : c.sessionId = sessionId
  minted : ∃ tokenId now,
    c.accessToken = issueAccessToken env.jwt env.config user.id sessionId tokenId (.utc now)

/-- What `refresh` has read and checked when it succeeds. -/
structure RefreshedFrom (env : AuthEnv) (session : AuthSession) (user : User)
    (c : IssuedCredentials) : Prop where
  usable : ∃ now, session.isUsable now = .ok true
  active : user.isActive = true
  owner : session.userId = user.id
  issued : IssuedTo env user session.id c

theorem hashRefreshToken_eq_ok {sha256 : PyStr → PyStr} {token h : PyStr}
    (hok : hashRefreshToken sha256 token = .ok h) : h = sha256 token := by
  unfold hashRefreshToken at hok
  split_ifs at hok
  cases hok
  rfl

/-- The rule for a computation that may raise what a call has raised. -/
theorem ensures_ofPython {α β : Type} {Q : Seen AuthOp.Answer → α → AuthState → Prop}
    {r : Except PyError β} {f : β → AuthProgram α}
    (h : ∀ b, r = .ok b → D.Ensures i Q seen (f b) s) :
    D.Ensures i Q seen ((AuthProgram.ofPython r).bind f) s := by
  cases r with
  | ok b => exact h b rfl
  | error e => exact Discipline.Ensures.raise _

/-- **The outline of `refresh`**: `P` and `T` are what reading a session and a user tells, `R` what
the rotation does. -/
theorem ensures_refresh {R : Database → AuthSession → PyStr → Prop} (hD : AuthRules D)
    {token : PyStr}
    (hread : ∀ s x, D.Inv s → x ∈ (s.visible i).sessions → x.refreshTokenHash = env.sha256 token →
      P (s.visible i) (env.backend.loadSession x))
    (hlater : ∀ d d' x, d.Later d' → P d x → P d' x)
    (hread' : ∀ s u, D.Inv s → u ∈ (s.visible i).users → T (s.visible i) (env.backend.loadUser u))
    (hlater' : ∀ d d' x, d.Later d' → T d x → T d' x)
    (hrotate : ∀ s x e c d' a, D.Inv s → D.Allowed i (.write (.rotate x e)) s →
      P (s.visible i) x → s.Fresh c →
      (s.visible i).write env.sha256 i c.id c.token (.rotate x e) = .ok (d', a) → R d' x a)
    (hlaterR : ∀ d d' x a, d.Later d' → R d x a → R d' x a) :
    D.Ensures i (fun _ c s' => ∃ session user, P (s'.visible i) session ∧ T (s'.visible i) user ∧
      R (s'.visible i) session c.refreshToken ∧ RefreshedFrom env session user c) seen
      (refresh env token) s := by
  refine ensures_ofPython fun h hh => ?_
  have hash := hashRefreshToken_eq_ok hh
  subst hash
  refine ensures_query fun s₁ found hs₁ _ hfound => ?_
  refine ensures_now fun s₂ now hs₂ henv₂ => ?_
  cases found with
  | none => exact Discipline.Ensures.raise _
  | some session =>
      obtain ⟨row, hrow, hhash, rfl⟩ := Database.answer_sessionByHash hfound
      have hP := hread s₁ row hs₁ hrow hhash
      refine Discipline.Ensures.ofExcept fun _ husable => ?_
      refine (ensures_loadUser hD hread' hlater' _ _).bind hs₂ ?_
      rintro seen₃ loaded s₃ hs₃ ⟨henv₃, -, huser, hT, -⟩
      cases hactive : loaded.1.isActive with
      | false =>
          rw [if_pos rfl]
          exact Discipline.Ensures.raise _
      | true =>
          rw [if_neg (by decide)]
          refine ensures_write fun s₄ c d' token' hs₄ henv₄ hallowed hfresh hwrite _ => ?_
          -- other requests have run since the session was read: what was read of it still holds
          have henv := D.env_trans i _ _ _ henv₂ (D.env_trans i _ _ _ henv₃ henv₄)
          have hP₄ := hlater _ _ _ (hD.relies i _ _ henv).visible hP
          have hR := hrotate s₄ _ _ c d' token' hs₄ hallowed hP₄ hfresh hwrite
          have hown := ((Database.writeEffect hwrite).later ((hD.wf s₄ hs₄).visible i).1
            hfresh.2.2.1).1
          refine Discipline.Ensures.perform fun s₅ _ henv₅ c' s₆ accessToken _ hexec _ => ?_
          cases hexec
          refine Discipline.Ensures.pure fun s₇ _ henv₇ => ?_
          have h₅ := (hD.relies i _ _ henv₅).visible
          rw [AuthState.visible_wrote] at h₅
          have h₇ : d'.Later (s₇.visible i) := h₅.trans (hD.relies i _ _ henv₇).visible
          have h₄ := (hD.relies i _ _ henv₄).visible
          refine ⟨_, loaded.1, hlater _ _ _ (hown.trans h₇) hP₄,
            hlater' _ _ _ (h₄.trans (hown.trans h₇)) hT, hlaterR _ _ _ _ h₇ hR,
            ⟨.utc now, requireUsable_eq_ok husable⟩, hactive, huser.symm, rfl, rfl, rfl, ?_⟩
          exact ⟨c'.id, now, rfl⟩

/-- The outline of `_open_session`: `R` is what the creation of the session does. -/
theorem ensures_openSession {R : Database → User → PyStr → PyStr → Prop} (hD : AuthRules D)
    (hlater' : ∀ d d' x, d.Later d' → T d x → T d' x)
    (hcreate : ∀ s (u : User) now e rehash c d' a, D.Inv s → T (s.visible i) u → s.Fresh c →
      (s.visible i).write env.sha256 i c.id c.token (.createSession u.id now e rehash) =
        .ok (d', a) → R d' u a.1 a.2)
    (hlaterR : ∀ d d' u a b, d.Later d' → R d u a b → R d' u a b) (user : User)
    (hT : T (s.visible i) user) (rehash : Option (PyStr × Datetime)) :
    D.Ensures i (fun _ c s' => ∃ user sessionId, T (s'.visible i) user ∧
      R (s'.visible i) user sessionId c.refreshToken ∧ IssuedTo env user sessionId c) seen
      (openSession env user rehash) s := by
  refine ensures_now fun s₁ now _ henv₁ => ?_
  refine ensures_write fun s₂ c d' drawn hs₂ henv₂ _ hfresh hwrite _ => ?_
  have henv := D.env_trans i _ _ _ henv₁ henv₂
  have hP₂ := hlater' _ _ _ (hD.relies i _ _ henv).visible hT
  have hR := hcreate s₂ _ _ _ _ c d' drawn hs₂ hP₂ hfresh hwrite
  have hown := ((Database.writeEffect hwrite).later ((hD.wf s₂ hs₂).visible i).1 hfresh.2.2.1).1
  refine Discipline.Ensures.perform fun s₃ _ henv₃ c' s₄ accessToken _ hexec _ => ?_
  cases hexec
  refine Discipline.Ensures.pure fun s₅ _ henv₅ => ?_
  have h₃ := (hD.relies i _ _ henv₃).visible
  rw [AuthState.visible_wrote] at h₃
  have h₅ : d'.Later (s₅.visible i) := h₃.trans (hD.relies i _ _ henv₅).visible
  exact ⟨user, drawn.1, hlater' _ _ _ (hown.trans h₅) hP₂, hlaterR _ _ _ _ _ h₅ hR, rfl, rfl, rfl,
    c'.id, now, rfl⟩

theorem ensures_failLogin {α : Type} {Q : Seen AuthOp.Answer → α → AuthState → Prop}
    (normalized reason : PyStr) : D.Ensures i Q seen (failLogin normalized reason) s :=
  Discipline.Ensures.perform fun _ _ _ _ _ _ _ _ _ => Discipline.Ensures.raise _

/-- The re-hash of a password writes nothing yet. -/
theorem ensures_rehashPassword (user : User) (password : PyStr) :
    D.Ensures i (fun _ _ s' => D.Env i s s') seen (rehashPassword env user password) s := by
  unfold rehashPassword
  split_ifs
  · refine Discipline.Ensures.perform fun s₁ _ henv₁ c s₂ a _ hexec _ => ?_
    cases hexec
    refine ensures_ofPython fun passwordHash _ => ?_
    refine ensures_now fun s₃ now _ henv₃ => ?_
    refine Discipline.Ensures.pure fun s₄ _ henv₄ => ?_
    exact D.env_trans i _ _ _ henv₁ (D.env_trans i _ _ _ henv₃ henv₄)
  · exact Discipline.Ensures.pure fun s₁ _ henv₁ => henv₁

/-- **The outline of `login`.** -/
theorem ensures_login {R : Database → User → PyStr → PyStr → Prop} (hD : AuthRules D)
    (hread' : ∀ s u, D.Inv s → u ∈ (s.visible i).users → T (s.visible i) (env.backend.loadUser u))
    (hlater' : ∀ d d' x, d.Later d' → T d x → T d' x)
    (hcreate : ∀ s (u : User) now e rehash c d' a, D.Inv s → T (s.visible i) u → s.Fresh c →
      (s.visible i).write env.sha256 i c.id c.token (.createSession u.id now e rehash) =
        .ok (d', a) → R d' u a.1 a.2)
    (hlaterR : ∀ d d' u a b, d.Later d' → R d u a b → R d' u a b) (username password : PyStr) :
    D.Ensures i (fun _ c s' => ∃ user sessionId, T (s'.visible i) user ∧
      R (s'.visible i) user sessionId c.refreshToken ∧ IssuedTo env user sessionId c) seen
      (login env username password) s := by
  unfold login
  split
  · rename_i normalized _
    refine ensures_perform fun s₁ s₂ blocked _ henv₁ heffect _ => ?_
    split_ifs
    · exact Discipline.Ensures.raise _
    · refine ensures_query fun s₃ found hs₃ henv₃ hfound => ?_
      cases found with
      | none =>
          exact Discipline.Ensures.perform fun _ _ _ _ _ _ _ _ _ => ensures_failLogin _ _
      | some user =>
          obtain ⟨u, hu, -, rfl⟩ := Database.scalarOneOrNone_eq_some hfound
          have hP := hread' s₃ u hs₃ hu
          refine ensures_query fun s₄ _ _ henv₄ _ => ?_
          refine ensures_verify fun s₅ verified _ henv₅ => ?_
          split_ifs
          · exact ensures_failLogin _ _
          · exact ensures_failLogin _ _
          · refine (ensures_rehashPassword _ _).bind ‹_› fun seen₆ rehash s₆ hs₆ henv₆ => ?_
            refine ensures_perform fun s₇ s₈ _ _ henv₇ heffect₇ _ => ?_
            refine ensures_openSession hD hlater' hcreate hlaterR _ ?_ rehash
            have henv := D.env_trans i _ _ _ henv₄ (D.env_trans i _ _ _ henv₅
              (D.env_trans i _ _ _ henv₆ henv₇))
            have hP₇ := hlater' _ _ _ (hD.relies i _ _ henv).visible hP
            cases heffect₇ with
            | kept _ hsame =>
                rw [hsame.visible]
                exact hP₇
  · exact Discipline.Ensures.perform fun _ _ _ _ _ _ _ _ _ => Discipline.Ensures.raise _

/-! ### Logout and deletion -/

/-- The change of one session to a revoked one. -/
theorem revoked_of_write {sha256 : PyStr → PyStr} {d d' : Database} {id token sessionId : PyStr}
    {now : Datetime} {a : Unit}
    (hopened : ∃ userId, (sessionId, userId) ∈ d.opened)
    (h : d.write sha256 i id token (.revoke sessionId now) = .ok (d', a)) : d'.Revoked sessionId := by
  cases Database.writeEffect h with
  | sessionRevoked =>
      refine ⟨hopened, fun s hs hid => ?_⟩
      obtain ⟨row, hrow, rfl⟩ := Database.mem_mapSessions hs
      by_cases hrowId : row.id = sessionId
      · simp [hrowId]
      · rw [if_neg (by simpa using hrowId)] at hid
        exact absurd hid hrowId

/-- **The outline of `logout`**: the session is revoked. -/
theorem ensures_logout (hD : AuthRules D) {held : AuthSession} (hlive : held.revokedAt = none)
    (hopened : ∃ userId, (held.id, userId) ∈ (s.visible i).opened) :
    D.Ensures i (fun _ _ s' => (s'.visible i).Revoked held.id) seen (logout held) s := by
  obtain ⟨userId, hopened⟩ := hopened
  obtain ⟨sessionId, _, _, _, _, revokedAt⟩ := held
  subst hlive
  refine ensures_query fun s₁ found hs₁ henv₁ hfound => ?_
  have h₁ := (hD.relies i _ _ henv₁).visible
  cases found with
  | none =>
      refine Discipline.Ensures.pure fun s₂ _ henv₂ => ?_
      have hrevoked : (s₁.visible i).Revoked sessionId :=
        ⟨⟨userId, h₁.opened hopened⟩, fun row hrow hid =>
          absurd hid (Database.answer_sessionById_none hfound row hrow)⟩
      exact hrevoked.later (hD.relies i _ _ henv₂).visible
  | some _ =>
      refine ensures_now fun s₂ now _ henv₂ => ?_
      refine ensures_write_last fun s₃ c d' _ _ henv₃ _ _ hwrite _ s₄ _ henv₄ => ?_
      have h₃ := h₁.trans (hD.relies i _ _ (D.env_trans i _ _ _ henv₂ henv₃)).visible
      have h₄ := (hD.relies i _ _ henv₄).visible
      rw [AuthState.visible_wrote] at h₄
      exact (revoked_of_write ⟨userId, h₃.opened hopened⟩ hwrite).later h₄

/-- **The outline of `delete_account`**: the account is gone. -/
theorem ensures_deleteAccount (hD : AuthRules D) {held : User} {sessionIds : List PyStr}
    (password : PyStr) (hcreated : ∃ username, (held.id, username) ∈ (s.visible i).accounts) :
    D.Ensures i (fun _ _ s' => (s'.visible i).Gone held.id) seen
      (deleteAccount held sessionIds password) s := by
  obtain ⟨username, hcreated⟩ := hcreated
  refine ensures_query fun s₁ found hs₁ henv₁ _ => ?_
  have h₁ := (hD.relies i _ _ henv₁).visible
  cases found with
  | none => exact Discipline.Ensures.raise _
  | some _ =>
      refine ensures_verify fun s₂ verified _ henv₂ => ?_
      cases verified with
      | false => exact Discipline.Ensures.raise _
      | true =>
          refine ensures_now fun s₃ now _ henv₃ => ?_
          refine ensures_write fun s₄ c d₄ _ hs₄ henv₄ _ hfresh hwrite _ => ?_
          have h₄ := ((Database.writeEffect hwrite).later ((hD.wf s₄ hs₄).visible i).1
            hfresh.2.2.1).1
          refine ensures_write_last fun s₅ c' d₅ _ _ henv₅ _ _ hwrite' _ s₆ _ henv₆ => ?_
          have h₃ := h₁.trans (hD.relies i _ _ (D.env_trans i _ _ _ henv₂
            (D.env_trans i _ _ _ henv₃ henv₄))).visible
          have h₅ := (hD.relies i _ _ henv₅).visible
          have h₆ := (hD.relies i _ _ henv₆).visible
          rw [AuthState.visible_wrote] at h₅ h₆
          refine Database.Gone.later ?_ h₆
          cases Database.writeEffect hwrite' with
          | userDeleted =>
              refine ⟨⟨username, (h₃.trans (h₄.trans h₅)).accounts hcreated⟩, fun u hu => ?_⟩
              simpa using (List.mem_filter.1 hu).2

end EncryptChat
