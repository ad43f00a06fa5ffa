/-
**The rotation of refresh tokens.**

A refresh reads the session by the hash of its token, and later updates the row by its id.  Nothing
tests in between that the row still holds that hash, so two refreshes that read before either of them
writes both succeed.  A run in which every rotation still finds the hash that was read is different:
there a rotation retires the token it was asked for, and a token is retired once.

Main definitions:

* `EncryptChat.Database.HashesWF` — what has been issued is stored on its session or retired;
* `EncryptChat.rotatesWhatItRead` — the step is not a rotation of a row that has changed;
* `EncryptChat.HashesApart` — the hash function tells the tokens of a run apart.

Main results:

* `EncryptChat.Database.HashesWF.effect` — every write keeps the invariant of the hashes;
* `EncryptChat.request_of_retired` — what is retired was presented;
* `EncryptChat.refresh_token_single_use` — **a refresh token is exchanged at most once**, and what was
  handed out stays stored until it is exchanged;
* `EncryptChat.refresh_token_used_twice` — two refreshes that read before either writes.
-/

import EncryptChat.FreshCredential

set_option relaxedAutoImplicit false
set_option autoImplicit false

namespace EncryptChat

open Python Concurrent Transition AuthService
open Program (Seen Follows)

/-! ### The hashes in the database -/

/-- The hash is one of a token that has been drawn. -/
def KnownHash (sha256 : PyStr → PyStr) (usedTokens : List PyStr) (h : PyStr) : Prop :=
  ∃ token ∈ usedTokens, sha256 token = h

namespace Database

/-- What has been issued is stored on its session or has been retired, and nothing is retired
twice. -/
structure HashesWF (sha256 : PyStr → PyStr) (usedTokens : List PyStr) (d : Database) : Prop where
  row : ∀ s ∈ d.sessions, (s.id, s.refreshTokenHash) ∈ d.issued
  issued_opened : ∀ o ∈ d.issued, ∃ userId, (o.1, userId) ∈ d.opened
  issued_known : ∀ o ∈ d.issued, KnownHash sha256 usedTokens o.2
  issued_nodup : (d.issued.map Prod.snd).Nodup
  retired_issued : ∀ r ∈ d.retired, ∃ o ∈ d.issued, o.2 = r.2
  retired_nodup : (d.retired.map Prod.snd).Nodup
  live : ∀ s ∈ d.sessions, ∀ r ∈ d.retired, r.2 ≠ s.refreshTokenHash
  current : ∀ o ∈ d.issued, (∃ r ∈ d.retired, r.2 = o.2) ∨
    ∀ s ∈ d.sessions, s.id = o.1 → s.refreshTokenHash = o.2

variable {sha256 : PyStr → PyStr} {usedTokens : List PyStr} {d d' : Database}

theorem hashesWF_empty : HashesWF sha256 usedTokens empty := by
  constructor <;> simp [empty]

theorem HashesWF.mono (h : HashesWF sha256 usedTokens d) {usedTokens' : List PyStr}
    (hsub : usedTokens ⊆ usedTokens') : HashesWF sha256 usedTokens' d :=
  { h with
    issued_known := fun o ho =>
      let ⟨token, htoken, hhash⟩ := h.issued_known o ho
      ⟨token, hsub htoken, hhash⟩ }

/-- A change that issues and retires nothing, and keeps the hashes of the rows that stay. -/
theorem HashesWF.kept (h : HashesWF sha256 usedTokens d) (hissued : d'.issued = d.issued)
    (hretired : d'.retired = d.retired) (hopened : d.opened ⊆ d'.opened)
    (hrows : ∀ s' ∈ d'.sessions, ∃ s ∈ d.sessions, s.id = s'.id ∧
      s.refreshTokenHash = s'.refreshTokenHash) : HashesWF sha256 usedTokens d' where
  row := by
    intro s' hs'
    obtain ⟨s, hs, hid, hhash⟩ := hrows s' hs'
    rw [hissued, ← hid, ← hhash]
    exact h.row s hs
  issued_opened := by
    intro o ho
    rw [hissued] at ho
    obtain ⟨userId, ho⟩ := h.issued_opened o ho
    exact ⟨userId, hopened ho⟩
  issued_known := by rw [hissued]; exact h.issued_known
  issued_nodup := by rw [hissued]; exact h.issued_nodup
  retired_issued := by rw [hissued, hretired]; exact h.retired_issued
  retired_nodup := by rw [hretired]; exact h.retired_nodup
  live := by
    intro s' hs' r hr
    obtain ⟨s, hs, -, hhash⟩ := hrows s' hs'
    rw [hretired] at hr
    rw [← hhash]
    exact h.live s hs r hr
  current := by
    intro o ho
    rw [hissued] at ho
    rw [hretired]
    refine (h.current o ho).imp_right fun hstored s' hs' hid' => ?_
    obtain ⟨s, hs, hid, hhash⟩ := hrows s' hs'
    rw [← hhash]
    exact hstored s hs (hid.trans hid')

/-- A hash that is not known has neither been issued nor retired. -/
theorem HashesWF.fresh (h : HashesWF sha256 usedTokens d) {x : PyStr}
    (hfresh : ¬ KnownHash sha256 usedTokens x) :
    (∀ o ∈ d.issued, o.2 ≠ x) ∧ ∀ r ∈ d.retired, r.2 ≠ x := by
  have hissued : ∀ o ∈ d.issued, o.2 ≠ x := fun o ho heq => hfresh (heq ▸ h.issued_known o ho)
  refine ⟨hissued, fun r hr heq => ?_⟩
  obtain ⟨o, ho, hor⟩ := h.retired_issued r hr
  exact hissued o ho (hor.trans heq)

/-- One more hash, which is new. -/
theorem nodup_snd_append {α : Type} {l : List (α × PyStr)} (h : (l.map Prod.snd).Nodup)
    {x : α × PyStr} (hx : ∀ y ∈ l, y.2 ≠ x.2) : ((l ++ [x]).map Prod.snd).Nodup := by
  rw [List.map_append, List.map_singleton, List.nodup_append_comm, List.singleton_append,
    List.nodup_cons]
  refine ⟨fun hmem => ?_, h⟩
  obtain ⟨y, hy, heq⟩ := List.mem_map.1 hmem
  exact hx y hy heq

/-- The creation of a session. -/
theorem HashesWF.insertSession (h : HashesWF sha256 usedTokens d) {usedIds : List PyStr}
    (hwf : WF usedIds d) {f : User → User} {session : AuthSession} (hid : session.id ∉ usedIds)
    {token : PyStr} (hhash : session.refreshTokenHash = sha256 token)
    (hfresh : ¬ KnownHash sha256 usedTokens (sha256 token)) :
    HashesWF sha256 (token :: usedTokens)
      (({ d with users := d.users.map f } : Database).insertSession session) := by
  obtain ⟨hissued, hretired⟩ := h.fresh hfresh
  refine ⟨?_, ?_, ?_, ?_, ?_, h.retired_nodup, ?_, ?_⟩
  · intro s hs
    rcases List.mem_append.1 hs with hs | hs
    · exact List.mem_append_left _ (h.row s hs)
    · rw [List.mem_singleton] at hs
      subst hs
      exact List.mem_append_right _ (List.mem_singleton_self _)
  · intro o ho
    rcases List.mem_append.1 ho with ho | ho
    · obtain ⟨userId, ho⟩ := h.issued_opened o ho
      exact ⟨userId, List.mem_append_left _ ho⟩
    · rw [List.mem_singleton] at ho
      subst ho
      exact ⟨session.userId, List.mem_append_right _ (List.mem_singleton_self _)⟩
  · intro o ho
    rcases List.mem_append.1 ho with ho | ho
    · obtain ⟨token', htoken', heq⟩ := h.issued_known o ho
      exact ⟨token', List.mem_cons_of_mem _ htoken', heq⟩
    · rw [List.mem_singleton] at ho
      subst ho
      exact ⟨token, List.mem_cons_self, hhash.symm⟩
  · exact nodup_snd_append h.issued_nodup fun o ho heq => hissued o ho (heq.trans hhash)
  · intro r hr
    obtain ⟨o, ho, hor⟩ := h.retired_issued r hr
    exact ⟨o, List.mem_append_left _ ho, hor⟩
  · intro s hs r hr
    rcases List.mem_append.1 hs with hs | hs
    · exact h.live s hs r hr
    · rw [List.mem_singleton] at hs
      subst hs
      rw [hhash]
      exact hretired r hr
  · intro o ho
    rcases List.mem_append.1 ho with hold | hnew
    · refine (h.current o hold).imp_right fun hstored s hs hsid => ?_
      rcases List.mem_append.1 hs with hs | hs
      · exact hstored s hs hsid
      · obtain ⟨userId, hopened⟩ := h.issued_opened o hold
        rw [← hsid, List.mem_singleton.1 hs] at hopened
        exact absurd (hwf.opened_used _ hopened) hid
    · rw [List.mem_singleton] at hnew
      subst hnew
      refine .inr fun s hs hsid => ?_
      rcases List.mem_append.1 hs with hs | hs
      · have hused := hwf.opened_used _ (hwf.session s hs)
        change s.id ∈ usedIds at hused
        rw [hsid] at hused
        exact absurd hused hid
      · rw [List.mem_singleton] at hs
        rw [hs]

/-- The rotation of a session. -/
theorem HashesWF.rotate (h : HashesWF sha256 usedTokens d) {usedIds : List PyStr}
    (hwf : WF usedIds d) {row : AuthSession} (hrow : row ∈ d.sessions) (i : ℕ) (e : Datetime)
    {token : PyStr} (hfresh : ¬ KnownHash sha256 usedTokens (sha256 token)) :
    HashesWF sha256 (token :: usedTokens) { d with
      sessions := d.mapSessions (fun s => s.id == row.id) fun s =>
        { s with refreshTokenHash := sha256 token, expiresAt := e }
      issued := d.issued ++ [(row.id, sha256 token)]
      retired := d.retired ++ [(i, row.refreshTokenHash)] } := by
  obtain ⟨hissued, hretired⟩ := h.fresh hfresh
  -- a row of the new table is the rotated one, or an old one with another id
  have hrows : ∀ s ∈ d.mapSessions (fun s => s.id == row.id) fun s =>
      { s with refreshTokenHash := sha256 token, expiresAt := e },
      s.id = row.id ∧ s.refreshTokenHash = sha256 token ∨ s ∈ d.sessions ∧ s.id ≠ row.id := by
    intro s hs
    obtain ⟨s₀, hs₀, rfl⟩ := mem_mapSessions hs
    by_cases hid : s₀.id = row.id
    · simp [hid]
    · simp [hid, hs₀]
  have hother : ∀ s ∈ d.sessions, s.refreshTokenHash = row.refreshTokenHash → s.id = row.id := by
    intro s hs heq
    have hpair := List.inj_on_of_nodup_map h.issued_nodup (h.row s hs) (h.row row hrow) heq
    exact congrArg Prod.fst hpair
  refine ⟨?_, ?_, ?_, ?_, ?_, ?_, ?_, ?_⟩
  · intro s hs
    rcases hrows s hs with ⟨hid, hhash⟩ | ⟨hs, -⟩
    · rw [hid, hhash]
      exact List.mem_append_right _ (List.mem_singleton_self _)
    · exact List.mem_append_left _ (h.row s hs)
  · intro o ho
    rcases List.mem_append.1 ho with ho | ho
    · exact h.issued_opened o ho
    · rw [List.mem_singleton] at ho
      subst ho
      exact ⟨row.userId, hwf.session row hrow⟩
  · intro o ho
    rcases List.mem_append.1 ho with ho | ho
    · obtain ⟨token', htoken', heq⟩ := h.issued_known o ho
      exact ⟨token', List.mem_cons_of_mem _ htoken', heq⟩
    · rw [List.mem_singleton] at ho
      subst ho
      exact ⟨token, List.mem_cons_self, rfl⟩
  · exact nodup_snd_append h.issued_nodup hissued
  · intro r hr
    rcases List.mem_append.1 hr with hr | hr
    · obtain ⟨o, ho, hor⟩ := h.retired_issued r hr
      exact ⟨o, List.mem_append_left _ ho, hor⟩
    · rw [List.mem_singleton] at hr
      subst hr
      exact ⟨_, List.mem_append_left _ (h.row row hrow), rfl⟩
  · exact nodup_snd_append h.retired_nodup fun r hr => h.live row hrow r hr
  · intro s hs r hr
    rcases hrows s hs with ⟨-, hhash⟩ | ⟨hs, hid⟩
    · rw [hhash]
      rcases List.mem_append.1 hr with hr | hr
      · exact hretired r hr
      · rw [List.mem_singleton] at hr
        subst hr
        exact hissued _ (h.row row hrow)
    · rcases List.mem_append.1 hr with hr | hr
      · exact h.live s hs r hr
      · rw [List.mem_singleton] at hr
        subst hr
        exact fun heq => hid (hother s hs heq.symm)
  · intro o ho
    rcases List.mem_append.1 ho with ho | ho
    · rcases h.current o ho with ⟨r, hr, hro⟩ | hstored
      · exact .inl ⟨r, List.mem_append_left _ hr, hro⟩
      · by_cases hid : row.id = o.1
        · exact .inl ⟨_, List.mem_append_right _ (List.mem_singleton_self _), hstored row hrow hid⟩
        · refine .inr fun s hs hsid => ?_
          rcases hrows s hs with ⟨hs', -⟩ | ⟨hs, -⟩
          · exact absurd (hs'.symm.trans hsid) hid
          · exact hstored s hs hsid
    · rw [List.mem_singleton] at ho
      subst ho
      refine .inr fun s hs hsid => ?_
      rcases hrows s hs with ⟨-, hhash⟩ | ⟨-, hid⟩
      · exact hhash
      · exact absurd hsid hid

/-- **Every write keeps the invariant of the hashes.** -/
theorem HashesWF.effect (h : HashesWF sha256 usedTokens d) {usedIds : List PyStr}
    (hwf : WF usedIds d) {i : ℕ} {id token : PyStr} {w : Write} (hid : id ∉ usedIds)
    (hfresh : ¬ KnownHash sha256 usedTokens (sha256 token))
    (heffect : WriteEffect sha256 d i id token w d') : HashesWF sha256 (token :: usedTokens) d' := by
  have hsub : usedTokens ⊆ token :: usedTokens := List.subset_cons_self _ _
  cases heffect with
  | nameTaken => exact h.mono hsub
  | userCreated =>
      refine HashesWF.mono ?_ hsub
      exact h.kept rfl rfl (List.Subset.refl _) fun s hs => ⟨s, hs, rfl, rfl⟩
  | sessionOpened userId now expiresAt rehash _ =>
      have hsession : (⟨id, userId, sha256 token, now, expiresAt, none⟩ : AuthSession).id ∉ _ := hid
      exact h.insertSession hwf hsession rfl hfresh
  | @rotated row session expiresAt hrow hrowid =>
      rw [← hrowid]
      exact h.rotate hwf hrow i expiresAt hfresh
  | sessionRevoked | sessionsRevoked =>
      refine HashesWF.mono ?_ hsub
      refine h.kept rfl rfl (List.Subset.refl _) fun s' hs' => ?_
      obtain ⟨s, hs, rfl⟩ := mem_mapSessions hs'
      refine ⟨s, hs, ?_⟩
      split_ifs <;> exact ⟨rfl, rfl⟩
  | userDeleted =>
      refine HashesWF.mono ?_ hsub
      exact h.kept rfl rfl (List.Subset.refl _) fun s hs =>
        ⟨s, (List.mem_filter.1 hs).1, rfl, rfl⟩

end Database

/-! ### The hashes in the store -/

/-- The hash function tells the tokens of a list apart. -/
def TokensApart (sha256 : PyStr → PyStr) (tokens : List PyStr) : Prop :=
  ∀ a ∈ tokens, ∀ b ∈ tokens, sha256 a = sha256 b → a = b

/-- The invariant of the hashes, as long as the hash function tells the tokens apart that have been
drawn. -/
def AuthState.HashesWF (env : AuthEnv) (s : AuthState) : Prop :=
  TokensApart env.sha256 s.usedTokens →
    s.committed.HashesWF env.sha256 s.usedTokens ∧
      ∀ i d, s.writer = some (i, d) → d.HashesWF env.sha256 s.usedTokens

namespace AuthState

variable {env : AuthEnv} {s s' : AuthState} {i : ℕ} {op : AuthOp}

theorem HashesWF.visible (h : s.HashesWF env) (hapart : TokensApart env.sha256 s.usedTokens)
    (i : ℕ) : (s.visible i).HashesWF env.sha256 s.usedTokens := by
  by_cases hw : ∃ d, s.writer = some (i, d)
  · obtain ⟨d, hd⟩ := hw
    rw [visible_of_writer hd]
    exact (h hapart).2 i d hd
  · rw [visible_of_idle fun d hd => hw ⟨d, hd⟩]
    exact (h hapart).1

/-- **Every operation keeps the invariant of the hashes.** -/
theorem HashesWF.effect (h : s.HashesWF env) (hs : s.WF env) (heffect : AuthEffect env i s op s') :
    s'.HashesWF env := by
  cases heffect with
  | kept _ hsame =>
      intro hapart
      rw [hsame.usedTokens] at hapart ⊢
      rw [hsame.committed, hsame.writer]
      exact h hapart
  | issued => exact h
  | @wrote d d' w c hd hfresh heff =>
      intro hapart
      have hbefore : TokensApart env.sha256 s.usedTokens := fun a ha b hb =>
        hapart a (List.mem_cons_of_mem _ ha) b (List.mem_cons_of_mem _ hb)
      have hnew : ¬ KnownHash env.sha256 s.usedTokens (env.sha256 c.token) := by
        rintro ⟨token, htoken, heq⟩
        have hsame := hapart token (List.mem_cons_of_mem _ htoken) c.token List.mem_cons_self heq
        exact hfresh.2.2.2 (hsame ▸ htoken)
      obtain ⟨rfl, -⟩ := writable_eq_some hd
      refine ⟨(h hbefore).1.mono (List.subset_cons_self _ _), fun j e he => ?_⟩
      cases he
      exact (h.visible hbefore i).effect (hs.visible i).1 hfresh.2.2.1 hnew heff
  | committed =>
      unfold commit
      split
      · rename_i j d hw
        split_ifs
        · exact fun hapart => ⟨(h hapart).2 j d hw, by simp⟩
        · exact h
      · exact h
  | rolledBack =>
      unfold rollback
      split
      · split_ifs
        · exact fun hapart => ⟨(h hapart).1, by simp⟩
        · exact h
      · exact h

end AuthState

/-! ### A refresh that rotates what it read -/

/-- The row of the session still holds the hash that the session was read with. -/
def FindsWhatItRead (i : ℕ) (op : AuthOp) (s : AuthState) : Prop :=
  ∀ x e, op = .write (.rotate x e) →
    ∀ row ∈ (s.visible i).sessions, row.id = x.id → row.refreshTokenHash = x.refreshTokenHash

/-- The discipline of the runs whose rotations find what was read. -/
def rotationDiscipline (env : AuthEnv) : Discipline (authExec env) :=
  (authDiscipline env).strengthen (AuthState.HashesWF env) FindsWhatItRead
    fun _ _ _ _ _ _ hs _ h _ hexec => h.effect hs (authEffect hexec)

theorem rotationRules (env : AuthEnv) : AuthRules (rotationDiscipline env) :=
  (authRules env).strengthen _

section Outline

variable {env : AuthEnv} {i : ℕ} {s : AuthState}

/-- What a request that hands out credentials has done in the database `d`: the token it hands out
is issued, and the token it was asked to exchange is retired. -/
def Exchanged (env : AuthEnv) (i : ℕ) (request : AuthRequest) (c : IssuedCredentials)
    (d : Database) : Prop :=
  (c.sessionId, env.sha256 c.refreshToken) ∈ d.issued ∧
    ∀ token, request = .refresh token → (i, env.sha256 token) ∈ d.retired

theorem Exchanged.later {request : AuthRequest} {c : IssuedCredentials} {d d' : Database}
    (h : Exchanged env i request c d) (hlater : d.Later d') : Exchanged env i request c d' :=
  ⟨hlater.issued h.1, fun token htoken => hlater.retired (h.2 token htoken)⟩

/-- **What a request has done when it hands out credentials.** -/
theorem ensures_exchanged (hs : (rotationDiscipline env).Inv s) (request : AuthRequest) :
    (rotationDiscipline env).Ensures i (fun _ r s' => ∀ c, r.credentials = some c →
      Exchanged env i request c s'.committed) [] (authCode env request) s := by
  refine ensures_inSession_later (P := fun (r : AuthResponse) d => ∀ c, r.credentials = some c →
    Exchanged env i request c d) (rotationRules env)
    (fun _ _ _ hlater h c hc => (h c hc).later hlater) ?_ hs
  cases request with
  | register | resolve =>
      refine (Discipline.ensures_true _).bind hs fun seen _ s₁ _ _ => ?_
      refine Discipline.Ensures.pure fun s₂ _ _ c hc => ?_
      cases hc
  | logout | deleteAccount =>
      refine (Discipline.ensures_true _).bind hs fun seen _ s₁ hs₁ _ => ?_
      refine (Discipline.ensures_true _).bind hs₁ fun seen _ s₁ _ _ => ?_
      refine Discipline.Ensures.pure fun s₂ _ _ c hc => ?_
      cases hc
  | login username password =>
      refine (ensures_login (T := fun _ _ => True)
        (R := fun d _ sessionId token => (sessionId, env.sha256 token) ∈ d.issued)
        (rotationRules env) (fun _ _ _ _ => trivial) (fun _ _ _ _ _ => trivial) ?_
        (fun _ _ _ _ _ hlater h => hlater.issued h) username password).bind hs ?_
      · intro s u now e rehash c d' a _ _ _ hwrite
        obtain ⟨rfl, -, hissued⟩ := Database.createSession_eq_ok hwrite
        rw [hissued]
        exact List.mem_append_right _ (List.mem_singleton_self _)
      · rintro seen c s₁ - ⟨user, sessionId, -, hissued, hto⟩
        refine Discipline.Ensures.pure fun s₂ _ henv c' hc => ?_
        cases hc
        refine ⟨henv.visible.issued ?_, fun token htoken => by cases htoken⟩
        rw [hto.session_id]
        exact hissued
  | refresh token =>
      refine (ensures_refresh (P := fun _ x => x.refreshTokenHash = env.sha256 token)
        (T := fun _ _ => True)
        (R := fun d x a => (i, env.sha256 token) ∈ d.retired ∧ (x.id, env.sha256 a) ∈ d.issued)
        (rotationRules env) (fun _ _ _ _ hhash => hhash) (fun _ _ _ _ h => h)
        (fun _ _ _ _ => trivial) (fun _ _ _ _ _ => trivial) ?_
        (fun _ _ _ _ hlater h => ⟨hlater.retired h.1, hlater.issued h.2⟩)).bind hs ?_
      · intro s x e c d' a _ hallowed hhash _ hwrite
        -- the row rotated carries the hash the token was looked up by
        obtain ⟨rfl, row, hrow, hid, hretired, hissued⟩ := Database.rotate_eq_ok hwrite
        rw [hretired, hissued, hallowed.2 x e rfl row hrow hid, hhash]
        exact ⟨List.mem_append_right _ (List.mem_singleton_self _),
          List.mem_append_right _ (List.mem_singleton_self _)⟩
      · rintro seen c s₁ - ⟨session, user, -, -, ⟨hretired, hissued⟩, hfrom⟩
        refine Discipline.Ensures.pure fun s₂ _ henv c' hc => ?_
        cases hc
        refine ⟨henv.visible.issued ?_, fun token' htoken => ?_⟩
        · rw [hfrom.issued.session_id]
          exact hissued
        · cases htoken
          exact henv.visible.retired hretired

end Outline

/-! ### Who retires a token -/

/-- The store, uncommitted writes included, says that a request has retired a hash. -/
def AuthState.Retires (s : AuthState) (r : ℕ × PyStr) : Prop :=
  r ∈ s.committed.retired ∨ ∃ i d, s.writer = some (i, d) ∧ r ∈ d.retired

/-- What is newly retired is the hash of the row that a rotation has changed. -/
theorem AuthState.retires_of_effect {env : AuthEnv} {i : ℕ} {op : AuthOp} {s s' : AuthState}
    (heffect : AuthEffect env i s op s') {r : ℕ × PyStr} (hr : s'.Retires r) :
    s.Retires r ∨ ∃ x e row, op = .write (.rotate x e) ∧ row ∈ (s.visible i).sessions ∧
      row.id = x.id ∧ r = (i, row.refreshTokenHash) := by
  rcases records_of_effect (P := fun d => r ∈ d.retired) heffect hr with hr | ⟨id, token, w, d', rfl,
    heff, hr⟩
  · exact .inl hr
  · have hold : r ∈ (s.visible i).retired → s.Retires r :=
      records_of_visible (P := fun d => r ∈ d.retired)
    cases heff with
    | nameTaken | userCreated | sessionOpened | sessionRevoked | sessionsRevoked | userDeleted =>
        exact .inl (hold hr)
    | @rotated row session expiresAt hrow hid =>
        rcases List.mem_append.1 hr with hr | hr
        · exact .inl (hold hr)
        · rw [List.mem_singleton] at hr
          exact .inr ⟨session, expiresAt, row, rfl, hrow, hid, hr⟩

/-- A request rotates only what it has read by the hash of the token it presents. -/
theorem follows_rotate (env : AuthEnv) (request : AuthRequest) :
    Follows (fun seen op => ∀ x e, op = .write (.rotate x e) → ∃ token,
      request = .refresh token ∧
        ⟨.query (.sessionByHash (env.sha256 token)), Except.ok (some x)⟩ ∈ seen) []
      (authCode env request) := by
  refine follows_authCode ⟨?_, ?_, ?_, ?_, ?_⟩
  · rintro _ _ hop x e rfl
    exact absurd hop id
  · simp
  · rintro _ _ _ _ _ - - htracks x e rfl
    exact absurd htracks id
  · simp
  · rintro seen token x e hrequest hmem _ _ ⟨⟩
    exact ⟨token, hrequest, hmem⟩

/-! ### Every interleaving -/

section Runs

variable {env : AuthEnv} {tr : List (AuthPool × AuthLabel)} {t : AuthPool}

/-- The step is not the rotation of a row that holds another hash than the request has read. -/
def rotatesWhatItRead (p : AuthPool) : AuthLabel → Bool
  | .start _ _ => true
  | .step i _ =>
      match p.threads i with
      | some ⟨_, .step (.write (.rotate x _)) _, _⟩ =>
          (p.shared.visible i).sessions.all fun row =>
            row.id != x.id || row.refreshTokenHash == x.refreshTokenHash
      | _ => true

/-- A refresh token of the run: one that has been drawn, handed out or presented. -/
def AuthPool.RefreshToken (p : AuthPool) (a : PyStr) : Prop :=
  a ∈ p.shared.usedTokens ∨ ∃ i th, p.threads i = some th ∧
    (th.request = .refresh a ∨
      ∃ r c, th.rest = .done (.ok r) ∧ r.credentials = some c ∧ c.refreshToken = a)

/-- The hash function tells the refresh tokens of the run apart. -/
def HashesApart (env : AuthEnv) (p : AuthPool) : Prop :=
  ∀ a b, p.RefreshToken a → p.RefreshToken b → env.sha256 a = env.sha256 b → a = b

theorem findsWhatItRead_of_rotates {p : AuthPool} {i : ℕ} {c : AuthChoice}
    (h : rotatesWhatItRead p (.step i c) = true) {request : AuthRequest} {op : AuthOp}
    {next : op.Answer → AuthProgram AuthResponse} {seen : Seen AuthOp.Answer}
    (hth : p.threads i = some ⟨request, .step op next, seen⟩) :
    FindsWhatItRead i op p.shared := by
  rintro x e rfl row hrow hid
  simp only [rotatesWhatItRead, hth, List.all_eq_true, Bool.or_eq_true, bne_iff_ne, beq_iff_eq] at h
  exact (h row hrow).resolve_left (not_not.2 hid)

theorem meets_of_rotates (h : ∀ e ∈ tr, rotatesWhatItRead e.1 e.2 = true) :
    ∀ e ∈ tr, (rotationDiscipline env).Meets (fun _ _ => True) e.1 e.2 := by
  rintro ⟨p, label⟩ he
  cases label with
  | start i request => trivial
  | step i c =>
      exact fun request op next seen hth => ⟨trivial, findsWhatItRead_of_rotates (h _ he) hth⟩

/-- **What is retired was presented**: by the refresh that has retired it. -/
theorem request_of_retired (h : (authSystem env).Run (.new env) tr t)
    (hmeets : ∀ e ∈ tr, rotatesWhatItRead e.1 e.2 = true) :
    ∀ r, t.shared.Retires r → ∃ th token, t.threads r.1 = some th ∧ th.request = .refresh token ∧
      env.sha256 token = r.2 := by
  induction h with
  | nil =>
      rintro r (hr | ⟨i, d, hw, -⟩)
      · cases hr
      · cases hw
  | @snoc u w tr label hrun hstep ih =>
      intro r hr
      have hkept : u.shared.Retires r → ∃ th token, w.threads r.1 = some th ∧
          th.request = .refresh token ∧ env.sha256 token = r.2 := by
        intro hr
        obtain ⟨th, token, hth, hrequest, hhash⟩ :=
          ih (fun e he => hmeets e (List.mem_append_left _ he)) r hr
        obtain ⟨th', hth', hsame⟩ := request_of_run (System.Run.single hstep) hth
        exact ⟨th', token, hth', hsame.trans hrequest, hhash⟩
      cases label with
      | start i request =>
          obtain ⟨-, hshared, -⟩ := Pool.step_start (authExec env) (authCode env) hstep
          rw [hshared] at hr
          exact hkept hr
      | step i c =>
          obtain ⟨request, op, next, seen, s, a, hu, hexec, hshared, hupdate⟩ :=
            Pool.step_step (authExec env) (authCode env) hstep
          rw [hshared] at hr
          rcases AuthState.retires_of_effect (authEffect hexec) hr with hr | ⟨x, e, row, rfl, hrow,
            hid, rfl⟩
          · exact hkept hr
          · have hcond := hmeets (u, .step i c) (by simp)
            have hrowhash := findsWhatItRead_of_rotates hcond hu x e rfl row hrow hid
            obtain ⟨token, hrequest, hread⟩ :=
              (follows_of_run hrun hu (follows_rotate env request)).1 x e rfl
            obtain ⟨l, hl, c', hlabel, hanswer⟩ := answered_of_seen hrun hu hread
            obtain ⟨row', hrow', hhash, rfl⟩ := Database.answer_sessionByHash hanswer
            refine ⟨⟨request, next a, seen ++ [⟨_, a⟩]⟩, token, ?_, hrequest, ?_⟩
            · rw [hupdate, Function.update_self]
            · exact (hrowhash.trans hhash).symm

/-- **A refresh token is exchanged at most once**, in every run whose rotations find what was read;
and a token that was handed out is the one stored on its session, unless a refresh that presented it
has retired it. -/
theorem refresh_token_single_use (h : (authSystem env).Run (.new env) tr t)
    (hmeets : ∀ e ∈ tr, rotatesWhatItRead e.1 e.2 = true) (hapart : HashesApart env t) :
    (∀ i j th th' token r r', t.threads i = some th → t.threads j = some th' →
      th.request = .refresh token → th'.request = .refresh token →
        th.rest = .done (.ok (.refreshed r)) → th'.rest = .done (.ok (.refreshed r')) → i = j) ∧
      ∀ i th r c, t.threads i = some th → th.rest = .done (.ok r) → r.credentials = some c →
        (∃ j th', t.threads j = some th' ∧ th'.request = .refresh c.refreshToken ∧
          (j, env.sha256 c.refreshToken) ∈ t.shared.committed.retired) ∨
        ∀ s ∈ t.shared.committed.sessions, s.id = c.sessionId →
          s.refreshTokenHash = env.sha256 c.refreshToken := by
  obtain ⟨hinv, houtlines⟩ := (rotationDiscipline env).outline_of_run
    (fun _ request s hs _ => ensures_exchanged (s := s) hs request) h (meets_of_rotates hmeets)
    ⟨AuthState.wf_new env, fun _ => ⟨Database.hashesWF_empty, fun _ _ hw => by cases hw⟩⟩
  have hexchanged : ∀ i th r c, t.threads i = some th → th.rest = .done (.ok r) →
      r.credentials = some c → Exchanged env i th.request c t.shared.committed := by
    rintro i ⟨request, rest, seen⟩ r c hth rfl hc
    exact (houtlines i _ hth rfl).result hinv r rfl c hc
  have hhashes : t.shared.committed.HashesWF env.sha256 t.shared.usedTokens :=
    (hinv.2 fun a ha b hb => hapart a b (.inl ha) (.inl hb)).1
  refine ⟨?_, ?_⟩
  · intro i j th th' token r r' hth hth' hrequest hrequest' hrest hrest'
    have hi := (hexchanged i th _ r hth hrest rfl).2 token hrequest
    have hj := (hexchanged j th' _ r' hth' hrest' rfl).2 token hrequest'
    exact congrArg Prod.fst (List.inj_on_of_nodup_map hhashes.retired_nodup hi hj rfl)
  · intro i th r c hth hrest hc
    have hissued := (hexchanged i th r c hth hrest hc).1
    refine (hhashes.current _ hissued).imp_left ?_
    rintro ⟨⟨j, hash⟩, hretired, rfl⟩
    obtain ⟨th', token, hth', hrequest, hhash⟩ := request_of_retired h hmeets _ (.inl hretired)
    have heq : token = c.refreshToken := hapart token c.refreshToken
      (.inr ⟨j, th', hth', .inl hrequest⟩) (.inr ⟨i, th, hth, .inr ⟨r, c, hrest, hc, rfl⟩⟩) hhash
    exact ⟨j, th', hth', heq ▸ hrequest, hretired⟩

end Runs

/-! ### Two refreshes -/

/-- The request `i` has exchanged the token `n` for the token `i`. -/
def hasExchanged (p : AuthPool) (i n : ℕ) : Bool :=
  match p.outcome i with
  | some (.refresh token, .refreshed c) => token == urlsafeToken n && c.refreshToken == urlsafeToken i
  | _ => false

theorem exists_of_hasExchanged {p : AuthPool} {i n : ℕ} (h : hasExchanged p i n = true) :
    ∃ th c, p.threads i = some th ∧ th.request = .refresh (urlsafeToken n) ∧
      th.rest = .done (.ok (.refreshed c)) ∧ c.refreshToken = urlsafeToken i := by
  unfold hasExchanged at h
  split at h
  · rename_i token c hout
    simp only [Bool.and_eq_true, beq_iff_eq] at h
    obtain ⟨th, hth, hrequest, hrest⟩ := AuthPool.outcome_eq_some hout
    exact ⟨th, c, hth, by rw [hrequest, h.1], hrest, h.2⟩
  · cases h

/-- `alice` refreshes, and refreshes again with the token she was given. -/
def refreshTwice : List AuthLabel :=
  requestOf 2 7 0 (.refresh (urlsafeToken 1)) ++ requestOf 3 7 0 (.refresh (urlsafeToken 2))

/-- The token that the second refresh hands out is the one stored on its session. -/
theorem refresh_token_single_use_twice :
    ∃ tr t, (authSystem (sampleEnv .instants)).Run (.new (sampleEnv .instants)) tr t ∧
      ∃ th c, t.threads 3 = some th ∧ th.rest = .done (.ok (.refreshed c)) ∧
        ∀ s ∈ t.shared.committed.sessions, s.id = c.sessionId →
          s.refreshTokenHash = c.refreshToken := by
  have hexec : ((authSystem (sampleEnv .instants)).exec (.new (sampleEnv .instants))
      (oneLogin ++ refreshTwice)).map (fun t => hasExchanged t 3 2 &&
        ((authSystem (sampleEnv .instants)).traceOf (.new (sampleEnv .instants))
          (oneLogin ++ refreshTwice)).all (fun e => rotatesWhatItRead e.1 e.2) &&
        t.shared.committed.retired.all fun r => r.2 != urlsafeToken 3) = some true := by
    decide +kernel
  obtain ⟨t, -, hrun, hp⟩ := System.exists_run_of_exec hexec
  simp only [Bool.and_eq_true, List.all_eq_true, bne_iff_ne] at hp
  obtain ⟨⟨hthree, hmeets⟩, hretired⟩ := hp
  obtain ⟨th, c, hth, -, hrest, htoken⟩ := exists_of_hasExchanged hthree
  refine ⟨_, t, hrun, th, c, hth, hrest, ?_⟩
  have hstored := (refresh_token_single_use hrun hmeets fun _ _ _ _ heq => heq).2 3 th _ c hth hrest
    rfl
  refine hstored.resolve_left ?_
  rintro ⟨j, th', -, -, hmem⟩
  exact hretired _ hmem htoken

/-- Two refreshes with the token of the login: both have read the session before one of them
writes. -/
def refreshAtOnce : List AuthLabel :=
  [.start 2 (.refresh (urlsafeToken 1)), .start 3 (.refresh (urlsafeToken 1))] ++
    List.replicate 4 (.step 2 { id := hexId 2, token := urlsafeToken 2 }) ++
    List.replicate 4 (.step 3 { id := hexId 3, token := urlsafeToken 3 }) ++
    List.replicate 3 (.step 2 { id := hexId 2, token := urlsafeToken 2 }) ++
    List.replicate 3 (.step 3 { id := hexId 3, token := urlsafeToken 3 })

/-- **A refresh token is exchanged twice**, and the token that the first exchange handed out is not
stored on its session any more. -/
theorem refresh_token_used_twice :
    ∃ tr t, (authSystem (sampleEnv .instants)).Run (.new (sampleEnv .instants)) tr t ∧
      ∃ th th' c c', t.threads 2 = some th ∧ t.threads 3 = some th' ∧
        th.request = .refresh (urlsafeToken 1) ∧ th'.request = .refresh (urlsafeToken 1) ∧
          th.rest = .done (.ok (.refreshed c)) ∧ th'.rest = .done (.ok (.refreshed c')) ∧
            ∃ s ∈ t.shared.committed.sessions, s.id = hexId 1 ∧
              s.refreshTokenHash ≠ (sampleEnv .instants).sha256 c.refreshToken := by
  have hexec : ((authSystem (sampleEnv .instants)).exec (.new (sampleEnv .instants))
      (oneLogin ++ refreshAtOnce)).map (fun t => hasExchanged t 2 1 && hasExchanged t 3 1 &&
        t.shared.committed.sessions.any fun s =>
          s.id == hexId 1 && s.refreshTokenHash != urlsafeToken 2) = some true := by decide +kernel
  obtain ⟨t, -, hrun, hp⟩ := System.exists_run_of_exec hexec
  simp only [Bool.and_eq_true, List.any_eq_true, bne_iff_ne, beq_iff_eq] at hp
  obtain ⟨⟨htwo, hthree⟩, s, hs, hid, hhash⟩ := hp
  obtain ⟨th, c, hth, hrequest, hrest, htoken⟩ := exists_of_hasExchanged htwo
  obtain ⟨th', c', hth', hrequest', hrest', -⟩ := exists_of_hasExchanged hthree
  exact ⟨_, t, hrun, th, th', c, c', hth, hth', hrequest, hrequest', hrest, hrest', s, hs, hid,
    by rw [htoken]; exact hhash⟩

end EncryptChat
