/-
**What writes leave true of the database.**

A database is *later* than another when it comes from it by writes: no history is forgotten, an id
that was used and whose row is gone stays gone, and a revoked session stays revoked.  What a request
relies on while others run is stated with this order, so that no proof about a request looks into
the writes of another one.

Main definitions:

* `EncryptChat.Database.Later` — **the order of databases**;
* `EncryptChat.Database.Revoked`, `EncryptChat.Database.Gone` — a session that is no longer live, an
  account that no longer exists: what stays true in every later database;
* `EncryptChat.Database.WF` — rows and history agree;
* `EncryptChat.Database.WriteEffect` — what a write does to the database.

Main results:

* `EncryptChat.Database.Revoked.later`, `EncryptChat.Database.Gone.later` — **revocation and deletion
  are final**;
* `EncryptChat.Database.writeEffect` — a write that does not raise is one of these;
* `EncryptChat.Database.WriteEffect.later` — **a write leads to a later database**.
-/

import EncryptChat.AuthStore
import Mathlib.Data.List.Nodup

set_option relaxedAutoImplicit false
set_option autoImplicit false

namespace EncryptChat

open Python

namespace Database

/-! ### The order -/

/-- The database `d'` comes from `d` by writes. -/
structure Later (d d' : Database) : Prop where
  accounts : d.accounts ⊆ d'.accounts
  opened : d.opened ⊆ d'.opened
  issued : d.issued ⊆ d'.issued
  retired : d.retired ⊆ d'.retired
  user : ∀ u' ∈ d'.users, (∀ a ∈ d.accounts, a.1 ≠ u'.id) ∨ ∃ u ∈ d.users, u.id = u'.id
  session : ∀ s' ∈ d'.sessions, (∀ o ∈ d.opened, o.1 ≠ s'.id) ∨
    ∃ s ∈ d.sessions, s.id = s'.id ∧ (s.revokedAt.isSome = true → s'.revokedAt.isSome = true)

namespace Later

theorem refl (d : Database) : d.Later d where
  accounts := fun _ => id
  opened := fun _ => id
  issued := fun _ => id
  retired := fun _ => id
  user := fun u hu => .inr ⟨u, hu, rfl⟩
  session := fun s hs => .inr ⟨s, hs, rfl, id⟩

theorem trans {d d' d'' : Database} (h : d.Later d') (h' : d'.Later d'') : d.Later d'' where
  accounts := List.Subset.trans h.accounts h'.accounts
  opened := List.Subset.trans h.opened h'.opened
  issued := List.Subset.trans h.issued h'.issued
  retired := List.Subset.trans h.retired h'.retired
  user := by
    intro u'' hu''
    rcases h'.user u'' hu'' with hnew | ⟨u', hu', hid'⟩
    · exact .inl fun a ha => hnew a (h.accounts ha)
    · rw [← hid']
      exact h.user u' hu'
  session := by
    intro s'' hs''
    rcases h'.session s'' hs'' with hnew | ⟨s', hs', hid', hrev'⟩
    · exact .inl fun o ho => hnew o (h.opened ho)
    · rcases h.session s' hs' with hnew | ⟨s, hs, hid, hrev⟩
      · exact .inl (hid' ▸ hnew)
      · exact .inr ⟨s, hs, hid.trans hid', fun hr => hrev' (hrev hr)⟩

end Later

/-- The session has been opened, and is not live any more. -/
def Revoked (d : Database) (sessionId : PyStr) : Prop :=
  (∃ userId, (sessionId, userId) ∈ d.opened) ∧
    ∀ s ∈ d.sessions, s.id = sessionId → s.revokedAt.isSome = true

/-- The account has been created, and does not exist any more. -/
def Gone (d : Database) (userId : PyStr) : Prop :=
  (∃ username, (userId, username) ∈ d.accounts) ∧ ∀ u ∈ d.users, u.id ≠ userId

/-- **Revocation is final.** -/
theorem Revoked.later {d d' : Database} {sessionId : PyStr} (h : d.Revoked sessionId)
    (hlater : d.Later d') : d'.Revoked sessionId := by
  obtain ⟨⟨userId, hopened⟩, hrows⟩ := h
  refine ⟨⟨userId, hlater.opened hopened⟩, fun s' hs' hid => ?_⟩
  rcases hlater.session s' hs' with hnew | ⟨s, hs, hsame, hrev⟩
  · exact absurd hid.symm (hnew _ hopened)
  · exact hrev (hrows s hs (hsame.trans hid))

/-- **Deletion is final.** -/
theorem Gone.later {d d' : Database} {userId : PyStr} (h : d.Gone userId) (hlater : d.Later d') :
    d'.Gone userId := by
  obtain ⟨⟨username, hcreated⟩, hrows⟩ := h
  refine ⟨⟨username, hlater.accounts hcreated⟩, fun u' hu' hid => ?_⟩
  rcases hlater.user u' hu' with hnew | ⟨u, hu, hsame⟩
  · exact hnew _ hcreated hid.symm
  · exact hrows u hu (hsame.trans hid)

/-! ### Rows and history -/

/-- Rows and history agree, and every id is one that has been drawn. -/
structure WF (usedIds : List PyStr) (d : Database) : Prop where
  account : ∀ u ∈ d.users, (u.id, u.username) ∈ d.accounts
  session : ∀ s ∈ d.sessions, (s.id, s.userId) ∈ d.opened
  sessions_nodup : (d.sessions.map AuthSession.id).Nodup
  accounts_nodup : (d.accounts.map Prod.fst).Nodup
  opened_nodup : (d.opened.map Prod.fst).Nodup
  accounts_used : ∀ a ∈ d.accounts, a.1 ∈ usedIds
  opened_used : ∀ o ∈ d.opened, o.1 ∈ usedIds

theorem wf_empty : WF [] empty := by
  constructor <;> simp [empty]

theorem WF.mono {usedIds usedIds' : List PyStr} {d : Database} (h : WF usedIds d)
    (hsub : usedIds ⊆ usedIds') : WF usedIds' d :=
  { h with
    accounts_used := fun a ha => hsub (h.accounts_used a ha)
    opened_used := fun o ho => hsub (h.opened_used o ho) }

/-- The rows of a table with one row changed are the old ones, or come from them by the change. -/
theorem mem_mapSessions {d : Database} {p : AuthSession → Bool} {f : AuthSession → AuthSession}
    {s' : AuthSession} (h : s' ∈ d.mapSessions p f) :
    ∃ s ∈ d.sessions, s' = if p s then f s else s := by
  obtain ⟨s, hs, rfl⟩ := List.mem_map.1 h
  exact ⟨s, hs, rfl⟩

theorem map_id_mapSessions (d : Database) (p : AuthSession → Bool)
    {f : AuthSession → AuthSession} (hf : ∀ s, (f s).id = s.id) :
    (d.mapSessions p f).map AuthSession.id = d.sessions.map AuthSession.id := by
  unfold mapSessions
  rw [List.map_map]
  refine List.map_congr_left fun s _ => ?_
  by_cases hp : p s = true
  · simp [hp, hf]
  · simp [hp]

/-- A change of sessions that keeps ids and users and unrevokes none. -/
structure SessionsKept (d d' : Database) : Prop where
  users : d'.users = d.users
  accounts : d'.accounts = d.accounts
  opened : d'.opened = d.opened
  issued : d.issued ⊆ d'.issued
  retired : d.retired ⊆ d'.retired
  ids : d'.sessions.map AuthSession.id = d.sessions.map AuthSession.id
  sessions : ∀ s' ∈ d'.sessions, ∃ s ∈ d.sessions, s.id = s'.id ∧ s.userId = s'.userId ∧
    (s.revokedAt.isSome = true → s'.revokedAt.isSome = true)

theorem SessionsKept.later {d d' : Database} (h : SessionsKept d d') : d.Later d' where
  accounts := by rw [h.accounts]; exact fun _ => id
  opened := by rw [h.opened]; exact fun _ => id
  issued := h.issued
  retired := h.retired
  user := by rw [h.users]; exact fun u hu => .inr ⟨u, hu, rfl⟩
  session := fun s' hs' =>
    let ⟨s, hs, hid, _, hrev⟩ := h.sessions s' hs'
    .inr ⟨s, hs, hid, hrev⟩

theorem SessionsKept.wf {d d' : Database} {usedIds : List PyStr} (h : SessionsKept d d')
    (hwf : WF usedIds d) : WF usedIds d' where
  account := by rw [h.users, h.accounts]; exact hwf.account
  session := by
    intro s' hs'
    obtain ⟨s, hs, hid, huser, -⟩ := h.sessions s' hs'
    rw [h.opened, ← hid, ← huser]
    exact hwf.session s hs
  sessions_nodup := by rw [h.ids]; exact hwf.sessions_nodup
  accounts_nodup := by rw [h.accounts]; exact hwf.accounts_nodup
  opened_nodup := by rw [h.opened]; exact hwf.opened_nodup
  accounts_used := by rw [h.accounts]; exact hwf.accounts_used
  opened_used := by rw [h.opened]; exact hwf.opened_used

/-! ### The queries -/

/-- The element of a key, where keys are different. -/
theorem filter_eq_singleton {α β : Type} [BEq β] [LawfulBEq β] {f : α → β} {l : List α}
    {x : α} (h : (l.map f).Nodup) (hx : x ∈ l) : (l.filter fun y => f y == f x) = [x] := by
  induction l with
  | nil => cases hx
  | cons y l ih =>
      rw [List.map_cons, List.nodup_cons] at h
      rcases List.mem_cons.1 hx with rfl | hx
      · have hrest : (l.filter fun y => f y == f x) = [] := by
          rw [List.filter_eq_nil_iff]
          intro z hz heq
          exact h.1 (eq_of_beq heq ▸ List.mem_map_of_mem hz)
        simp [hrest]
      · have hne : (f y == f x) = false := by
          rw [beq_eq_false_iff_ne]
          exact fun heq => h.1 (heq ▸ List.mem_map_of_mem hx)
        rw [List.filter_cons, hne]
        exact ih h.2 hx

/-- A query for at most one row that finds one. -/
theorem scalarOneOrNone_eq_some {α β : Type} {l : List α} {p : α → Bool} {f : α → β} {x : β}
    (h : scalarOneOrNone ((l.filter p).map f) = .ok (some x)) :
    ∃ y ∈ l, p y = true ∧ x = f y := by
  cases hl : l.filter p with
  | nil =>
      rw [hl] at h
      cases h
  | cons y ys =>
      rw [hl] at h
      cases ys with
      | nil =>
          cases h
          have hy : y ∈ l.filter p := by rw [hl]; exact List.mem_singleton_self y
          exact ⟨y, (List.mem_filter.1 hy).1, (List.mem_filter.1 hy).2, rfl⟩
      | cons z zs => cases h

/-- A query for at most one row that finds none. -/
theorem scalarOneOrNone_eq_none {α β : Type} {l : List α} {p : α → Bool} {f : α → β}
    (h : scalarOneOrNone ((l.filter p).map f) = .ok none) : ∀ y ∈ l, p y = false := by
  cases hl : l.filter p with
  | nil => simpa [List.filter_eq_nil_iff] using hl
  | cons y ys =>
      rw [hl] at h
      cases ys <;> cases h

theorem answer_sessionById {d : Database} {b : Backend} {sessionId : PyStr} {x : AuthSession}
    (h : d.answer b (.sessionById sessionId) = .ok (some x)) :
    ∃ s ∈ d.sessions, s.id = sessionId ∧ x = b.loadSession s := by
  obtain ⟨s, hs, hid, hx⟩ := scalarOneOrNone_eq_some h
  exact ⟨s, hs, eq_of_beq hid, hx⟩

theorem answer_sessionById_none {d : Database} {b : Backend} {sessionId : PyStr}
    (h : d.answer b (.sessionById sessionId) = .ok none) :
    ∀ s ∈ d.sessions, s.id ≠ sessionId :=
  fun s hs => ne_of_beq_false (scalarOneOrNone_eq_none h s hs)

theorem answer_sessionByHash {d : Database} {b : Backend} {h : PyStr} {x : AuthSession}
    (hx : d.answer b (.sessionByHash h) = .ok (some x)) :
    ∃ s ∈ d.sessions, s.refreshTokenHash = h ∧ x = b.loadSession s := by
  obtain ⟨s, hs, hid, hx⟩ := scalarOneOrNone_eq_some hx
  exact ⟨s, hs, eq_of_beq hid, hx⟩

theorem answer_userById {d : Database} {b : Backend} {userId : PyStr} {x : User}
    (h : d.answer b (.userById userId) = .ok (some x)) :
    ∃ u ∈ d.users, u.id = userId ∧ x = b.loadUser u := by
  obtain ⟨u, hu, hid, hx⟩ := scalarOneOrNone_eq_some h
  exact ⟨u, hu, eq_of_beq hid, hx⟩

theorem answer_userByName {d : Database} {b : Backend} {name : PyStr} {x : User}
    (h : d.answer b (.userByName name) = .ok (some x)) :
    ∃ u ∈ d.users, u.usernameNormalized = name ∧ x = b.loadUser u := by
  obtain ⟨u, hu, hname, hx⟩ := scalarOneOrNone_eq_some h
  exact ⟨u, hu, eq_of_beq hname, hx⟩

/-! ### The writes -/

/-- **What a write does to the database.** -/
inductive WriteEffect (sha256 : PyStr → PyStr) (d : Database) (i : ℕ) (id token : PyStr) :
    Write → Database → Prop
  | nameTaken (username normalized passwordHash : PyStr) (now : Datetime) :
      WriteEffect sha256 d i id token (.createUser username normalized passwordHash now) d
  | userCreated {user : User} (username normalized passwordHash : PyStr) (now : Datetime)
      (id_eq : user.id = id) (username_eq : user.username = username) :
      WriteEffect sha256 d i id token (.createUser username normalized passwordHash now)
        { d with
          users := d.users ++ [user]
          accounts := d.accounts ++ [(user.id, user.username)] }
  | sessionOpened {f : User → User} (userId : PyStr) (now expiresAt : Datetime)
      (rehash : Option (PyStr × Datetime))
      (kept : ∀ u, (f u).id = u.id ∧ (f u).username = u.username) :
      WriteEffect sha256 d i id token (.createSession userId now expiresAt rehash)
        (({ d with users := d.users.map f } : Database).insertSession
          { id, userId, refreshTokenHash := sha256 token, createdAt := now, expiresAt })
  | rotated {row : AuthSession} (session : AuthSession) (expiresAt : Datetime)
      (stored : row ∈ d.sessions) (id_eq : row.id = session.id) :
      WriteEffect sha256 d i id token (.rotate session expiresAt)
        { d with
          sessions := d.mapSessions (fun s => s.id == session.id) fun s =>
            { s with refreshTokenHash := sha256 token, expiresAt }
          issued := d.issued ++ [(session.id, sha256 token)]
          retired := d.retired ++ [(i, row.refreshTokenHash)] }
  | sessionRevoked (sessionId : PyStr) (now : Datetime) :
      WriteEffect sha256 d i id token (.revoke sessionId now)
        { d with sessions := d.mapSessions (fun s => s.id == sessionId) fun s =>
          { s with revokedAt := some now } }
  | sessionsRevoked (userId : PyStr) (now : Datetime) :
      WriteEffect sha256 d i id token (.revokeAll userId now)
        { d with sessions := d.mapSessions (isLiveOf userId) fun s =>
          { s with revokedAt := some now } }
  | userDeleted (userId : PyStr) (sessionIds : List PyStr) :
      WriteEffect sha256 d i id token (.deleteUser userId sessionIds)
        (d.deleteUser userId sessionIds)

/-- What an `UPDATE users` does. -/
theorem rehashUser_eq_ok {d d' : Database} {userId : PyStr} {rehash : Option (PyStr × Datetime)}
    (h : d.rehashUser userId rehash = .ok d') :
    ∃ f : User → User, (∀ u, (f u).id = u.id ∧ (f u).username = u.username) ∧
      d' = { d with users := d.users.map f } := by
  cases rehash with
  | none =>
      cases h
      exact ⟨id, fun u => ⟨rfl, rfl⟩, by simp⟩
  | some update =>
      obtain ⟨passwordHash, updatedAt⟩ := update
      simp only [rehashUser] at h
      split_ifs at h
      cases h
      refine ⟨_, fun u => ?_, rfl⟩
      split_ifs <;> exact ⟨rfl, rfl⟩

/-- **A write that does not raise** is one of these. -/
theorem writeEffect {sha256 : PyStr → PyStr} {d d' : Database} {i : ℕ} {id token : PyStr}
    {w : Write} {a : w.Answer} (h : d.write sha256 i id token w = .ok (d', a)) :
    WriteEffect sha256 d i id token w d' := by
  have hfst : (d.write sha256 i id token w).map Prod.fst = .ok d' := by
    rw [h]
    rfl
  clear h
  cases w with
  | createUser username normalized passwordHash now =>
      have heq := Except.ok.inj hfst
      subst heq
      unfold Database.createUser
      split_ifs
      · exact .nameTaken username normalized passwordHash now
      · exact .userCreated username normalized passwordHash now rfl rfl
  | createSession userId now expiresAt rehash =>
      simp only [write] at hfst
      cases hd : d.rehashUser userId rehash with
      | error e =>
          rw [hd] at hfst
          cases hfst
      | ok d₁ =>
          rw [hd] at hfst
          obtain ⟨f, hf, rfl⟩ := rehashUser_eq_ok hd
          have heq := Except.ok.inj hfst
          subst heq
          exact .sessionOpened userId now expiresAt rehash hf
  | rotate session expiresAt =>
      simp only [write, rotateSession] at hfst
      cases hrow : d.sessions.find? fun s => s.id == session.id with
      | none =>
          rw [hrow] at hfst
          cases hfst
      | some row =>
          rw [hrow] at hfst
          have heq := Except.ok.inj hfst
          subst heq
          have hid := List.find?_some hrow
          exact .rotated session expiresAt (List.mem_of_find?_eq_some hrow) (eq_of_beq hid)
  | revoke sessionId now =>
      simp only [write, revokeSession] at hfst
      split_ifs at hfst
      · have heq := Except.ok.inj hfst
        subst heq
        exact .sessionRevoked sessionId now
      · cases hfst
  | revokeAll userId now =>
      have heq := Except.ok.inj hfst
      subst heq
      exact .sessionsRevoked userId now
  | deleteUser userId sessionIds =>
      have heq := Except.ok.inj hfst
      subst heq
      exact .userDeleted userId sessionIds

/-- What a rotation does. -/
theorem rotate_eq_ok {sha256 : PyStr → PyStr} {d d' : Database} {i : ℕ}
    {id token : PyStr} {x : AuthSession} {e : Datetime} {a : PyStr}
    (h : d.write sha256 i id token (.rotate x e) = .ok (d', a)) :
    a = token ∧ ∃ row ∈ d.sessions, row.id = x.id ∧
      d'.retired = d.retired ++ [(i, row.refreshTokenHash)] ∧
        d'.issued = d.issued ++ [(x.id, sha256 token)] := by
  simp only [write, rotateSession] at h
  cases hrow : d.sessions.find? fun s => s.id == x.id with
  | none =>
      rw [hrow] at h
      cases h
  | some row =>
      rw [hrow] at h
      cases h
      have hid := List.find?_some hrow
      exact ⟨rfl, row, List.mem_of_find?_eq_some hrow, eq_of_beq hid, rfl, rfl⟩

/-- What the creation of a session does. -/
theorem createSession_eq_ok {sha256 : PyStr → PyStr} {d d' : Database} {i : ℕ}
    {id token userId : PyStr} {now e : Datetime} {rehash : Option (PyStr × Datetime)}
    {a : PyStr × PyStr}
    (h : d.write sha256 i id token (.createSession userId now e rehash) = .ok (d', a)) :
    a = (id, token) ∧ d'.opened = d.opened ++ [(id, userId)] ∧
      d'.issued = d.issued ++ [(id, sha256 token)] := by
  simp only [write] at h
  cases hd : d.rehashUser userId rehash with
  | error e =>
      rw [hd] at h
      cases h
  | ok d₁ =>
      rw [hd] at h
      obtain ⟨f, -, rfl⟩ := rehashUser_eq_ok hd
      cases h
      exact ⟨rfl, rfl, rfl⟩

/-- A rotation changes no id, no user and no revocation. -/
theorem sessionsKept_rotate (d : Database) (p : AuthSession → Bool) (h : PyStr)
    (expiresAt : Datetime) (issued : List (PyStr × PyStr)) (retired : List (ℕ × PyStr)) :
    SessionsKept d { d with
      sessions := d.mapSessions p fun s => { s with refreshTokenHash := h, expiresAt }
      issued := d.issued ++ issued
      retired := d.retired ++ retired } := by
  refine ⟨rfl, rfl, rfl, List.subset_append_left _ _, List.subset_append_left _ _,
    d.map_id_mapSessions p fun _ => rfl, ?_⟩
  intro s' hs'
  obtain ⟨s, hs, rfl⟩ := mem_mapSessions hs'
  refine ⟨s, hs, ?_⟩
  split_ifs <;> exact ⟨rfl, rfl, id⟩

/-- A change of sessions to revoked ones. -/
theorem sessionsKept_revoke (d : Database) (p : AuthSession → Bool) (now : Datetime) :
    SessionsKept d { d with sessions := d.mapSessions p fun s => { s with revokedAt := some now } } := by
  refine ⟨rfl, rfl, rfl, fun _ => id, fun _ => id, d.map_id_mapSessions p fun _ => rfl, ?_⟩
  intro s' hs'
  obtain ⟨s, hs, rfl⟩ := mem_mapSessions hs'
  refine ⟨s, hs, ?_⟩
  split_ifs
  · exact ⟨rfl, rfl, fun _ => rfl⟩
  · exact ⟨rfl, rfl, id⟩

/-- An `INSERT INTO auth_sessions` and a change of users that keeps their ids and names. -/
theorem later_insertSession (d : Database) {f : User → User} (hf : ∀ u, (f u).id = u.id)
    {usedIds : List PyStr} (hwf : WF usedIds d) {session : AuthSession}
    (hfresh : session.id ∉ usedIds) :
    d.Later (({ d with users := d.users.map f } : Database).insertSession session) where
  accounts := fun _ => id
  opened := List.subset_append_left _ _
  issued := List.subset_append_left _ _
  retired := fun _ => id
  user := by
    intro u' hu'
    obtain ⟨u, hu, rfl⟩ := List.mem_map.1 hu'
    exact .inr ⟨u, hu, (hf u).symm⟩
  session := by
    intro s' hs'
    rcases List.mem_append.1 hs' with hs | hs
    · exact .inr ⟨s', hs, rfl, id⟩
    · rw [List.mem_singleton] at hs
      subst hs
      exact .inl fun o ho heq => hfresh (heq ▸ hwf.opened_used o ho)

theorem wf_insertSession (d : Database) {f : User → User}
    (hf : ∀ u, (f u).id = u.id ∧ (f u).username = u.username) {usedIds : List PyStr}
    (hwf : WF usedIds d) (session : AuthSession) (hfresh : session.id ∉ usedIds) :
    WF (session.id :: usedIds)
      (({ d with users := d.users.map f } : Database).insertSession session) where
  account := by
    intro u' hu'
    obtain ⟨u, hu, rfl⟩ := List.mem_map.1 hu'
    rw [(hf u).1, (hf u).2]
    exact hwf.account u hu
  session := by
    intro s' hs'
    rcases List.mem_append.1 hs' with hs | hs
    · exact List.mem_append_left _ (hwf.session s' hs)
    · rw [List.mem_singleton] at hs
      subst hs
      exact List.mem_append_right _ (List.mem_singleton_self _)
  sessions_nodup := by
    change ((d.sessions ++ [session]).map AuthSession.id).Nodup
    rw [List.map_append, List.map_singleton, List.nodup_append_comm, List.singleton_append,
      List.nodup_cons]
    refine ⟨fun hmem => ?_, hwf.sessions_nodup⟩
    obtain ⟨s, hs, hid⟩ := List.mem_map.1 hmem
    exact hfresh (hid ▸ hwf.opened_used _ (hwf.session s hs))
  accounts_nodup := hwf.accounts_nodup
  opened_nodup := by
    change ((d.opened ++ [(session.id, session.userId)]).map Prod.fst).Nodup
    rw [List.map_append, List.map_singleton, List.nodup_append_comm, List.singleton_append,
      List.nodup_cons]
    refine ⟨fun hmem => ?_, hwf.opened_nodup⟩
    obtain ⟨o, ho, hid⟩ := List.mem_map.1 hmem
    change o.1 = session.id at hid
    exact hfresh (hid ▸ hwf.opened_used o ho)
  accounts_used := fun a ha => List.mem_cons_of_mem _ (hwf.accounts_used a ha)
  opened_used := by
    intro o ho
    rcases List.mem_append.1 ho with ho | ho
    · exact List.mem_cons_of_mem _ (hwf.opened_used o ho)
    · rw [List.mem_singleton] at ho
      subst ho
      exact List.mem_cons_self

theorem later_createUser (d : Database) {usedIds : List PyStr} (hwf : WF usedIds d) {user : User}
    (hfresh : user.id ∉ usedIds) :
    d.Later { d with
      users := d.users ++ [user]
      accounts := d.accounts ++ [(user.id, user.username)] } where
  accounts := List.subset_append_left _ _
  opened := fun _ => id
  issued := fun _ => id
  retired := fun _ => id
  user := by
    intro u' hu'
    rcases List.mem_append.1 hu' with hu | hu
    · exact .inr ⟨u', hu, rfl⟩
    · rw [List.mem_singleton] at hu
      subst hu
      exact .inl fun a ha heq => hfresh (heq ▸ hwf.accounts_used a ha)
  session := fun s hs => .inr ⟨s, hs, rfl, id⟩

theorem wf_createUser (d : Database) {usedIds : List PyStr} (hwf : WF usedIds d) {user : User}
    (hfresh : user.id ∉ usedIds) :
    WF (user.id :: usedIds) { d with
      users := d.users ++ [user]
      accounts := d.accounts ++ [(user.id, user.username)] } where
  account := by
    intro u' hu'
    rcases List.mem_append.1 hu' with hu | hu
    · exact List.mem_append_left _ (hwf.account u' hu)
    · rw [List.mem_singleton] at hu
      subst hu
      exact List.mem_append_right _ (List.mem_singleton_self _)
  session := hwf.session
  sessions_nodup := hwf.sessions_nodup
  accounts_nodup := by
    change ((d.accounts ++ [(user.id, user.username)]).map Prod.fst).Nodup
    rw [List.map_append, List.map_singleton, List.nodup_append_comm, List.singleton_append,
      List.nodup_cons]
    refine ⟨fun hmem => ?_, hwf.accounts_nodup⟩
    obtain ⟨a, ha, hid⟩ := List.mem_map.1 hmem
    change a.1 = user.id at hid
    exact hfresh (hid ▸ hwf.accounts_used a ha)
  opened_nodup := hwf.opened_nodup
  accounts_used := by
    intro a ha
    rcases List.mem_append.1 ha with ha | ha
    · exact List.mem_cons_of_mem _ (hwf.accounts_used a ha)
    · rw [List.mem_singleton] at ha
      subst ha
      exact List.mem_cons_self
  opened_used := fun o ho => List.mem_cons_of_mem _ (hwf.opened_used o ho)

theorem later_deleteUser (d : Database) (userId : PyStr) (sessionIds : List PyStr) :
    d.Later (d.deleteUser userId sessionIds) where
  accounts := fun _ => id
  opened := fun _ => id
  issued := fun _ => id
  retired := fun _ => id
  user := fun u hu => .inr ⟨u, (List.mem_filter.1 hu).1, rfl⟩
  session := fun s hs => .inr ⟨s, (List.mem_filter.1 hs).1, rfl, id⟩

theorem wf_deleteUser (d : Database) (userId : PyStr) (sessionIds : List PyStr)
    {usedIds : List PyStr} (hwf : WF usedIds d) : WF usedIds (d.deleteUser userId sessionIds) :=
  { hwf with
    account := fun u hu => hwf.account u (List.mem_filter.1 hu).1
    session := fun s hs => hwf.session s (List.mem_filter.1 hs).1
    sessions_nodup := hwf.sessions_nodup.sublist (List.filter_sublist.map AuthSession.id) }

/-- **A write leads to a later database, in which rows and history agree.** -/
theorem WriteEffect.later {sha256 : PyStr → PyStr} {d d' : Database} {i : ℕ} {id token : PyStr}
    {w : Write} (h : WriteEffect sha256 d i id token w d') {usedIds : List PyStr}
    (hwf : WF usedIds d) (hfresh : id ∉ usedIds) : d.Later d' ∧ WF (id :: usedIds) d' := by
  have hsub : usedIds ⊆ id :: usedIds := List.subset_cons_self id usedIds
  cases h with
  | nameTaken => exact ⟨.refl d, hwf.mono hsub⟩
  | @userCreated user _ _ _ _ hid =>
      subst hid
      exact ⟨d.later_createUser hwf hfresh, d.wf_createUser hwf hfresh⟩
  | sessionOpened userId now expiresAt rehash hf =>
      exact ⟨d.later_insertSession (fun u => (hf u).1) hwf hfresh,
        d.wf_insertSession hf hwf ⟨id, userId, sha256 token, now, expiresAt, none⟩ hfresh⟩
  | rotated session expiresAt =>
      have hkept := d.sessionsKept_rotate (fun s => s.id == session.id) (sha256 token) expiresAt
      exact ⟨(hkept _ _).later, ((hkept _ _).wf hwf).mono hsub⟩
  | sessionRevoked sessionId now =>
      have hkept := d.sessionsKept_revoke (fun s => s.id == sessionId) now
      exact ⟨hkept.later, (hkept.wf hwf).mono hsub⟩
  | sessionsRevoked userId now =>
      have hkept := d.sessionsKept_revoke (isLiveOf userId) now
      exact ⟨hkept.later, (hkept.wf hwf).mono hsub⟩
  | userDeleted userId sessionIds =>
      exact ⟨d.later_deleteUser userId sessionIds,
        (d.wf_deleteUser userId sessionIds hwf).mono hsub⟩

end Database

end EncryptChat
