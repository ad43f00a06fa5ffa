/-
**Accounts and sessions in the database.**

A table is a list of rows.  A statement of the repository is a query or a write; a write changes the
columns the object-relational mapper has seen modified and no others, and its `UPDATE` of an object
that has no row any more raises.  Foreign keys are declared, but SQLite does not enforce them unless
told to, and the program does not tell it.

The ids and the refresh tokens a write stores are drawn right before it, in the same step.  What the
tables have held before is kept in history variables, which no query and no write reads.

Main definitions:

* `EncryptChat.User`, `EncryptChat.AuthSession`, `EncryptChat.AuthSession.isUsable` — the models;
* `EncryptChat.Backend` — how the columns that hold datetimes read back;
* `EncryptChat.Query`, `EncryptChat.Database.answer` — what the repository reads;
* `EncryptChat.Write`, `EncryptChat.Database.write` — what it writes.
-/

import EncryptChat.PyTime

set_option relaxedAutoImplicit false
set_option autoImplicit false

namespace EncryptChat

open Python

/-! ### Models -/

/-- Lifecycle state of an account. -/
inductive AccountStatus where
  | active
  | disabled
  deriving DecidableEq

/-- A user account. -/
structure User where
  id : PyStr
  username : PyStr
  usernameNormalized : PyStr
  passwordHash : PyStr
  status : AccountStatus := .active
  createdAt : Datetime
  updatedAt : Datetime
  deriving DecidableEq

/-- `is_active`. -/
def User.isActive (u : User) : Bool := decide (u.status = .active)

/-- A server-side authentication session. -/
structure AuthSession where
  id : PyStr
  userId : PyStr
  refreshTokenHash : PyStr
  createdAt : Datetime
  expiresAt : Datetime
  revokedAt : Option Datetime := none
  deriving DecidableEq

/-- `is_usable(now)`: not revoked, and `expires_at > now`, which raises when the two cannot be
ordered. -/
def AuthSession.isUsable (s : AuthSession) (now : Datetime) : Except PyError Bool :=
  if s.revokedAt.isSome then .ok false else now.lt? s.expiresAt

/-! ### Reading -/

/-- How a column of type `DateTime(timezone=True)` reads back what was written to it. -/
structure Backend where
  readBack : Datetime → Datetime

namespace Backend

/-- A column that keeps the instant. -/
def instants : Backend := ⟨id⟩

/-- SQLite keeps the wall clock and drops the offset. -/
def sqlite : Backend := ⟨Datetime.dropOffset⟩

/-- The object a row of `users` loads as. -/
def loadUser (b : Backend) (u : User) : User :=
  { u with createdAt := b.readBack u.createdAt, updatedAt := b.readBack u.updatedAt }

/-- The object a row of `auth_sessions` loads as. -/
def loadSession (b : Backend) (s : AuthSession) : AuthSession :=
  { s with
    createdAt := b.readBack s.createdAt
    expiresAt := b.readBack s.expiresAt
    revokedAt := s.revokedAt.map b.readBack }

@[simp] theorem loadUser_instants (u : User) : instants.loadUser u = u := rfl

@[simp] theorem loadSession_instants (s : AuthSession) : instants.loadSession s = s := by
  simp [loadSession, instants]

end Backend

/-- The two tables. -/
structure Database where
  users : List User
  sessions : List AuthSession
  /-- Every account ever created here, as its id and its username: a history variable. -/
  accounts : List (PyStr × PyStr)
  /-- Every session ever created here, as its id and the id of its user: a history variable. -/
  opened : List (PyStr × PyStr)
  /-- Every refresh-token hash ever stored here, with the id of its session: a history variable. -/
  issued : List (PyStr × PyStr)
  /-- Every refresh-token hash a rotation has replaced here, with the request that did: a history
  variable. -/
  retired : List (ℕ × PyStr)

/-- The statements that read. -/
inductive Query where
  /-- `UserRepository.get_by_id(user_id)`. -/
  | userById (userId : PyStr)
  /-- `UserRepository.get_by_normalized_username(username_normalized)`. -/
  | userByName (usernameNormalized : PyStr)
  /-- The load of `User.sessions` that follows the load of a user. -/
  | sessionsOf (userId : PyStr)
  /-- `SessionRepository.get(session_id)`. -/
  | sessionById (sessionId : PyStr)
  /-- `SessionRepository.get_by_refresh_hash(refresh_token_hash)`. -/
  | sessionByHash (refreshTokenHash : PyStr)

/-- What a query returns. -/
def Query.Answer : Query → Type
  | userById _ => Option User
  | userByName _ => Option User
  | sessionsOf _ => List PyStr
  | sessionById _ => Option AuthSession
  | sessionByHash _ => Option AuthSession

namespace Database

/-- `create_schema` on an empty file. -/
def empty : Database := ⟨[], [], [], [], [], []⟩

/-- `scalar_one_or_none()` of the rows a query selects. -/
def scalarOneOrNone {α : Type} : List α → Except PyError (Option α)
  | [] => .ok none
  | [x] => .ok (some x)
  | _ => .error .multipleResultsFound

/-- The answer to a query. -/
def answer (d : Database) (b : Backend) : (q : Query) → Except PyError q.Answer
  | .userById userId =>
      scalarOneOrNone ((d.users.filter fun u => u.id == userId).map b.loadUser)
  | .userByName name =>
      scalarOneOrNone ((d.users.filter fun u => u.usernameNormalized == name).map b.loadUser)
  | .sessionsOf userId =>
      .ok ((d.sessions.filter fun s => s.userId == userId).map AuthSession.id)
  | .sessionById sessionId =>
      scalarOneOrNone ((d.sessions.filter fun s => s.id == sessionId).map b.loadSession)
  | .sessionByHash h =>
      scalarOneOrNone ((d.sessions.filter fun s => s.refreshTokenHash == h).map b.loadSession)

end Database

/-! ### Writing -/

/-- The statements that write. -/
inductive Write where
  /-- `UserRepository.create(...)`. -/
  | createUser (username usernameNormalized passwordHash : PyStr) (now : Datetime)
  /-- `SessionRepository.create(...)`; the flush also writes the re-hashed password of the user, when
  there is one, and the time of the update. -/
  | createSession (userId : PyStr) (now expiresAt : Datetime) (rehash : Option (PyStr × Datetime))
  /-- `SessionRepository.rotate_refresh_token(auth_session, ...)`. -/
  | rotate (session : AuthSession) (expiresAt : Datetime)
  /-- The flush of `SessionRepository.revoke(auth_session, now)`. -/
  | revoke (sessionId : PyStr) (now : Datetime)
  /-- `SessionRepository.revoke_all_for_user(user_id, now)`. -/
  | revokeAll (userId : PyStr) (now : Datetime)
  /-- `UserRepository.delete(user)`: the sessions that were loaded with the user are deleted by their
  ids, then the user. -/
  | deleteUser (userId : PyStr) (sessionIds : List PyStr)

/-- What a write returns: the account, or `none` for an `IntegrityError`; the id of a new session and
its refresh token; the new refresh token; the number of rows. -/
def Write.Answer : Write → Type
  | createUser _ _ _ _ => Option User
  | createSession _ _ _ _ => PyStr × PyStr
  | rotate _ _ => PyStr
  | revoke _ _ => Unit
  | revokeAll _ _ => ℕ
  | deleteUser _ _ => Unit

namespace Database

/-- The rows of `auth_sessions`, those selected changed. -/
def mapSessions (d : Database) (p : AuthSession → Bool) (f : AuthSession → AuthSession) :
    List AuthSession :=
  d.sessions.map fun s => if p s then f s else s

/-- `INSERT INTO users`; the constraint on the normalized name is checked by the database. -/
def createUser (d : Database) (id username usernameNormalized passwordHash : PyStr)
    (now : Datetime) : Database × Option User :=
  if d.users.any fun u => u.usernameNormalized == usernameNormalized then (d, none)
  else
    let user : User :=
      { id, username, usernameNormalized, passwordHash, createdAt := now, updatedAt := now }
    ({ d with users := d.users ++ [user], accounts := d.accounts ++ [(id, username)] }, some user)

/-- `UPDATE users` of one object. -/
def rehashUser (d : Database) (userId : PyStr) : Option (PyStr × Datetime) → Except PyError Database
  | none => .ok d
  | some (passwordHash, updatedAt) =>
      if d.users.any fun u => u.id == userId then
        .ok { d with users := d.users.map fun u =>
          if u.id == userId then { u with passwordHash, updatedAt } else u }
      -- the row has been deleted since its object was loaded
      else .error .staleDataError

/-- `INSERT INTO auth_sessions`. -/
def insertSession (d : Database) (session : AuthSession) : Database :=
  { d with
    sessions := d.sessions ++ [session]
    opened := d.opened ++ [(session.id, session.userId)]
    issued := d.issued ++ [(session.id, session.refreshTokenHash)] }

/-- `UPDATE auth_sessions SET refresh_token_hash, expires_at WHERE id`, by the request `i`. -/
def rotateSession (d : Database) (i : ℕ) (sessionId refreshTokenHash : PyStr)
    (expiresAt : Datetime) : Except PyError Database :=
  match d.sessions.find? fun s => s.id == sessionId with
  | none => .error .staleDataError
  | some row =>
      .ok { d with
        sessions := d.mapSessions (fun s => s.id == sessionId) fun s =>
          { s with refreshTokenHash, expiresAt }
        issued := d.issued ++ [(sessionId, refreshTokenHash)]
        retired := d.retired ++ [(i, row.refreshTokenHash)] }

/-- `UPDATE auth_sessions SET revoked_at WHERE id`. -/
def revokeSession (d : Database) (sessionId : PyStr) (now : Datetime) : Except PyError Database :=
  if d.sessions.any fun s => s.id == sessionId then
    .ok { d with sessions := d.mapSessions (fun s => s.id == sessionId) fun s =>
      { s with revokedAt := some now } }
  else .error .staleDataError

/-- A session of the user that is not revoked. -/
def isLiveOf (userId : PyStr) (s : AuthSession) : Bool := s.userId == userId && s.revokedAt.isNone

/-- `UPDATE auth_sessions SET revoked_at WHERE user_id AND revoked_at IS NULL`. -/
def revokeSessionsOf (d : Database) (userId : PyStr) (now : Datetime) : Database × ℕ :=
  ({ d with sessions := d.mapSessions (isLiveOf userId) fun s => { s with revokedAt := some now } },
    d.sessions.countP (isLiveOf userId))

/-- `DELETE FROM auth_sessions WHERE id` for each id, then `DELETE FROM users WHERE id`. -/
def deleteUser (d : Database) (userId : PyStr) (sessionIds : List PyStr) : Database :=
  { d with
    users := d.users.filter fun u => u.id != userId
    sessions := d.sessions.filter fun s => !sessionIds.contains s.id }

/-- The result of a write of the request `i`, with the id and the refresh token drawn for it. -/
def write (sha256 : PyStr → PyStr) (d : Database) (i : ℕ) (id token : PyStr) :
    (w : Write) → Except PyError (Database × w.Answer)
  | .createUser username usernameNormalized passwordHash now =>
      .ok (d.createUser id username usernameNormalized passwordHash now)
  | .createSession userId now expiresAt rehash =>
      (d.rehashUser userId rehash).map fun d => (d.insertSession
        { id, userId, refreshTokenHash := sha256 token, createdAt := now, expiresAt }, id, token)
  | .rotate session expiresAt =>
      (d.rotateSession i session.id (sha256 token) expiresAt).map fun d => (d, token)
  | .revoke sessionId now => (d.revokeSession sessionId now).map fun d => (d, ())
  | .revokeAll userId now => .ok (d.revokeSessionsOf userId now)
  | .deleteUser userId sessionIds => .ok (d.deleteUser userId sessionIds, ())

end Database

end EncryptChat
