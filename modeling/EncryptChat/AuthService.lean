/-
**The authentication service.**

Each operation of the service is a program over the operations of `EncryptChat.AuthOp`: the queries
and writes of its database session, the clock, the hashing library, the failed-login tracker.  A
request runs its program in a database session of its own, which commits at the end and rolls back
when an exception leaves it; any number of requests interleave.

A query sees what has been committed and, in the session that wrote it, what has not.  One session
at a time may hold uncommitted writes, as SQLite has it; the others wait or fail.  An object that a
session has loaded is not loaded again: a later query for it only finds out whether its row is still
there, which is why `logout` and `deleteAccount` take the objects the session already holds.

Main definitions:

* `EncryptChat.AuthOp`, `EncryptChat.AuthState`, `EncryptChat.authExec` — the operations;
* `EncryptChat.AuthService.register`, `login`, `resolveObjects`, `refresh`, `logout`,
  `deleteAccount` — the service;
* `EncryptChat.AuthRequest`, `EncryptChat.authCode` — the requests;
* `EncryptChat.authSystem` — **the transition system of all interleavings**.
-/

import EncryptChat.AuthStore
import EncryptChat.Passwords
import EncryptChat.ThreadPool
import EncryptChat.Tokens

set_option relaxedAutoImplicit false
set_option autoImplicit false

namespace EncryptChat

open Python Concurrent

/-! ### Operations -/

/-- The settings, the database and the libraries. -/
structure AuthEnv where
  config : AuthConfig
  backend : Backend
  unicode : Unicode
  argon2 : Argon2
  jwt : Jwt
  sha256 : PyStr → PyStr

/-- What the service does between two of its own steps. -/
inductive AuthOp where
  /-- `datetime.now(UTC)`. -/
  | clock
  | isBlocked (identifier : PyStr)
  | recordFailure (identifier : PyStr)
  /-- `reset(identifier)`. -/
  | resetFailures (identifier : PyStr)
  | hashPassword (password : PyStr)
  | verifyPassword (storedHash password : PyStr)
  | dummyVerify
  | query (q : Query)
  | write (w : Write)
  /-- `issue_access_token(user_id, session_id, now)`. -/
  | issue (userId sessionId : PyStr) (now : Datetime)
  | commit
  | rollback

/-- What an operation returns, or the exception it raises. -/
def AuthOp.Answer : AuthOp → Type
  | clock => Datetime
  | isBlocked _ => Bool
  | recordFailure _ => ℕ
  | resetFailures _ => Unit
  | hashPassword _ => Except PyError PyStr
  | verifyPassword _ _ => Except PyError Bool
  | dummyVerify => Unit
  | query q => Except PyError q.Answer
  | write w => Except PyError w.Answer
  | issue _ _ _ => PyStr
  | commit => Except PyError Unit
  | rollback => Unit

/-- A minted access token. -/
structure Minted where
  /-- The request that minted it. -/
  request : ℕ
  userId : PyStr
  sessionId : PyStr
  tokenId : PyStr
  now : Datetime
  token : PyStr

/-- The database, the memory of the service, and the history needed to draw what is fresh. -/
structure AuthState where
  committed : Database
  /-- The request that holds uncommitted writes, and the database as it sees it. -/
  writer : Option (ℕ × Database)
  failedLogins : FailedLoginTracker
  usedIds : List PyStr
  usedTokens : List PyStr
  /-- Every access token minted so far: a history variable. -/
  minted : List Minted

/-- What is left open about a step: whether the database raises, the clocks, and what is drawn at
random. -/
structure AuthChoice where
  fault : Option PyError := none
  /-- Microseconds since the epoch. -/
  time : ℤ := 0
  monotonic : ℚ := 0
  salt : ℕ := 0
  id : PyStr := []
  token : PyStr := []

namespace AuthState

/-- An empty database. -/
def new (env : AuthEnv) : AuthState := ⟨.empty, none, .new env.config, [], [], []⟩

/-- The database as the queries of a request see it. -/
def visible (s : AuthState) (i : ℕ) : Database :=
  match s.writer with
  | some (j, d) => if j = i then d else s.committed
  | none => s.committed

/-- The database a request may write to: `none` while another one holds uncommitted writes. -/
def writable (s : AuthState) (i : ℕ) : Option Database :=
  match s.writer with
  | some (j, d) => if j = i then some d else none
  | none => some s.committed

/-- `commit()`. -/
def commit (s : AuthState) (i : ℕ) : AuthState :=
  match s.writer with
  | some (j, d) => if j = i then { s with committed := d, writer := none } else s
  | none => s

/-- `rollback()`. -/
def rollback (s : AuthState) (i : ℕ) : AuthState :=
  match s.writer with
  | some (j, _) => if j = i then { s with writer := none } else s
  | none => s

/-- What is drawn for a write is fresh; a write that stores no new id or token does not use it. -/
def Fresh (s : AuthState) (c : AuthChoice) : Prop :=
  isUuidHex c.id = true ∧ isRefreshToken c.token = true ∧ c.id ∉ s.usedIds ∧ c.token ∉ s.usedTokens

instance (s : AuthState) (c : AuthChoice) : Decidable (s.Fresh c) :=
  inferInstanceAs (Decidable (_ ∧ _ ∧ _ ∧ _))

/-- A write on the database `d`. -/
def writeTo (env : AuthEnv) (s : AuthState) (i : ℕ) (c : AuthChoice) (d : Database) (w : Write) :
    AuthState × Except PyError w.Answer :=
  match d.write env.sha256 i c.id c.token w with
  | .error e => (s, .error e)
  | .ok (d', a) =>
      ({ s with
          writer := some (i, d')
          usedIds := c.id :: s.usedIds
          usedTokens := c.token :: s.usedTokens }, .ok a)

/-- A write: it waits for the lock, unless the database raises. -/
def write (env : AuthEnv) (s : AuthState) (i : ℕ) (c : AuthChoice) (w : Write) :
    Option (AuthState × Except PyError w.Answer) :=
  match c.fault, s.writable i with
  | some e, _ => some (s, .error e)
  -- another request holds the lock
  | none, none => none
  | none, some d => if s.Fresh c then some (s.writeTo env i c d w) else none

/-- A query. -/
def query (env : AuthEnv) (s : AuthState) (i : ℕ) (c : AuthChoice) (q : Query) :
    Except PyError q.Answer :=
  match c.fault with
  | some e => .error e
  | none => (s.visible i).answer env.backend q

/-- `issue_access_token`. -/
def issue (env : AuthEnv) (s : AuthState) (i : ℕ) (c : AuthChoice) (userId sessionId : PyStr)
    (now : Datetime) : AuthState × PyStr :=
  let token := issueAccessToken env.jwt env.config userId sessionId c.id now
  ({ s with minted := s.minted ++ [⟨i, userId, sessionId, c.id, now, token⟩] }, token)

end AuthState

/-- One operation of the request `i`; `none` where it has to wait. -/
def authExec (env : AuthEnv) (i : ℕ) :
    (op : AuthOp) → AuthChoice → AuthState → Option (AuthState × op.Answer)
  | .clock, c, s => some (s, .utc c.time)
  | .isBlocked identifier, c, s =>
      let out := s.failedLogins.isBlocked identifier c.monotonic
      some ({ s with failedLogins := out.1 }, out.2)
  | .recordFailure identifier, c, s =>
      let out := s.failedLogins.recordFailure identifier c.monotonic
      some ({ s with failedLogins := out.1 }, out.2)
  | .resetFailures identifier, _, s =>
      some ({ s with failedLogins := s.failedLogins.reset identifier }, ())
  | .hashPassword password, c, s =>
      some (s, EncryptChat.hashPassword env.unicode env.argon2 env.config c.salt password)
  | .verifyPassword storedHash password, _, s =>
      some (s, EncryptChat.verifyPassword env.unicode env.argon2 storedHash password)
  | .dummyVerify, _, s => some (s, ())
  | .query q, c, s => some (s, s.query env i c q)
  | .write w, c, s => s.write env i c w
  | .issue userId sessionId now, c, s => some (s.issue env i c userId sessionId now)
  | .commit, c, s =>
      match c.fault with
      | some e => some (s, .error e)
      | none => some (s.commit i, .ok ())
  | .rollback, _, s => some (s.rollback i, ())

/-! ### Programs -/

/-- A program of the service. -/
abbrev AuthProgram (α : Type) : Type := Program AuthOp.Answer AuthFailure α

namespace AuthProgram

/-- Raise what a call has raised. -/
def ofPython {α : Type} : Except PyError α → AuthProgram α
  | .ok a => pure a
  | .error e => Program.raise (.python e)

/-- Perform an operation. -/
def perform (op : AuthOp) : AuthProgram op.Answer := Program.perform op

/-- Perform a query. -/
def query (q : Query) : AuthProgram q.Answer := Program.bind (perform (.query q)) ofPython

/-- Perform a write. -/
def write (w : Write) : AuthProgram w.Answer := Program.bind (perform (.write w)) ofPython

/-- `datetime.now(UTC)`. -/
def now : AuthProgram Datetime := perform .clock

/-- `hash(password)`. -/
def hash (password : PyStr) : AuthProgram PyStr :=
  Program.bind (perform (.hashPassword password)) ofPython

/-- `verify(stored_hash, password)`. -/
def verify (storedHash password : PyStr) : AuthProgram Bool :=
  Program.bind (perform (.verifyPassword storedHash password)) ofPython

/-- `rollback()`, then raise. -/
def rollbackAndRaise {α : Type} (e : AuthFailure) : AuthProgram α :=
  Program.bind (perform .rollback) fun _ => Program.raise e

/-- `commit()`, then return. -/
def commitAndReturn {α : Type} (a : α) : AuthProgram α :=
  Program.bind (perform .commit) fun
    | .ok () => pure a
    | .error e => rollbackAndRaise (.python e)

/-- `get_db`: the database session of one request.  Its commit is taken to come before the answer,
so that one that raises is answered as a failure. -/
def inSession {α : Type} (p : AuthProgram α) : AuthProgram α :=
  p.handle fun
    | .ok a => commitAndReturn a
    | .error e => rollbackAndRaise e

end AuthProgram

open AuthProgram
open Program (raise ofExcept)

/-! ### The service -/

/-- Credentials returned after a successful login or refresh. -/
structure IssuedCredentials where
  accessToken : PyStr
  refreshToken : PyStr
  expiresInSeconds : ℕ
  userId : PyStr
  username : PyStr
  createdAt : Datetime
  sessionId : PyStr
  deriving DecidableEq

/-- The failure of a session that is not usable. -/
def sessionRevoked (reason : PyStr) : AuthFailure := .auth ⟨.sessionRevoked, 401, some reason⟩

/-- The failure of a login. -/
def invalidCredentials (reason : PyStr) : AuthFailure :=
  .auth ⟨.invalidCredentials, 401, some reason⟩

namespace AuthService

/-- The name of an account to be registered. -/
def registrationUsername (env : AuthEnv) (username : PyStr) : Except AuthFailure PyStr :=
  match validateUsername env.unicode username with
  | .ok normalized => .ok normalized
  | .error reason =>
      .error (.auth ⟨.validationFailed, 400, some (py "invalid username: " ++ reason)⟩)

/-- The policy on the password of an account to be registered. -/
def registrationPolicy (env : AuthEnv) (password : PyStr) : Except AuthFailure Unit :=
  match validatePolicy env.config password with
  | .ok () => .ok ()
  | .error (.policy reason) =>
      .error (.auth ⟨.validationFailed, 400, some (py "invalid password: " ++ reason)⟩)
  | .error (.python e) => .error (.python e)

/-- `register(username, password)`. -/
def register (env : AuthEnv) (username password : PyStr) : AuthProgram User := do
  let normalized ← ofExcept (registrationUsername env username)
  ofExcept (registrationPolicy env password)
  let passwordHash ← hash password
  let now ← now
  let created : Option User ←
    AuthProgram.write (.createUser (strip username) normalized passwordHash now)
  match created with
  | some user => pure user
  | none =>
      rollbackAndRaise
        (.auth ⟨.registrationRejected, 409, some (py "identifier already registered")⟩)

/-- `_open_session(user)`, with the password hash still to be flushed. -/
def openSession (env : AuthEnv) (user : User) (rehash : Option (PyStr × Datetime)) :
    AuthProgram IssuedCredentials := do
  let now ← now
  let drawn : PyStr × PyStr ←
    AuthProgram.write (.createSession user.id now (refreshExpiry env.config now) rehash)
  let accessToken : PyStr ← AuthProgram.perform (.issue user.id drawn.1 now)
  pure
    { accessToken
      refreshToken := drawn.2
      expiresInSeconds := env.config.accessTokenTtlMinutes * 60
      userId := user.id
      username := user.username
      createdAt := user.createdAt
      sessionId := drawn.1 }

/-- The upgrade of a password hash made with other parameters. -/
def rehashPassword (env : AuthEnv) (user : User) (password : PyStr) :
    AuthProgram (Option (PyStr × Datetime)) :=
  if needsRehash env.argon2 env.config user.passwordHash then do
    let passwordHash ← hash password
    let now ← now
    pure (some (passwordHash, now))
  else pure none

/-- A login that fails: the failure is recorded. -/
def failLogin {α : Type} (normalized reason : PyStr) : AuthProgram α := do
  let _ ← AuthProgram.perform (.recordFailure normalized)
  raise (invalidCredentials reason)

/-- `login` of an account that exists. -/
def loginUser (env : AuthEnv) (normalized : PyStr) (user : User) (password : PyStr) :
    AuthProgram IssuedCredentials := do
  let verified ← verify user.passwordHash password
  if verified = false then failLogin normalized (py "password mismatch")
  else if user.isActive = false then failLogin normalized (py "account disabled")
  else do
    let rehash ← rehashPassword env user password
    let _ ← AuthProgram.perform (.resetFailures normalized)
    openSession env user rehash

/-- `login` of a well-formed name. -/
def loginNormalized (env : AuthEnv) (normalized password : PyStr) :
    AuthProgram IssuedCredentials := do
  let blocked : Bool ← AuthProgram.perform (.isBlocked normalized)
  if blocked = true then
    raise (.auth ⟨.rateLimited, 429, some (py "per-account failure threshold reached")⟩)
  else do
    let found : Option User ← AuthProgram.query (.userByName normalized)
    match found with
    | none => do
        -- an unknown account costs a hash, too
        let _ ← AuthProgram.perform .dummyVerify
        failLogin normalized (py "unknown account")
    | some user => do
        let _ ← AuthProgram.query (.sessionsOf user.id)
        loginUser env normalized user password

/-- `login(username, password)`. -/
def login (env : AuthEnv) (username password : PyStr) : AuthProgram IssuedCredentials :=
  match validateUsername env.unicode username with
  | .ok normalized => loginNormalized env normalized password
  -- no failure is recorded: the name is not one an account can have
  | .error _ => do
      let _ ← AuthProgram.perform .dummyVerify
      raise (invalidCredentials (py "malformed identifier"))

/-- The test of a session that was found. -/
def requireUsable (session : AuthSession) (now : Datetime) : Except AuthFailure Unit :=
  match session.isUsable now with
  | .error e => .error (.python e)
  | .ok true => .ok ()
  | .ok false =>
      .error (sessionRevoked
        (if session.revokedAt.isSome then py "session revoked" else py "session expired"))

/-- A user by its id with the sessions that are loaded with it; without one, the failure `e`. -/
def loadUser (userId : PyStr) (e : AuthFailure) : AuthProgram (User × List PyStr) := do
  let found : Option User ← AuthProgram.query (.userById userId)
  match found with
  | none => raise e
  | some user => do
      let sessionIds : List PyStr ← AuthProgram.query (.sessionsOf user.id)
      pure (user, sessionIds)

/-- The tests of the account of a session. -/
def requireAccount (session : AuthSession) (user : User) : Except AuthFailure Unit :=
  if user.isActive = false then
    .error (.auth ⟨.accountUnavailable, 403, some (py "account disabled")⟩)
  else if session.userId ≠ user.id then .error (tokenInvalid (py "session/user mismatch"))
  else .ok ()

/-- The objects a database session holds after `resolve_access_token`: the session of the token, its
user, and the ids of the sessions loaded with the user. -/
structure Resolved where
  session : AuthSession
  user : User
  sessionIds : List PyStr

/-- The identity `resolve_access_token` returns. -/
def Resolved.identity (r : Resolved) : AuthenticatedIdentity :=
  ⟨r.user.id, r.user.username, r.session.id⟩

/-- `resolve_access_token` once the session has been found. -/
def resolveSession (claims : AccessTokenClaims) (now : Datetime) (session : AuthSession) :
    AuthProgram Resolved := do
  ofExcept (requireUsable session now)
  let loaded ← loadUser claims.userId (sessionRevoked (py "account no longer exists"))
  ofExcept (requireAccount session loaded.1)
  pure ⟨session, loaded.1, loaded.2⟩

/-- `resolve_access_token(token)`, with the objects it leaves in the database session. -/
def resolveObjects (env : AuthEnv) (token : PyStr) : AuthProgram Resolved := do
  let clock ← now
  let claims ← ofExcept (decodeAccessToken env.jwt env.config token clock)
  let now ← now
  let found : Option AuthSession ← AuthProgram.query (.sessionById claims.sessionId)
  match found with
  | none => raise (sessionRevoked (py "session no longer exists"))
  | some session => resolveSession claims now session

/-- `refresh` of a usable session. -/
def refreshSession (env : AuthEnv) (session : AuthSession) (now : Datetime) :
    AuthProgram IssuedCredentials := do
  let loaded ← loadUser session.userId (sessionRevoked (py "account unavailable"))
  if loaded.1.isActive = false then raise (sessionRevoked (py "account unavailable"))
  else do
    let refreshToken : PyStr ← AuthProgram.write (.rotate session (refreshExpiry env.config now))
    let accessToken : PyStr ← AuthProgram.perform (.issue loaded.1.id session.id now)
    pure
      { accessToken
        refreshToken
        expiresInSeconds := env.config.accessTokenTtlMinutes * 60
        userId := loaded.1.id
        username := loaded.1.username
        createdAt := loaded.1.createdAt
        sessionId := session.id }

/-- `refresh(refresh_token)`. -/
def refresh (env : AuthEnv) (refreshToken : PyStr) : AuthProgram IssuedCredentials := do
  let tokenHash ← ofPython (hashRefreshToken env.sha256 refreshToken)
  let found : Option AuthSession ← AuthProgram.query (.sessionByHash tokenHash)
  let now ← now
  match found with
  | none => raise (sessionRevoked (py "refresh token not recognized"))
  | some session => do
      ofExcept (requireUsable session now)
      refreshSession env session now

/-- `logout(session_id)` in a database session that holds the session's object. -/
def logout (held : AuthSession) : AuthProgram Unit := do
  let found : Option AuthSession ← AuthProgram.query (.sessionById held.id)
  match found with
  | none => pure ()
  | some _ => do
      let now ← now
      -- the time of the first revocation stays
      if held.revokedAt.isNone then AuthProgram.write (.revoke held.id now) else pure ()

/-- `delete_account(identity, password)` in a database session that holds the user's object and the
sessions loaded with it. -/
def deleteAccount (held : User) (sessionIds : List PyStr) (password : PyStr) :
    AuthProgram Unit := do
  let found : Option User ← AuthProgram.query (.userById held.id)
  match found with
  | none => raise (sessionRevoked (py "account no longer exists"))
  | some _ => do
      let verified ← verify held.passwordHash password
      if verified = false then raise (invalidCredentials (py "re-authentication failed"))
      else do
        let now ← now
        let _ ← AuthProgram.write (.revokeAll held.id now)
        -- not the sessions opened since: only those the user was loaded with
        AuthProgram.write (.deleteUser held.id sessionIds)

end AuthService

/-! ### Requests -/

/-- The requests; those of a signed-in client present its access token. -/
inductive AuthRequest where
  | register (username password : PyStr)
  | login (username password : PyStr)
  | resolve (accessToken : PyStr)
  | refresh (refreshToken : PyStr)
  | logout (accessToken : PyStr)
  | deleteAccount (accessToken password : PyStr)
  deriving DecidableEq

/-- What a request that succeeds has done. -/
inductive AuthResponse where
  | registered (user : User)
  | loggedIn (credentials : IssuedCredentials)
  | resolved (identity : AuthenticatedIdentity)
  | refreshed (credentials : IssuedCredentials)
  | loggedOut (identity : AuthenticatedIdentity)
  | deleted (identity : AuthenticatedIdentity)
  deriving DecidableEq

open AuthService in
/-- What a request does in its database session. -/
def authBody (env : AuthEnv) : AuthRequest → AuthProgram AuthResponse
  | .register username password => do
      let user ← register env username password
      pure (.registered user)
  | .login username password => do
      let credentials ← login env username password
      pure (.loggedIn credentials)
  | .resolve accessToken => do
      let resolved ← resolveObjects env accessToken
      pure (.resolved resolved.identity)
  | .refresh refreshToken => do
      let credentials ← refresh env refreshToken
      pure (.refreshed credentials)
  | .logout accessToken => do
      let resolved ← resolveObjects env accessToken
      logout resolved.session
      pure (.loggedOut resolved.identity)
  | .deleteAccount accessToken password => do
      let resolved ← resolveObjects env accessToken
      deleteAccount resolved.user resolved.sessionIds password
      pure (.deleted resolved.identity)

/-- The program of a request. -/
def authCode (env : AuthEnv) (request : AuthRequest) : AuthProgram AuthResponse :=
  inSession (authBody env request)

/-- A request under way. -/
abbrev AuthThread : Type := Thread AuthOp.Answer AuthRequest AuthFailure AuthResponse

/-- The requests under way. -/
abbrev AuthPool : Type := Pool ℕ AuthState AuthOp.Answer AuthRequest AuthFailure AuthResponse

/-- A request arrives, or takes a step. -/
abbrev AuthLabel : Type := PoolLabel ℕ AuthRequest AuthChoice

/-- No request under way, and an empty database. -/
def AuthPool.new (env : AuthEnv) : AuthPool := ⟨.new env, fun _ => none⟩

/-- What a request was and how it has succeeded, once it has. -/
def AuthPool.outcome (p : AuthPool) (i : ℕ) : Option (AuthRequest × AuthResponse) :=
  match p.threads i with
  | some ⟨request, .done (.ok r), _⟩ => some (request, r)
  | _ => none

theorem AuthPool.outcome_eq_some {p : AuthPool} {i : ℕ} {request : AuthRequest} {r : AuthResponse}
    (h : p.outcome i = some (request, r)) :
    ∃ th, p.threads i = some th ∧ th.request = request ∧ th.rest = .done (.ok r) := by
  unfold AuthPool.outcome at h
  split at h
  · rename_i seen hth
    cases h
    exact ⟨_, hth, rfl, rfl⟩
  · cases h

/-- **All interleavings of any number of requests**, from an empty database. -/
def authSystem (env : AuthEnv) : Transition.System AuthPool AuthLabel :=
  poolSystem (authExec env) (authCode env) (AuthState.new env)

end EncryptChat
