/-
**Access tokens and refresh tokens.**

The JWT library and SHA-256 are parameters.  A claim set is the dictionary the library encodes, and
what the library returns is validated the way the source does it.

* `EncryptChat.Jwt` — the JWT library;
* `EncryptChat.accessClaims`, `EncryptChat.issueAccessToken` — minting;
* `EncryptChat.decodeAccessToken` — validation;
* `EncryptChat.decodeAccessToken_of_accessClaims` — **a token that the library gives back as it was
  minted names the user and the session it was minted for**.
-/

import EncryptChat.AuthTypes
import EncryptChat.PyTime

set_option relaxedAutoImplicit false
set_option autoImplicit false

namespace EncryptChat

open Python

/-! ### The library -/

/-- The exceptions of `jwt.decode`. -/
inductive JwtError where
  | expiredSignatureError
  /-- Any other `InvalidTokenError`, by the name of its type. -/
  | invalidTokenError (typeName : PyStr)
  /-- An exception that is none of these. -/
  | other (e : PyError)

/-- The JWT library. -/
structure Jwt where
  /-- `jwt.encode(claims, secret, algorithm)`. -/
  encode : Dict → PyStr → PyStr → PyStr
  /-- `jwt.decode(token, secret, [algorithm], issuer, audience)` at a time, with the claims `exp`,
  `iat`, `sub`, `iss` and `aud` required. -/
  decode : PyStr → PyStr → PyStr → PyStr → PyStr → Datetime → Except JwtError Dict

/-! ### Minting -/

/-- `TokenType.ACCESS`. -/
def tokenTypeAccess : PyStr := py "access"

/-- `timedelta(minutes=access_token_ttl_minutes)`, in microseconds. -/
def AuthConfig.accessTokenTtl (config : AuthConfig) : ℤ := config.accessTokenTtlMinutes * 60000000

/-- `timedelta(days=refresh_session_ttl_days)`, in microseconds. -/
def AuthConfig.refreshSessionTtl (config : AuthConfig) : ℤ :=
  config.refreshSessionTtlDays * 86400000000

/-- The claims of an access token. -/
def accessClaims (config : AuthConfig) (userId sessionId tokenId : PyStr) (now : Datetime) : Dict :=
  [(py "sub", .str userId), (py "sid", .str sessionId), (py "jti", .str tokenId),
    (py "iat", .int now.timestampSeconds),
    (py "exp", .int (now.addMicroseconds config.accessTokenTtl).timestampSeconds),
    (py "iss", .str config.issuer), (py "aud", .str config.audience),
    (py "token_type", .str tokenTypeAccess)]

/-- `issue_access_token(user_id, session_id, now)`; `tokenId` is the `uuid4().hex` it draws. -/
def issueAccessToken (jwt : Jwt) (config : AuthConfig) (userId sessionId tokenId : PyStr)
    (now : Datetime) : PyStr :=
  jwt.encode (accessClaims config userId sessionId tokenId now) config.signingSecret
    config.algorithm

/-- `refresh_expiry(now)`. -/
def refreshExpiry (config : AuthConfig) (now : Datetime) : Datetime :=
  now.addMicroseconds config.refreshSessionTtl

/-! ### Validation -/

/-- The claims of a validated access token. -/
structure AccessTokenClaims where
  userId : PyStr
  sessionId : PyStr
  tokenId : PyStr
  issuedAt : Datetime
  expiresAt : Datetime

/-- `datetime.fromtimestamp(seconds, tz=UTC)`, where a `time_t` has 64 bits and the year of a `tm`
32: a `datetime` shows the years 1 to 9999. -/
def fromTimestamp (seconds : ℤ) : Except PyError Datetime :=
  if seconds < -9223372036854775808 ∨ 9223372036854775807 < seconds then .error .overflowError
  else if seconds < -67768040609740800 ∨ 67768036191676799 < seconds then .error .osError
  else if -62135596800 ≤ seconds ∧ seconds ≤ 253402300799 then .ok (.utc (seconds * 1000000))
  else .error .valueError

theorem fromTimestamp_of_shown {seconds : ℤ} (hmin : -62135596800 ≤ seconds)
    (hmax : seconds ≤ 253402300799) : fromTimestamp seconds = .ok (.utc (seconds * 1000000)) := by
  rw [fromTimestamp, if_neg (by omega), if_neg (by omega), if_pos ⟨hmin, hmax⟩]

/-- `datetime.fromtimestamp(int(payload[key]), tz=UTC)`; the library requires the claim. -/
def claimTime (payload : Dict) (key : PyStr) : Except PyError Datetime := do
  let seconds ← ((dictGet payload key).getD .null).toInt
  fromTimestamp seconds

/-- The `AuthError` of an invalid token. -/
def tokenInvalid (reason : PyStr) : AuthFailure := .auth ⟨.tokenInvalid, 401, some reason⟩

/-- The second half of `decode_access_token`: the claims of a payload the library has accepted. -/
def readClaims (payload : Dict) : Except AuthFailure AccessTokenClaims :=
  match dictGet payload (py "token_type") with
  | some (.str kind) =>
      if kind ≠ tokenTypeAccess then .error (tokenInvalid (py "wrong token type presented"))
      else
        match dictGet payload (py "sub"), dictGet payload (py "sid"), dictGet payload (py "jti") with
        | some (.str userId), some (.str sessionId), some (.str tokenId) =>
            match claimTime payload (py "iat"), claimTime payload (py "exp") with
            | .ok issuedAt, .ok expiresAt =>
                .ok { userId, sessionId, tokenId, issuedAt, expiresAt }
            | .error e, _ => .error (.python e)
            | _, .error e => .error (.python e)
        | _, _, _ => .error (tokenInvalid (py "token claims malformed"))
  | _ => .error (tokenInvalid (py "wrong token type presented"))

/-- `decode_access_token(token)`. -/
def decodeAccessToken (jwt : Jwt) (config : AuthConfig) (token : PyStr) (now : Datetime) :
    Except AuthFailure AccessTokenClaims :=
  match jwt.decode token config.signingSecret config.algorithm config.issuer config.audience now with
  | .error .expiredSignatureError =>
      .error (.auth ⟨.tokenExpired, 401, some (py "access token expired")⟩)
  | .error (.invalidTokenError typeName) =>
      .error (tokenInvalid (py "invalid token: " ++ typeName))
  | .error (.other e) => .error (.python e)
  | .ok payload => readClaims payload

/-! ### Refresh tokens -/

/-- The alphabet of `secrets.token_urlsafe`. -/
def isUrlSafe (c : CodePoint) : Bool :=
  isLowerAlnum c || inRange 'A' 'Z' c || isChar '-' c || isChar '_' c

/-- The shape of `secrets.token_urlsafe(32)`. -/
def isRefreshToken (s : PyStr) : Bool := s.length == 43 && s.all isUrlSafe

/-- `hash_refresh_token(token)`; `sha256` is the hexadecimal digest of the UTF-8 encoding. -/
def hashRefreshToken (sha256 : PyStr → PyStr) (token : PyStr) : Except PyError PyStr :=
  if token.any isSurrogate then .error .unicodeEncodeError else .ok (sha256 token)

/-! ### Claims -/

/-- What the payload of an accepted token says. -/
theorem readClaims_eq_ok {payload : Dict} {claims : AccessTokenClaims}
    (h : readClaims payload = .ok claims) :
    dictGet payload (py "sub") = some (.str claims.userId) ∧
      dictGet payload (py "sid") = some (.str claims.sessionId) := by
  unfold readClaims at h
  split at h
  · split_ifs at h
    split at h
    · rename_i hsub hsid _
      split at h
      · cases h
        exact ⟨hsub, hsid⟩
      · cases h
      · cases h
    · cases h
  · cases h

@[simp] theorem dictGet_accessClaims_sub (config : AuthConfig)
    (userId sessionId tokenId : PyStr) (now : Datetime) :
    dictGet (accessClaims config userId sessionId tokenId now) (py "sub") = some (.str userId) := by
  rfl

@[simp] theorem dictGet_accessClaims_sid (config : AuthConfig)
    (userId sessionId tokenId : PyStr) (now : Datetime) :
    dictGet (accessClaims config userId sessionId tokenId now) (py "sid") =
      some (.str sessionId) := by
  rfl

/-- The claims of a payload that was minted, when a `datetime` can show its times. -/
theorem readClaims_accessClaims {config : AuthConfig} {userId sessionId tokenId : PyStr}
    {now issuedAt expiresAt : Datetime}
    (hiat : claimTime (accessClaims config userId sessionId tokenId now) (py "iat") = .ok issuedAt)
    (hexp : claimTime (accessClaims config userId sessionId tokenId now) (py "exp") =
      .ok expiresAt) :
    readClaims (accessClaims config userId sessionId tokenId now) =
      .ok { userId, sessionId, tokenId, issuedAt, expiresAt } := by
  have hkind : dictGet (accessClaims config userId sessionId tokenId now) (py "token_type") =
      some (.str tokenTypeAccess) := rfl
  have hjti : dictGet (accessClaims config userId sessionId tokenId now) (py "jti") =
      some (.str tokenId) := rfl
  simp only [readClaims, hkind, hjti, dictGet_accessClaims_sub, dictGet_accessClaims_sid, hiat,
    hexp, ne_eq, not_true, if_false]

/-- A token that is accepted is one that the library has accepted. -/
theorem decode_of_decodeAccessToken {jwt : Jwt} {config : AuthConfig} {token : PyStr}
    {now : Datetime} {claims : AccessTokenClaims}
    (h : decodeAccessToken jwt config token now = .ok claims) :
    ∃ payload, jwt.decode token config.signingSecret config.algorithm config.issuer
      config.audience now = .ok payload := by
  unfold decodeAccessToken at h
  split at h
  · cases h
  · cases h
  · cases h
  · rename_i payload hdecode
    exact ⟨payload, hdecode⟩

/-- **A token that the library gives back as it was minted** names the user and the session it was
minted for. -/
theorem decodeAccessToken_of_accessClaims {jwt : Jwt} {config : AuthConfig} {token : PyStr}
    {at_ now : Datetime} {userId sessionId tokenId : PyStr} {claims : AccessTokenClaims}
    (hpayload : ∀ payload, jwt.decode token config.signingSecret config.algorithm config.issuer
      config.audience at_ = .ok payload → payload = accessClaims config userId sessionId tokenId now)
    (h : decodeAccessToken jwt config token at_ = .ok claims) :
    claims.userId = userId ∧ claims.sessionId = sessionId := by
  unfold decodeAccessToken at h
  split at h
  · cases h
  · cases h
  · cases h
  · rename_i payload hdecode
    obtain ⟨hsub, hsid⟩ := readClaims_eq_ok h
    rw [hpayload payload hdecode, dictGet_accessClaims_sub, Option.some.injEq, Json.str.injEq] at hsub
    rw [hpayload payload hdecode, dictGet_accessClaims_sid, Option.some.injEq, Json.str.injEq] at hsid
    exact ⟨hsub.symm, hsid.symm⟩

end EncryptChat
