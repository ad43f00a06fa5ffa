/-
**The settings of the authentication layer, and what it hands to its callers.**

An authentication failure has a safe external code, an HTTP status and an internal reason that
never leaves the server.

* `EncryptChat.AuthConfig` — every setting;
* `EncryptChat.AuthenticatedIdentity` — a verified account identity;
* `EncryptChat.AuthErrorCode`, `EncryptChat.AuthError` — the failures;
* `EncryptChat.AuthFailure` — any exception that leaves the layer.
-/

import EncryptChat.PyText
import Mathlib.Data.Rat.Init

set_option relaxedAutoImplicit false
set_option autoImplicit false

namespace EncryptChat

open Python

/-- The authentication settings. -/
structure AuthConfig where
  signingSecret : PyStr
  algorithm : PyStr := py "HS256"
  issuer : PyStr := py "encrypted-chat-app"
  audience : PyStr := py "encrypted-chat-app-client"
  accessTokenTtlMinutes : ℕ := 15
  refreshSessionTtlDays : ℕ := 14
  minPasswordLength : ℕ := 12
  maxPasswordLength : ℕ := 1024
  minUsernameLength : ℕ := 3
  maxUsernameLength : ℕ := 32
  maxFailedLoginsPerAccount : ℕ := 10
  failedLoginWindowSeconds : ℚ := 300
  argon2TimeCost : ℕ := 3
  argon2MemoryCostKib : ℕ := 65536
  argon2Parallelism : ℕ := 4

/-- A verified account identity resolved from an access token. -/
structure AuthenticatedIdentity where
  userId : PyStr
  username : PyStr
  sessionId : PyStr
  deriving DecidableEq

/-- The codes returned to clients. -/
inductive AuthErrorCode where
  | invalidCredentials
  | required
  | tokenInvalid
  | tokenExpired
  | sessionRevoked
  | rateLimited
  | accountUnavailable
  | registrationRejected
  | validationFailed
  deriving DecidableEq

namespace AuthErrorCode

/-- The wire string of a code. -/
def value : AuthErrorCode → PyStr
  | invalidCredentials => py "AUTH_INVALID_CREDENTIALS"
  | required => py "AUTH_REQUIRED"
  | tokenInvalid => py "AUTH_TOKEN_INVALID"
  | tokenExpired => py "AUTH_TOKEN_EXPIRED"
  | sessionRevoked => py "AUTH_SESSION_REVOKED"
  | rateLimited => py "AUTH_RATE_LIMITED"
  | accountUnavailable => py "AUTH_ACCOUNT_UNAVAILABLE"
  | registrationRejected => py "AUTH_REGISTRATION_REJECTED"
  | validationFailed => py "AUTH_VALIDATION_FAILED"

/-- The fixed description of a code. -/
def description : AuthErrorCode → PyStr
  | invalidCredentials => py "Invalid credentials."
  | required => py "Authentication required."
  | tokenInvalid => py "Authentication token is not valid."
  | tokenExpired => py "Authentication token has expired."
  | sessionRevoked => py "Session is no longer valid."
  | rateLimited => py "Too many attempts. Try again later."
  | accountUnavailable => py "Account is not available."
  | registrationRejected => py "Registration could not be completed."
  | validationFailed => py "Request failed validation."

end AuthErrorCode

/-- An authentication failure. -/
structure AuthError where
  code : AuthErrorCode
  statusCode : ℕ := 401
  internalReason : Option PyStr := none
  deriving DecidableEq

/-- An exception that leaves the authentication layer: an `AuthError`, or any other. -/
inductive AuthFailure where
  | auth (e : AuthError)
  | python (e : PyError)
  deriving DecidableEq

end EncryptChat
