/-
**Password policy, password hashing and the failed-login tracker.**

The Argon2 library is a parameter.  Each computation it performs is an operation of its own in the
programs of `EncryptChat.AuthService`, so that what a request computes can be read off its history.

* `EncryptChat.validatePolicy` — the policy on a candidate password;
* `EncryptChat.Argon2`, `EncryptChat.hashPassword`, `EncryptChat.verifyPassword`,
  `EncryptChat.needsRehash` — hashing;
* `EncryptChat.FailedLoginTracker` — the sliding window of failures of each account; times are exact
  rationals.
-/

import EncryptChat.AuthTypes
import EncryptChat.Identifiers
import Mathlib.Algebra.Order.Ring.Rat
import Mathlib.Data.Finmap

set_option relaxedAutoImplicit false
set_option autoImplicit false

namespace EncryptChat

open Python

/-! ### Policy -/

/-- A password that violates policy, or that cannot be encoded. -/
inductive PasswordPolicyError where
  | policy (reason : PyStr)
  | python (e : PyError)

/-- `validate_policy(password)`. -/
def validatePolicy (config : AuthConfig) (password : PyStr) : Except PasswordPolicyError Unit :=
  if password = [] then .error (.policy (py "password must not be empty"))
  else
    match utf8Length password with
    | .error e => .error (.python e)
    | .ok encodedLength =>
        if encodedLength < config.minPasswordLength then
          .error (.policy (py "password must be at least " ++
            py (toString config.minPasswordLength) ++ py " bytes"))
        else if config.maxPasswordLength < encodedLength then
          .error (.policy (py "password must be at most " ++
            py (toString config.maxPasswordLength) ++ py " bytes"))
        else .ok ()

/-! ### Hashing -/

/-- The parameters a hasher is built with. -/
structure Argon2Params where
  timeCost : ℕ
  memoryCost : ℕ
  parallelism : ℕ
  deriving DecidableEq

/-- The hashing library. -/
structure Argon2 where
  /-- `PasswordHasher.hash(password)`, under the salt it draws. -/
  hash : Argon2Params → ℕ → PyStr → PyStr
  /-- `PasswordHasher.verify(hash, password)`; `false` where it raises one of its own errors. -/
  verify : PyStr → PyStr → Bool
  /-- `PasswordHasher.check_needs_rehash(hash)`; `true` where the hash cannot be read. -/
  checkNeedsRehash : Argon2Params → PyStr → Bool

/-- The parameters of `PasswordHashing(config)`. -/
def AuthConfig.argon2 (config : AuthConfig) : Argon2Params :=
  ⟨config.argon2TimeCost, config.argon2MemoryCostKib, config.argon2Parallelism⟩

/-- Encoding a password for the hasher. -/
def encodable (password : PyStr) : Except PyError PyStr :=
  if password.any isSurrogate then .error .unicodeEncodeError else .ok password

/-- `hash(password)`: of the NFKC form. -/
def hashPassword (uni : Unicode) (argon2 : Argon2) (config : AuthConfig) (salt : ℕ)
    (password : PyStr) : Except PyError PyStr :=
  (encodable (uni.nfkc password)).map (argon2.hash config.argon2 salt)

/-- `verify(stored_hash, password)`. -/
def verifyPassword (uni : Unicode) (argon2 : Argon2) (storedHash password : PyStr) :
    Except PyError Bool :=
  (encodable (uni.nfkc password)).map (argon2.verify storedHash)

/-- `needs_rehash(stored_hash)`. -/
def needsRehash (argon2 : Argon2) (config : AuthConfig) (storedHash : PyStr) : Bool :=
  argon2.checkNeedsRehash config.argon2 storedHash

/-! ### Failed logins -/

/-- The failures of each normalized identifier, oldest first. -/
structure FailedLoginTracker where
  maxFailures : ℕ
  windowSeconds : ℚ
  failures : Finmap fun _ : PyStr => List ℚ

namespace FailedLoginTracker

/-- The tracker `AuthService` builds from its settings. -/
def new (config : AuthConfig) : FailedLoginTracker :=
  ⟨config.maxFailedLoginsPerAccount, config.failedLoginWindowSeconds, ∅⟩

/-- `_prune(identifier, now)`: the live window; an identifier whose window is empty is dropped. -/
def prune (t : FailedLoginTracker) (identifier : PyStr) (now : ℚ) : FailedLoginTracker × List ℚ :=
  let window := ((t.failures.lookup identifier).getD []).dropWhile fun time =>
    decide (time ≤ now - t.windowSeconds)
  ({ t with failures :=
      if window = [] then t.failures.erase identifier else t.failures.insert identifier window },
    window)

/-- `is_blocked(identifier)`. -/
def isBlocked (t : FailedLoginTracker) (identifier : PyStr) (now : ℚ) : FailedLoginTracker × Bool :=
  let pruned := t.prune identifier now
  (pruned.1, decide (t.maxFailures ≤ pruned.2.length))

/-- `record_failure(identifier)`. -/
def recordFailure (t : FailedLoginTracker) (identifier : PyStr) (now : ℚ) :
    FailedLoginTracker × ℕ :=
  let pruned := t.prune identifier now
  let window := pruned.2 ++ [now]
  ({ pruned.1 with failures := pruned.1.failures.insert identifier window }, window.length)

/-- `reset(identifier)`. -/
def reset (t : FailedLoginTracker) (identifier : PyStr) : FailedLoginTracker :=
  { t with failures := t.failures.erase identifier }

end FailedLoginTracker

end EncryptChat
