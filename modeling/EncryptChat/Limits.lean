/-
**The bounds the transport enforces, and the rate limiter of one connection.**

* `EncryptChat.TransportLimits` — every configurable bound;
* `EncryptChat.TransportLimits.Positive` — the counting bounds are positive, which is what the
  environment loader guarantees;
* `EncryptChat.RateLimiter` — a counter and the start of its window; times are exact rationals.
-/

import EncryptChat.PyText
import Mathlib.Algebra.Order.Ring.Rat

set_option relaxedAutoImplicit false
set_option autoImplicit false

namespace EncryptChat

open Python

/-- The bounds of the transport layer. -/
structure TransportLimits where
  maxMessageBytes : ℕ := 64 * 1024
  maxTotalConnections : ℕ := 500
  maxConnectionsPerClient : ℕ := 3
  maxMessagesPerWindow : ℕ := 30
  rateLimitWindowSeconds : ℚ := 1
  maxPendingOutbound : ℕ := 100
  maxQueuedPerRecipient : ℕ := 50
  maxQueuedRecipients : ℕ := 500
  idleTimeoutSeconds : ℚ := 60
  heartbeatIntervalSeconds : ℚ := 20
  unauthenticatedTimeoutSeconds : ℚ := 15
  allowedOrigins : List PyStr := [py "http://localhost:5173", py "http://127.0.0.1:5173"]
  allowMissingOrigin : Bool := true

/-- Whether the value of an `Origin` header is acceptable. -/
def TransportLimits.isOriginAllowed (limits : TransportLimits) : Option PyStr → Bool
  | none => limits.allowMissingOrigin
  | some origin => limits.allowedOrigins.contains origin

/-- The counting bounds are positive. -/
structure TransportLimits.Positive (limits : TransportLimits) : Prop where
  maxTotalConnections : 0 < limits.maxTotalConnections
  maxConnectionsPerClient : 0 < limits.maxConnectionsPerClient
  maxPendingOutbound : 0 < limits.maxPendingOutbound
  maxQueuedPerRecipient : 0 < limits.maxQueuedPerRecipient
  maxQueuedRecipients : 0 < limits.maxQueuedRecipients

/-- The fixed-window limiter of a single connection. -/
structure RateLimiter where
  maxMessages : ℕ
  windowSeconds : ℚ
  windowStartedAt : ℚ := 0
  count : ℕ := 0

/-- `allow(now)`: record an inbound message; `false` if it is over the limit. -/
def RateLimiter.allow (l : RateLimiter) (now : ℚ) : RateLimiter × Bool :=
  let l₁ := if l.windowSeconds ≤ now - l.windowStartedAt
    then { l with windowStartedAt := now, count := 0 } else l
  -- the frame is counted whether or not it is let through
  let l₂ := { l₁ with count := l₁.count + 1 }
  (l₂, decide (l₂.count ≤ l₂.maxMessages))

/-- The default limits are positive. -/
theorem TransportLimits.positive_default : TransportLimits.Positive {} := by
  constructor <;> decide

end EncryptChat
