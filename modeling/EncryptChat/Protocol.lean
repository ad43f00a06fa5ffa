/-
**The protocol constants of the transport: message types, statuses, error codes.**

The message types are an allowlist; what a client may send, and what it may send before it has
authenticated, are subsets of it.  Every rejection carries one of the error codes together with the
fixed description of the code.

* `EncryptChat.MessageType`, `EncryptChat.MessageType.value`, `EncryptChat.MessageType.ofValue` —
  the message types and the strings they are on the wire;
* `EncryptChat.DeliveryStatus` — the four outcomes a sender is told;
* `EncryptChat.ProtocolErrorCode`, `EncryptChat.describe` — the codes and their descriptions;
* `EncryptChat.MessageType.ofValue_value` — reading a type back from its wire string.
-/

import EncryptChat.PyText

set_option relaxedAutoImplicit false
set_option autoImplicit false

namespace EncryptChat

open Python

/-- The wire protocol version. -/
def protocolVersion : PyStr := py "1"

/-! ### Message types -/

/-- Every message type the protocol defines. -/
inductive MessageType where
  | connectionReady
  | messageReceipt
  | messageDeliveryAck
  | heartbeatPong
  | protocolError
  | authReady
  | messageSend
  | heartbeatPing
  | authAuthenticate
  | queueStatus
  deriving DecidableEq

namespace MessageType

/-- The wire string of a message type. -/
def value : MessageType → PyStr
  | connectionReady => py "connection.ready"
  | messageReceipt => py "message.receipt"
  | messageDeliveryAck => py "message.delivery_ack"
  | heartbeatPong => py "heartbeat.pong"
  | protocolError => py "protocol.error"
  | authReady => py "auth.ready"
  | messageSend => py "message.send"
  | heartbeatPing => py "heartbeat.ping"
  | authAuthenticate => py "auth.authenticate"
  | queueStatus => py "queue.status"

/-- The members of the enumeration. -/
def all : List MessageType :=
  [connectionReady, messageReceipt, messageDeliveryAck, heartbeatPong, protocolError, authReady,
    messageSend, heartbeatPing, authAuthenticate, queueStatus]

/-- `MessageType(s)`: the member with a given value. -/
def ofValue (s : PyStr) : Option MessageType := all.find? fun t => t.value == s

/-- The types a client may send. -/
def clientSendable : List MessageType := [authAuthenticate, messageSend, heartbeatPing, queueStatus]

/-- The types an unauthenticated connection may send. -/
def unauthenticatedSendable : List MessageType := [authAuthenticate, heartbeatPing]

/-- The types that require an authenticated connection. -/
def privileged : List MessageType := [messageSend, queueStatus]

/-- A type is read back from its wire string. -/
theorem ofValue_value (t : MessageType) : ofValue t.value = some t := by
  cases t <;> decide

end MessageType

/-! ### Delivery statuses -/

/-- What the sender of a `message.send` is told. -/
inductive DeliveryStatus where
  | delivered
  | queued
  | recipientUnavailable
  | rejected
  deriving DecidableEq

/-! ### Error codes -/

/-- The protocol-level error codes. -/
inductive ProtocolErrorCode where
  | invalidJson
  | schemaValidationFailed
  | unknownMessageType
  | unsupportedProtocolVersion
  | invalidRecipient
  | recipientUnavailable
  | senderMismatch
  | messageTooLarge
  | rateLimited
  | originRejected
  | connectionLimit
  | internalProtocolError
  | idleTimeout
  | queueOverflow
  | invalidClientId
  | authRequired
  | authFailed
  | alreadyAuthenticated
  deriving DecidableEq

/-- The wire string of an error code. -/
def ProtocolErrorCode.value : ProtocolErrorCode → PyStr
  | invalidJson => py "WS_1001_INVALID_JSON"
  | schemaValidationFailed => py "WS_1002_SCHEMA_VALIDATION_FAILED"
  | unknownMessageType => py "WS_1003_UNKNOWN_MESSAGE_TYPE"
  | unsupportedProtocolVersion => py "WS_1004_UNSUPPORTED_PROTOCOL_VERSION"
  | invalidRecipient => py "WS_1005_INVALID_RECIPIENT"
  | recipientUnavailable => py "WS_1006_RECIPIENT_UNAVAILABLE"
  | senderMismatch => py "WS_1007_SENDER_MISMATCH"
  | messageTooLarge => py "WS_1008_MESSAGE_TOO_LARGE"
  | rateLimited => py "WS_1009_RATE_LIMITED"
  | originRejected => py "WS_1010_ORIGIN_REJECTED"
  | connectionLimit => py "WS_1011_CONNECTION_LIMIT"
  | internalProtocolError => py "WS_1012_INTERNAL_PROTOCOL_ERROR"
  | idleTimeout => py "WS_1013_IDLE_TIMEOUT"
  | queueOverflow => py "WS_1014_QUEUE_OVERFLOW"
  | invalidClientId => py "WS_1015_INVALID_CLIENT_ID"
  | authRequired => py "WS_1016_AUTH_REQUIRED"
  | authFailed => py "WS_1017_AUTH_FAILED"
  | alreadyAuthenticated => py "WS_1018_ALREADY_AUTHENTICATED"

/-- The fixed description of an error code. -/
def describe : ProtocolErrorCode → PyStr
  | .invalidJson => py "Message was not valid JSON."
  | .schemaValidationFailed => py "Message failed schema validation."
  | .unknownMessageType => py "Message type is not supported."
  | .unsupportedProtocolVersion => py "Protocol version is not supported."
  | .invalidRecipient => py "Recipient identifier is missing or malformed."
  | .recipientUnavailable => py "Recipient is not currently reachable."
  | .senderMismatch => py "Sender does not match the connection identity."
  | .messageTooLarge => py "Message exceeds the maximum allowed size."
  | .rateLimited => py "Message rate limit exceeded."
  | .originRejected => py "Origin is not allowed."
  | .connectionLimit => py "Connection limit reached."
  | .internalProtocolError => py "Internal protocol error."
  | .idleTimeout => py "Connection idle for too long."
  | .queueOverflow => py "Outgoing queue is full."
  | .invalidClientId => py "Transport client identifier is malformed."
  | .authRequired => py "Authentication is required for this action."
  | .authFailed => py "Authentication failed."
  | .alreadyAuthenticated => py "Connection is already authenticated."

/-! ### Close codes -/

namespace WebSocketCloseCode

/-- Normal closure. -/
def normal : ℕ := 1000

/-- Policy violation, also the close of a connection that does not read. -/
def policyViolation : ℕ := 1008

/-- The idle timeout of an authenticated connection. -/
def idleTimeout : ℕ := 4408

/-- The deadline of an unauthenticated connection. -/
def authRequired : ℕ := 4401

end WebSocketCloseCode

end EncryptChat
