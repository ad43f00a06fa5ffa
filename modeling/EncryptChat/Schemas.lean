/-
**The envelope a client sends and the messages the server sends.**

Every inbound frame is validated against `InboundEnvelope` before any routing logic runs.  The
schema library and the JSON and UUID parsers are parameters, collected in
`EncryptChat.Libraries`; everything the schema itself states (which fields, which defaults, which
checks) is spelled out here.

An outbound message is kept as the model object it was built from; what `_dump` makes of it is a
function of that object.  Of the fields of a message only a payload, which is declared
`dict[str, Any]`, may be altered or refused on the way: the library that serializes it is a
parameter too.  A receipt carries the identity of the object that `_dump` allocated,
`MessageReceipt.ref`: two receipts with equal contents are still two messages, and no code reads the
identity.

* `EncryptChat.identifierFullmatch`, `EncryptChat.identifierMatch` — the identifier pattern run by
  `fullmatch` and by `match`;
* `EncryptChat.transportIdentifier` — what the envelope accepts as sender and recipient;
* `EncryptChat.InboundEnvelope.modelValidate` — the schema;
* `EncryptChat.jsonModePayload` — what serialization makes of a payload;
* `EncryptChat.OutboundMessage` — the messages the server sends.
-/

import EncryptChat.JsonText
import EncryptChat.Protocol
import EncryptChat.PyTime
import Mathlib.Data.Rat.Init

set_option relaxedAutoImplicit false
set_option autoImplicit false

namespace EncryptChat

open Python

/-- The library functions the endpoint calls and does not define. -/
structure Libraries where
  /-- `json.loads`. -/
  loads : PyStr → Loads
  /-- `uuid.UUID(s)`, `none` where it raises `ValueError`. -/
  uuid : PyStr → Option Uuid
  /-- The schema library's validation of a field declared `UUID`. -/
  uuidField : Json → Option Uuid
  /-- The schema library's validation of a field declared `datetime`. -/
  datetimeField : Json → Option Datetime
  /-- `model_dump(mode="json")` of a field declared `dict[str, Any]`, or the exception it raises. -/
  dumpPayload : Dict → Except PyError Dict

/-- The payload can be serialized. -/
def Libraries.Dumps (lib : Libraries) (payload : Dict) : Prop :=
  ∃ dumped, lib.dumpPayload payload = .ok dumped

/-! ### Values in JSON mode -/

mutual

/-- What the schema library makes of a value of which nothing is declared, as long as it is nested
less deeply than its recursion guard allows: a float that is not finite becomes `null`, and a key
that UTF-8 cannot encode is refused. -/
def jsonMode : Json → Except PyError Json
  | .null => .ok .null
  | .bool b => .ok (.bool b)
  | .int i => .ok (.int i)
  | .float x => .ok (if x.isFinite then .float x else .null)
  | .str s => .ok (.str s)
  | .list vs => (jsonModeList vs).map .list
  | .dict items => (jsonModeItems items).map .dict

/-- `jsonMode` of the elements of a list. -/
def jsonModeList : List Json → Except PyError (List Json)
  | [] => .ok []
  | v :: vs => (jsonMode v).bind fun v' => (jsonModeList vs).map (v' :: ·)

/-- `jsonMode` of the items of a dictionary. -/
def jsonModeItems : List (PyStr × Json) → Except PyError Dict
  | [] => .ok []
  | (k, v) :: items =>
      if k.any isSurrogate then .error .unicodeEncodeError
      else (jsonMode v).bind fun v' => (jsonModeItems items).map ((k, v') :: ·)

end

/-- A key of the payload itself: here what UTF-8 cannot encode is replaced, byte by byte. -/
def payloadKey (k : PyStr) : PyStr :=
  k.flatMap fun c => if isSurrogate c then [0xFFFD, 0xFFFD, 0xFFFD] else [c]

/-- What the schema library makes of a payload, as long as no two of its keys become one. -/
def jsonModePayload : Dict → Except PyError Dict
  | [] => .ok []
  | (k, v) :: items =>
      (jsonMode v).bind fun v' => (jsonModePayload items).map ((payloadKey k, v') :: ·)

example : jsonModePayload [(py "x", .float .nan)] = .ok [(py "x", .null)] := by rfl

/-! ### Identifiers -/

/-- The class `[a-z0-9._-]`. -/
def isIdentifierChar (c : CodePoint) : Bool :=
  isLowerAlnum c || isChar '.' c || isChar '_' c || isChar '-' c

/-- `IDENTIFIER_PATTERN.fullmatch(s)` for the pattern `^[a-z0-9][a-z0-9._-]{0,63}$`. -/
def identifierFullmatch : PyStr → Bool
  | [] => false
  | c :: cs => isLowerAlnum c && decide (cs.length ≤ 63) && cs.all isIdentifierChar

/-- `IDENTIFIER_PATTERN.match(s)`: here `$` also matches just before a trailing newline. -/
def identifierMatch (s : PyStr) : Bool :=
  identifierFullmatch s || (s.getLast?.any (isChar '\n') && identifierFullmatch s.dropLast)

/-- `MAX_IDENTIFIER_LENGTH`. -/
def maxIdentifierLength : ℕ := 64

/-- What the schema accepts as a `TransportIdentifier`: the length bounds, then the pattern by its
`match` method. -/
def transportIdentifier (s : PyStr) : Bool :=
  decide (1 ≤ s.length) && decide (s.length ≤ maxIdentifierLength) && identifierMatch s

/-- `is_valid_identifier`. -/
def isValidIdentifier (s : PyStr) : Bool := identifierFullmatch s

/-! ### The inbound envelope -/

/-- A validated client message.  The field `version` is always `"1"`. -/
structure InboundEnvelope where
  messageId : Uuid
  type : MessageType
  sender : PyStr
  recipient : Option PyStr
  timestamp : Datetime
  payload : Dict

namespace InboundEnvelope

/-- The fields of the envelope; any other key is refused. -/
def fields : List PyStr :=
  [py "version", py "message_id", py "type", py "sender", py "recipient", py "timestamp",
    py "payload"]

/-- The value is the string `s`. -/
def isString (s : PyStr) : Option Json → Bool
  | some (.str t) => t == s
  | _ => false

/-- A field declared `MessageType`. -/
def typeField : Json → Option MessageType
  | .str s => MessageType.ofValue s
  | _ => none

/-- A field declared `TransportIdentifier`. -/
def identifierField : Json → Option PyStr
  | .str s => if transportIdentifier s then some s else none
  | _ => none

/-- The field `recipient: TransportIdentifier | None = None`. -/
def recipientField : Option Json → Option (Option PyStr)
  | none => some none
  | some .null => some none
  | some v => (identifierField v).map some

/-- The field `payload: dict[str, Any]`, empty by default; its values pass through unchanged. -/
def payloadField : Option Json → Option Dict
  | none => some []
  | some (.dict d) => some d
  | some _ => none

/-- `InboundEnvelope.model_validate(parsed)`; `none` is a `ValidationError`. -/
def modelValidate (lib : Libraries) (d : Dict) : Option InboundEnvelope := do
  guard (d.all fun item => fields.contains item.1)
  guard (isString protocolVersion (dictGet d (py "version")))
  let messageId ← (dictGet d (py "message_id")).bind lib.uuidField
  let type ← (dictGet d (py "type")).bind typeField
  let sender ← (dictGet d (py "sender")).bind identifierField
  let recipient ← recipientField (dictGet d (py "recipient"))
  let timestamp ← (dictGet d (py "timestamp")).bind lib.datetimeField
  -- `_require_timezone`: a naive timestamp is refused
  guard timestamp.isAware
  let payload ← payloadField (dictGet d (py "payload"))
  return { messageId, type, sender, recipient, timestamp, payload }

end InboundEnvelope

/-! ### Outbound messages -/

/-- A routed message. -/
structure MessageReceipt where
  /-- The identity of the object, given when it is built; no code reads it. -/
  ref : ℕ
  messageId : Uuid
  sender : PyStr
  recipient : PyStr
  timestamp : Datetime
  payload : Dict

/-- The messages the server sends.  Fields that are literals are left to serialization. -/
inductive OutboundMessage where
  | connectionReady (connectionId : PyStr) (authenticationDeadlineSeconds : ℚ)
      (heartbeatIntervalSeconds : ℚ) (idleTimeoutSeconds : ℚ) (maxMessageBytes : ℕ)
  | authReady (messageId : Uuid) (userId username sessionId : PyStr)
  | messageReceipt (receipt : MessageReceipt)
  | deliveryAck (messageId : Uuid) (status : DeliveryStatus)
  | heartbeatPong (messageId : Uuid) (serverTime : Datetime)
  | queueStatus (messageId : Uuid) (queuedMessageCount : ℕ)
  | protocolError (code detail : PyStr) (messageId : Option Uuid)

/-- `_error(code, message_id)`: the code together with its fixed description. -/
def errorMessage (code : ProtocolErrorCode) (messageId : Option Uuid) : OutboundMessage :=
  .protocolError code.value (describe code) messageId

end EncryptChat
