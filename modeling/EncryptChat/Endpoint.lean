/-
**The synchronous functions of the WebSocket endpoint.**

Between two awaits the endpoint runs without interruption, so each function here takes the manager
and returns the manager it leaves.  A context is passed by the value it has when the function is
called; what happens to the object meanwhile happens in the manager.

Main definitions:

* `EncryptChat.validateInbound` — the checks on one inbound frame, in the order of the source;
* `EncryptChat.routeMessage`, `EncryptChat.handleMessageSend`, `EncryptChat.handlePrivileged` — the
  routing of a message, which raises where its receipt cannot be serialized;
* `EncryptChat.beginAuthentication`, `EncryptChat.finishAuthentication` —
  `_authenticate_connection` before and after its one await;
* `EncryptChat.enqueueResponses`, `EncryptChat.receiveFrame` — one iteration of the receive loop.
-/

import EncryptChat.Manager

set_option relaxedAutoImplicit false
set_option autoImplicit false

namespace EncryptChat

open Python

/-! ### Validation -/

/-- `_extract_message_id(parsed)` of a dictionary. -/
def extractMessageId (lib : Libraries) (parsed : Dict) : Option Uuid :=
  match dictGet parsed (py "message_id") with
  | some (.str candidate) => lib.uuid candidate
  | _ => none

/-- A rejected frame: no envelope, one error. -/
def rejection (code : ProtocolErrorCode) (messageId : Option Uuid) :
    Option InboundEnvelope × List OutboundMessage :=
  (none, [errorMessage code messageId])

/-- `_validate_inbound` on a dictionary whose type has been read: the authorization gate, then the
schema. -/
def validateTyped (lib : Libraries) (context : ConnectionContext) (parsed : Dict)
    (messageType : MessageType) : Option InboundEnvelope × List OutboundMessage :=
  if messageType ∉ MessageType.clientSendable then
    rejection .unknownMessageType (extractMessageId lib parsed)
  -- before the schema: a peer that is not authenticated learns nothing from the shape of its errors
  else if context.authenticated = false ∧ messageType ∉ MessageType.unauthenticatedSendable then
    rejection .authRequired (extractMessageId lib parsed)
  else
    match InboundEnvelope.modelValidate lib parsed with
    | none => rejection .schemaValidationFailed (extractMessageId lib parsed)
    | some envelope => (some envelope, [])

/-- `_validate_inbound` on a dictionary. -/
def validateDict (lib : Libraries) (context : ConnectionContext) (parsed : Dict) :
    Option InboundEnvelope × List OutboundMessage :=
  if InboundEnvelope.isString protocolVersion (dictGet parsed (py "version")) = false then
    rejection .unsupportedProtocolVersion (extractMessageId lib parsed)
  else
    match (dictGet parsed (py "type")).bind InboundEnvelope.typeField with
    | none => rejection .unknownMessageType (extractMessageId lib parsed)
    | some messageType => validateTyped lib context parsed messageType

/-- `_validate_inbound(context, raw_text)`: the envelope when it is acceptable, otherwise the errors
owed to the sender.  Only the exceptions of the `except` clause are caught. -/
def validateInbound (lib : Libraries) (context : ConnectionContext) (rawText : PyStr) :
    Except PyError (Option InboundEnvelope × List OutboundMessage) :=
  match lib.loads rawText with
  | .jsonDecodeError => .ok (rejection .invalidJson none)
  -- the literal of a huge integer: a `ValueError`, but none of the two the clause names
  | .valueError => .error .valueError
  | .recursionError => .error .recursionError
  | .value (.dict parsed) => .ok (validateDict lib context parsed)
  | .value _ => .ok (rejection .schemaValidationFailed none)

/-! ### Routing -/

/-- The receipt `_route_message` builds; its `sender` is the routing identity of the connection,
never the `sender` of the envelope. -/
def receiptOf (context : ConnectionContext) (envelope : InboundEnvelope) (recipient : PyStr)
    (ref : ℕ) : MessageReceipt where
  ref := ref
  messageId := envelope.messageId
  sender := context.routingIdentity
  recipient := recipient
  timestamp := envelope.timestamp
  payload := envelope.payload

/-- `_route_message` once the receipt is serialized: what becomes of the receipt, and the status. -/
def routeReceipt (m : ConnectionManager) (context : ConnectionContext) (envelope : InboundEnvelope)
    (recipient : PyStr) (ref : ℕ) : ConnectionManager × DeliveryStatus :=
  let receipt := OutboundMessage.messageReceipt (receiptOf context envelope recipient ref)
  -- an id in the index is enough, whether or not its connection still takes messages
  if m.isConnected recipient then
    let delivery := m.deliverToClient recipient receipt
    (delivery.1, if delivery.2 then .delivered else .recipientUnavailable)
  else
    let queueing := m.enqueueOffline recipient receipt
    (queueing.1, if queueing.2 then .queued else .recipientUnavailable)

/-- `_route_message(manager, context, envelope, recipient)`.  The receipt is serialized before
anything else happens, and what that raises nobody catches. -/
def routeMessage (lib : Libraries) (m : ConnectionManager) (context : ConnectionContext)
    (envelope : InboundEnvelope) (recipient : PyStr) (ref : ℕ) :
    Except PyError (ConnectionManager × DeliveryStatus) :=
  -- of the fields of a receipt only the payload can be refused
  match lib.dumpPayload envelope.payload with
  | .error e => .error e
  | .ok _ => .ok (routeReceipt m context envelope recipient ref)

/-- `_handle_message_send(manager, context, envelope)`. -/
def handleMessageSend (lib : Libraries) (m : ConnectionManager) (context : ConnectionContext)
    (envelope : InboundEnvelope) (ref : ℕ) :
    Except PyError (ConnectionManager × List OutboundMessage) :=
  if envelope.sender ≠ context.routingIdentity then
    .ok (m, [errorMessage .senderMismatch (some envelope.messageId),
      .deliveryAck envelope.messageId .rejected])
  else
    match envelope.recipient with
    | none => .ok (m, [errorMessage .invalidRecipient (some envelope.messageId)])
    | some recipient =>
        (routeMessage lib m context envelope recipient ref).map fun routed =>
          (routed.1, [.deliveryAck envelope.messageId routed.2])

/-- `_handle_privileged(manager, context, envelope)`. -/
def handlePrivileged (lib : Libraries) (m : ConnectionManager) (context : ConnectionContext)
    (envelope : InboundEnvelope) (ref : ℕ) :
    Except PyError (ConnectionManager × List OutboundMessage) :=
  match envelope.type with
  | .messageSend => handleMessageSend lib m context envelope ref
  | .queueStatus =>
      .ok (m, [.queueStatus envelope.messageId (m.offlineQueue.count context.routingIdentity)])
  | _ => .ok (m, [errorMessage .internalProtocolError (some envelope.messageId)])

/-! ### Authentication -/

/-- `_MAX_TOKEN_LENGTH`. -/
def maxTokenLength : ℕ := 4096

/-- `_authenticate_connection` before its await: the responses of a refusal, or the token to
resolve. -/
def beginAuthentication (context : ConnectionContext) (envelope : InboundEnvelope) :
    Except (List OutboundMessage) PyStr :=
  if context.authenticated then
    .error [errorMessage .alreadyAuthenticated (some envelope.messageId)]
  else
    match dictGet envelope.payload (py "access_token") with
    | some (.str rawToken) =>
        if rawToken = [] ∨ maxTokenLength < rawToken.length then
          .error [errorMessage .authFailed (some envelope.messageId)]
        else .ok rawToken
    | _ => .error [errorMessage .authFailed (some envelope.messageId)]

/-- `_authenticate_connection` after `resolve_access_token` has returned or raised `AuthError`. -/
def finishAuthentication (m : ConnectionManager) (cid : ConnId) (context : ConnectionContext)
    (envelope : InboundEnvelope) :
    Except AuthError AuthenticatedIdentity → ConnectionManager × List OutboundMessage
  | .error _ => (m, [errorMessage .authFailed (some envelope.messageId)])
  | .ok identity =>
      -- the queue is emptied here, before any of what it held has been accepted
      let drained := (m.bindIdentity cid context identity).drainOffline identity.username
      (drained.1, .authReady envelope.messageId identity.userId identity.username
        identity.sessionId :: drained.2)

/-! ### One iteration of the receive loop -/

/-- The loop that puts the responses on the connection's own queue; `false` when it stopped at a
refused one. -/
def enqueueResponses (m : ConnectionManager) (cid : ConnId) :
    List OutboundMessage → ConnectionManager × Bool
  | [] => (m, true)
  | response :: responses =>
      let sent := m.enqueueOutbound cid response
      if sent.2 then enqueueResponses sent.1 cid responses else (sent.1, false)

/-- How an iteration of the receive loop ends, or where it awaits. -/
inductive Iteration where
  /-- Go on with the next frame. -/
  | next
  /-- Return this close code. -/
  | close (code : ℕ)
  /-- Await the resolution of an access token. -/
  | resolve (envelope : InboundEnvelope) (rawToken : PyStr)
  /-- An exception leaves the loop. -/
  | raise (e : PyError)

/-- The responses are put on the queue; the first one refused closes the connection. -/
def respond (m : ConnectionManager) (cid : ConnId) (responses : List OutboundMessage) :
    ConnectionManager × Iteration :=
  let enqueued := enqueueResponses m cid responses
  (enqueued.1, if enqueued.2 then .next else .close WebSocketCloseCode.policyViolation)

/-- The dispatch of a validated envelope; `clock` is `datetime.now(UTC)`. -/
def dispatch (lib : Libraries) (m : ConnectionManager) (cid : ConnId) (context : ConnectionContext)
    (envelope : InboundEnvelope) (clock : Datetime) (ref : ℕ) : ConnectionManager × Iteration :=
  match envelope.type with
  | .authAuthenticate =>
      match beginAuthentication context envelope with
      | .error responses => respond m cid responses
      | .ok rawToken => (m, .resolve envelope rawToken)
  | .heartbeatPing => respond m cid [.heartbeatPong envelope.messageId clock]
  | type =>
      if type ∈ MessageType.privileged then
        match handlePrivileged lib m context envelope ref with
        | .error e => (m, .raise e)
        | .ok handled => respond handled.1 cid handled.2
      else respond m cid [errorMessage .internalProtocolError (some envelope.messageId)]

/-- The handling of a frame that passed the size and the rate check. -/
def handleFrame (lib : Libraries) (m : ConnectionManager) (cid : ConnId)
    (context : ConnectionContext) (rawText : PyStr) (clock : Datetime) (ref : ℕ) :
    ConnectionManager × Iteration :=
  match validateInbound lib context rawText with
  | .error e => (m, .raise e)
  | .ok (none, errors) => respond m cid errors
  | .ok (some envelope, _) => dispatch lib m cid context envelope clock ref

/-- One iteration of `_receive_loop` on a frame received at `now`: the size is checked first, then
the rate; an error about either is dropped when the queue refuses it. -/
def receiveFrame (lib : Libraries) (m : ConnectionManager) (cid : ConnId)
    (context : ConnectionContext) (rawText : PyStr) (now : ℚ) (clock : Datetime) (ref : ℕ) :
    ConnectionManager × Iteration :=
  let touched := m.modifyContext cid fun c => c.touch now
  match utf8Length rawText with
  | .error e => (touched, .raise e)
  | .ok size =>
      if m.limits.maxMessageBytes < size then
        ((touched.enqueueOutbound cid (errorMessage .messageTooLarge none)).1, .next)
      else
        -- a frame that is too large has not come this far, and is not counted
        let counted := touched.modifyContext cid fun c => (c.allow now).1
        if (context.allow now).2 = false then
          ((counted.enqueueOutbound cid (errorMessage .rateLimited none)).1, .next)
        else handleFrame lib counted cid context rawText clock ref

end EncryptChat
