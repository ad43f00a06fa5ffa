/-
**The structured log of the transport.**

Every event of the transport is logged as one record: its name, what identifies the connection it is
about, and a few fields of its own.  Each function of the endpoint that logs has a companion here,
named after it, which lists the records it emits, in order; what the server logs in a step is put
together from these.  A frame enters the records through its message id, its type and, when it is
too large, its length, and in no other way, so two runs that differ in payloads and tokens, and
whose payloads are serialized alike, write the same log.

Main definitions:

* `EncryptChat.logRecord` — the record `_log` emits;
* `EncryptChat.validateInboundLog`, `EncryptChat.routeMessageLog`, `EncryptChat.receiveFrameLog` —
  what the functions of the endpoint log;
* `EncryptChat.handlerLog`, `EncryptChat.serverLog` — what a step logs.

Main results:

* `EncryptChat.serverLog_alike` — steps that differ in payloads and tokens log the same;
* `EncryptChat.transport_log_is_blind` — **so do whole runs**.
-/

import EncryptChat.Dump
import EncryptChat.PayloadOpacity

set_option relaxedAutoImplicit false
set_option autoImplicit false

namespace EncryptChat

open Python Transition
open Transition.System (cases_of_rel)

/-! ### One record -/

/-- `d[key] = value`: an item that is there keeps its place. -/
def dictAssign (d : Dict) (key : PyStr) (value : Json) : Dict :=
  if d.any (fun item => item.1 == key) then
    d.map fun item => if item.1 == key then (key, value) else item
  else d ++ [(key, value)]

/-- `d.update(other)`. -/
def dictUpdate (d other : Dict) : Dict :=
  other.foldl (fun d item => dictAssign d item.1 item.2) d

/-- What a record says about the connection it is about. -/
def contextFields (context : ConnectionContext) : Dict :=
  [(py "connection_id", .str context.connectionId),
      (py "authenticated", .bool context.authenticated)] ++
    (context.userId.map fun userId => (py "user_id", Json.str userId)).toList ++
    (context.sessionId.map fun sessionId => (py "session_id", Json.str sessionId)).toList

/-- `_log(event, context, **fields)`: the record it emits. -/
def logRecord (event : PyStr) (context : Option ConnectionContext) (fields : Dict) : Dict :=
  dictUpdate ((py "event", .str event) :: context.elim [] contextFields) fields

/-! ### What the endpoint logs -/

/-- A frame that fails validation. -/
def validationFailed (context : ConnectionContext) (reason : PyStr) : List Dict :=
  [logRecord (py "protocol_validation_failed") context [(py "reason", .str reason)]]

/-- The log of `_validate_inbound` on a dictionary whose type has been read. -/
def validateTypedLog (lib : Libraries) (context : ConnectionContext) (parsed : Dict)
    (messageType : MessageType) : List Dict :=
  if messageType ∉ MessageType.clientSendable then
    validationFailed context (py "server_only_type")
  else if context.authenticated = false ∧ messageType ∉ MessageType.unauthenticatedSendable then
    [logRecord (py "websocket_auth_required") context
      [(py "attempted_type", .str messageType.value)]]
  else
    match InboundEnvelope.modelValidate lib parsed with
    | none => validationFailed context (py "schema_validation_failed")
    | some _ => []

/-- The log of `_validate_inbound` on a dictionary. -/
def validateDictLog (lib : Libraries) (context : ConnectionContext) (parsed : Dict) : List Dict :=
  if InboundEnvelope.isString protocolVersion (dictGet parsed (py "version")) = false then
    validationFailed context (py "unsupported_version")
  else
    match (dictGet parsed (py "type")).bind InboundEnvelope.typeField with
    | none => validationFailed context (py "unknown_type")
    | some messageType => validateTypedLog lib context parsed messageType

/-- The log of `_validate_inbound(context, raw_text)`. -/
def validateInboundLog (lib : Libraries) (context : ConnectionContext) (rawText : PyStr) :
    List Dict :=
  match lib.loads rawText with
  | .jsonDecodeError => validationFailed context (py "invalid_json")
  -- what is not caught is not logged
  | .valueError => []
  | .recursionError => []
  | .value (.dict parsed) => validateDictLog lib context parsed
  | .value _ => validationFailed context (py "not_an_object")

/-- A record about one message. -/
def messageRecord (event : PyStr) (context : ConnectionContext) (envelope : InboundEnvelope)
    (field : PyStr × Json) : Dict :=
  logRecord event context [(py "message_id", .str (uuidStr envelope.messageId)), field]

/-- A message that is not taken over. -/
def messageRejected (context : ConnectionContext) (envelope : InboundEnvelope) (reason : PyStr) :
    Dict :=
  messageRecord (py "message_rejected") context envelope (py "reason", .str reason)

/-- The log of `_route_message` once the receipt is serialized. -/
def routeReceiptLog (m : ConnectionManager) (context : ConnectionContext)
    (envelope : InboundEnvelope) (recipient : PyStr) (ref : ℕ) : List Dict :=
  let receipt := OutboundMessage.messageReceipt (receiptOf context envelope recipient ref)
  if m.isConnected recipient then
    if (m.deliverToClient recipient receipt).2 then
      [messageRecord (py "message_routed") context envelope
        (py "status", .str DeliveryStatus.delivered.value)]
    else [messageRejected context envelope (py "outbound_queue_full")]
  else if (m.enqueueOffline recipient receipt).2 then
    [messageRecord (py "message_queued") context envelope
      (py "status", .str DeliveryStatus.queued.value)]
  else [messageRejected context envelope (py "offline_queue_full")]

/-- The log of `_route_message(manager, context, envelope, recipient)`: of a receipt that cannot be
serialized nothing is logged. -/
def routeMessageLog (lib : Libraries) (m : ConnectionManager) (context : ConnectionContext)
    (envelope : InboundEnvelope) (recipient : PyStr) (ref : ℕ) : List Dict :=
  match lib.dumpPayload envelope.payload with
  | .error _ => []
  | .ok _ => routeReceiptLog m context envelope recipient ref

/-- The log of `_handle_message_send(manager, context, envelope)`. -/
def handleMessageSendLog (lib : Libraries) (m : ConnectionManager) (context : ConnectionContext)
    (envelope : InboundEnvelope) (ref : ℕ) : List Dict :=
  if envelope.sender ≠ context.routingIdentity then
    [messageRejected context envelope (py "sender_mismatch")]
  else
    match envelope.recipient with
    | none => []
    | some recipient => routeMessageLog lib m context envelope recipient ref

/-- The log of `_handle_privileged(manager, context, envelope)`. -/
def handlePrivilegedLog (lib : Libraries) (m : ConnectionManager) (context : ConnectionContext)
    (envelope : InboundEnvelope) (ref : ℕ) : List Dict :=
  match envelope.type with
  | .messageSend => handleMessageSendLog lib m context envelope ref
  | _ => []

/-- The log of `_authenticate_connection` before its await. -/
def beginAuthenticationLog (context : ConnectionContext) (envelope : InboundEnvelope) :
    List Dict :=
  let refused := [logRecord (py "websocket_auth_failure") context
    [(py "reason", .str (py "missing_or_oversized_token"))]]
  if context.authenticated then []
  else
    match dictGet envelope.payload (py "access_token") with
    | some (.str rawToken) =>
        if rawToken = [] ∨ maxTokenLength < rawToken.length then refused else []
    | _ => refused

/-- `exc.internal_reason or exc.code.value`. -/
def AuthError.loggedReason (e : AuthError) : PyStr :=
  match e.internalReason with
  | none => e.code.value
  | some [] => e.code.value
  | some reason => reason

/-- The log of `_authenticate_connection` after its await; the identity is bound by then. -/
def finishAuthenticationLog (context : ConnectionContext) :
    Except AuthError AuthenticatedIdentity → List Dict
  | .error e =>
      [logRecord (py "websocket_auth_failure") context [(py "reason", .str e.loggedReason)]]
  | .ok identity => [logRecord (py "websocket_auth_success") (context.authenticate identity) []]

/-- The log of the loop that puts the responses on the connection's own queue. -/
def respondLog (m : ConnectionManager) (cid : ConnId) (responses : List OutboundMessage) :
    List Dict :=
  let enqueued := enqueueResponses m cid responses
  if enqueued.2 then []
  else [logRecord (py "websocket_backpressure_close") (enqueued.1.contexts cid) []]

/-- The log of the dispatch of a validated envelope. -/
def dispatchLog (lib : Libraries) (m : ConnectionManager) (cid : ConnId)
    (context : ConnectionContext) (envelope : InboundEnvelope) (clock : Datetime) (ref : ℕ) :
    List Dict :=
  match envelope.type with
  | .authAuthenticate =>
      beginAuthenticationLog context envelope ++
        match beginAuthentication context envelope with
        | .error responses => respondLog m cid responses
        | .ok _ => []
  | .heartbeatPing => respondLog m cid [.heartbeatPong envelope.messageId clock]
  | type =>
      if type ∈ MessageType.privileged then
        handlePrivilegedLog lib m context envelope ref ++
          match handlePrivileged lib m context envelope ref with
          | .error _ => []
          | .ok handled => respondLog handled.1 cid handled.2
      else respondLog m cid [errorMessage .internalProtocolError (some envelope.messageId)]

/-- The log of the handling of a frame that passed the size and the rate check. -/
def handleFrameLog (lib : Libraries) (m : ConnectionManager) (cid : ConnId)
    (context : ConnectionContext) (rawText : PyStr) (clock : Datetime) (ref : ℕ) : List Dict :=
  validateInboundLog lib context rawText ++
    match validateInbound lib context rawText with
    | .error _ => []
    | .ok (none, errors) => respondLog m cid errors
    | .ok (some envelope, _) => dispatchLog lib m cid context envelope clock ref

/-- The log of one iteration of `_receive_loop` on a frame. -/
def receiveFrameLog (lib : Libraries) (m : ConnectionManager) (cid : ConnId)
    (context : ConnectionContext) (rawText : PyStr) (now : ℚ) (clock : Datetime) (ref : ℕ) :
    List Dict :=
  match utf8Length rawText with
  | .error _ => []
  | .ok size =>
      if m.limits.maxMessageBytes < size then
        -- the field counts code points, though the bound is on bytes
        [logRecord (py "oversized_message_rejected") context
          [(py "size_bytes", .int rawText.length)]]
      else if (context.allow now).2 = false then
        [logRecord (py "rate_limit_triggered") context []]
      else
        handleFrameLog lib ((m.modifyContext cid fun c => c.touch now).modifyContext cid
          fun c => (c.allow now).1) cid context rawText clock ref

/-- The log of the receive loop when `wait_for(receive_text())` raises. -/
def receiveRaisesLog (context : ConnectionContext) : PyError → List Dict
  | .timeoutError =>
      if context.authenticated then [logRecord (py "websocket_idle_timeout") context []]
      else [logRecord (py "websocket_auth_deadline_expired") context []]
  | _ => []

/-- `active_connections=manager.connection_count`. -/
def activeConnections (m : ConnectionManager) : Dict :=
  [(py "active_connections", .int m.connections.card)]

/-- The log of `unregister` and what follows it in the `finally` block. -/
def unregisterLog (m : ConnectionManager) (cid : ConnId) : List Dict :=
  [logRecord (py "websocket_disconnected") ((m.unregister cid).contexts cid)
    (activeConnections (m.unregister cid))]

/-- The log of `_reject_upgrade`. -/
def rejectUpgradeLog (code : ProtocolErrorCode) : Dict :=
  logRecord (py "websocket_rejected") none [(py "reason", .str code.value)]

/-! ### What a step logs -/

/-- What a step of one connection logs. -/
def handlerLog (lib : Libraries) (m : ConnectionManager) (ref : ℕ) (cid : ConnId) (h : Handler) :
    HandlerAction → List Dict
  | .accepted none =>
      [logRecord (py "websocket_connected") (m.contexts cid) (activeConnections m)]
  | .frame rawText now clock =>
      (m.contexts cid).elim [] fun context =>
        receiveFrameLog lib m cid context rawText now clock ref
  | .receiveRaises e => (m.contexts cid).elim [] fun context => receiveRaisesLog context e
  | .resolved result =>
      match h.phase, m.contexts cid with
      | .authenticating envelope _, some context =>
          let finished := finishAuthentication m cid context envelope result
          finishAuthenticationLog context result ++ respondLog finished.1 cid finished.2
      | _, _ => []
  | .writerAwaited =>
      match h.writer with
      -- the exception passes over the end of the block
      | .failed _ => []
      | _ => unregisterLog m cid
  | .writerAwaitCancelled => unregisterLog m cid
  | _ => []

/-- What the beginning of `websocket_transport` logs. -/
def connectLog (s : ServerState) (cid : ConnId) (hex : PyStr) (origin : Option PyStr) (now : ℚ) :
    List Dict :=
  if s.manager.limits.isOriginAllowed origin = false then
    [logRecord (py "origin_rejected") none [], rejectUpgradeLog .originRejected]
  else
    match s.manager.register cid (provisionalId hex) now with
    | .error _ => [rejectUpgradeLog .connectionLimit]
    | .ok _ => []

/-- What a step of the server logs. -/
def serverLog (lib : Libraries) (e : ServerState × ServerAction) : List Dict :=
  match e.2 with
  | .connect cid hex origin now => connectLog e.1 cid hex origin now
  | .act cid a =>
      (e.1.handlers cid).elim [] fun h => handlerLog lib e.1.manager e.1.nextRef cid h a

/-! ### The log does not depend on payloads and tokens -/

section Alike

variable {P : Dict → Dict → Prop} {lib : Libraries} {limits : TransportLimits}
  {m m' : ConnectionManager} {c c' : ConnectionContext} {e e' : InboundEnvelope}

/-- Two contexts that differ in their queues are recorded alike. -/
theorem logRecord_alike (h : ContextsAlike P c c') (event : PyStr) (fields : Dict) :
    logRecord event (some c') fields = logRecord event (some c) fields := by
  rw [h.rest]
  rfl

/-- So is the context object of a connection, if there is one. -/
theorem logRecord_contexts_alike (h : ManagersAlike P m m') (cid : ConnId) (event : PyStr)
    (fields : Dict) :
    logRecord event (m'.contexts cid) fields = logRecord event (m.contexts cid) fields := by
  rcases cases_of_rel (h.contexts cid) with ⟨hc, hc'⟩ | ⟨c, c', hc, hc', hcc⟩
  · rw [hc, hc']
  · rw [hc, hc']
    exact logRecord_alike hcc event fields

theorem validationFailed_alike (h : ContextsAlike P c c') (reason : PyStr) :
    validationFailed c' reason = validationFailed c reason :=
  congrArg (fun record => [record]) (logRecord_alike h _ _)

theorem validateTypedLog_alike {d d' : Dict} (hd : ObjectsAlike lib P d d')
    (hc : ContextsAlike P c c') (type : MessageType) :
    validateTypedLog lib c' d' type = validateTypedLog lib c d type := by
  unfold validateTypedLog
  rw [hc.authenticated, validationFailed_alike hc, validationFailed_alike hc,
    logRecord_alike hc]
  rcases cases_of_rel (hd.modelValidate lib) with ⟨he, he'⟩ | ⟨e, e', he, he', -⟩
  · rw [he, he']
  · rw [he, he']

theorem validateDictLog_alike {d d' : Dict} (hd : ObjectsAlike lib P d d')
    (hc : ContextsAlike P c c') : validateDictLog lib c' d' = validateDictLog lib c d := by
  unfold validateDictLog
  rw [hd.others (py "version") (by decide), hd.others (py "type") (by decide),
    validationFailed_alike hc, validationFailed_alike hc]
  split_ifs
  · rfl
  cases (dictGet d (py "type")).bind InboundEnvelope.typeField with
  | none => rfl
  | some type => exact validateTypedLog_alike hd hc type

/-- **The validation of two related frames logs the same.** -/
theorem validateInboundLog_alike {t t' : PyStr} (ht : LoadsAlike lib P (lib.loads t) (lib.loads t'))
    (hc : ContextsAlike P c c') : validateInboundLog lib c' t' = validateInboundLog lib c t := by
  unfold validateInboundLog
  generalize lib.loads t = l at ht ⊢
  generalize lib.loads t' = l' at ht ⊢
  cases ht with
  | object hd => exact validateDictLog_alike hd hc
  | same hobject =>
      cases l with
      | jsonDecodeError => exact validationFailed_alike hc _
      | valueError | recursionError => rfl
      | value v =>
          cases v with
          | dict d => exact absurd rfl (hobject d)
          | null | bool | int | float | str | list => exact validationFailed_alike hc _

/-- A record about one message does not depend on its payload. -/
theorem messageRecord_alike (hc : ContextsAlike P c c') (he : EnvelopesAlike lib P e e')
    (event : PyStr) (field : PyStr × Json) :
    messageRecord event c' e' field = messageRecord event c e field := by
  unfold messageRecord
  rw [logRecord_alike hc, he.rest]

theorem routeReceiptLog_alike (h : ManagersAlike P m m') (hc : ContextsAlike P c c')
    (he : EnvelopesAlike lib P e e') (recipient : PyStr) (ref : ℕ) :
    routeReceiptLog m' c' e' recipient ref = routeReceiptLog m c e recipient ref := by
  have hreceipt : MessagesAlike P (.messageReceipt (receiptOf c e recipient ref))
      (.messageReceipt (receiptOf c' e' recipient ref)) := receiptOf_alike hc he recipient ref
  unfold routeReceiptLog messageRejected
  dsimp only
  rw [h.isConnected, (h.deliverToClient recipient hreceipt).answer,
    (h.enqueueOffline recipient hreceipt).answer]
  simp only [messageRecord_alike hc he]

/-- Two payloads that are serialized alike are logged alike, or not at all. -/
theorem routeMessageLog_alike (h : ManagersAlike P m m') (hc : ContextsAlike P c c')
    (he : EnvelopesAlike lib P e e') (hsend : e.type = .messageSend) (recipient : PyStr) (ref : ℕ) :
    routeMessageLog lib m' c' e' recipient ref = routeMessageLog lib m c e recipient ref := by
  have hdumps := he.dumps hsend
  unfold routeMessageLog
  unfold DumpsAlike at hdumps
  cases hp : lib.dumpPayload e.payload with
  | error ex =>
      cases hp' : lib.dumpPayload e'.payload with
      | error ex' => rfl
      | ok dumped' =>
          rw [hp, hp'] at hdumps
          cases hdumps
  | ok dumped =>
      cases hp' : lib.dumpPayload e'.payload with
      | error ex' =>
          rw [hp, hp'] at hdumps
          cases hdumps
      | ok dumped' => exact routeReceiptLog_alike h hc he recipient ref

theorem handlePrivilegedLog_alike (h : ManagersAlike P m m') (hc : ContextsAlike P c c')
    (he : EnvelopesAlike lib P e e') (ref : ℕ) :
    handlePrivilegedLog lib m' c' e' ref = handlePrivilegedLog lib m c e ref := by
  have htype : e'.type = e.type := by rw [he.rest]
  have hsender : e'.sender = e.sender := by rw [he.rest]
  have hrecipient : e'.recipient = e.recipient := by rw [he.rest]
  unfold handlePrivilegedLog handleMessageSendLog messageRejected
  rw [htype, hsender, hrecipient, hc.routingIdentity, messageRecord_alike hc he]
  cases hvalue : e.type with
  | messageSend => simp only [routeMessageLog_alike h hc he hvalue]
  | connectionReady | messageReceipt | messageDeliveryAck | heartbeatPong | protocolError
  | authReady | heartbeatPing | authAuthenticate | queueStatus => rfl

/-- What is refused is logged, unless the connection is authenticated already. -/
theorem beginAuthenticationLog_eq (c : ConnectionContext) (e : InboundEnvelope) :
    beginAuthenticationLog c e =
      if c.authenticated then []
      else
        match beginAuthentication c e with
        | .ok _ => []
        | .error _ => [logRecord (py "websocket_auth_failure") c
            [(py "reason", .str (py "missing_or_oversized_token"))]] := by
  unfold beginAuthenticationLog beginAuthentication
  by_cases hauth : c.authenticated = true
  · rw [if_pos hauth, if_pos hauth]
  rw [if_neg hauth, if_neg hauth, if_neg hauth]
  cases dictGet e.payload (py "access_token") with
  | none => rfl
  | some value =>
      cases value with
      | str rawToken =>
          dsimp only
          split_ifs <;> rfl
      | null | bool | int | float | list | dict => rfl

theorem beginAuthenticationLog_alike (hc : ContextsAlike P c c') (he : EnvelopesAlike lib P e e')
    (htype : e.type = .authAuthenticate) :
    beginAuthenticationLog c' e' = beginAuthenticationLog c e := by
  rw [beginAuthenticationLog_eq, beginAuthenticationLog_eq, hc.authenticated,
    logRecord_alike hc]
  rcases beginAuthentication_alike hc he htype with ⟨responses, hr, hr'⟩ | ⟨t, t', ht, ht'⟩
  · rw [hr, hr']
  · rw [ht, ht']

theorem respondLog_alike (h : ManagersAlike P m m') (cid : ConnId) {l l' : List OutboundMessage}
    (hl : List.Forall₂ (MessagesAlike P) l l') : respondLog m' cid l' = respondLog m cid l := by
  have hqueued := ManagersAlike.enqueueResponses cid hl h
  unfold respondLog
  dsimp only
  rw [hqueued.answer, logRecord_contexts_alike hqueued.state]

/-- Answers without a receipt are the same in both. -/
theorem respondLog_plain (h : ManagersAlike P m m') (cid : ConnId) {l : List OutboundMessage}
    (hl : ∀ r ∈ l, r.receipt? = none) : respondLog m' cid l = respondLog m cid l :=
  respondLog_alike h cid (forall₂_alike_of_plain hl)

theorem dispatchLog_alike (h : ManagersAlike P m m') (cid : ConnId) (hc : ContextsAlike P c c')
    (he : EnvelopesAlike lib P e e') (clock : Datetime) (ref : ℕ) :
    dispatchLog lib m' cid c' e' clock ref = dispatchLog lib m cid c e clock ref := by
  have hid : e'.messageId = e.messageId := by rw [he.rest]
  have htype : e'.type = e.type := by rw [he.rest]
  have hhandled := h.handlePrivileged hc he ref
  unfold dispatchLog
  rw [htype, hid]
  cases heq : e.type with
  | authAuthenticate =>
      dsimp only
      rw [beginAuthenticationLog_alike hc he heq]
      rcases beginAuthentication_alike hc he heq with ⟨responses, hr, hr'⟩ | ⟨t, t', ht, ht'⟩
      · rw [hr, hr']
        dsimp only
        rw [respondLog_plain h cid (receipt?_beginAuthentication hr)]
      · rw [ht, ht']
  | heartbeatPing =>
      exact respondLog_plain h cid fun r hr => by
        rw [List.mem_singleton.1 hr]
        rfl
  | messageSend | queueStatus =>
      dsimp only
      rw [if_pos (by decide), if_pos (by decide), handlePrivilegedLog_alike h hc he]
      have hplain := @receipt?_handlePrivileged lib m c e ref
      generalize handlePrivileged lib m c e ref = x at hhandled hplain ⊢
      generalize handlePrivileged lib m' c' e' ref = x' at hhandled ⊢
      cases hhandled with
      | raised error => rfl
      | returned hboth =>
          dsimp only
          rw [hboth.answer, respondLog_plain hboth.state cid (hplain rfl)]
  | connectionReady | messageReceipt | messageDeliveryAck | heartbeatPong | protocolError
  | authReady =>
      dsimp only
      rw [if_neg (by decide), if_neg (by decide)]
      exact respondLog_plain h cid fun r hr => by
        rw [List.mem_singleton.1 hr]
        rfl

theorem handleFrameLog_alike (h : ManagersAlike P m m') (cid : ConnId)
    (hc : ContextsAlike P c c') {t t' : PyStr} (ht : LoadsAlike lib P (lib.loads t) (lib.loads t'))
    (clock : Datetime) (ref : ℕ) :
    handleFrameLog lib m' cid c' t' clock ref = handleFrameLog lib m cid c t clock ref := by
  have hverdict := validateInbound_alike lib ht hc.authenticated
  unfold handleFrameLog
  rw [validateInboundLog_alike ht hc]
  congr 1
  generalize validateInbound lib c t = v at hverdict ⊢
  generalize validateInbound lib c' t' = v' at hverdict ⊢
  cases hverdict with
  | raised e => rfl
  | rejected code id =>
      exact respondLog_plain h cid fun r hr => by
        rw [List.mem_singleton.1 hr]
        rfl
  | accepted he => exact dispatchLog_alike h cid hc he clock ref

/-- **Two related frames are logged alike.** -/
theorem receiveFrameLog_alike (h : ManagersAlike P m m') (hlimits : m.limits = limits)
    (cid : ConnId) (hc : ContextsAlike P c c') {t t' : PyStr}
    (ht : FramesAlike lib limits P t t') (now : ℚ) (clock : Datetime) (ref : ℕ) :
    receiveFrameLog lib m' cid c' t' now clock ref =
      receiveFrameLog lib m cid c t now clock ref := by
  have hcounted := (h.modifyContext cid (f := fun c => c.touch now)
    fun _ _ hcc => hcc.touch now).modifyContext cid (f := fun c => (c.allow now).1)
      fun _ _ hcc => (hcc.allow now).state
  unfold receiveFrameLog
  rw [h.limits, hlimits]
  cases ht with
  | notEncodable hn hn' => rw [hn, hn']
  | tooLarge hn hn' hlarge hlarge' hlength =>
      rw [hn, hn']
      dsimp only
      rw [if_pos hlarge, if_pos hlarge', hlength, logRecord_alike hc]
  | admitted hn hn' hfits hfits' hloads =>
      rw [hn, hn']
      dsimp only
      rw [if_neg (not_lt.2 hfits), if_neg (not_lt.2 hfits'), (hc.allow now).answer,
        logRecord_alike hc, handleFrameLog_alike hcounted cid hc hloads]

theorem unregisterLog_alike (h : ManagersAlike P m m') (cid : ConnId) :
    unregisterLog m' cid = unregisterLog m cid := by
  unfold unregisterLog activeConnections
  rw [logRecord_contexts_alike (h.unregister cid), (h.unregister cid).connections]

/-- A resolution is logged alike. -/
theorem resolvedLog_alike (h : ManagersAlike P m m') (cid : ConnId) (hc : ContextsAlike P c c')
    (hid : e'.messageId = e.messageId) (result : Except AuthError AuthenticatedIdentity) :
    finishAuthenticationLog c' result ++
        respondLog (finishAuthentication m' cid c' e' result).1 cid
          (finishAuthentication m' cid c' e' result).2 =
      finishAuthenticationLog c result ++
        respondLog (finishAuthentication m cid c e result).1 cid
          (finishAuthentication m cid c e result).2 := by
  obtain ⟨hfinished, hresponses⟩ := h.finishAuthentication cid hc hid result
  rw [respondLog_alike hfinished cid hresponses]
  cases result with
  | error e => exact congrArg (· ++ _) (congrArg (fun r => [r]) (logRecord_alike hc _ _))
  | ok identity =>
      exact congrArg (· ++ _)
        (congrArg (fun r => [r]) (logRecord_alike (hc.authenticate identity) _ _))

/-! ### Steps and runs -/

variable {hd hd' : Handler} {s s' : ServerState}

/-- **Two related steps of a connection log the same.** -/
theorem handlerLog_alike (hm : ManagersAlike P m m') (hlimits : m.limits = limits)
    (h : HandlersAlike P hd hd') (cid : ConnId) {a a' : HandlerAction}
    (ha : HandlerActionsAlike lib limits P a a') (ref : ℕ) :
    handlerLog lib m' ref cid hd' a' = handlerLog lib m ref cid hd a := by
  cases ha with
  | frame ht now clock =>
      simp only [handlerLog]
      rcases cases_of_rel (hm.contexts cid) with ⟨hc, hc'⟩ | ⟨c, c', hc, hc', hcc⟩
      · rw [hc, hc', Option.elim_none, Option.elim_none]
      · rw [hc, hc', Option.elim_some, Option.elim_some,
          receiveFrameLog_alike hm hlimits cid hcc ht]
  | same hframe =>
      cases a with
      | frame t now clock => exact absurd rfl (hframe t now clock)
      | accepted outcome =>
          cases outcome with
          | none =>
              simp only [handlerLog, activeConnections]
              rw [logRecord_contexts_alike hm, hm.connections]
          | some e => rfl
      | receiveRaises e =>
          simp only [handlerLog]
          rcases cases_of_rel (hm.contexts cid) with ⟨hc, hc'⟩ | ⟨c, c', hc, hc', hcc⟩
          · rw [hc, hc', Option.elim_none]
          · rw [hc, hc', Option.elim_some, Option.elim_some]
            unfold receiveRaisesLog
            rw [hcc.authenticated, logRecord_alike hcc, logRecord_alike hcc]
      | resolved result =>
          have hphase := h.phase
          simp only [handlerLog]
          generalize hd.phase = p at hphase ⊢
          generalize hd'.phase = p' at hphase ⊢
          rcases cases_of_rel (hm.contexts cid) with ⟨hc, hc'⟩ | ⟨c, c', hc, hc', hcc⟩
          · rw [hc, hc']
            cases hphase with
            | authenticating => rfl
            | same hp => cases p <;> rfl
          · rw [hc, hc']
            cases hphase with
            | authenticating _ _ hid => exact resolvedLog_alike hm cid hcc hid result
            | same hp =>
                cases p with
                | authenticating envelope rawToken => exact absurd rfl (hp envelope rawToken)
                | accepting | receiving | flushing | stoppingWriter | closing | finished => rfl
      | writerAwaited =>
          have hwriter := h.writer
          have hunregistered := unregisterLog_alike hm cid
          simp only [handlerLog]
          generalize hd.writer = w at hwriter ⊢
          generalize hd'.writer = w' at hwriter ⊢
          cases hwriter with
          | sending => exact hunregistered
          | same hw =>
              cases w with
              | failed e => rfl
              | absent | waiting | sending | returned | cancelled => exact hunregistered
      | writerAwaitCancelled => exact unregisterLog_alike hm cid
      | frameRaises | resolveRaises | flushed | closed | writerGets | writerSends
      | writerCancelled => rfl

/-- An arrival is logged alike. -/
theorem connectLog_alike (h : ServersAlike P s s') (cid : ConnId) (hex : PyStr)
    (origin : Option PyStr) (now : ℚ) :
    connectLog s' cid hex origin now = connectLog s cid hex origin now := by
  unfold connectLog
  rw [h.manager.limits]
  rcases h.manager.register cid (provisionalId hex) now with
    ⟨reason, hr, hr'⟩ | ⟨n, n', hn, hn', -⟩
  · rw [hr, hr']
  · rw [hn, hn']

/-- **Two related steps of the server log the same.** -/
theorem serverLog_alike (h : ServersAlike P s s') (hlimits : s.manager.limits = limits)
    {a b : ServerAction} (hab : ServerActionsAlike lib limits P a b) :
    serverLog lib (s', b) = serverLog lib (s, a) := by
  cases hab with
  | connect cid hex origin now => exact connectLog_alike h cid hex origin now
  | act cid ha =>
      simp only [serverLog]
      rcases cases_of_rel (h.handlers cid) with ⟨hd, hd'⟩ | ⟨hd, hd', hhd, hhd', hhh⟩
      · rw [hd, hd', Option.elim_none, Option.elim_none]
      · rw [hhd, hhd', Option.elim_some, Option.elim_some, h.nextRef]
        exact handlerLog_alike h.manager hlimits hhh cid ha s.nextRef

end Alike

/-- **The log is blind.**  Whatever is changed in the payloads and tokens of the frames of a run,
the transport writes the same log, record by record. -/
theorem transport_log_is_blind (lib : Libraries) (limits : TransportLimits)
    (P : Dict → Dict → Prop) {s : ServerState} {tr : List (ServerState × ServerAction)}
    (h : (serverSystem lib limits).Run (.new limits) tr s) {labels : List ServerAction}
    (hlabels : List.Forall₂ (ServerActionsAlike lib limits P) (tr.map Prod.snd) labels) :
    ∃ tr' s', (serverSystem lib limits).Run (.new limits) tr' s' ∧ tr'.map Prod.snd = labels ∧
      tr'.flatMap (serverLog lib) = tr.flatMap (serverLog lib) := by
  obtain ⟨tr', s', hrun, hsame, hentries, -⟩ := (payloadLockstep lib limits P).run h
    ⟨ServersAlike.new P limits, ServerState.inv_new limits⟩ hlabels
  refine ⟨tr', s', hrun, hsame, (payloadLockstep lib limits P).output ?_ hentries⟩
  rintro e e' ⟨⟨hs, hinv⟩, hab⟩
  exact serverLog_alike hs hinv.limits_eq hab

/-- A note and its token are not in the log of the run they are sent in. -/
theorem transport_log_is_blind_sealed :
    ∃ tr s, (serverSystem noteLibraries onePending).Run (.new onePending) tr s ∧
      tr.map Prod.snd = aliceNotes (py "token") (py "hello") ∧
      ∃ tr' s', (serverSystem noteLibraries onePending).Run (.new onePending) tr' s' ∧
        tr'.map Prod.snd = aliceNotes (py "sealed") (py "sealed") ∧
        tr'.flatMap (serverLog noteLibraries) = tr.flatMap (serverLog noteLibraries) := by
  obtain ⟨s, hs, hrun, -⟩ := exists_aliceNotes
  have hlabels := System.map_snd_traceOf hs
  have halike := aliceNotes_alike
  rw [← hlabels] at halike
  obtain ⟨tr', s', hrun', hsame, hlog⟩ :=
    transport_log_is_blind noteLibraries onePending Sealed hrun halike
  exact ⟨_, s, hrun, hlabels, tr', s', hrun', hsame, hlog⟩

end EncryptChat
