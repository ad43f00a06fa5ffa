/-
**Which operations the endpoint's functions perform.**

Every function of the endpoint changes the manager by operations of `EncryptChat.ManagerOp`.  The
handling of a frame uses quiet operations only, and the one place where it puts a receipt on a queue
is `_route_message`, behind the authorization gate and the check of the sender.

Main definitions:

* `EncryptChat.ManagerOp.QuietPutting` — quiet operations that put messages of a class;
* `EncryptChat.OutboundMessage.receipt?` — the receipt a message is, if it is one;
* `EncryptChat.SentBy` — the serialized receipt of a `message.send` of a context.

Main results:

* `EncryptChat.verdict_validateInbound`, `EncryptChat.authenticated_of_messageSend` — **the
  authorization gate**;
* `EncryptChat.routeMessage_eq_ok_iff`, `EncryptChat.handleMessageSend_cases` — what has happened
  when a message is routed;
* `EncryptChat.fst_routeReceipt`, `EncryptChat.snd_routeReceipt` — what routing does and tells;
* `EncryptChat.reaches_receiveFrame` — the operations of one iteration of the receive loop.
-/

import EncryptChat.Endpoint
import EncryptChat.ManagerFrame

set_option relaxedAutoImplicit false
set_option autoImplicit false

namespace EncryptChat

open Python ConnectionManager

/-! ### The authorization gate -/

/-- The type of a validated envelope is the one the gate has seen. -/
theorem InboundEnvelope.type_of_modelValidate {lib : Libraries} {d : Dict}
    {envelope : InboundEnvelope} (h : modelValidate lib d = some envelope) :
    (dictGet d (py "type")).bind typeField = some envelope.type := by
  simp only [modelValidate, Option.bind_eq_bind, Option.bind_eq_some_iff, Option.pure_def,
    Option.some.injEq] at h
  obtain ⟨-, -, -, -, -, -, type, htype, -, -, -, -, -, -, -, -, -, -, rfl⟩ := h
  exact Option.bind_eq_some_iff.2 htype

/-- The sender of a validated envelope is an identifier of the wire. -/
theorem InboundEnvelope.sender_of_modelValidate {lib : Libraries} {d : Dict}
    {envelope : InboundEnvelope} (h : modelValidate lib d = some envelope) :
    transportIdentifier envelope.sender = true := by
  simp only [modelValidate, Option.bind_eq_bind, Option.bind_eq_some_iff, Option.pure_def,
    Option.some.injEq] at h
  obtain ⟨-, -, -, -, -, -, -, -, sender, ⟨value, -, hsender⟩, -, -, -, -, -, -, -, -, rfl⟩ := h
  cases value with
  | str s =>
      simp only [identifierField] at hsender
      split_ifs at hsender with hname
      cases hsender
      exact hname
  | _ => cases hsender

/-- A frame is rejected with one error, or the envelope has passed the gate and the schema. -/
def Verdict (lib : Libraries) (context : ConnectionContext) (parsed : Dict)
    (verdict : Option InboundEnvelope × List OutboundMessage) : Prop :=
  (∃ code id, verdict = rejection code id) ∨
    ∃ envelope, verdict = (some envelope, []) ∧
      InboundEnvelope.modelValidate lib parsed = some envelope ∧
      envelope.type ∈ MessageType.clientSendable ∧
      (context.authenticated = true ∨ envelope.type ∈ MessageType.unauthenticatedSendable)

theorem verdict_validateTyped (lib : Libraries) (context : ConnectionContext) {parsed : Dict}
    {messageType : MessageType}
    (htype : (dictGet parsed (py "type")).bind InboundEnvelope.typeField = some messageType) :
    Verdict lib context parsed (validateTyped lib context parsed messageType) := by
  unfold validateTyped
  by_cases hclient : messageType ∈ MessageType.clientSendable
  swap
  · rw [if_pos hclient]
    exact .inl ⟨_, _, rfl⟩
  rw [if_neg (not_not.2 hclient)]
  split_ifs with hgate
  · exact .inl ⟨_, _, rfl⟩
  · cases hvalid : InboundEnvelope.modelValidate lib parsed with
    | none => exact .inl ⟨_, _, rfl⟩
    | some envelope =>
        have heq := InboundEnvelope.type_of_modelValidate hvalid
        rw [htype, Option.some.injEq] at heq
        subst heq
        refine .inr ⟨envelope, rfl, hvalid, hclient, ?_⟩
        by_cases hauth : context.authenticated = true
        · exact .inl hauth
        · exact .inr (by_contra fun hun => hgate ⟨by simpa using hauth, hun⟩)

theorem verdict_validateDict (lib : Libraries) (context : ConnectionContext) (parsed : Dict) :
    Verdict lib context parsed (validateDict lib context parsed) := by
  unfold validateDict
  split_ifs
  · exact .inl ⟨_, _, rfl⟩
  · cases htype : (dictGet parsed (py "type")).bind InboundEnvelope.typeField with
    | none => exact .inl ⟨_, _, rfl⟩
    | some messageType => exact verdict_validateTyped lib context htype

/-- What `_validate_inbound` returns, when it returns. -/
theorem verdict_validateInbound {lib : Libraries} {context : ConnectionContext} {rawText : PyStr}
    {verdict : Option InboundEnvelope × List OutboundMessage}
    (h : validateInbound lib context rawText = .ok verdict) :
    (∃ code id, verdict = rejection code id) ∨
      ∃ envelope, verdict = (some envelope, []) ∧ envelope.type ∈ MessageType.clientSendable ∧
        (context.authenticated = true ∨
          envelope.type ∈ MessageType.unauthenticatedSendable) := by
  unfold validateInbound at h
  split at h
  · cases h
    exact .inl ⟨_, _, rfl⟩
  · cases h
  · cases h
  · cases h
    rcases verdict_validateDict lib context _ with hrej | ⟨envelope, heq, -, hpassed⟩
    · exact .inl hrej
    · exact .inr ⟨envelope, heq, hpassed⟩
  · cases h
    exact .inl ⟨_, _, rfl⟩

/-- What a validated frame has passed. -/
theorem validateInbound_eq_some {lib : Libraries} {context : ConnectionContext} {rawText : PyStr}
    {envelope : InboundEnvelope} {errors : List OutboundMessage}
    (h : validateInbound lib context rawText = .ok (some envelope, errors)) :
    errors = [] ∧ envelope.type ∈ MessageType.clientSendable ∧
      (context.authenticated = true ∨ envelope.type ∈ MessageType.unauthenticatedSendable) := by
  rcases verdict_validateInbound h with ⟨code, id, hrej⟩ | ⟨envelope', heq, hpassed⟩
  · simp [rejection] at hrej
  · simp only [Prod.mk.injEq, Option.some.injEq] at heq
    obtain ⟨rfl, rfl⟩ := heq
    exact ⟨rfl, hpassed⟩

/-- A frame that is not accepted is owed one error. -/
theorem validateInbound_eq_none {lib : Libraries} {context : ConnectionContext} {rawText : PyStr}
    {errors : List OutboundMessage}
    (h : validateInbound lib context rawText = .ok (none, errors)) :
    ∃ code id, errors = [errorMessage code id] := by
  rcases verdict_validateInbound h with ⟨code, id, hrej⟩ | ⟨envelope, heq, -⟩
  · simp only [rejection, Prod.mk.injEq, true_and] at hrej
    exact ⟨code, id, hrej⟩
  · simp at heq

/-- **The authorization gate**: a `message.send` only passes on an authenticated connection. -/
theorem authenticated_of_messageSend {lib : Libraries} {context : ConnectionContext}
    {rawText : PyStr} {envelope : InboundEnvelope} {errors : List OutboundMessage}
    (h : validateInbound lib context rawText = .ok (some envelope, errors))
    (hsend : envelope.type = .messageSend) : context.authenticated = true := by
  rcases (validateInbound_eq_some h).2.2 with hauth | hun
  · exact hauth
  · rw [hsend] at hun
    exact absurd hun (by decide)

/-! ### Receipts -/

/-- The receipt a message is, if it is one. -/
def OutboundMessage.receipt? : OutboundMessage → Option MessageReceipt
  | messageReceipt receipt => some receipt
  | _ => none

@[simp] theorem receipt?_errorMessage (code : ProtocolErrorCode) (id : Option Uuid) :
    (errorMessage code id).receipt? = none := rfl

/-- The message is the receipt of a `message.send` the context sent under its own name, and can be
serialized. -/
def SentBy (lib : Libraries) (context : ConnectionContext) (envelope : InboundEnvelope) (ref : ℕ)
    (message : OutboundMessage) : Prop :=
  envelope.type = .messageSend ∧ envelope.sender = context.routingIdentity ∧
    lib.Dumps envelope.payload ∧ ∃ recipient, envelope.recipient = some recipient ∧
      message = .messageReceipt (receiptOf context envelope recipient ref)

/-! ### Privileged actions -/

/-- What was returned. -/
theorem eq_ok_of_toOption {α : Type} {r : Except PyError α} {a : α} (h : r.toOption = some a) :
    r = .ok a := by
  cases r with
  | error e => cases h
  | ok b => exact congrArg Except.ok (Option.some.inj h)

section Privileged

variable {lib : Libraries} {m : ConnectionManager} {context : ConnectionContext}
  {envelope : InboundEnvelope} {recipient : PyStr} {ref : ℕ}

/-- **A message is routed exactly when its receipt can be serialized.** -/
theorem routeMessage_eq_ok_iff {routed : ConnectionManager × DeliveryStatus} :
    routeMessage lib m context envelope recipient ref = .ok routed ↔
      lib.Dumps envelope.payload ∧ routeReceipt m context envelope recipient ref = routed := by
  unfold routeMessage Libraries.Dumps
  cases lib.dumpPayload envelope.payload <;> simp

/-- A receipt that can be serialized is routed. -/
theorem routeMessage_of_dumps (h : lib.Dumps envelope.payload) :
    routeMessage lib m context envelope recipient ref =
      .ok (routeReceipt m context envelope recipient ref) :=
  routeMessage_eq_ok_iff.2 ⟨h, rfl⟩

/-- A `message.send` that gets as far as being routed. -/
theorem handleMessageSend_of_recipient (hsender : envelope.sender = context.routingIdentity)
    (hrec : envelope.recipient = some recipient) :
    handleMessageSend lib m context envelope ref =
      (routeMessage lib m context envelope recipient ref).map fun routed =>
        (routed.1, [.deliveryAck envelope.messageId routed.2]) := by
  rw [handleMessageSend, if_neg (not_not.2 hsender), hrec]

/-- What `_handle_message_send` has done when it returns. -/
theorem handleMessageSend_cases {handled : ConnectionManager × List OutboundMessage}
    (h : handleMessageSend lib m context envelope ref = .ok handled) :
    (envelope.sender ≠ context.routingIdentity ∧
        handled = (m, [errorMessage .senderMismatch (some envelope.messageId),
          .deliveryAck envelope.messageId .rejected])) ∨
      (envelope.sender = context.routingIdentity ∧ envelope.recipient = none ∧
        handled = (m, [errorMessage .invalidRecipient (some envelope.messageId)])) ∨
      ∃ recipient, envelope.sender = context.routingIdentity ∧
        envelope.recipient = some recipient ∧ lib.Dumps envelope.payload ∧
        handled = ((routeReceipt m context envelope recipient ref).1,
          [.deliveryAck envelope.messageId
            (routeReceipt m context envelope recipient ref).2]) := by
  by_cases hsender : envelope.sender = context.routingIdentity
  swap
  · rw [handleMessageSend, if_pos hsender, Except.ok.injEq] at h
    exact .inl ⟨hsender, h.symm⟩
  cases hrec : envelope.recipient with
  | none =>
      rw [handleMessageSend, if_neg (not_not.2 hsender), hrec, Except.ok.injEq] at h
      exact .inr (.inl ⟨hsender, rfl, h.symm⟩)
  | some recipient =>
      rw [handleMessageSend_of_recipient hsender hrec] at h
      cases hroute : routeMessage lib m context envelope recipient ref with
      | error e =>
          rw [hroute] at h
          cases h
      | ok routed =>
          obtain ⟨hdumps, rfl⟩ := routeMessage_eq_ok_iff.1 hroute
          rw [hroute] at h
          cases h
          exact .inr (.inr ⟨recipient, hsender, rfl, hdumps, rfl⟩)

/-- What `_handle_privileged` has done when it returns: a `message.send` is routed, and nothing else
changes the manager. -/
theorem handlePrivileged_cases {handled : ConnectionManager × List OutboundMessage}
    (h : handlePrivileged lib m context envelope ref = .ok handled) :
    (envelope.type = .messageSend ∧
        handleMessageSend lib m context envelope ref = .ok handled) ∨
      (envelope.type ≠ .messageSend ∧
        ∃ response, response.receipt? = none ∧ handled = (m, [response])) := by
  unfold handlePrivileged at h
  split at h
  · rename_i hsend
    exact .inl ⟨hsend, h⟩
  · rename_i htype
    cases h
    exact .inr ⟨by simp [htype], _, rfl, rfl⟩
  · rename_i hsend _
    cases h
    exact .inr ⟨hsend, _, rfl, rfl⟩

/-- **The exception of a `message.send`**: the message would be routed, and its receipt cannot be
serialized. -/
theorem handleMessageSend_eq_error_iff {e : PyError} :
    handleMessageSend lib m context envelope ref = .error e ↔
      envelope.sender = context.routingIdentity ∧ envelope.recipient.isSome = true ∧
        lib.dumpPayload envelope.payload = .error e := by
  by_cases hsender : envelope.sender = context.routingIdentity
  swap
  · rw [handleMessageSend, if_pos hsender]
    exact iff_of_false nofun fun h => hsender h.1
  cases hrec : envelope.recipient with
  | none =>
      rw [handleMessageSend, if_neg (not_not.2 hsender), hrec]
      exact iff_of_false nofun fun h => nomatch h.2.1
  | some recipient =>
      rw [handleMessageSend_of_recipient hsender hrec, routeMessage]
      cases lib.dumpPayload envelope.payload with
      | error e' => simp [hsender, Except.map]
      | ok dumped => exact iff_of_false nofun fun h => nomatch h.2.2

/-- No other privileged action raises. -/
theorem handlePrivileged_eq_error_iff {e : PyError} :
    handlePrivileged lib m context envelope ref = .error e ↔
      envelope.type = .messageSend ∧ handleMessageSend lib m context envelope ref = .error e := by
  unfold handlePrivileged
  split
  · rename_i hsend
    exact (and_iff_right hsend).symm
  · rename_i htype
    exact iff_of_false nofun fun h => by simp [htype] at h
  · rename_i hsend _
    exact iff_of_false nofun fun h => hsend h.1

/-- A privileged action leaves the manager as it is, or puts a receipt on queues. -/
theorem fst_handlePrivileged {handled : ConnectionManager × List OutboundMessage}
    (h : handlePrivileged lib m context envelope ref = .ok handled) :
    handled.1 = m ∨
      ∃ recipient, handled.1 = (routeReceipt m context envelope recipient ref).1 := by
  rcases handlePrivileged_cases h with ⟨-, h⟩ | ⟨-, response, -, rfl⟩
  · rcases handleMessageSend_cases h with ⟨-, rfl⟩ | ⟨-, -, rfl⟩ | ⟨recipient, -, -, -, rfl⟩
    · exact .inl rfl
    · exact .inl rfl
    · exact .inr ⟨recipient, rfl⟩
  · exact .inl rfl

/-- The handling of a `message.send` that is answered. -/
theorem handleFrame_of_handled {rawText : PyStr} {errors : List OutboundMessage}
    {handled : ConnectionManager × List OutboundMessage}
    (hvalid : validateInbound lib context rawText = .ok (some envelope, errors))
    (hsend : envelope.type = .messageSend)
    (h : handleMessageSend lib m context envelope ref = .ok handled) (cid : ConnId)
    (clock : Datetime) :
    handleFrame lib m cid context rawText clock ref = respond handled.1 cid handled.2 := by
  have hpriv : MessageType.messageSend ∈ MessageType.privileged := by decide
  simp only [handleFrame, hvalid, dispatch, handlePrivileged, hsend, if_pos hpriv, h]

/-- The handling of a `message.send` whose receipt cannot be serialized. -/
theorem handleFrame_of_raised {rawText : PyStr} {errors : List OutboundMessage} {e : PyError}
    (hvalid : validateInbound lib context rawText = .ok (some envelope, errors))
    (hsend : envelope.type = .messageSend)
    (h : handleMessageSend lib m context envelope ref = .error e) (cid : ConnId)
    (clock : Datetime) :
    handleFrame lib m cid context rawText clock ref = (m, .raise e) := by
  have hpriv : MessageType.messageSend ∈ MessageType.privileged := by decide
  simp only [handleFrame, hvalid, dispatch, handlePrivileged, hsend, if_pos hpriv, h]

end Privileged

/-! ### The operations -/

/-- The operation is quiet and puts messages of the class `P` at most. -/
def ManagerOp.QuietPutting (P : OutboundMessage → Prop) (op : ManagerOp) : Prop :=
  op.Quiet ∧ ∀ message ∈ op.puts, P message

/-- Operations that are about no connection leave each as it is. -/
theorem ConnectionManager.Reaches.untouched_of_quiet {P : OutboundMessage → Prop}
    {m m' : ConnectionManager} (h : Reaches (ManagerOp.QuietPutting P) m m') (cid : ConnId) :
    Untouched m m' cid :=
  h.untouched fun _ hop => hop.1.not_targets cid

section Reaches

variable {P : OutboundMessage → Prop}

theorem reaches_touch (m : ConnectionManager) (cid : ConnId) (now : ℚ) :
    Reaches (ManagerOp.QuietPutting P) m (m.modifyContext cid fun c => c.touch now) :=
  .single (.touch cid now) ⟨trivial, by simp [ManagerOp.puts]⟩ rfl

theorem reaches_allow (m : ConnectionManager) (cid : ConnId) (now : ℚ) :
    Reaches (ManagerOp.QuietPutting P) m (m.modifyContext cid fun c => (c.allow now).1) :=
  .single (.allow cid now) ⟨trivial, by simp [ManagerOp.puts]⟩ rfl

theorem reaches_enqueueOutbound (m : ConnectionManager) (cid : ConnId) {message : OutboundMessage}
    (h : P message) : Reaches (ManagerOp.QuietPutting P) m (m.enqueueOutbound cid message).1 :=
  .single (.enqueueOutbound cid message) ⟨trivial, by simpa [ManagerOp.puts] using h⟩ rfl

theorem reaches_enqueueResponses (cid : ConnId) :
    ∀ (responses : List OutboundMessage) (m : ConnectionManager), (∀ r ∈ responses, P r) →
      Reaches (ManagerOp.QuietPutting P) m (enqueueResponses m cid responses).1 := by
  intro responses
  induction responses with
  | nil => intro m _; exact .refl m
  | cons r responses ih =>
      intro m hP
      have hfirst := reaches_enqueueOutbound m cid (hP r (by simp))
      simp only [enqueueResponses]
      split_ifs
      · exact hfirst.trans (ih _ fun r' hr' => hP r' (List.mem_cons_of_mem r hr'))
      · exact hfirst

theorem reaches_respond (m : ConnectionManager) (cid : ConnId) {responses : List OutboundMessage}
    (h : ∀ r ∈ responses, P r) :
    Reaches (ManagerOp.QuietPutting P) m (respond m cid responses).1 :=
  reaches_enqueueResponses cid responses m h

/-- **What routing does to the manager**: it delivers the receipt where its recipient is in the
index, and queues it otherwise. -/
theorem fst_routeReceipt (m : ConnectionManager) (context : ConnectionContext)
    (envelope : InboundEnvelope) (recipient : PyStr) (ref : ℕ) :
    (routeReceipt m context envelope recipient ref).1 =
      if m.isConnected recipient then
        (m.deliverToClient recipient (.messageReceipt (receiptOf context envelope recipient ref))).1
      else
        (m.enqueueOffline recipient
          (.messageReceipt (receiptOf context envelope recipient ref))).1 := by
  unfold routeReceipt
  split_ifs <;> rfl

/-- What routing tells the sender. -/
theorem snd_routeReceipt (m : ConnectionManager) (context : ConnectionContext)
    (envelope : InboundEnvelope) (recipient : PyStr) (ref : ℕ) :
    (routeReceipt m context envelope recipient ref).2 =
      if m.isConnected recipient then
        if (m.deliverToClient recipient
          (.messageReceipt (receiptOf context envelope recipient ref))).2 then .delivered
        else .recipientUnavailable
      else
        if (m.enqueueOffline recipient
          (.messageReceipt (receiptOf context envelope recipient ref))).2 then .queued
        else .recipientUnavailable := by
  unfold routeReceipt
  by_cases hconn : m.isConnected recipient = true
  · rw [if_pos hconn, if_pos hconn]
  · rw [if_neg hconn, if_neg hconn]

theorem reaches_routeReceipt (m : ConnectionManager) (context : ConnectionContext)
    (envelope : InboundEnvelope) (recipient : PyStr) (ref : ℕ)
    (h : P (.messageReceipt (receiptOf context envelope recipient ref))) :
    Reaches (ManagerOp.QuietPutting P) m (routeReceipt m context envelope recipient ref).1 := by
  rw [fst_routeReceipt]
  by_cases hconn : m.isConnected recipient = true
  · rw [if_pos hconn]
    exact .single (.deliverToClient recipient _) ⟨trivial, by simpa [ManagerOp.puts] using h⟩
      rfl
  · rw [if_neg hconn]
    exact .single (.enqueueOffline recipient _) ⟨trivial, by simpa [ManagerOp.puts] using h⟩
      rfl

/-- `_handle_message_send` puts a receipt on queues only when the envelope names its own
connection as the sender. -/
theorem reaches_handleMessageSend {lib : Libraries} {m : ConnectionManager}
    {context : ConnectionContext} {envelope : InboundEnvelope} {ref : ℕ}
    {handled : ConnectionManager × List OutboundMessage} (hsend : envelope.type = .messageSend)
    (hhandled : handleMessageSend lib m context envelope ref = .ok handled)
    (h : ∀ message, SentBy lib context envelope ref message → P message) :
    Reaches (ManagerOp.QuietPutting P) m handled.1 := by
  rcases handleMessageSend_cases hhandled with
    ⟨-, rfl⟩ | ⟨-, -, rfl⟩ | ⟨recipient, hsender, hrec, hdumps, rfl⟩
  · exact .refl m
  · exact .refl m
  · exact reaches_routeReceipt m context envelope recipient ref
      (h _ ⟨hsend, hsender, hdumps, recipient, hrec, rfl⟩)

theorem reaches_handlePrivileged {lib : Libraries} {m : ConnectionManager}
    {context : ConnectionContext} {envelope : InboundEnvelope} {ref : ℕ}
    {handled : ConnectionManager × List OutboundMessage}
    (hhandled : handlePrivileged lib m context envelope ref = .ok handled)
    (h : ∀ message, SentBy lib context envelope ref message → P message) :
    Reaches (ManagerOp.QuietPutting P) m handled.1 := by
  rcases handlePrivileged_cases hhandled with ⟨hsend, hhandled⟩ | ⟨-, response, -, rfl⟩
  · exact reaches_handleMessageSend hsend hhandled h
  · exact .refl m

/-- The responses of a privileged action are no receipts. -/
theorem receipt?_handlePrivileged {lib : Libraries} {m : ConnectionManager}
    {context : ConnectionContext} {envelope : InboundEnvelope} {ref : ℕ}
    {handled : ConnectionManager × List OutboundMessage}
    (hhandled : handlePrivileged lib m context envelope ref = .ok handled) :
    ∀ r ∈ handled.2, r.receipt? = none := by
  rcases handlePrivileged_cases hhandled with ⟨-, hhandled⟩ | ⟨-, response, hplain, rfl⟩
  · rcases handleMessageSend_cases hhandled with ⟨-, rfl⟩ | ⟨-, -, rfl⟩ | ⟨_, -, -, -, rfl⟩ <;>
      simp [OutboundMessage.receipt?, errorMessage]
  · simpa using hplain

theorem receipt?_beginAuthentication {context : ConnectionContext} {envelope : InboundEnvelope}
    {responses : List OutboundMessage}
    (h : beginAuthentication context envelope = .error responses) :
    ∀ r ∈ responses, r.receipt? = none := by
  unfold beginAuthentication at h
  split_ifs at h
  · cases h
    simp
  · split at h
    · split_ifs at h
      · cases h
        simp
    · cases h
      simp

/-- **The operations of one iteration of the receive loop**: a receipt is put on a queue only for a
validated `message.send` that the connection sent under its own name. -/
theorem reaches_receiveFrame (lib : Libraries) (m : ConnectionManager) (cid : ConnId)
    (context : ConnectionContext) (rawText : PyStr) (now : ℚ) (clock : Datetime) (ref : ℕ)
    (hnone : ∀ message, message.receipt? = none → P message)
    (hsent : ∀ envelope message, validateInbound lib context rawText = .ok (some envelope, []) →
      SentBy lib context envelope ref message → P message) :
    Reaches (ManagerOp.QuietPutting P) m
      (receiveFrame lib m cid context rawText now clock ref).1 := by
  unfold receiveFrame
  dsimp only
  cases utf8Length rawText with
  | error e => exact reaches_touch m cid now
  | ok size =>
      dsimp only
      have htouch := reaches_touch (P := P) m cid now
      split_ifs with hsize hrate
      · exact htouch.trans (reaches_enqueueOutbound _ cid (hnone _ rfl))
      · exact (htouch.trans (reaches_allow _ cid now)).trans
          (reaches_enqueueOutbound _ cid (hnone _ rfl))
      -- past both checks; what was counted does not matter any more
      · refine (htouch.trans (reaches_allow _ cid now)).trans ?_
        generalize (m.modifyContext cid fun c => c.touch now).modifyContext cid
          (fun c => (c.allow now).1) = m₁
        unfold handleFrame
        split
        · exact .refl m₁
        · rename_i errors hvalid
          obtain ⟨code, id, rfl⟩ := validateInbound_eq_none hvalid
          exact reaches_respond m₁ cid (by simpa using hnone _ rfl)
        · rename_i envelope errors hvalid
          obtain ⟨rfl, -⟩ := validateInbound_eq_some hvalid
          unfold dispatch
          split
          · split
            · rename_i responses hbegin
              exact reaches_respond m₁ cid fun r hr =>
                hnone r (receipt?_beginAuthentication hbegin r hr)
            · exact .refl m₁
          · exact reaches_respond m₁ cid (by simpa using hnone _ rfl)
          · split_ifs
            · split
              · exact .refl m₁
              · rename_i handled hhandled
                refine (reaches_handlePrivileged hhandled fun message hm =>
                  hsent envelope message hvalid hm).trans ?_
                exact reaches_respond _ cid fun r hr =>
                  hnone r (receipt?_handlePrivileged hhandled r hr)
            · exact reaches_respond m₁ cid (by simpa using hnone _ rfl)

end Reaches

/-! ### Token resolutions -/

/-- Answering a frame does not await. -/
theorem respond_ne_resolve (m : ConnectionManager) (cid : ConnId)
    (responses : List OutboundMessage) (envelope : InboundEnvelope) (rawToken : PyStr) :
    (respond m cid responses).2 ≠ .resolve envelope rawToken := by
  unfold respond
  dsimp only
  split_ifs <;> simp

/-- **A token is only resolved for a connection without an identity.** -/
theorem unauthenticated_of_receiveFrame {lib : Libraries} {m : ConnectionManager} {cid : ConnId}
    {context : ConnectionContext} {rawText : PyStr} {now : ℚ} {clock : Datetime} {ref : ℕ}
    {envelope : InboundEnvelope} {rawToken : PyStr}
    (h : (receiveFrame lib m cid context rawText now clock ref).2 =
      .resolve envelope rawToken) : context.authenticated = false := by
  unfold receiveFrame at h
  dsimp only at h
  split at h
  · simp at h
  · split_ifs at h
    unfold handleFrame at h
    split at h
    · simp at h
    · exact absurd h (respond_ne_resolve _ _ _ _ _)
    · unfold dispatch at h
      split at h
      · split at h
        · exact absurd h (respond_ne_resolve _ _ _ _ _)
        · rename_i hbegin
          unfold beginAuthentication at hbegin
          split_ifs at hbegin with hauth
          · simpa using hauth
      · exact absurd h (respond_ne_resolve _ _ _ _ _)
      · split_ifs at h
        · split at h
          · cases h
          · exact absurd h (respond_ne_resolve _ _ _ _ _)
        · exact absurd h (respond_ne_resolve _ _ _ _ _)

end EncryptChat
