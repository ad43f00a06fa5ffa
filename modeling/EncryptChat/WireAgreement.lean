/-
**The two ends of the wire.**

The server builds its messages from the models of its schema, and the client holds what it decodes
against interfaces of its own.  The protocol moved on at one end only: the first message of a
connection lost the fields of the provisional identity, and the message that reports an
authentication is not declared by the client at all.  The rest still agrees, whatever the fields
hold: what is left of a payload when it has been serialized is JSON.

Main definitions:

* `EncryptChat.Agrees` — the client reads what was sent as a value of its union;
* `EncryptChat.Understood` — the messages of which that is true.

Main results:

* `EncryptChat.parseInbound_of_dump` — what the client decodes of a message;
* `EncryptChat.isInboundMessage_iff` — the messages that are in the union;
* `EncryptChat.wire_agreement_iff` — **the messages the two ends agree on**.
-/

import EncryptChat.ClientProtocol
import EncryptChat.PayloadTransit

set_option relaxedAutoImplicit false
set_option autoImplicit false

namespace EncryptChat

open Python

/-- The text of what was serialized is decoded to a value of the union, whose summary is a string in
which nothing is `undefined`. -/
def Agrees (w : Serializers) (fields : Dict) : Prop :=
  ∃ object, Client.parseInbound w.floats (dumps w.floats (.dict fields)) = some object ∧
    Client.IsInboundMessage object ∧
    ∃ parts, Client.summarize object = some parts ∧ ∀ part ∈ parts, part.isDefined = true

/-- The kind of a message. -/
def OutboundMessage.type : OutboundMessage → MessageType
  | connectionReady .. => .connectionReady
  | authReady .. => .authReady
  | messageReceipt _ => .messageReceipt
  | deliveryAck .. => .messageDeliveryAck
  | heartbeatPong .. => .heartbeatPong
  | queueStatus .. => .queueStatus
  | protocolError .. => .protocolError

/-- The messages that did not change. -/
def Understood (message : OutboundMessage) : Prop :=
  message.type ≠ .connectionReady ∧ message.type ≠ .authReady

instance (message : OutboundMessage) : Decidable (Understood message) :=
  inferInstanceAs (Decidable (_ ∧ _))

variable {lib : Libraries} {w : Serializers} {message : OutboundMessage} {fields : Dict}

/-! ### The fields at the other end -/

theorem property_type (h : dump lib w message = .ok fields) :
    Client.property fields (py "type") = some (.str message.type.value) := by
  cases message with
  | messageReceipt r =>
      obtain ⟨payload, -, rfl⟩ := dump_receipt_eq_ok_iff.1 h
      rfl
  | connectionReady | authReady | deliveryAck | heartbeatPong | queueStatus | protocolError =>
      cases h
      rfl

/-- **What the client decodes of a message**: its fields, when they are JSON. -/
theorem parseInbound_of_dump (h : dump lib w message = .ok fields)
    (hfloats : (Json.dict fields).faithful w.floats = true) :
    Client.parseInbound w.floats (dumps w.floats (.dict fields)) =
      if (Json.dict fields).finite then some fields else none := by
  rw [Client.parseInbound, strictLoads_dumps hfloats]
  split_ifs with hfinite
  · simp only [property_type h]
  · rfl

/-- A value of the union has the type of one of its members. -/
theorem exists_member (hdump : dump lib w message = .ok fields)
    (h : Client.IsInboundMessage fields) :
    ∃ i ∈ Client.inboundMessage, i.type = message.type.value ∧ i.has fields = true := by
  obtain ⟨i, hi, hhas⟩ := h
  have htype := i.type_of_has hhas
  rw [property_type hdump, Option.some.injEq, Json.str.injEq] at htype
  exact ⟨i, hi, htype.symm, hhas⟩

/-- The interface of the first message declares fields the server does not send. -/
theorem not_isInboundMessage_connectionReady {connectionId : PyStr}
    {deadline heartbeat idle : ℚ} {maxMessageBytes : ℕ}
    (hdump : dump lib w (.connectionReady connectionId deadline heartbeat idle maxMessageBytes) =
      .ok fields) : ¬ Client.IsInboundMessage fields := by
  intro h
  obtain ⟨i, hi, htype, hhas⟩ := exists_member hdump h
  have honly : ∀ i ∈ Client.inboundMessage, i.type = MessageType.connectionReady.value →
      py "transport_client_id" ∈ i.fields.map Prod.fst := by decide +kernel
  obtain ⟨v, hv⟩ := i.exists_of_has hhas (honly i hi htype)
  cases hdump
  cases hv

/-- No interface declares the report of an authentication. -/
theorem not_isInboundMessage_authReady {messageId : Uuid} {userId username sessionId : PyStr}
    (hdump : dump lib w (.authReady messageId userId username sessionId) = .ok fields) :
    ¬ Client.IsInboundMessage fields := by
  intro h
  obtain ⟨i, hi, htype, -⟩ := exists_member hdump h
  have hnone : ∀ i ∈ Client.inboundMessage, i.type ≠ MessageType.authReady.value := by
    decide +kernel
  exact hnone i hi htype

/-- **The messages that are in the union**: all but the two that changed. -/
theorem isInboundMessage_iff (h : dump lib w message = .ok fields) :
    Client.IsInboundMessage fields ↔ Understood message := by
  have hmem : ∀ i, i ∈ Client.inboundMessage ↔
      i = Client.connectionReadyMessage ∨ i = Client.messageReceiptMessage ∨
        i = Client.deliveryAckMessage ∨ i = Client.heartbeatPongMessage ∨
        i = Client.queueStatusMessage ∨ i = Client.protocolErrorMessage := by
    intro i
    simp only [Client.inboundMessage, List.mem_cons, List.not_mem_nil, or_false]
  cases message with
  | connectionReady =>
      exact iff_of_false (not_isInboundMessage_connectionReady h) fun hold => hold.1 rfl
  | authReady =>
      exact iff_of_false (not_isInboundMessage_authReady h) fun hold => hold.2 rfl
  | messageReceipt r =>
      -- whatever has become of the payload, it is an object
      obtain ⟨payload, -, rfl⟩ := dump_receipt_eq_ok_iff.1 h
      refine iff_of_true ⟨Client.messageReceiptMessage, ?_, rfl⟩ ⟨nofun, nofun⟩
      exact (hmem _).2 (.inr (.inl rfl))
  | deliveryAck messageId status =>
      cases h
      refine iff_of_true ⟨Client.deliveryAckMessage, ?_, ?_⟩ ⟨nofun, nofun⟩
      · exact (hmem _).2 (.inr (.inr (.inl rfl)))
      · -- every status of a delivery is declared
        cases status <;> rfl
  | heartbeatPong messageId serverTime =>
      cases h
      refine iff_of_true ⟨Client.heartbeatPongMessage, ?_, rfl⟩ ⟨nofun, nofun⟩
      exact (hmem _).2 (.inr (.inr (.inr (.inl rfl))))
  | queueStatus messageId queuedMessageCount =>
      cases h
      refine iff_of_true ⟨Client.queueStatusMessage, ?_, rfl⟩ ⟨nofun, nofun⟩
      exact (hmem _).2 (.inr (.inr (.inr (.inr (.inl rfl)))))
  | protocolError code detail messageId =>
      cases h
      refine iff_of_true ⟨Client.protocolErrorMessage, ?_, ?_⟩ ⟨nofun, nofun⟩
      · exact (hmem _).2 (.inr (.inr (.inr (.inr (.inr rfl)))))
      · -- the id may be missing
        cases messageId <;> rfl

/-- A message outside the union is not agreed on. -/
theorem not_agrees_of_not_member (hdump : dump lib w message = .ok fields)
    (hfloats : (Json.dict fields).faithful w.floats = true)
    (h : ¬ Client.IsInboundMessage fields) : ¬ Agrees w fields := by
  rintro ⟨object, hobject, hmember, -⟩
  rw [parseInbound_of_dump hdump hfloats] at hobject
  split_ifs at hobject
  obtain rfl := Option.some.inj hobject
  exact h hmember

/-- A message other than these two is finite: there is a float in it only where a payload has one,
and there it has been serialized. -/
theorem finite_of_understood (hmode : lib.JsonMode) (hdump : dump lib w message = .ok fields)
    (h : Understood message) : (Json.dict fields).finite = true := by
  cases message with
  | connectionReady => exact absurd rfl h.1
  | authReady => exact absurd rfl h.2
  | messageReceipt r =>
      obtain ⟨payload, hpayload, rfl⟩ := dump_receipt_eq_ok_iff.1 hdump
      have hall : (Json.dict r.payload).all (fun _ => true) (fun _ => true) = true :=
        Json.all_true _
      rw [finite_fields]
      exact Json.all_mono (hmode.floats _ hpayload hall) fun x hx => (Bool.and_eq_true_iff.1 hx).2
  | deliveryAck | heartbeatPong | queueStatus =>
      cases hdump
      rfl
  | protocolError code detail messageId =>
      cases hdump
      cases messageId <;> rfl

/-! ### Agreement -/

/-- **The two ends agree on a message that was serialized exactly when** it is none of the two that
changed. -/
theorem wire_agreement_iff (hmode : lib.JsonMode) (hdump : dump lib w message = .ok fields)
    (hfloats : (Json.dict fields).faithful w.floats = true) :
    Agrees w fields ↔ Understood message := by
  have hiff := isInboundMessage_iff hdump
  constructor
  · intro hagrees
    by_contra hnot
    exact not_agrees_of_not_member hdump hfloats (mt hiff.1 hnot) hagrees
  · intro hunderstood
    have hmember := hiff.2 hunderstood
    have hparse := parseInbound_of_dump hdump hfloats
    rw [if_pos (finite_of_understood hmode hdump hunderstood)] at hparse
    exact ⟨fields, hparse, hmember, Client.summarize_of_isInboundMessage hmember⟩

/-- A receipt, with a payload that holds `NaN`. -/
def nanReceipt : MessageReceipt where
  ref := 0
  messageId := 1
  sender := py "alice"
  recipient := py "bob"
  timestamp := .utc 0
  payload := [(py "x", .float .nan)]

/-- A receipt is understood; where its payload held `NaN` it has `null`. -/
theorem wire_agreement_receipt :
    dump payloadLibraries sampleSerializers (.messageReceipt nanReceipt) =
        .ok (nanReceipt.fields sampleSerializers [(py "x", .null)]) ∧
      Agrees sampleSerializers (nanReceipt.fields sampleSerializers [(py "x", .null)]) := by
  have hdump : dump payloadLibraries sampleSerializers (.messageReceipt nanReceipt) =
      .ok (nanReceipt.fields sampleSerializers [(py "x", .null)]) := rfl
  refine ⟨hdump, (wire_agreement_iff jsonMode_payloadLibraries hdump ?_).2 (by decide)⟩
  rw [faithful_fields]
  decide

/-- The first message of every connection. -/
def firstMessage : OutboundMessage := .connectionReady (py "a1") 10 30 90 65536

/-- **The client does not understand the first message of a connection**: it announces an id and a
number of messages that are undefined.  The report of an authentication has no summary at all. -/
theorem ready_is_not_understood :
    (∃ fields, dump payloadLibraries sampleSerializers firstMessage = .ok fields ∧
        ¬ Agrees sampleSerializers fields ∧
        ∃ object, Client.parseInbound sampleSerializers.floats
            (dumps sampleSerializers.floats (.dict fields)) = some object ∧
          Client.summarize object =
            some [.text (py "connection.ready — id "), .value none, .text (py ", "), .value none,
              .text (py " queued")]) ∧
      ∀ messageId userId username sessionId, ∃ fields,
        dump payloadLibraries sampleSerializers
            (.authReady messageId userId username sessionId) = .ok fields ∧
          ¬ Agrees sampleSerializers fields ∧ Client.summarize fields = none := by
  refine ⟨⟨_, rfl, ?_⟩, fun messageId userId username sessionId => ⟨_, rfl, ?_, rfl⟩⟩
  · generalize hfields : baseFields .connectionReady ++ _ = fields
    have hdump : dump payloadLibraries sampleSerializers firstMessage = .ok fields := by
      rw [← hfields]
      rfl
    have hfaithful : (Json.dict fields).faithful sampleSerializers.floats = true := by
      rw [← hfields]
      decide +kernel
    have hfinite : (Json.dict fields).finite = true := by
      rw [← hfields]
      decide +kernel
    have hparse := parseInbound_of_dump hdump hfaithful
    rw [if_pos hfinite] at hparse
    refine ⟨not_agrees_of_not_member hdump hfaithful ?_, fields, hparse, ?_⟩
    · exact fun h => ((isInboundMessage_iff hdump).1 h).1 rfl
    · rw [← hfields]
      rfl
  · have hdump : dump payloadLibraries sampleSerializers
        (.authReady messageId userId username sessionId) = .ok _ := rfl
    refine not_agrees_of_not_member hdump rfl fun h => ?_
    exact ((isInboundMessage_iff hdump).1 h).2 rfl

end EncryptChat
