/-
**The protocol types of the development client.**

The client decodes a frame with `JSON.parse` and casts it to a union of interfaces, and the cast
checks nothing but that there is a `type`.  The interfaces are data here, so that a decoded object
can be held against them; the summary the client shows is a template over the fields of the
message, in which a field that is missing is interpolated as `undefined`.

Main definitions:

* `EncryptChat.Client.TsType`, `Interface` — declared types, and which values have them;
* `EncryptChat.Client.inboundMessage` — the union `InboundMessage`;
* `EncryptChat.Client.parseInbound` — the decoder;
* `EncryptChat.Client.summarize` — the summary.

Main results:

* `EncryptChat.Client.template_reads_declared` — the summary of a member reads declared fields;
* `EncryptChat.Client.summarize_of_isInboundMessage` — **a value of the union has a summary** in
  which nothing is undefined.
-/

import EncryptChat.JsonText

set_option relaxedAutoImplicit false
set_option autoImplicit false

namespace EncryptChat

namespace Client

open Python

/-! ### Objects -/

/-- The member of an object; `none` is `undefined`.  Of several members with one name the last is
the one that `JSON.parse` keeps. -/
def property (object : Dict) (name : PyStr) : Option Json := dictGet object.reverse name

/-- The declared types of the fields. -/
inductive TsType where
  | string
  | number
  | stringOrNull
  /-- `Record<string, unknown>`. -/
  | record
  | boolean (b : Bool)
  /-- A union of string literals. -/
  | oneOf (values : List PyStr)

/-- The value has the type. -/
def TsType.has : TsType → Json → Bool
  | .string, .str _ => true
  | .number, .int _ => true
  | .number, .float _ => true
  | .stringOrNull, .null => true
  | .stringOrNull, .str _ => true
  | .record, .dict _ => true
  | .boolean b, .bool b' => b == b'
  | .oneOf values, .str s => values.contains s
  | _, _ => false

/-- An interface with a literal `type`. -/
structure Interface where
  type : PyStr
  fields : List (PyStr × TsType)

/-- The object has every field of the interface, with its literal or its type. -/
def Interface.has (i : Interface) (object : Dict) : Bool :=
  (property object (py "type")).any (TsType.oneOf [i.type]).has &&
    i.fields.all fun field => (property object field.1).any field.2.has

/-! ### The union `InboundMessage` -/

/-- `DeliveryStatus`. -/
def deliveryStatus : List PyStr :=
  [py "delivered", py "queued", py "recipient_unavailable", py "rejected"]

/-- `ConnectionReadyMessage`. -/
def connectionReadyMessage : Interface where
  type := py "connection.ready"
  fields :=
    [(py "connection_id", .string), (py "transport_client_id", .string),
      (py "authenticated", .boolean false),
      (py "identity_status", .oneOf [py "TRANSPORT_TEST_IDENTITY"]),
      (py "protocol_version", .string), (py "heartbeat_interval_seconds", .number),
      (py "idle_timeout_seconds", .number), (py "max_message_bytes", .number),
      (py "queued_message_count", .number)]

/-- `MessageReceiptMessage`. -/
def messageReceiptMessage : Interface where
  type := py "message.receipt"
  fields :=
    [(py "message_id", .string), (py "sender", .string), (py "recipient", .string),
      (py "timestamp", .string), (py "payload", .record)]

/-- `DeliveryAckMessage`. -/
def deliveryAckMessage : Interface where
  type := py "message.delivery_ack"
  fields := [(py "message_id", .string), (py "status", .oneOf deliveryStatus)]

/-- `HeartbeatPongMessage`. -/
def heartbeatPongMessage : Interface where
  type := py "heartbeat.pong"
  fields := [(py "message_id", .string), (py "server_time", .string)]

/-- `QueueStatusMessage`. -/
def queueStatusMessage : Interface where
  type := py "queue.status"
  fields := [(py "message_id", .string), (py "queued_message_count", .number)]

/-- `ProtocolErrorMessage`. -/
def protocolErrorMessage : Interface where
  type := py "protocol.error"
  fields := [(py "code", .string), (py "detail", .string), (py "message_id", .stringOrNull)]

/-- The members of `InboundMessage`. -/
def inboundMessage : List Interface :=
  [connectionReadyMessage, messageReceiptMessage, deliveryAckMessage, heartbeatPongMessage,
    queueStatusMessage, protocolErrorMessage]

/-- The object is a value of the union. -/
def IsInboundMessage (object : Dict) : Prop := ∃ i ∈ inboundMessage, i.has object = true

/-! ### The decoder -/

/-- `parseInbound(raw)`; the floats are read by `f`. -/
def parseInbound (f : FloatText) (raw : PyStr) : Option Dict :=
  match strictLoads f raw with
  | some (.dict candidate) =>
      match property candidate (py "type") with
      | some (.str _) => some candidate
      | _ => none
  -- `JSON.parse` throws, or the value is no object, or it is an array, which has no `type`
  | _ => none

/-! ### The summary -/

/-- A part of a template. -/
inductive Hole where
  | text (s : PyStr)
  /-- The field of the message that is interpolated. -/
  | field (name : PyStr)
  /-- The field of the message whose `JSON.stringify` is interpolated. -/
  | stringify (name : PyStr)

/-- A part of a summary; a value that is `none` is `undefined`. -/
inductive Part where
  | text (s : PyStr)
  | value (v : Option Json)
  | stringified (v : Option Json)

/-- The field that is read. -/
def Hole.reads : Hole → Option PyStr
  | .text _ => none
  | .field name => some name
  | .stringify name => some name

/-- The part for a message. -/
def Hole.fill (message : Dict) : Hole → Part
  | .text s => .text s
  | .field name => .value (property message name)
  | .stringify name => .stringified (property message name)

/-- What is interpolated is not `undefined`; neither is `JSON.stringify` of a decoded value. -/
def Part.isDefined : Part → Bool
  | .text _ => true
  | .value v => v.isSome
  | .stringified v => v.isSome

/-- The `switch` over the type of the message; where no case matches, nothing is returned. -/
def template (type : PyStr) : Option (List Hole) :=
  if type = py "connection.ready" then
    some [.text (py "connection.ready — id "), .field (py "transport_client_id"),
      .text (py ", "), .field (py "queued_message_count"), .text (py " queued")]
  else if type = py "message.receipt" then
    some [.text (py "message.receipt — from "), .field (py "sender"), .text (py ": "),
      .stringify (py "payload")]
  else if type = py "message.delivery_ack" then
    some [.text (py "message.delivery_ack — "), .field (py "status")]
  else if type = py "heartbeat.pong" then some [.text (py "heartbeat.pong")]
  else if type = py "queue.status" then
    some [.text (py "queue.status — "), .field (py "queued_message_count"),
      .text (py " queued")]
  else if type = py "protocol.error" then
    some [.text (py "protocol.error — "), .field (py "code"), .text (py ": "),
      .field (py "detail")]
  else none

/-- `summarize(message)`; `none` is `undefined`. -/
def summarize (message : Dict) : Option (List Part) :=
  match property message (py "type") with
  | some (.str type) => (template type).map fun holes => holes.map (Hole.fill message)
  | _ => none

/-! ### What a value of the union gives -/

variable {i : Interface} {object : Dict}

theorem Interface.type_of_has (h : i.has object = true) :
    property object (py "type") = some (.str i.type) := by
  obtain ⟨htype, -⟩ := Bool.and_eq_true_iff.1 h
  obtain ⟨v, hv, hhas⟩ := (Option.any_eq_true _ _).1 htype
  cases v with
  | str s =>
      have hs : s = i.type := by simpa [TsType.has] using hhas
      rw [hv, hs]
  | null | bool | int | float | list | dict => cases hhas

theorem Interface.exists_of_has (h : i.has object = true) {name : PyStr}
    (hname : name ∈ i.fields.map Prod.fst) : ∃ v, property object name = some v := by
  obtain ⟨-, hfields⟩ := Bool.and_eq_true_iff.1 h
  obtain ⟨field, hmem, rfl⟩ := List.mem_map.1 hname
  obtain ⟨v, hv, -⟩ := (Option.any_eq_true _ _).1 (List.all_eq_true.1 hfields field hmem)
  exact ⟨v, hv⟩

/-- **The summary of a member reads declared fields.** -/
theorem template_reads_declared : ∀ i ∈ inboundMessage, ∃ holes, template i.type = some holes ∧
    ∀ hole ∈ holes, ∀ name ∈ hole.reads, name ∈ i.fields.map Prod.fst := by
  have hall : ∀ i ∈ inboundMessage, (template i.type).any (fun holes => holes.all fun hole =>
      hole.reads.all fun name => (i.fields.map Prod.fst).contains name) = true := by
    decide +kernel
  intro i hi
  obtain ⟨holes, hholes, hreads⟩ := (Option.any_eq_true _ _).1 (hall i hi)
  refine ⟨holes, hholes, fun hole hhole name hname => ?_⟩
  have hhole' := List.all_eq_true.1 hreads hole hhole
  rw [Option.mem_def.1 hname, Option.all_some] at hhole'
  exact List.contains_iff_mem.1 hhole'

/-- **A value of the union has a summary**, and nothing in it is undefined. -/
theorem summarize_of_isInboundMessage (h : IsInboundMessage object) :
    ∃ parts, summarize object = some parts ∧ ∀ part ∈ parts, part.isDefined = true := by
  obtain ⟨i, hi, hhas⟩ := h
  obtain ⟨holes, hholes, hreads⟩ := template_reads_declared i hi
  refine ⟨holes.map (Hole.fill object), ?_, ?_⟩
  · rw [summarize, i.type_of_has hhas]
    exact congrArg (Option.map _) hholes
  · intro part hpart
    obtain ⟨hole, hhole, rfl⟩ := List.mem_map.1 hpart
    have hread := hreads hole hhole
    cases hole with
    | text s => rfl
    | field name | stringify name =>
        obtain ⟨v, hv⟩ := i.exists_of_has hhas (hread name rfl)
        simp only [Hole.fill, Part.isDefined, hv, Option.isSome_some]

end Client

end EncryptChat
