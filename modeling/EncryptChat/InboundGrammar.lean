/-
**The grammar of the inbound protocol.**

`_validate_inbound` checks a frame in stages: four checks written out by hand and then a schema with
a custom validator.  This module says what each stage asks of the decoded value, without the order
and without the functions, and proves that a frame is accepted exactly when all of them are met and
is answered otherwise with the code of the first that is not.

Main definitions:

* `EncryptChat.VersionCheck`, `EncryptChat.TypeCheck`, `EncryptChat.AuthCheck`,
  `EncryptChat.SchemaCheck` — the stages;
* `EncryptChat.Accepted` — the grammar;
* `EncryptChat.FirstFailure` — the code of the first check that fails.

Main results:

* `EncryptChat.InboundEnvelope.modelValidate_eq_some_iff` — what the schema accepts, and the
  envelope it makes of it;
* `EncryptChat.inbound_accepts_grammar` — **the inbound protocol accepts exactly its grammar**, and
  every accepted envelope has a handler.
-/

import EncryptChat.FrameAnswers
import EncryptChat.MalformedInput

set_option relaxedAutoImplicit false
set_option autoImplicit false

namespace EncryptChat

open Python ConnectionManager

/-! ### The schema -/

namespace InboundEnvelope

/-- The dictionary denotes the envelope. -/
structure Denotes (lib : Libraries) (d : Dict) (envelope : InboundEnvelope) : Prop where
  fields : ∀ item ∈ d, item.1 ∈ InboundEnvelope.fields
  version : dictGet d (py "version") = some (.str (py "1"))
  messageId : (dictGet d (py "message_id")).bind lib.uuidField = some envelope.messageId
  type : dictGet d (py "type") = some (.str envelope.type.value)
  sender : dictGet d (py "sender") = some (.str envelope.sender)
  sender_valid : transportIdentifier envelope.sender = true
  recipient : recipientField (dictGet d (py "recipient")) = some envelope.recipient
  timestamp : (dictGet d (py "timestamp")).bind lib.datetimeField = some envelope.timestamp
  aware : envelope.timestamp.isAware = true
  payload : payloadField (dictGet d (py "payload")) = some envelope.payload

theorem isString_iff {s : PyStr} {v : Option Json} :
    isString s v = true ↔ v = some (.str s) := by
  constructor
  · intro h
    cases v with
    | none => cases h
    | some v =>
        cases v with
        | str t => rw [beq_iff_eq.1 h]
        | _ => cases h
  · rintro rfl
    simp [isString]

/-- A type is read from its wire string and from nothing else. -/
theorem typeField_eq_some_iff {v : Json} {type : MessageType} :
    typeField v = some type ↔ v = .str type.value := by
  constructor
  · intro h
    cases v with
    | str s =>
        have hvalue := List.find?_some (p := fun t : MessageType => t.value == s) h
        rw [beq_iff_eq.1 hvalue]
    | _ => cases h
  · rintro rfl
    exact MessageType.ofValue_value type

theorem identifierField_eq_some_iff {v : Json} {s : PyStr} :
    identifierField v = some s ↔ v = .str s ∧ transportIdentifier s = true := by
  cases v with
  | str t =>
      simp only [identifierField, Option.ite_none_right_eq_some, Option.some.injEq, Json.str.injEq]
      constructor
      · rintro ⟨ht, rfl⟩
        exact ⟨rfl, ht⟩
      · rintro ⟨rfl, ht⟩
        exact ⟨ht, rfl⟩
  | _ => simp [identifierField]

/-- **What the schema accepts**, and the envelope it makes of it. -/
theorem modelValidate_eq_some_iff {lib : Libraries} {d : Dict} {envelope : InboundEnvelope} :
    modelValidate lib d = some envelope ↔ Denotes lib d envelope := by
  constructor
  · intro h
    simp only [modelValidate, Option.bind_eq_bind, Option.bind_eq_some_iff, Option.pure_def,
      Option.some.injEq, Option.guard_eq_some', exists_const] at h
    obtain ⟨hfields, hversion, messageId, hid, type, htype, sender, hsender, recipient, hrec,
      timestamp, htime, haware, payload, hpayload, rfl⟩ := h
    obtain ⟨v, hv, htype⟩ := htype
    obtain ⟨w, hw, hsender⟩ := hsender
    rw [typeField_eq_some_iff.1 htype] at hv
    obtain ⟨rfl, hvalid⟩ := identifierField_eq_some_iff.1 hsender
    constructor
    · intro item hitem
      simpa using List.all_eq_true.1 hfields item hitem
    · exact isString_iff.1 hversion
    · exact Option.bind_eq_some_iff.2 hid
    · exact hv
    · exact hw
    · exact hvalid
    · exact hrec
    · exact Option.bind_eq_some_iff.2 htime
    · exact haware
    · exact hpayload
  · intro h
    have hfields : (d.all fun item => InboundEnvelope.fields.contains item.1) = true :=
      List.all_eq_true.2 fun item hitem => by simpa using h.fields item hitem
    have hversion : isString protocolVersion (dictGet d (py "version")) = true :=
      isString_iff.2 h.version
    have htype : (dictGet d (py "type")).bind typeField = some envelope.type := by
      rw [h.type]
      exact typeField_eq_some_iff.2 rfl
    have hsender : (dictGet d (py "sender")).bind identifierField = some envelope.sender := by
      rw [h.sender]
      exact identifierField_eq_some_iff.2 ⟨rfl, h.sender_valid⟩
    simp [modelValidate, hversion, h.messageId, htype, hsender, h.recipient, h.timestamp, h.aware,
      h.payload]
    rw [hfields]
    rfl

end InboundEnvelope

/-! ### The grammar -/

/-- `version` is exactly the string `"1"`. -/
def VersionCheck (d : Dict) : Prop := dictGet d (py "version") = some (.str (py "1"))

/-- `type` is the string of a type a client may send. -/
def TypeCheck (d : Dict) : Prop :=
  ∃ t ∈ MessageType.clientSendable, dictGet d (py "type") = some (.str t.value)

/-- The connection is authenticated, or `type` is one that needs no authentication. -/
def AuthCheck (context : ConnectionContext) (d : Dict) : Prop :=
  context.authenticated = true ∨
    ∃ t ∈ MessageType.unauthenticatedSendable, dictGet d (py "type") = some (.str t.value)

/-- What the schema asks beyond that. -/
structure SchemaCheck (lib : Libraries) (d : Dict) : Prop where
  /-- No key lies outside the seven fields. -/
  fields : ∀ item ∈ d, item.1 ∈ InboundEnvelope.fields
  messageId : ∃ v u, dictGet d (py "message_id") = some v ∧ lib.uuidField v = some u
  sender : ∃ s, dictGet d (py "sender") = some (.str s) ∧ transportIdentifier s = true
  recipient : dictGet d (py "recipient") = none ∨ dictGet d (py "recipient") = some .null ∨
    ∃ s, dictGet d (py "recipient") = some (.str s) ∧ transportIdentifier s = true
  /-- The timestamp is valid and carries an offset. -/
  timestamp : ∃ v t, dictGet d (py "timestamp") = some v ∧ lib.datetimeField v = some t ∧
    t.isAware = true
  payload : dictGet d (py "payload") = none ∨ ∃ p, dictGet d (py "payload") = some (.dict p)

/-- **The grammar**: an object that passes every check. -/
def Accepted (lib : Libraries) (context : ConnectionContext) (outcome : Loads) : Prop :=
  ∃ d, outcome = .value (.dict d) ∧ VersionCheck d ∧ TypeCheck d ∧ AuthCheck context d ∧
    SchemaCheck lib d

/-- The code of the first check that fails. -/
inductive FirstFailure (lib : Libraries) (context : ConnectionContext) :
    Loads → ProtocolErrorCode → Prop
  | json : FirstFailure lib context .jsonDecodeError .invalidJson
  | object (v : Json) (h : ∀ d, v ≠ .dict d) :
      FirstFailure lib context (.value v) .schemaValidationFailed
  | version (d : Dict) (h : ¬ VersionCheck d) :
      FirstFailure lib context (.value (.dict d)) .unsupportedProtocolVersion
  | type (d : Dict) (hversion : VersionCheck d) (h : ¬ TypeCheck d) :
      FirstFailure lib context (.value (.dict d)) .unknownMessageType
  | auth (d : Dict) (hversion : VersionCheck d) (htype : TypeCheck d)
      (h : ¬ AuthCheck context d) : FirstFailure lib context (.value (.dict d)) .authRequired
  | schema (d : Dict) (hversion : VersionCheck d) (htype : TypeCheck d)
      (hauth : AuthCheck context d) (h : ¬ SchemaCheck lib d) :
      FirstFailure lib context (.value (.dict d)) .schemaValidationFailed

namespace InboundEnvelope

theorem recipientField_isSome_iff {v : Option Json} :
    (∃ r, recipientField v = some r) ↔
      v = none ∨ v = some .null ∨ ∃ s, v = some (.str s) ∧ transportIdentifier s = true := by
  cases v with
  | none => simp [recipientField]
  | some v =>
      cases v with
      | null => simp [recipientField]
      | str s =>
          by_cases hs : transportIdentifier s = true
          · simp [recipientField, identifierField, hs]
          · simp [recipientField, identifierField, hs]
      | _ => simp [recipientField, identifierField]

theorem payloadField_isSome_iff {v : Option Json} :
    (∃ p, payloadField v = some p) ↔ v = none ∨ ∃ p, v = some (.dict p) := by
  cases v with
  | none => simp [payloadField]
  | some v => cases v <;> simp [payloadField]

/-- **The schema and what it asks**: the version and the type are checked before it as well. -/
theorem modelValidate_isSome_iff {lib : Libraries} {d : Dict} {t : MessageType}
    (hversion : VersionCheck d) (htype : dictGet d (py "type") = some (.str t.value)) :
    (∃ envelope, modelValidate lib d = some envelope) ↔ SchemaCheck lib d := by
  constructor
  · rintro ⟨envelope, h⟩
    rw [modelValidate_eq_some_iff] at h
    obtain ⟨v, hv, hid⟩ := Option.bind_eq_some_iff.1 h.messageId
    obtain ⟨w, hw, htime⟩ := Option.bind_eq_some_iff.1 h.timestamp
    constructor
    · exact h.fields
    · exact ⟨v, _, hv, hid⟩
    · exact ⟨_, h.sender, h.sender_valid⟩
    · exact recipientField_isSome_iff.1 ⟨_, h.recipient⟩
    · exact ⟨w, _, hw, htime, h.aware⟩
    · exact payloadField_isSome_iff.1 ⟨_, h.payload⟩
  · intro h
    obtain ⟨v, messageId, hv, hid⟩ := h.messageId
    obtain ⟨sender, hsender, hvalid⟩ := h.sender
    obtain ⟨recipient, hrec⟩ := recipientField_isSome_iff.2 h.recipient
    obtain ⟨w, timestamp, hw, htime, haware⟩ := h.timestamp
    obtain ⟨payload, hpayload⟩ := payloadField_isSome_iff.2 h.payload
    refine ⟨⟨messageId, t, sender, recipient, timestamp, payload⟩,
      modelValidate_eq_some_iff.2 ?_⟩
    exact {
      fields := h.fields
      version := hversion
      messageId := Option.bind_eq_some_iff.2 ⟨v, hv, hid⟩
      type := htype
      sender := hsender
      sender_valid := hvalid
      recipient := hrec
      timestamp := Option.bind_eq_some_iff.2 ⟨w, hw, htime⟩
      aware := haware
      payload := hpayload }

end InboundEnvelope

/-- Two types with one wire string are one type. -/
theorem MessageType.value_injective {t t' : MessageType} (h : t.value = t'.value) : t = t' := by
  have ht := MessageType.ofValue_value t
  rw [h, MessageType.ofValue_value] at ht
  exact (Option.some.inj ht).symm

theorem typeCheck_iff {d : Dict} {t : MessageType}
    (h : dictGet d (py "type") = some (.str t.value)) :
    TypeCheck d ↔ t ∈ MessageType.clientSendable := by
  constructor
  · rintro ⟨t', hmem, h'⟩
    rw [h, Option.some.injEq, Json.str.injEq] at h'
    rwa [MessageType.value_injective h']
  · exact fun hmem => ⟨t, hmem, h⟩

theorem authCheck_iff {context : ConnectionContext} {d : Dict} {t : MessageType}
    (h : dictGet d (py "type") = some (.str t.value)) :
    AuthCheck context d ↔
      context.authenticated = true ∨ t ∈ MessageType.unauthenticatedSendable := by
  refine or_congr_right ⟨?_, fun hmem => ⟨t, hmem, h⟩⟩
  rintro ⟨t', hmem, h'⟩
  rw [h, Option.some.injEq, Json.str.injEq] at h'
  rwa [MessageType.value_injective h']

/-- **A dictionary is judged stage by stage.** -/
theorem validateDict_judges (lib : Libraries) (context : ConnectionContext) (d : Dict) :
    (∃ envelope, validateDict lib context d = (some envelope, []) ∧
        Accepted lib context (.value (.dict d))) ∨
      ∃ code id, validateDict lib context d = rejection code id ∧
        FirstFailure lib context (.value (.dict d)) code := by
  unfold validateDict
  by_cases hversion : VersionCheck d
  swap
  · have hfalse : InboundEnvelope.isString protocolVersion (dictGet d (py "version")) = false :=
      Bool.eq_false_iff.2 fun h => hversion (InboundEnvelope.isString_iff.1 h)
    rw [if_pos hfalse]
    exact .inr ⟨_, _, rfl, .version d hversion⟩
  have htrue : InboundEnvelope.isString protocolVersion (dictGet d (py "version")) = true :=
    InboundEnvelope.isString_iff.2 hversion
  rw [if_neg (by simp [htrue])]
  cases htype : (dictGet d (py "type")).bind InboundEnvelope.typeField with
  | none =>
      refine .inr ⟨_, _, rfl, .type d hversion ?_⟩
      rintro ⟨t, -, ht⟩
      rw [ht, Option.bind_some, InboundEnvelope.typeField_eq_some_iff.2 rfl] at htype
      cases htype
  | some t =>
      obtain ⟨v, hv, hfield⟩ := Option.bind_eq_some_iff.1 htype
      rw [InboundEnvelope.typeField_eq_some_iff.1 hfield] at hv
      dsimp only
      unfold validateTyped
      -- a type that only the server sends is refused with the same code as an unknown one
      by_cases hclient : t ∈ MessageType.clientSendable
      swap
      · rw [if_pos hclient]
        exact .inr ⟨_, _, rfl, .type d hversion fun h => hclient ((typeCheck_iff hv).1 h)⟩
      have htypeCheck := (typeCheck_iff hv).2 hclient
      rw [if_neg (not_not.2 hclient)]
      by_cases hgate : context.authenticated = false ∧ t ∉ MessageType.unauthenticatedSendable
      · rw [if_pos hgate]
        refine .inr ⟨_, _, rfl, .auth d hversion htypeCheck fun h => ?_⟩
        rcases (authCheck_iff hv).1 h with hauth | hmem
        · rw [hgate.1] at hauth
          cases hauth
        · exact hgate.2 hmem
      · rw [if_neg hgate]
        have hauthCheck : AuthCheck context d := (authCheck_iff hv).2 <| by
          rw [not_and_or, not_not, Bool.not_eq_false] at hgate
          exact hgate
        cases hmodel : InboundEnvelope.modelValidate lib d with
        | none =>
            refine .inr ⟨_, _, rfl, .schema d hversion htypeCheck hauthCheck fun h => ?_⟩
            obtain ⟨envelope, hsome⟩ := (InboundEnvelope.modelValidate_isSome_iff hversion hv).2 h
            rw [hmodel] at hsome
            cases hsome
        | some envelope =>
            exact .inl ⟨envelope, rfl, d, rfl, hversion, htypeCheck, hauthCheck,
              (InboundEnvelope.modelValidate_isSome_iff hversion hv).1 ⟨envelope, hmodel⟩⟩

/-- What fails a check is not accepted. -/
theorem FirstFailure.not_accepted {lib : Libraries} {context : ConnectionContext} {outcome : Loads}
    {code : ProtocolErrorCode} (h : FirstFailure lib context outcome code) :
    ¬ Accepted lib context outcome := by
  rintro ⟨d, heq, hversion, htype, hauth, hschema⟩
  cases h with
  | json => cases heq
  | object v hv =>
      cases heq
      exact hv d rfl
  | version d' hnot =>
      cases heq
      exact hnot hversion
  | type d' _ hnot =>
      cases heq
      exact hnot htype
  | auth d' _ _ hnot =>
      cases heq
      exact hnot hauth
  | schema d' _ _ _ hnot =>
      cases heq
      exact hnot hschema

/-- **A frame is judged stage by stage.** -/
theorem validateInbound_judges (lib : Libraries) (context : ConnectionContext) {rawText : PyStr}
    (h : (lib.loads rawText).Handled) :
    (∃ envelope, validateInbound lib context rawText = .ok (some envelope, []) ∧
        Accepted lib context (lib.loads rawText)) ∨
      ∃ code id, validateInbound lib context rawText = .ok (none, [errorMessage code id]) ∧
        FirstFailure lib context (lib.loads rawText) code := by
  unfold validateInbound
  cases hloads : lib.loads rawText with
  | jsonDecodeError => exact .inr ⟨.invalidJson, none, rfl, .json⟩
  | value v =>
      cases v with
      | dict d =>
          rcases validateDict_judges lib context d with ⟨envelope, heq, hacc⟩ | ⟨code, id, heq, hfail⟩
          · exact .inl ⟨envelope, by simp only [heq], hacc⟩
          · exact .inr ⟨code, id, by simp only [heq, rejection], hfail⟩
      | null | bool | int | float | str | list =>
          exact .inr ⟨.schemaValidationFailed, none, rfl, .object _ fun d hd => by cases hd⟩
  | valueError =>
      rw [hloads] at h
      exact absurd h id
  | recursionError =>
      rw [hloads] at h
      exact absurd h id

/-- **The inbound protocol accepts exactly its grammar.**  On a text the decoder returns a value for
or refuses with a syntax error, and for every connection: an envelope is returned exactly when every
check passes, and otherwise one error, whose code is that of the first check that fails; an accepted
envelope has a handler of its own, and neither the receive loop nor the second half of an
authentication puts `INTERNAL_PROTOCOL_ERROR` on a queue. -/
theorem inbound_accepts_grammar (lib : Libraries) (context : ConnectionContext) {rawText : PyStr}
    (h : (lib.loads rawText).Handled) :
    ((∃ envelope errors, validateInbound lib context rawText = .ok (some envelope, errors)) ↔
        Accepted lib context (lib.loads rawText)) ∧
      (¬ Accepted lib context (lib.loads rawText) →
        ∃ code id, FirstFailure lib context (lib.loads rawText) code ∧
          validateInbound lib context rawText = .ok (none, [errorMessage code id])) ∧
      (∀ envelope errors, validateInbound lib context rawText = .ok (some envelope, errors) →
        errors = [] ∧ (envelope.type = .authAuthenticate ∨ envelope.type = .heartbeatPing ∨
          envelope.type = .messageSend ∨ envelope.type = .queueStatus)) ∧
      (∀ m cid now clock ref message,
        (receiveFrame lib m cid context rawText now clock ref).1.Held message →
          m.Held message ∨ ∀ id, message ≠ errorMessage .internalProtocolError id) ∧
      ∀ (m : ConnectionManager) cid envelope result,
        ∀ message ∈ (finishAuthentication m cid context envelope result).2,
          m.Held message ∨ ∀ id, message ≠ errorMessage .internalProtocolError id := by
  refine ⟨?_, ?_, ?_, ?_, ?_⟩
  · rcases validateInbound_judges lib context h with ⟨envelope, heq, hacc⟩ | ⟨code, id, heq, hfail⟩
    · exact ⟨fun _ => hacc, fun _ => ⟨envelope, [], heq⟩⟩
    · refine ⟨?_, fun hacc => absurd hacc hfail.not_accepted⟩
      rintro ⟨envelope, errors, hsome⟩
      rw [heq] at hsome
      cases hsome
  · intro hnot
    rcases validateInbound_judges lib context h with ⟨envelope, -, hacc⟩ | ⟨code, id, heq, hfail⟩
    · exact absurd hacc hnot
    · exact ⟨code, id, hfail, heq⟩
  · intro envelope errors hsome
    obtain ⟨hnil, hsendable, -⟩ := validateInbound_eq_some hsome
    refine ⟨hnil, ?_⟩
    rcases handled_of_clientSendable hsendable with hauth | hping | hpriv
    · exact .inl hauth
    · exact .inr (.inl hping)
    · have hcases : ∀ t ∈ MessageType.privileged, t = .messageSend ∨ t = .queueStatus := by decide
      exact .inr (.inr (hcases _ hpriv))
  · exact fun m cid now clock ref message hheld =>
      held_receiveFrame lib m cid context rawText now clock ref hheld
  · exact fun m cid envelope result => held_finishAuthentication m cid context envelope result

/-- `_validate_inbound` returns an envelope. -/
def frameAccepted (lib : Libraries) (context : ConnectionContext) (rawText : PyStr) : Bool :=
  (validateInbound lib context rawText).toOption.any fun verdict => verdict.1.isSome

theorem frameAccepted_iff {lib : Libraries} {context : ConnectionContext} {rawText : PyStr} :
    frameAccepted lib context rawText = true ↔
      ∃ envelope errors, validateInbound lib context rawText = .ok (some envelope, errors) := by
  unfold frameAccepted
  cases validateInbound lib context rawText with
  | error e => simp [Except.toOption]
  | ok verdict =>
      obtain ⟨_ | envelope, errors⟩ := verdict
      · simp [Except.toOption]
      · simp [Except.toOption]

/-- The connection of `alice` when she arrives. -/
def aliceArrived : ConnectionContext := ConnectionManager.freshContext {} aliceId aliceId 0

/-- The connection of `alice` when she has authenticated. -/
def aliceBound : ConnectionContext :=
  aliceArrived.authenticate ⟨py "u1", py "alice", py "s1"⟩

/-- The message of `alice` to `bob` is in the grammar of an authenticated connection, and of no
other. -/
theorem inbound_accepts_grammar_send :
    Accepted sampleLibraries aliceBound (sampleLibraries.loads sendText) ∧
      ¬ Accepted sampleLibraries aliceArrived (sampleLibraries.loads sendText) := by
  have hspec : ∀ text, decide (sampleLibraries.loads text).Handled = true →
      frameAccepted sampleLibraries aliceBound text = true →
      frameAccepted sampleLibraries aliceArrived text = false →
      Accepted sampleLibraries aliceBound (sampleLibraries.loads text) ∧
        ¬ Accepted sampleLibraries aliceArrived (sampleLibraries.loads text) := by
    intro text hdecided hbound harrived
    have hhandled := of_decide_eq_true hdecided
    have hiff := (inbound_accepts_grammar sampleLibraries aliceBound hhandled).1
    have hiff' := (inbound_accepts_grammar sampleLibraries aliceArrived hhandled).1
    refine ⟨hiff.1 (frameAccepted_iff.1 hbound), fun hacc => ?_⟩
    have hsome := hiff'.2 hacc
    rw [← frameAccepted_iff, harrived] at hsome
    cases hsome
  exact hspec sendText (by decide +kernel) (by decide +kernel) (by decide +kernel)

end EncryptChat
