/-
**The id a protocol error carries.**

A rejected frame is answered with the id `_extract_message_id` finds in it, read by the standard
library; an accepted frame has the id of the schema, read by the parser of the schema library.  The
documentation promises that the id is echoed only when the client's value was a well-formed UUID.
Whatever the schema accepts is echoed unchanged, but what is echoed need not have been accepted.

Main definitions:

* `EncryptChat.Libraries.ReadsUuids` — the two readers of a UUID;
* `EncryptChat.schemaMessageId` — the id the schema reads;
* `EncryptChat.Correlates` — the error correlation agrees with the envelope;
* `EncryptChat.IsDecoratedLiteral` — what the lenient reader accepts.

Main results:

* `EncryptChat.extractMessageId_of_schema` — the id of the schema is the id of the errors;
* `EncryptChat.validateDict_cases` — a rejection carries the extracted id;
* `EncryptChat.correlation_agrees_iff` — **when the two agree**.
-/

import EncryptChat.EndpointFrame
import EncryptChat.PayloadTransit
import EncryptChat.UuidText

set_option relaxedAutoImplicit false
set_option autoImplicit false

namespace EncryptChat

open Python

/-! ### The two readers -/

/-- The parsers read a UUID as the two libraries do. -/
structure Libraries.ReadsUuids (lib : Libraries) (decimal : CodePoint → Option (Fin 10)) :
    Prop where
  uuid : lib.uuid = uuidOfHex decimal
  uuidField : lib.uuidField = uuidOfJson

/-- What the schema reads as the field `message_id`. -/
def schemaMessageId (lib : Libraries) (parsed : Dict) : Option Uuid :=
  (dictGet parsed (py "message_id")).bind lib.uuidField

/-- The error correlation agrees with the envelope. -/
structure Correlates (lib : Libraries) (parsed : Dict) : Prop where
  /-- An id is extracted when the schema accepts the value, and then it is the same. -/
  agrees : extractMessageId lib parsed = schemaMessageId lib parsed
  /-- A protocol error carries an id only when the value was a well-formed UUID. -/
  echoes : ∀ (context : ConnectionContext) (rawText : PyStr) (envelope : Option InboundEnvelope)
    (errors : List OutboundMessage), lib.loads rawText = .value (.dict parsed) →
      validateInbound lib context rawText = .ok (envelope, errors) →
      ∀ code detail id, .protocolError code detail (some id) ∈ errors →
        ∃ s, dictGet parsed (py "message_id") = some (.str s) ∧ WellFormedUuid s

/-- Without `urn:`, `uuid:`, the braces around it and its hyphens, the text is a hexadecimal
literal of thirty-two characters. -/
def IsDecoratedLiteral (decimal : CodePoint → Option (Fin 10)) (s : PyStr) : Prop :=
  (uuidRest s).length = 32 ∧ ∃ t, toAscii decimal (uuidRest s) = some t ∧ t ∈ hexLiteral

variable {lib : Libraries} {decimal : CodePoint → Option (Fin 10)} {parsed : Dict} {s : PyStr}
  {id : Uuid}

/-- The schema takes an id from a string only. -/
theorem schemaMessageId_eq_some (hlib : lib.ReadsUuids decimal)
    (h : schemaMessageId lib parsed = some id) :
    ∃ s, dictGet parsed (py "message_id") = some (.str s) ∧ parseUuid s = some id := by
  obtain ⟨v, hv, hid⟩ := Option.bind_eq_some_iff.1 h
  rw [hlib.uuidField] at hid
  cases v with
  | str s => exact ⟨s, hv, hid⟩
  | null | bool | int | float | list | dict => cases hid

theorem extractMessageId_eq_some (h : extractMessageId lib parsed = some id) :
    ∃ s, dictGet parsed (py "message_id") = some (.str s) ∧ lib.uuid s = some id := by
  unfold extractMessageId at h
  split at h
  · rename_i s hs
    exact ⟨s, hs, h⟩
  · cases h

theorem extractMessageId_of_str (hs : dictGet parsed (py "message_id") = some (.str s)) :
    extractMessageId lib parsed = lib.uuid s := by
  rw [extractMessageId, hs]

theorem schemaMessageId_of_str (hs : dictGet parsed (py "message_id") = some (.str s)) :
    schemaMessageId lib parsed = lib.uuidField (.str s) := by
  rw [schemaMessageId, hs, Option.bind_some]

/-- **The id of the schema is the id of the errors.** -/
theorem extractMessageId_of_schema (hlib : lib.ReadsUuids decimal)
    (h : schemaMessageId lib parsed = some id) : extractMessageId lib parsed = some id := by
  obtain ⟨s, hs, hid⟩ := schemaMessageId_eq_some hlib h
  rw [extractMessageId_of_str hs, hlib.uuid, uuidOfHex_of_parseUuid hid]

/-! ### Rejections -/

/-- **A rejection carries the extracted id**, whichever check refused the frame. -/
theorem validateDict_cases (lib : Libraries) (context : ConnectionContext) (parsed : Dict) :
    (∃ code, validateDict lib context parsed = rejection code (extractMessageId lib parsed)) ∨
      ∃ envelope, validateDict lib context parsed = (some envelope, []) := by
  unfold validateDict
  split_ifs
  · exact .inl ⟨_, rfl⟩
  · cases (dictGet parsed (py "type")).bind InboundEnvelope.typeField with
    | none => exact .inl ⟨_, rfl⟩
    | some messageType =>
        simp only [validateTyped]
        by_cases hclient : messageType ∈ MessageType.clientSendable
        swap
        · rw [if_pos hclient]
          exact .inl ⟨_, rfl⟩
        rw [if_neg (not_not.2 hclient)]
        split_ifs with hgate
        · exact .inl ⟨_, rfl⟩
        · cases InboundEnvelope.modelValidate lib parsed with
          | none => exact .inl ⟨_, rfl⟩
          | some envelope => exact .inr ⟨envelope, rfl⟩

/-- An id that is echoed was extracted. -/
theorem extractMessageId_of_echoed {context : ConnectionContext} {rawText : PyStr}
    {envelope : Option InboundEnvelope} {errors : List OutboundMessage} {code detail : PyStr}
    (hloads : lib.loads rawText = .value (.dict parsed))
    (hvalid : validateInbound lib context rawText = .ok (envelope, errors))
    (hmem : .protocolError code detail (some id) ∈ errors) :
    extractMessageId lib parsed = some id := by
  unfold validateInbound at hvalid
  rw [hloads] at hvalid
  have hverdict := Except.ok.inj hvalid
  rcases validateDict_cases lib context parsed with ⟨code', hrej⟩ | ⟨envelope', haccept⟩
  · rw [hrej] at hverdict
    obtain ⟨-, rfl⟩ := Prod.mk.inj hverdict
    rw [List.mem_singleton] at hmem
    exact (OutboundMessage.protocolError.inj hmem).2.2.symm
  · rw [haccept] at hverdict
    obtain ⟨-, rfl⟩ := Prod.mk.inj hverdict
    cases hmem

/-- Where the readers agree, the errors carry the ids of well-formed values only. -/
theorem correlates_of_agrees (hlib : lib.ReadsUuids decimal)
    (hagrees : extractMessageId lib parsed = schemaMessageId lib parsed) :
    Correlates lib parsed where
  agrees := hagrees
  echoes context rawText envelope errors hloads hvalid code detail id hmem := by
    have hextract := extractMessageId_of_echoed hloads hvalid hmem
    rw [hagrees] at hextract
    obtain ⟨s, hs, hid⟩ := schemaMessageId_eq_some hlib hextract
    exact ⟨s, hs, parseUuid_isSome_iff.1 (by rw [hid, Option.isSome_some])⟩

/-- **The error correlation agrees with the envelope exactly when** no text that is only a
decorated literal stands under `message_id`. -/
theorem correlation_agrees_iff (hlib : lib.ReadsUuids decimal) :
    Correlates lib parsed ↔
      ∀ s, dictGet parsed (py "message_id") = some (.str s) → IsDecoratedLiteral decimal s →
        WellFormedUuid s := by
  constructor
  · intro hcorrelates s hs hliteral
    obtain ⟨id, hid⟩ := Option.isSome_iff_exists.1 (uuidOfHex_isSome_iff.2 hliteral)
    have hschema := hcorrelates.agrees
    rw [extractMessageId_of_str hs, schemaMessageId_of_str hs, hlib.uuid, hlib.uuidField,
      hid] at hschema
    exact parseUuid_isSome_iff.1 (Option.isSome_iff_exists.2 ⟨id, hschema.symm⟩)
  · intro hwell
    refine correlates_of_agrees hlib ?_
    cases hextract : extractMessageId lib parsed with
    | none =>
        -- an id of the schema would have been extracted
        cases hschema : schemaMessageId lib parsed with
        | none => rfl
        | some id =>
            rw [extractMessageId_of_schema hlib hschema] at hextract
            cases hextract
    | some id =>
        obtain ⟨s, hs, hid⟩ := extractMessageId_eq_some hextract
        rw [hlib.uuid] at hid
        have hliteral : IsDecoratedLiteral decimal s :=
          uuidOfHex_isSome_iff.1 (Option.isSome_iff_exists.2 ⟨id, hid⟩)
        obtain ⟨id', hid'⟩ :=
          Option.isSome_iff_exists.1 (parseUuid_isSome_iff.2 (hwell s hs hliteral))
        have hsame : some id = some id' := by rw [← hid, uuidOfHex_of_parseUuid hid']
        rw [schemaMessageId_of_str hs, hlib.uuidField, hsame]
        exact hid'.symm

/-! ### An id the client never sent -/

/-- The parsers of the sample, with the two readers of a UUID. -/
def uuidLibraries : Libraries :=
  { sampleLibraries with
    loads := fun s =>
      match strictLoads sampleSerializers.floats s with
      | some v => .value v
      | none => .jsonDecodeError
    uuid := uuidOfHex fun _ => none
    uuidField := uuidOfJson }

/-- A frame with this text under `message_id`. -/
def pingFrame (messageId : PyStr) : Dict :=
  [(py "version", .str (py "1")), (py "message_id", .str messageId),
    (py "type", .str (py "heartbeat.ping")), (py "sender", .str (py "alice")),
    (py "timestamp", .str sampleTime)]

/-- A UUID in the usual form, and one that has underscores between its groups. -/
def hyphenatedId : PyStr := py "3f8b2c1e-9d4a-4f7b-" ++ py "8c2e-1a5d6e7f8a9b"

def underscoredId : PyStr := py "3f8b2c1e_9d4a_4f7b_" ++ py "8c2e_1a5d6e7f"

/-- A frame whose id is a UUID in the usual form is correlated. -/
theorem correlation_agrees_hyphenated : Correlates uuidLibraries (pingFrame hyphenatedId) := by
  have hlib : uuidLibraries.ReadsUuids fun _ => none := ⟨rfl, rfl⟩
  refine (correlation_agrees_iff hlib).2 fun s hs _ => ?_
  cases hs
  refine parseUuid_isSome_iff.1 ?_
  decide +kernel

/-- The text of that frame. -/
def pingText (messageId : PyStr) : PyStr :=
  dumps sampleSerializers.floats (.dict (pingFrame messageId))

theorem loads_pingText (messageId : PyStr) :
    uuidLibraries.loads (pingText messageId) =
      .value (.dict (pingFrame messageId)) := by
  have hread := strictLoads_dumps (f := sampleSerializers.floats)
    (v := .dict (pingFrame messageId)) rfl
  have hfinite : (Json.dict (pingFrame messageId)).finite = true := rfl
  rw [hfinite, if_pos rfl] at hread
  simp only [uuidLibraries, pingText, hread]

/-- **A frame whose id has underscores for hyphens** is refused by the schema, on every connection,
and the error carries a UUID that stands nowhere in the frame. -/
theorem underscored_id_is_echoed :
    ¬ Correlates uuidLibraries (pingFrame underscoredId) ∧
      schemaMessageId uuidLibraries (pingFrame underscoredId) = none ∧
      ∀ context, validateInbound uuidLibraries context (pingText underscoredId) =
        .ok (rejection .schemaValidationFailed (some 0x00003f8b2c1e9d4a4f7b8c2e1a5d6e7f)) := by
  have hextract : extractMessageId uuidLibraries (pingFrame underscoredId) =
      some 0x00003f8b2c1e9d4a4f7b8c2e1a5d6e7f := by decide +kernel
  have hschema : schemaMessageId uuidLibraries (pingFrame underscoredId) = none := by
    decide +kernel
  refine ⟨fun hcorrelates => ?_, hschema, fun context => ?_⟩
  · have hagrees := hcorrelates.agrees
    rw [hextract, hschema] at hagrees
    cases hagrees
  · have hversion : InboundEnvelope.isString protocolVersion
        (dictGet (pingFrame underscoredId) (py "version")) = true := by decide +kernel
    have htype : (dictGet (pingFrame underscoredId) (py "type")).bind InboundEnvelope.typeField =
        some .heartbeatPing := by decide +kernel
    have hvalid : InboundEnvelope.modelValidate uuidLibraries (pingFrame underscoredId) = none :=
      Option.isNone_iff_eq_none.1 (by decide +kernel)
    have hgate : ¬ (context.authenticated = false ∧
        MessageType.heartbeatPing ∉ MessageType.unauthenticatedSendable) :=
      fun h => h.2 (by decide)
    have hclient : ¬ MessageType.heartbeatPing ∉ MessageType.clientSendable := by decide
    have hverdict : validateDict uuidLibraries context (pingFrame underscoredId) =
        rejection .schemaValidationFailed (some 0x00003f8b2c1e9d4a4f7b8c2e1a5d6e7f) := by
      rw [validateDict, hversion, if_neg Bool.noConfusion, htype]
      dsimp only
      rw [validateTyped, if_neg hclient, if_neg hgate, hvalid, hextract]
    rw [validateInbound, loads_pingText underscoredId]
    exact congrArg Except.ok hverdict

end EncryptChat
