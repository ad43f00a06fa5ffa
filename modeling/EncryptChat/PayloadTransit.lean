/-
**What becomes of a payload on its way through the relay.**

A payload is decoded by one library, serialized by another and encoded by the first, and the server
does not look at it in between.  The steps are not inverse to each other: the decoder admits `NaN`,
`Infinity` and numbers that overflow, and it decodes an escaped lone surrogate; the serializer
writes the first as `null`, and the socket refuses the second.  This module follows the receipt of a
frame from `_validate_inbound` through every run to the writer of each connection it is placed on.

Main definitions:

* `EncryptChat.framePayload` — the payload of a frame, as `json.loads` reads it;
* `EncryptChat.Crosses` — the receipt can be sent, and a strict reader finds this payload in it.

Main results:

* `EncryptChat.crosses_iff` — a receipt carries its payload across exactly when it is clean;
* `EncryptChat.payload_crosses_iff` — **in every run, the payload of a frame crosses to a connection
  its receipt is placed on exactly when it is clean**.
-/

import EncryptChat.Dump
import EncryptChat.InboundGrammar
import EncryptChat.OfflineDrain
import EncryptChat.ReceiptFlow

set_option relaxedAutoImplicit false
set_option autoImplicit false

namespace EncryptChat

open Python Transition

/-! ### Payloads -/

/-- The payload of a frame, as `json.loads` reads it; a frame may leave it out. -/
def framePayload (lib : Libraries) (rawText : PyStr) : Option Dict :=
  match lib.loads rawText with
  | .value (.dict parsed) => InboundEnvelope.payloadField (dictGet parsed (py "payload"))
  | _ => none

/-- The member `payload` of a text that is strict JSON. -/
def textPayload (f : FloatText) (text : PyStr) : Option Json :=
  match strictLoads f text with
  | some (.dict members) => dictGet members (py "payload")
  | _ => none

/-- The writer can send the receipt, and the text it sends is strict JSON with this payload. -/
def Crosses (lib : Libraries) (w : Serializers) (r : MessageReceipt) (payload : Dict) : Prop :=
  ∃ message text, dump lib w (.messageReceipt r) = .ok message ∧ sendJson w message = .ok text ∧
    textPayload w.floats text = some (.dict payload)

/-- The floats that `json.loads` produces are written so that they read back, which is what
`float.__repr__` promises. -/
def FloatsReadBack (lib : Libraries) (w : Serializers) : Prop :=
  ∀ rawText v, lib.loads rawText = .value v → v.faithful w.floats = true

/-! ### One receipt -/

/-- Names on the wire are ASCII. -/
theorem any_isSurrogate_identifier {s : PyStr} (h : transportIdentifier s = true) :
    s.any isSurrogate = false := by
  have hchar : ∀ c, isIdentifierChar c = true → isSurrogate c = false := by
    intro c hc
    simp only [isIdentifierChar, isLowerAlnum, inRange, isChar, Bool.or_eq_true, Bool.and_eq_true,
      decide_eq_true_eq, beq_iff_eq, Char.reduceToNat] at hc
    simp only [isSurrogate, Bool.and_eq_false_iff, decide_eq_false_iff_not]
    omega
  have hfull : ∀ t, identifierFullmatch t = true → t.any isSurrogate = false := by
    intro t ht
    cases t with
    | nil => rfl
    | cons c cs =>
        simp only [identifierFullmatch, Bool.and_eq_true, List.all_eq_true] at ht
        refine List.any_eq_false.2 fun x hx => ?_
        rcases List.mem_cons.1 hx with rfl | hx
        · simp [hchar x (by simp [isIdentifierChar, ht.1.1])]
        · simp [hchar x (ht.2 x hx)]
  simp only [transportIdentifier, identifierMatch, Bool.and_eq_true, Bool.or_eq_true] at h
  rcases h.2 with hs | ⟨hlast, hinit⟩
  · exact hfull s hs
  · -- the pattern also matches before a trailing newline
    obtain ⟨x, hx, hnewline⟩ := (Option.any_eq_true _ _).1 hlast
    have happ : s = s.dropLast ++ [x] := (List.dropLast_append_getLast? x hx).symm
    have hplain : isSurrogate (ch '\n') = false := by decide
    rw [happ, List.any_append, hfull _ hinit, isChar_iff.1 hnewline]
    simp [hplain]

section Receipt

variable {w : Serializers} {r : MessageReceipt}

/-- The fields of a receipt other than its payload are plain text. -/
structure PlainFields (w : Serializers) (r : MessageReceipt) : Prop where
  sender : r.sender.any isSurrogate = false
  recipient : r.recipient.any isSurrogate = false
  times : w.PlainTimes

/-- What a walk through a receipt says beyond its payload. -/
theorem all_fields (payload : Dict) (str : PyStr → Bool) (flt : PyFloat → Bool) :
    (Json.dict (r.fields w payload)).all str flt =
      ([py "version", protocolVersion, py "type", MessageType.messageReceipt.value,
          py "message_id", uuidStr r.messageId, py "sender", r.sender, py "recipient", r.recipient,
          py "timestamp", w.isoformat r.timestamp, py "payload"].all str &&
        (Json.dict payload).all str flt) := by
  simp only [MessageReceipt.fields, baseFields, messageIdField, List.cons_append, List.nil_append,
    Json.all_dict, Json.all_str, List.all_cons, List.all_nil, Bool.and_true, Bool.and_assoc]

theorem faithful_fields (payload : Dict) (f : FloatText) :
    (Json.dict (r.fields w payload)).faithful f = (Json.dict payload).faithful f := by
  rw [Json.faithful, all_fields]
  simp [Json.faithful]

theorem finite_fields (payload : Dict) :
    (Json.dict (r.fields w payload)).finite = (Json.dict payload).finite := by
  rw [Json.finite, all_fields]
  simp [Json.finite]

theorem encodable_fields (h : PlainFields w r) (payload : Dict) :
    (Json.dict (r.fields w payload)).encodable = (Json.dict payload).encodable := by
  have hkeys : (py "version").any isSurrogate = false ∧ (py "type").any isSurrogate = false ∧
      (py "message_id").any isSurrogate = false ∧ (py "sender").any isSurrogate = false ∧
      (py "recipient").any isSurrogate = false ∧ (py "timestamp").any isSurrogate = false ∧
      (py "payload").any isSurrogate = false ∧ protocolVersion.any isSurrogate = false ∧
      MessageType.messageReceipt.value.any isSurrogate = false := by decide
  obtain ⟨hversion, htype, hid, hsender, hrec, htime, hpayload, hone, hreceipt⟩ := hkeys
  simp only [Json.encodable, all_fields, List.all_cons, List.all_nil, hversion, htype, hid, hsender,
    hrec, htime, hpayload, hone, hreceipt, any_isSurrogate_uuidStr, h.sender, h.recipient,
    h.times r.timestamp, Bool.not_false, Bool.true_and]

/-- The payload is the last member of the text. -/
theorem dictGet_fields (payload : Dict) :
    dictGet (r.fields w payload) (py "payload") = some (.dict payload) := by
  have hkeys : (py "payload" == py "version") = false ∧ (py "payload" == py "type") = false ∧
      (py "payload" == py "message_id") = false ∧ (py "payload" == py "sender") = false ∧
      (py "payload" == py "recipient") = false ∧ (py "payload" == py "timestamp") = false := by
    decide
  obtain ⟨hversion, htype, hid, hsender, hrec, htime⟩ := hkeys
  simp only [dictGet, MessageReceipt.fields, baseFields, messageIdField, List.cons_append,
    List.nil_append, List.lookup_cons, hversion, htype, hid, hsender, hrec, htime,
    beq_self_eq_true]

/-- A serialized payload is finite, and its floats are written as well as those of the payload. -/
theorem Libraries.JsonMode.floats_of_dumps {lib : Libraries} (hmode : lib.JsonMode)
    {payload dumped : Dict} (hdumped : lib.dumpPayload payload = .ok dumped) {f : FloatText}
    (hfloats : (Json.dict payload).faithful f = true) :
    (Json.dict dumped).faithful f = true ∧ (Json.dict dumped).finite = true := by
  have hboth := hmode.floats _ hdumped hfloats
  exact ⟨Json.all_mono hboth fun x hx => (Bool.and_eq_true_iff.1 hx).1,
    Json.all_mono hboth fun x hx => (Bool.and_eq_true_iff.1 hx).2⟩

/-- **A receipt carries its payload across exactly when it is clean**: what is serialized as
something else does not, and neither does what the socket refuses. -/
theorem crosses_iff {lib : Libraries} (hmode : lib.JsonMode) (hplain : PlainFields w r)
    (hfloats : (Json.dict r.payload).faithful w.floats = true) (hdumps : lib.Dumps r.payload) :
    Crosses lib w r r.payload ↔ Clean r.payload := by
  obtain ⟨dumped, hdumped⟩ := hdumps
  obtain ⟨hfaithful, hfinite⟩ := hmode.floats_of_dumps hdumped hfloats
  have hfields := (faithful_fields (w := w) (r := r) dumped w.floats).trans hfaithful
  have hread := strictLoads_dumps hfields
  rw [finite_fields, if_pos hfinite] at hread
  have hdump : dump lib w (.messageReceipt r) = .ok (r.fields w dumped) :=
    dump_receipt_eq_ok_iff.2 ⟨dumped, hdumped, rfl⟩
  have hsend := sendJson_eq w hfields
  rw [encodable_fields hplain] at hsend
  constructor
  · rintro ⟨message, text, hmessage, htext, hpayload⟩
    rw [hdump, Except.ok.injEq] at hmessage
    subst hmessage
    rw [hsend] at htext
    split_ifs at htext with hencodable
    cases htext
    rw [textPayload, hread] at hpayload
    have hsame := hpayload.symm.trans (dictGet_fields dumped)
    rw [Option.some.injEq, Json.dict.injEq] at hsame
    rw [hsame]
    exact ⟨hencodable, hfinite⟩
  · intro hclean
    obtain rfl := hmode.unchanged hdumped hclean
    rw [if_pos hclean.1] at hsend
    refine ⟨_, _, hdump, hsend, ?_⟩
    rw [textPayload, hread]
    exact dictGet_fields _

end Receipt

-- what the decoder reads from `NaN` is written as `null`
example : ¬ Clean [(py "x", .float .nan)] := by decide

/-! ### From the frame -/

/-- A value found in a dictionary is part of it. -/
theorem all_of_dictGet {str : PyStr → Bool} {flt : PyFloat → Bool} {d : Dict} {key : PyStr}
    {v : Json} (hd : (Json.dict d).all str flt = true) (h : dictGet d key = some v) :
    v.all str flt = true := by
  rw [Json.all_dict, List.all_eq_true] at hd
  obtain ⟨l₁, l₂, heq, -⟩ := List.lookup_eq_some_iff.1 h
  have hmem := hd (key, v) (by simp [heq])
  rw [Bool.and_eq_true] at hmem
  exact hmem.2

/-- What an accepted frame says, as the decoder read it. -/
theorem exists_denotes {lib : Libraries} {c : ConnectionContext} {rawText : PyStr}
    {envelope : InboundEnvelope} {errors : List OutboundMessage}
    (h : validateInbound lib c rawText = .ok (some envelope, errors)) :
    ∃ d, lib.loads rawText = .value (.dict d) ∧ InboundEnvelope.Denotes lib d envelope := by
  unfold validateInbound at h
  cases hloads : lib.loads rawText with
  | value v =>
      cases v with
      | dict d =>
          simp only [hloads, Except.ok.injEq] at h
          rcases verdict_validateDict lib c d with ⟨code, id, hrej⟩ | ⟨e, heq, hmodel, -⟩
          · simp [h, rejection] at hrej
          · rw [h, Prod.mk.injEq, Option.some.injEq] at heq
            obtain ⟨rfl, -⟩ := heq
            exact ⟨d, rfl, InboundEnvelope.modelValidate_eq_some_iff.1 hmodel⟩
      | null | bool | int | float | str | list =>
          simp [hloads, rejection] at h
  | jsonDecodeError => simp [hloads, rejection] at h
  | valueError => simp [hloads] at h
  | recursionError => simp [hloads] at h

theorem framePayload_of_denotes {lib : Libraries} {rawText : PyStr} {d : Dict}
    {envelope : InboundEnvelope} (hloads : lib.loads rawText = .value (.dict d))
    (h : InboundEnvelope.Denotes lib d envelope) :
    framePayload lib rawText = some envelope.payload := by
  rw [framePayload, hloads]
  exact h.payload

theorem faithful_of_denotes {lib : Libraries} {w : Serializers} {rawText : PyStr} {d : Dict}
    {envelope : InboundEnvelope} (hfloats : FloatsReadBack lib w)
    (hloads : lib.loads rawText = .value (.dict d)) (h : InboundEnvelope.Denotes lib d envelope) :
    (Json.dict envelope.payload).faithful w.floats = true := by
  have hd := hfloats _ _ hloads
  have hpayload := h.payload
  cases hget : dictGet d (py "payload") with
  | none =>
      rw [hget] at hpayload
      have hempty : [] = envelope.payload := Option.some.inj hpayload
      rw [← hempty]
      simp [Json.faithful]
  | some v =>
      rw [hget] at hpayload
      cases v with
      | dict p =>
          have hsame : p = envelope.payload := Option.some.inj hpayload
          rw [← hsame]
          exact all_of_dictGet hd hget
      | _ => cases hpayload

/-- The names in the receipt of an accepted frame are plain text. -/
theorem plainFields_of_routes {lib : Libraries} {w : Serializers} {s : ServerState} {cid : ConnId}
    {rawText : PyStr} {c : ConnectionContext} {r : MessageReceipt} (htimes : w.PlainTimes)
    (h : Routes lib s cid rawText c r) : PlainFields w r := by
  obtain ⟨-, -, -, envelope, recipient, hvalid, -, hsender, hrec, -, rfl⟩ := h
  obtain ⟨d, -, hdenotes⟩ := exists_denotes hvalid
  refine ⟨?_, ?_, htimes⟩
  · rw [← hsender]
    exact any_isSurrogate_identifier hdenotes.sender_valid
  · have hrecipient := hdenotes.recipient
    rw [hrec] at hrecipient
    rcases InboundEnvelope.recipientField_isSome_iff.1 ⟨_, hrecipient⟩ with hv | hv | ⟨s, hv, hs⟩
    · rw [hv] at hrecipient
      cases hrecipient
    · rw [hv] at hrecipient
      cases hrecipient
    · rw [hv] at hrecipient
      simp only [InboundEnvelope.recipientField, InboundEnvelope.identifierField, hs, if_true,
        Option.map_some, Option.some.injEq] at hrecipient
      subst hrecipient
      exact any_isSurrogate_identifier hs

/-- The receipt of a frame carries the payload of the frame across exactly when it is clean. -/
theorem Routes.crosses_iff {lib : Libraries} {w : Serializers} {s : ServerState} {cid : ConnId}
    {rawText : PyStr} {c : ConnectionContext} {r : MessageReceipt}
    (h : Routes lib s cid rawText c r) (hmode : lib.JsonMode) (hfloats : FloatsReadBack lib w)
    (htimes : w.PlainTimes) :
    ∃ payload, framePayload lib rawText = some payload ∧
      (Crosses lib w r payload ↔ Clean payload) := by
  have hplain := plainFields_of_routes htimes h
  obtain ⟨-, -, -, envelope, recipient, hvalid, -, -, -, hdumps, rfl⟩ := h
  obtain ⟨d, hloads, hdenotes⟩ := exists_denotes hvalid
  exact ⟨envelope.payload, framePayload_of_denotes hloads hdenotes,
    EncryptChat.crosses_iff hmode hplain (faithful_of_denotes hfloats hloads hdenotes) hdumps⟩

/-- **In every run, the payload of a frame crosses to a connection its receipt is placed on exactly
when it is clean**; and every receipt on the queue of a connection is that of a frame of the run. -/
theorem payload_crosses_iff (lib : Libraries) (w : Serializers) (limits : TransportLimits)
    (hmode : lib.JsonMode) (hfloats : FloatsReadBack lib w) (htimes : w.PlainTimes)
    {s : ServerState} {tr : List (ServerState × ServerAction)}
    (hrun : (serverSystem lib limits).Run (.new limits) tr s) {cid' : ConnId}
    {c' : ConnectionContext} (hc' : s.manager.contexts cid' = some c') {r : MessageReceipt}
    (hr : r ∈ c'.receipts) :
    (∃ u cid rawText now clock c, (u, ServerAction.act cid (.frame rawText now clock)) ∈ tr ∧
        Routes lib u cid rawText c r) ∧
      ∀ u cid rawText c, Routes lib u cid rawText c r →
        ∃ payload, framePayload lib rawText = some payload ∧
          (Crosses lib w r payload ↔ Clean payload) := by
  refine ⟨?_, fun u cid rawText c hroutes => hroutes.crosses_iff hmode hfloats htimes⟩
  rw [ConnectionContext.mem_receipts] at hr
  obtain ⟨tr₁, tr₂, u, cid, rawText, now, clock, c, rfl, -, hroutes⟩ :=
    exists_routes_of_held hrun (.inl ⟨cid', c', hc', hr⟩)
  exact ⟨u, cid, rawText, now, clock, c, by simp, hroutes⟩

/-! ### Two payloads -/

/-- A message from `alice` to `bob` with a given payload. -/
def payloadText (payload : PyStr) : PyStr :=
  frameText (py "message.send") (py "alice")
    (py "\",\"recipient\":\"bob\",\"payload\":" ++ payload ++ py "\x7d")

/-- One half. -/
def half : PyFloat := .finite false 1 (-1)

/-- A payload that is clean, and one with a lone surrogate. -/
def samplePayloads : List (PyStr × Dict) :=
  [(py "\x7b\"x\":0.5\x7d", [(py "x", .float half)]),
    (py "\x7b\"x\":\"\\ud800\"\x7d", [(py "x", .str [0xD800])])]

/-- The parsers on these payloads. -/
def payloadLibraries : Libraries :=
  { sampleLibraries with
    loads := fun raw =>
      match samplePayloads.find? fun p => raw == payloadText p.1 with
      | some p =>
          .value (.dict (frameDict (py "message.send") (py "alice")
            [(py "recipient", .str (py "bob")), (py "payload", .dict p.2)]))
      | none => sampleLibraries.loads raw }

/-- Serialization, as it is on these payloads. -/
def sampleSerializers : Serializers where
  floats :=
    { repr := fun _ => py "0.5"
      read := fun _ => half }
  isoformat := fun _ => sampleTime
  seconds := fun _ => half

theorem floatsReadBack_sample : FloatsReadBack payloadLibraries sampleSerializers := by
  have hpayloads : ∀ p ∈ samplePayloads, (Json.dict (frameDict (py "message.send") (py "alice")
      [(py "recipient", .str (py "bob")), (py "payload", .dict p.2)])).faithful
        sampleSerializers.floats = true := by decide +kernel
  intro rawText v h
  simp only [payloadLibraries] at h
  split at h
  · rename_i p hfind
    cases h
    exact hpayloads p (List.mem_of_find?_eq_some hfind)
  · simp only [sampleLibraries] at h
    split_ifs at h
    · cases h
      decide +kernel
    · cases h
      decide +kernel

theorem plainTimes_sample : sampleSerializers.PlainTimes := by
  have htime : sampleTime.any isSurrogate = false := by decide
  exact fun _ => htime

/-- `alice` sends a payload to `bob`, who connects afterwards. -/
def payloadActions (payload : PyStr) : List ServerAction :=
  aliceConnects ++ .act aliceId (.frame (payloadText payload) 0 (.utc 0)) :: bobConnects.tail

theorem jsonMode_payloadLibraries : payloadLibraries.JsonMode := jsonMode_of_eq rfl

/-- What becomes of the receipt in the writer. -/
def sent (r : MessageReceipt) : Except PyError PyStr :=
  (dump payloadLibraries sampleSerializers (.messageReceipt r)).bind (sendJson sampleSerializers)

/-- The receipt on the connection of `bob` passes the test. -/
def bobHolds (test : MessageReceipt → Bool) (s : ServerState) : Bool :=
  (s.manager.contexts bobId).any fun c => c.receipts.any test

/-- What the receipt `bob` holds says of the frame it was made from. -/
theorem exists_routes_of_bobHolds {payload : PyStr} {test : MessageReceipt → Bool}
    (h : ((serverSystem payloadLibraries {}).exec (.new {}) (payloadActions payload)).map
      (bobHolds test) = some true) :
    ∃ tr s c r u cid rawText c₀, (serverSystem payloadLibraries {}).Run (.new {}) tr s ∧
      s.manager.contexts bobId = some c ∧ r ∈ c.receipts ∧
      Routes payloadLibraries u cid rawText c₀ r ∧
      framePayload payloadLibraries rawText = some r.payload ∧ test r = true := by
  obtain ⟨s, -, hrun, hp⟩ := System.exists_run_of_exec h
  obtain ⟨c, hc, hp⟩ := (Option.any_eq_true _ _).1 hp
  obtain ⟨r, hr, htest⟩ := List.any_eq_true.1 hp
  obtain ⟨tr₁, tr₂, u, cid, rawText, now, clock, c₀, -, -, hroutes⟩ :=
    exists_routes_of_held hrun (.inl ⟨bobId, c, hc, ConnectionContext.mem_receipts.1 hr⟩)
  have hframe := hroutes
  obtain ⟨-, -, -, envelope, recipient, hvalid, -, -, -, -, rfl⟩ := hframe
  obtain ⟨d, hloads, hdenotes⟩ := exists_denotes hvalid
  exact ⟨_, s, c, _, u, cid, rawText, c₀, hrun, hc, hr, hroutes,
    framePayload_of_denotes hloads hdenotes, htest⟩

/-- A clean payload crosses. -/
theorem payload_crosses_clean :
    ∃ tr s c r payload, (serverSystem payloadLibraries {}).Run (.new {}) tr s ∧
      s.manager.contexts bobId = some c ∧ r ∈ c.receipts ∧ Clean payload ∧
      Crosses payloadLibraries sampleSerializers r payload := by
  have hexec : ((serverSystem payloadLibraries {}).exec (.new {})
      (payloadActions (py "\x7b\"x\":0.5\x7d"))).map
        (bobHolds fun r => decide (Clean r.payload)) = some true := by
    decide +kernel
  obtain ⟨tr, s, c, r, u, cid, rawText, c₀, hrun, hc, hr, hroutes, hframe, hclean⟩ :=
    exists_routes_of_bobHolds hexec
  obtain ⟨payload, hpayload, hiff⟩ := (payload_crosses_iff payloadLibraries sampleSerializers {}
    jsonMode_payloadLibraries floatsReadBack_sample plainTimes_sample hrun hc hr).2 u cid rawText c₀
      hroutes
  rw [hframe, Option.some.injEq] at hpayload
  subst hpayload
  have hclean' : Clean r.payload := of_decide_eq_true hclean
  exact ⟨tr, s, c, r, r.payload, hrun, hc, hr, hclean', hiff.2 hclean'⟩

/-- **A payload that does not cross**: an escaped lone surrogate.  It is accepted from `alice`,
serialized and placed on the connection of `bob`, and his writer raises. -/
theorem payload_does_not_cross :
    payloadLibraries.JsonMode ∧ FloatsReadBack payloadLibraries sampleSerializers ∧
      sampleSerializers.PlainTimes ∧
      ∃ tr s c r u cid rawText c₀ payload,
        (serverSystem payloadLibraries {}).Run (.new {}) tr s ∧
        s.manager.contexts bobId = some c ∧ r ∈ c.receipts ∧
        Routes payloadLibraries u cid rawText c₀ r ∧
        framePayload payloadLibraries rawText = some payload ∧
        sent r = .error .unicodeEncodeError ∧
        ¬ Crosses payloadLibraries sampleSerializers r payload := by
  have hexec : ((serverSystem payloadLibraries {}).exec (.new {})
      (payloadActions (py "\x7b\"x\":\"\\ud800\"\x7d"))).map
        (bobHolds fun r => decide (sent r = .error .unicodeEncodeError)) = some true := by
    decide +kernel
  refine ⟨jsonMode_payloadLibraries, floatsReadBack_sample, plainTimes_sample, ?_⟩
  obtain ⟨tr, s, c, r, u, cid, rawText, c₀, hrun, hc, hr, hroutes, hframe, hsent⟩ :=
    exists_routes_of_bobHolds hexec
  have hraises : sent r = .error .unicodeEncodeError := of_decide_eq_true hsent
  refine ⟨tr, s, c, r, u, cid, rawText, c₀, r.payload, hrun, hc, hr, hroutes, hframe, hraises, ?_⟩
  rintro ⟨message, text, hmessage, htext, -⟩
  rw [sent, hmessage] at hraises
  have hboth := htext.symm.trans hraises
  cases hboth

end EncryptChat
