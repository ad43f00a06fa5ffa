/-
**The messages the server sends, as they are on the wire.**

`_dump` turns a message object into JSON-compatible primitives, field by field in the order of the
schema, the fixed fields included, and the writer passes the result to `send_json`: the text that
`json.dumps` makes of it without escaping what is not ASCII, encoded as strict UTF-8.  What becomes
of the payload of a receipt is up to the schema library, which may alter it or raise; a model of it
satisfies `EncryptChat.Libraries.JsonMode`.  The text of a finite float, the ISO text of a timestamp
and the float of a configured duration are parameters, collected in `EncryptChat.Serializers`.

* `EncryptChat.Libraries.JsonMode` — what is used of the serialization of a payload;
* `EncryptChat.jsonMode_of_eq` — **the serializer of the schema library** satisfies it;
* `EncryptChat.uuidStr` — `str(uuid)`;
* `EncryptChat.dump` — `_dump`, or the exception it raises;
* `EncryptChat.sendJson` — the text `send_json` puts on the socket, or the exception it raises;
* `EncryptChat.sendJson_eq` — **a message can be sent exactly when no string in it has a lone
  surrogate**.
-/

import EncryptChat.JsonRoundTrip
import EncryptChat.Schemas
import Mathlib.Data.List.Forall2

set_option relaxedAutoImplicit false
set_option autoImplicit false

namespace EncryptChat

open Python

/-- The library functions that serialization calls. -/
structure Serializers where
  floats : FloatText
  /-- The text of a `datetime` field. -/
  isoformat : Datetime → PyStr
  /-- The float of a number of seconds of the configuration. -/
  seconds : ℚ → PyFloat

/-- What is used of the text of a timestamp: it can be encoded. -/
def Serializers.PlainTimes (w : Serializers) : Prop :=
  ∀ t, (w.isoformat t).any isSurrogate = false

/-! ### Payloads -/

/-- No string of the payload, key or value, has a lone surrogate, and every float is finite. -/
def Clean (payload : Dict) : Prop :=
  (Json.dict payload).encodable = true ∧ (Json.dict payload).finite = true

instance (payload : Dict) : Decidable (Clean payload) := inferInstanceAs (Decidable (_ ∧ _))

/-- What is used of the serialization of a payload in JSON mode: a clean payload passes through
unchanged, and of the floats of any payload only finite ones are left, where others become
`null`. -/
structure Libraries.JsonMode (lib : Libraries) : Prop where
  unchanged : ∀ {payload dumped}, lib.dumpPayload payload = .ok dumped → Clean payload →
    dumped = payload
  floats : ∀ {payload dumped} (flt : PyFloat → Bool), lib.dumpPayload payload = .ok dumped →
    (Json.dict payload).all (fun _ => true) flt = true →
    (Json.dict dumped).all (fun _ => true) (fun x => flt x && x.isFinite) = true

/-- What `jsonMode` makes of a value: it keeps a finite one, and of the floats it keeps the finite
ones. -/
structure InJsonMode (v v' : Json) : Prop where
  unchanged : v.finite = true → v' = v
  floats : ∀ flt : PyFloat → Bool, v.all (fun _ => true) flt = true →
    v'.all (fun _ => true) (fun x => flt x && x.isFinite) = true

/-- A head and a tail that may both raise. -/
theorem bind_cons_eq_ok {α β : Type} {x : Except PyError α} {xs : Except PyError (List β)}
    {f : α → β} {l : List β} (h : (x.bind fun a => xs.map (f a :: ·)) = .ok l) :
    ∃ a tail, x = .ok a ∧ xs = .ok tail ∧ l = f a :: tail := by
  cases x with
  | error e => cases h
  | ok a =>
      cases xs with
      | error e => cases h
      | ok tail =>
          cases h
          exact ⟨a, tail, rfl, rfl, rfl⟩

/-- A list in JSON mode, element by element. -/
theorem forall₂_jsonModeList {R : Json → Json → Prop} {vs vs' : List Json}
    (hR : ∀ v ∈ vs, ∀ v', jsonMode v = .ok v' → R v v') (h : jsonModeList vs = .ok vs') :
    List.Forall₂ R vs vs' := by
  induction vs generalizing vs' with
  | nil =>
      cases h
      exact .nil
  | cons v vs ih =>
      obtain ⟨hv, hvs⟩ := List.forall_mem_cons.1 hR
      rw [jsonModeList] at h
      obtain ⟨v', tail, hhead, htail, rfl⟩ := bind_cons_eq_ok h
      exact .cons (hv v' hhead) (ih hvs htail)

/-- A dictionary in JSON mode, item by item; the keys stay. -/
theorem forall₂_jsonModeItems {R : Json → Json → Prop} {items items' : Dict}
    (hR : ∀ item ∈ items, ∀ v', jsonMode item.2 = .ok v' → R item.2 v')
    (h : jsonModeItems items = .ok items') :
    List.Forall₂ (fun item item' => item'.1 = item.1 ∧ R item.2 item'.2) items items' := by
  induction items generalizing items' with
  | nil =>
      cases h
      exact .nil
  | cons item items ih =>
      obtain ⟨hv, hitems⟩ := List.forall_mem_cons.1 hR
      obtain ⟨k, v⟩ := item
      rw [jsonModeItems] at h
      split_ifs at h
      obtain ⟨v', tail, hhead, htail, rfl⟩ := bind_cons_eq_ok h
      exact .cons ⟨rfl, hv v' hhead⟩ (ih hitems htail)

/-- A payload in JSON mode, item by item. -/
theorem forall₂_jsonModePayload {R : Json → Json → Prop} {payload dumped : Dict}
    (hR : ∀ v v', jsonMode v = .ok v' → R v v') (h : jsonModePayload payload = .ok dumped) :
    List.Forall₂ (fun item item' => item'.1 = payloadKey item.1 ∧ R item.2 item'.2) payload
      dumped := by
  induction payload generalizing dumped with
  | nil =>
      cases h
      exact .nil
  | cons item items ih =>
      obtain ⟨k, v⟩ := item
      rw [jsonModePayload] at h
      obtain ⟨v', tail, hhead, htail, rfl⟩ := bind_cons_eq_ok h
      exact .cons ⟨rfl, hR v v' hhead⟩ (ih htail)

/-- From the elements to the list. -/
theorem inJsonMode_list {vs vs' : List Json} (h : List.Forall₂ InJsonMode vs vs') :
    InJsonMode (.list vs) (.list vs') := by
  induction h with
  | nil => exact ⟨fun _ => rfl, fun _ _ => by simp⟩
  | @cons v v' vs vs' hv _ ih =>
      refine ⟨fun hfinite => ?_, fun flt hall => ?_⟩
      · rw [Json.finite, Json.all_list, List.all_cons, Bool.and_eq_true] at hfinite
        have hvs := ih.unchanged (by rw [Json.finite, Json.all_list]; exact hfinite.2)
        rw [hv.unchanged hfinite.1, Json.list.inj hvs]
      · rw [Json.all_list, List.all_cons, Bool.and_eq_true] at hall ⊢
        have hvs := ih.floats flt (by rw [Json.all_list]; exact hall.2)
        rw [Json.all_list] at hvs
        exact ⟨hv.floats flt hall.1, hvs⟩

/-- Of the floats of a dictionary only finite ones are left, whatever becomes of its keys. -/
theorem all_items {flt : PyFloat → Bool} {items items' : Dict}
    (h : List.Forall₂ (fun item item' => InJsonMode item.2 item'.2) items items')
    (hall : (Json.dict items).all (fun _ => true) flt = true) :
    (Json.dict items').all (fun _ => true) (fun x => flt x && x.isFinite) = true := by
  induction h with
  | nil => simp
  | @cons item item' items items' hitem _ ih =>
      simp only [Json.all_dict, List.all_cons, Bool.true_and, Bool.and_eq_true] at hall ⊢
      have hitems := ih (by simpa using hall.2)
      exact ⟨hitem.floats flt hall.1, by simpa using hitems⟩

/-- From the items to the dictionary. -/
theorem inJsonMode_dict {items items' : Dict}
    (h : List.Forall₂ (fun item item' => item'.1 = item.1 ∧ InJsonMode item.2 item'.2)
      items items') : InJsonMode (.dict items) (.dict items') := by
  refine ⟨fun hfinite => ?_, fun flt => all_items (h.imp fun _ _ hitem => hitem.2)⟩
  induction h with
  | nil => rfl
  | @cons item item' items items' hitem _ ih =>
      simp only [Json.finite, Json.all_dict, List.all_cons, Bool.true_and,
        Bool.and_eq_true] at hfinite
      have hitems := ih (by simpa [Json.finite] using hfinite.2)
      rw [Json.dict.inj hitems, Prod.ext hitem.1 (hitem.2.unchanged hfinite.1)]

/-- **What JSON mode does to a value**, by induction over its structure. -/
theorem inJsonMode (v : Json) : ∀ v', jsonMode v = .ok v' → InJsonMode v v' := by
  induction v using Json.induction with
  | null | bool | int | str =>
      intro v' h
      cases h
      exact ⟨fun _ => rfl, fun _ _ => by simp⟩
  | float x =>
      intro v' h
      rw [jsonMode, Except.ok.injEq] at h
      subst h
      refine ⟨fun hfinite => ?_, fun flt hall => ?_⟩
      · rw [Json.finite, Json.all_float] at hfinite
        rw [if_pos hfinite]
      · rw [Json.all_float] at hall
        split_ifs with hfinite
        · rw [Json.all_float, hall, hfinite]
          rfl
        · exact Json.all_null _ _
  | list vs ih =>
      intro v' h
      rw [jsonMode] at h
      cases hvs : jsonModeList vs with
      | error e =>
          rw [hvs] at h
          cases h
      | ok vs' =>
          rw [hvs] at h
          cases h
          exact inJsonMode_list (forall₂_jsonModeList ih hvs)
  | dict items ih =>
      intro v' h
      rw [jsonMode] at h
      cases hitems : jsonModeItems items with
      | error e =>
          rw [hitems] at h
          cases h
      | ok items' =>
          rw [hitems] at h
          cases h
          exact inJsonMode_dict (forall₂_jsonModeItems ih hitems)

/-- A key that UTF-8 can encode stays. -/
theorem payloadKey_of_plain {k : PyStr} (h : k.any isSurrogate = false) : payloadKey k = k := by
  have hchars : ∀ c ∈ k, (if isSurrogate c then [0xFFFD, 0xFFFD, 0xFFFD] else [c]) = [c] := by
    intro c hc
    rw [if_neg (List.any_eq_false.1 h c hc)]
  rw [payloadKey, List.flatMap_congr hchars, List.flatMap_singleton']

/-- A clean payload passes through. -/
theorem eq_of_clean {payload dumped : Dict}
    (h : List.Forall₂ (fun item item' => item'.1 = payloadKey item.1 ∧ InJsonMode item.2 item'.2)
      payload dumped) (hclean : Clean payload) : dumped = payload := by
  induction h with
  | nil => rfl
  | @cons item item' items items' hitem _ ih =>
      obtain ⟨hencodable, hfinite⟩ := hclean
      simp only [Json.encodable, Json.finite, Json.all_dict, List.all_cons, Bool.true_and,
        Bool.and_eq_true, Bool.not_eq_true'] at hencodable hfinite
      have hitems := ih ⟨by simpa [Json.encodable] using hencodable.2,
        by simpa [Json.finite] using hfinite.2⟩
      have hkey := hitem.1.trans (payloadKey_of_plain hencodable.1.1)
      rw [hitems, Prod.ext hkey (hitem.2.unchanged hfinite.1)]

/-- **The serializer of the schema library** does what is used of it. -/
theorem jsonMode_of_eq {lib : Libraries} (h : lib.dumpPayload = jsonModePayload) :
    lib.JsonMode := by
  have hitems {payload dumped : Dict} (hdump : lib.dumpPayload payload = .ok dumped) :=
    forall₂_jsonModePayload inJsonMode (h ▸ hdump)
  exact ⟨fun hdump => eq_of_clean (hitems hdump),
    fun flt hdump => all_items ((hitems hdump).imp fun _ _ hitem => hitem.2)⟩

/-! ### Fields -/

/-- The hexadecimal digits `first` to `first + n` of the 32 of a UUID. -/
def uuidDigits (u : Uuid) (first n : ℕ) : PyStr :=
  (List.range n).map fun i => hexDigit (u.toNat / 16 ^ (31 - (first + i)) % 16)

/-- `str(u)` of a UUID. -/
def uuidStr (u : Uuid) : PyStr :=
  uuidDigits u 0 8 ++ ch '-' :: uuidDigits u 8 4 ++ ch '-' :: uuidDigits u 12 4 ++
    ch '-' :: uuidDigits u 16 4 ++ ch '-' :: uuidDigits u 20 12

/-- The wire string of a delivery status. -/
def DeliveryStatus.value : DeliveryStatus → PyStr
  | delivered => py "delivered"
  | queued => py "queued"
  | recipientUnavailable => py "recipient_unavailable"
  | rejected => py "rejected"

/-- The fields every message starts with. -/
def baseFields (type : MessageType) : Dict :=
  [(py "version", .str protocolVersion), (py "type", .str type.value)]

/-- A field `message_id`. -/
def messageIdField (id : Uuid) : PyStr × Json := (py "message_id", .str (uuidStr id))

/-- A receipt, with what the serialization of its payload has returned. -/
def MessageReceipt.fields (w : Serializers) (r : MessageReceipt) (payload : Dict) : Dict :=
  baseFields .messageReceipt ++
    [messageIdField r.messageId, (py "sender", .str r.sender), (py "recipient", .str r.recipient),
      (py "timestamp", .str (w.isoformat r.timestamp)), (py "payload", .dict payload)]

/-- `_dump(model)`, which is `model.model_dump(mode="json")`, or the exception it raises. -/
def dump (lib : Libraries) (w : Serializers) : OutboundMessage → Except PyError Dict
  | .connectionReady connectionId deadline heartbeat idle maxMessageBytes =>
      .ok (baseFields .connectionReady ++
        [(py "connection_id", .str connectionId), (py "authenticated", .bool false),
          (py "identity_status", .str (py "UNAUTHENTICATED")),
          (py "protocol_version", .str protocolVersion), (py "authentication_required", .bool true),
          (py "authentication_deadline_seconds", .float (w.seconds deadline)),
          (py "heartbeat_interval_seconds", .float (w.seconds heartbeat)),
          (py "idle_timeout_seconds", .float (w.seconds idle)),
          (py "max_message_bytes", .int maxMessageBytes)])
  | .authReady messageId userId username sessionId =>
      .ok (baseFields .authReady ++
        [messageIdField messageId, (py "authenticated", .bool true), (py "user_id", .str userId),
          (py "username", .str username), (py "session_id", .str sessionId),
          (py "identity_verification_status", .str (py "not_implemented")),
          (py "encryption_status", .str (py "not_implemented"))])
  | .messageReceipt r => (lib.dumpPayload r.payload).map (r.fields w)
  | .deliveryAck messageId status =>
      .ok (baseFields .messageDeliveryAck ++
        [messageIdField messageId, (py "status", .str status.value)])
  | .heartbeatPong messageId serverTime =>
      .ok (baseFields .heartbeatPong ++
        [messageIdField messageId, (py "server_time", .str (w.isoformat serverTime))])
  | .queueStatus messageId queuedMessageCount =>
      .ok (baseFields .queueStatus ++
        [messageIdField messageId, (py "queued_message_count", .int queuedMessageCount)])
  | .protocolError code detail messageId =>
      .ok (baseFields .protocolError ++
        [(py "code", .str code), (py "detail", .str detail),
          (py "message_id", messageId.elim .null fun id => .str (uuidStr id))])

/-- `await websocket.send_json(message)` of what `_dump` returned, as far as it depends on the
message: the text, which the socket encodes as strict UTF-8. -/
def sendJson (w : Serializers) (message : Dict) : Except PyError PyStr :=
  let text := dumps w.floats (.dict message)
  (utf8Length text).map fun _ => text

/-! ### What can be sent -/

/-- A UUID is written in ASCII. -/
theorem any_isSurrogate_uuidStr (u : Uuid) : (uuidStr u).any isSurrogate = false := by
  have hdigits : ∀ first n, (uuidDigits u first n).any isSurrogate = false := by
    intro first n
    rw [uuidDigits, List.any_map, List.any_eq_false]
    intro i _
    rw [Function.comp_apply, isSurrogate_hexDigit _ (Nat.mod_lt _ (by decide))]
    simp
  have hdash : isSurrogate (ch '-') = false := by decide
  simp only [uuidStr, List.any_append, List.any_cons, hdigits, hdash, Bool.or_self]

/-- **A message can be sent exactly when no string in it has a lone surrogate**; sending it puts its
text on the socket. -/
theorem sendJson_eq (w : Serializers) {message : Dict}
    (hfloats : (Json.dict message).faithful w.floats = true) :
    sendJson w message =
      if (Json.dict message).encodable then .ok (dumps w.floats (.dict message))
      else .error .unicodeEncodeError := by
  rw [sendJson, utf8Length]
  rw [any_isSurrogate_dumps hfloats]
  cases (Json.dict message).encodable <;> rfl

/-- A receipt is serialized exactly when its payload is. -/
theorem dump_receipt_eq_ok_iff {lib : Libraries} {w : Serializers} {r : MessageReceipt}
    {message : Dict} : dump lib w (.messageReceipt r) = .ok message ↔
      ∃ payload, lib.dumpPayload r.payload = .ok payload ∧ message = r.fields w payload := by
  rw [dump]
  cases lib.dumpPayload r.payload <;> simp [Except.map, eq_comm]

end EncryptChat
