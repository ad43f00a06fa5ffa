/-
**The relay never looks into a payload, nor into a token.**

The transport copies the payload of a `message.send` and inspects it nowhere but in serialization,
which may refuse it; of the payload of an `auth.authenticate` it looks at nothing but whether there
is a token of admissible length.  So two frames that differ in their payloads only, and whose
payloads are serialized alike, are handled alike: the same answers, the same routing, the
same places on the same queues, and receipts that differ in the payload as the frames did.  Related
payloads may be any two: with the graph of a function this says that whatever is done to all
payloads on the way in might as well be done on the way out, and with the total relation that
nothing but payloads depends on payloads.

Main definitions:

* `EncryptChat.DumpsAlike` — both payloads can be serialized, or both raise the same;
* `EncryptChat.FramesAlike` — two frames that differ in their payloads only, or that are both too
  large and of the same length;
* `EncryptChat.ServersAlike` — two states of the server that hold the same but for payloads and
  tokens;
* `EncryptChat.payloadLockstep` — the lockstep simulation of the server with itself.

Main results:

* `EncryptChat.validateInbound_alike` — two related frames get the same verdict;
* `EncryptChat.receiveFrame_alike`, `EncryptChat.handlerStep_alike` — and are handled alike;
* `EncryptChat.relay_is_opaque` — **every run of the server is followed, whatever the payloads**.
-/

import EncryptChat.PayloadRelation
import EncryptChat.SenderAuthenticity

set_option relaxedAutoImplicit false
set_option autoImplicit false

namespace EncryptChat

open Python Transition
open Transition.System (cases_of_rel)

/-! ### Frames -/

/-- The payload carries a token of admissible length. -/
def OffersToken (payload : Dict) : Prop :=
  ∃ rawToken, dictGet payload (py "access_token") = some (.str rawToken) ∧ rawToken ≠ [] ∧
    rawToken.length ≤ maxTokenLength

/-- Two values of the field `payload`: both missing, both objects, or both refused. -/
inductive PayloadFieldsAlike (P : Dict → Dict → Prop) : Option Json → Option Json → Prop
  | absent (h : P [] []) : PayloadFieldsAlike P none none
  | object {p p' : Dict} (h : P p p') : PayloadFieldsAlike P (some (.dict p)) (some (.dict p'))
  | refused {v v' : Json} (h : InboundEnvelope.payloadField (some v) = none)
      (h' : InboundEnvelope.payloadField (some v') = none) :
      PayloadFieldsAlike P (some v) (some v')

/-- Both payloads can be serialized, or serializing either raises the same exception. -/
def DumpsAlike (lib : Libraries) (p p' : Dict) : Prop :=
  (lib.dumpPayload p').map (fun _ => ()) = (lib.dumpPayload p).map fun _ => ()

/-- Two objects that differ in the field `payload` only; of two payloads of `auth.authenticate` both
carry an admissible token or neither does, and two payloads of `message.send` are serialized
alike. -/
structure ObjectsAlike (lib : Libraries) (P : Dict → Dict → Prop) (d d' : Dict) : Prop where
  keys : d'.map Prod.fst = d.map Prod.fst
  others : ∀ k, k ≠ py "payload" → dictGet d' k = dictGet d k
  payload : PayloadFieldsAlike P (dictGet d (py "payload")) (dictGet d' (py "payload"))
  token : dictGet d (py "type") = some (.str MessageType.authAuthenticate.value) → ∀ p p',
    InboundEnvelope.payloadField (dictGet d (py "payload")) = some p →
    InboundEnvelope.payloadField (dictGet d' (py "payload")) = some p' →
    (OffersToken p ↔ OffersToken p')
  dumps : dictGet d (py "type") = some (.str MessageType.messageSend.value) → ∀ p p',
    InboundEnvelope.payloadField (dictGet d (py "payload")) = some p →
    InboundEnvelope.payloadField (dictGet d' (py "payload")) = some p' → DumpsAlike lib p p'

/-- Two outcomes of `json.loads` that differ in the field `payload` of an object only. -/
inductive LoadsAlike (lib : Libraries) (P : Dict → Dict → Prop) : Loads → Loads → Prop
  | object {d d' : Dict} (h : ObjectsAlike lib P d d') :
      LoadsAlike lib P (.value (.dict d)) (.value (.dict d'))
  | same {l : Loads} (h : ∀ d, l ≠ .value (.dict d)) : LoadsAlike lib P l l

/-- Two frames that differ in their payloads only.  Of a frame that is too large the length is
logged, and nothing else is looked at. -/
inductive FramesAlike (lib : Libraries) (limits : TransportLimits) (P : Dict → Dict → Prop)
    (t t' : PyStr) : Prop
  | notEncodable {e : PyError} (h : utf8Length t = .error e) (h' : utf8Length t' = .error e)
  | tooLarge {n n' : ℕ} (h : utf8Length t = .ok n) (h' : utf8Length t' = .ok n')
      (large : limits.maxMessageBytes < n) (large' : limits.maxMessageBytes < n')
      (length : t'.length = t.length)
  | admitted {n n' : ℕ} (h : utf8Length t = .ok n) (h' : utf8Length t' = .ok n')
      (fits : n ≤ limits.maxMessageBytes) (fits' : n' ≤ limits.maxMessageBytes)
      (loads : LoadsAlike lib P (lib.loads t) (lib.loads t'))

variable {P : Dict → Dict → Prop} {lib : Libraries} {limits : TransportLimits}

/-! ### Validation -/

/-- Two envelopes that differ in their payloads only. -/
structure EnvelopesAlike (lib : Libraries) (P : Dict → Dict → Prop) (e e' : InboundEnvelope) :
    Prop where
  payload : P e.payload e'.payload
  token : e.type = .authAuthenticate → (OffersToken e.payload ↔ OffersToken e'.payload)
  dumps : e.type = .messageSend → DumpsAlike lib e.payload e'.payload
  rest : e' = { e with payload := e'.payload }

/-- Two verdicts of `_validate_inbound` that differ in the payload of the envelope only. -/
inductive VerdictsAlike (lib : Libraries) (P : Dict → Dict → Prop) :
    Except PyError (Option InboundEnvelope × List OutboundMessage) →
    Except PyError (Option InboundEnvelope × List OutboundMessage) → Prop
  | raised (e : PyError) : VerdictsAlike lib P (.error e) (.error e)
  | rejected (code : ProtocolErrorCode) (id : Option Uuid) :
      VerdictsAlike lib P (.ok (rejection code id)) (.ok (rejection code id))
  | accepted {e e' : InboundEnvelope} (h : EnvelopesAlike lib P e e') :
      VerdictsAlike lib P (.ok (some e, [])) (.ok (some e', []))

/-- What begins alike goes on alike. -/
theorem rel_bind {α β : Type} {R : β → β → Prop} {o : Option α} {f g : α → Option β}
    (h : ∀ a, o = some a → Option.Rel R (f a) (g a)) : Option.Rel R (o.bind f) (o.bind g) := by
  cases o with
  | none => exact .none
  | some a => exact h a rfl

/-- A type that was read is the one on the wire. -/
theorem eq_of_typeField {v : Option Json} {type : MessageType}
    (h : v.bind InboundEnvelope.typeField = some type) : v = some (.str type.value) := by
  obtain ⟨value, rfl, hvalue⟩ := Option.bind_eq_some_iff.1 h
  cases value with
  | str s =>
      have hfound := List.find?_some hvalue
      rw [beq_iff_eq] at hfound
      rw [hfound]
  | _ => cases hvalue

/-- Both payloads are refused, or related payloads are read. -/
theorem PayloadFieldsAlike.read {o o' : Option Json} (h : PayloadFieldsAlike P o o') :
    Option.Rel P (InboundEnvelope.payloadField o) (InboundEnvelope.payloadField o') := by
  cases h with
  | absent h | object h => exact .some h
  | refused h h' =>
      rw [h, h']
      exact .none

namespace ObjectsAlike

variable {d d' : Dict}

theorem extractMessageId (h : ObjectsAlike lib P d d') :
    EncryptChat.extractMessageId lib d' = EncryptChat.extractMessageId lib d := by
  unfold EncryptChat.extractMessageId
  rw [h.others (py "message_id") (by decide)]

/-- **The schema accepts both objects or neither.** -/
theorem modelValidate (lib : Libraries) (h : ObjectsAlike lib P d d') :
    Option.Rel (EnvelopesAlike lib P) (InboundEnvelope.modelValidate lib d)
      (InboundEnvelope.modelValidate lib d') := by
  have hfields : (d'.all fun item => InboundEnvelope.fields.contains item.1) =
      d.all fun item => InboundEnvelope.fields.contains item.1 := by
    have hkeys : (d'.map Prod.fst).all InboundEnvelope.fields.contains =
        (d.map Prod.fst).all InboundEnvelope.fields.contains := by rw [h.keys]
    rw [List.all_map, List.all_map] at hkeys
    exact hkeys
  unfold InboundEnvelope.modelValidate
  rw [hfields, h.others (py "version") (by decide), h.others (py "message_id") (by decide),
    h.others (py "type") (by decide), h.others (py "sender") (by decide),
    h.others (py "recipient") (by decide), h.others (py "timestamp") (by decide)]
  refine rel_bind fun _ _ => rel_bind fun _ _ => rel_bind fun messageId _ => ?_
  refine rel_bind fun type htype => rel_bind fun sender _ => rel_bind fun recipient _ => ?_
  refine rel_bind fun timestamp _ => rel_bind fun _ _ => ?_
  -- the payloads are all that is left
  rcases cases_of_rel h.payload.read with ⟨hp, hp'⟩ | ⟨p, p', hp, hp', hpp⟩
  · rw [hp, hp']
    exact .none
  · rw [hp, hp']
    refine .some ⟨hpp, ?_, ?_, rfl⟩
    · rintro rfl
      exact h.token (eq_of_typeField htype) p p' hp hp'
    · rintro rfl
      exact h.dumps (eq_of_typeField htype) p p' hp hp'

end ObjectsAlike

/-- The gate looks at nothing of the context but whether it is authenticated. -/
theorem validateTyped_alike {d d' : Dict} (h : ObjectsAlike lib P d d') {c c' : ConnectionContext}
    (hauth : c'.authenticated = c.authenticated) (type : MessageType) :
    VerdictsAlike lib P (.ok (validateTyped lib c d type))
      (.ok (validateTyped lib c' d' type)) := by
  unfold validateTyped
  rw [h.extractMessageId, hauth]
  by_cases hsendable : type ∈ MessageType.clientSendable
  swap
  · rw [if_pos hsendable, if_pos hsendable]
    exact .rejected _ _
  rw [if_neg (not_not.2 hsendable), if_neg (not_not.2 hsendable)]
  by_cases hgate : c.authenticated = false ∧ type ∉ MessageType.unauthenticatedSendable
  · rw [if_pos hgate, if_pos hgate]
    exact .rejected _ _
  rw [if_neg hgate, if_neg hgate]
  rcases cases_of_rel (h.modelValidate lib) with ⟨he, he'⟩ | ⟨e, e', he, he', hee⟩
  · rw [he, he']
    exact .rejected _ _
  · rw [he, he']
    exact .accepted hee

theorem validateDict_alike {d d' : Dict} (h : ObjectsAlike lib P d d') {c c' : ConnectionContext}
    (hauth : c'.authenticated = c.authenticated) :
    VerdictsAlike lib P (.ok (validateDict lib c d)) (.ok (validateDict lib c' d')) := by
  unfold validateDict
  rw [h.others (py "version") (by decide), h.others (py "type") (by decide), h.extractMessageId]
  split_ifs
  · exact .rejected _ _
  cases (dictGet d (py "type")).bind InboundEnvelope.typeField with
  | none => exact .rejected _ _
  | some type => exact validateTyped_alike h hauth type

/-- **Two related frames get the same verdict.** -/
theorem validateInbound_alike (lib : Libraries) {t t' : PyStr}
    (h : LoadsAlike lib P (lib.loads t) (lib.loads t'))
    {c c' : ConnectionContext} (hauth : c'.authenticated = c.authenticated) :
    VerdictsAlike lib P (validateInbound lib c t) (validateInbound lib c' t') := by
  unfold validateInbound
  generalize lib.loads t = l at h ⊢
  generalize lib.loads t' = l' at h ⊢
  cases h with
  | object hd => exact validateDict_alike hd hauth
  | same hobject =>
      cases l with
      | jsonDecodeError => exact .rejected _ _
      | valueError | recursionError => exact .raised _
      | value v =>
          cases v with
          | dict d => exact absurd rfl (hobject d)
          | null | bool | int | float | str | list => exact .rejected _ _

/-! ### Routing and answering -/

theorem forall₂_alike_of_plain {l : List OutboundMessage} (h : ∀ r ∈ l, r.receipt? = none) :
    List.Forall₂ (MessagesAlike P) l l :=
  List.forall₂_same.2 fun r hr => .plain (h r hr)

theorem errorMessage_alike (code : ProtocolErrorCode) (id : Option Uuid) :
    MessagesAlike P (errorMessage code id) (errorMessage code id) := .plain rfl

/-- Two functions that raise the same exception, or leave related managers and answer the same. -/
inductive HandledAlike (P : Dict → Dict → Prop) {α : Type} :
    Except PyError (ConnectionManager × α) → Except PyError (ConnectionManager × α) → Prop
  | raised (e : PyError) : HandledAlike P (.error e) (.error e)
  | returned {x x' : ConnectionManager × α} (h : BothAlike (ManagersAlike P) x x') :
      HandledAlike P (.ok x) (.ok x')

/-- The receipts of two related messages are related. -/
theorem receiptOf_alike {c c' : ConnectionContext} {e e' : InboundEnvelope}
    (hc : ContextsAlike P c c') (he : EnvelopesAlike lib P e e') (recipient : PyStr) (ref : ℕ) :
    MessagesAlike P (.messageReceipt (receiptOf c e recipient ref))
      (.messageReceipt (receiptOf c' e' recipient ref)) := by
  rw [he.rest]
  unfold receiptOf
  rw [hc.routingIdentity]
  exact .receipt _ he.payload

namespace ManagersAlike

variable {m m' : ConnectionManager} {c c' : ConnectionContext} {e e' : InboundEnvelope}

/-- **A receipt is routed alike, and its sender is told the same.** -/
theorem routeReceipt (h : ManagersAlike P m m') (hc : ContextsAlike P c c')
    (he : EnvelopesAlike lib P e e') (recipient : PyStr) (ref : ℕ) :
    BothAlike (ManagersAlike P) (EncryptChat.routeReceipt m c e recipient ref)
      (EncryptChat.routeReceipt m' c' e' recipient ref) := by
  have hreceipt := receiptOf_alike hc he recipient ref
  unfold EncryptChat.routeReceipt
  rw [h.isConnected]
  split_ifs
  · have hdelivery := h.deliverToClient recipient hreceipt
    exact ⟨hdelivery.state, by simp only [hdelivery.answer]⟩
  · have hqueueing := h.enqueueOffline recipient hreceipt
    exact ⟨hqueueing.state, by simp only [hqueueing.answer]⟩

/-- **A message is routed alike, or not at all with the same exception.** -/
theorem routeMessage (h : ManagersAlike P m m') (hc : ContextsAlike P c c')
    (he : EnvelopesAlike lib P e e') (hsend : e.type = .messageSend) (recipient : PyStr) (ref : ℕ) :
    HandledAlike P (EncryptChat.routeMessage lib m c e recipient ref)
      (EncryptChat.routeMessage lib m' c' e' recipient ref) := by
  have hdumps := he.dumps hsend
  unfold EncryptChat.routeMessage
  unfold DumpsAlike at hdumps
  cases hp : lib.dumpPayload e.payload <;> cases hp' : lib.dumpPayload e'.payload
  all_goals rw [hp, hp'] at hdumps
  · cases hdumps
    exact .raised _
  · cases hdumps
  · cases hdumps
  · exact .returned (h.routeReceipt hc he recipient ref)

theorem handleMessageSend (h : ManagersAlike P m m') (hc : ContextsAlike P c c')
    (he : EnvelopesAlike lib P e e') (hsend : e.type = .messageSend) (ref : ℕ) :
    HandledAlike P (EncryptChat.handleMessageSend lib m c e ref)
      (EncryptChat.handleMessageSend lib m' c' e' ref) := by
  have hid : e'.messageId = e.messageId := by rw [he.rest]
  have hsender : e'.sender = e.sender := by rw [he.rest]
  have hrecipient : e'.recipient = e.recipient := by rw [he.rest]
  unfold EncryptChat.handleMessageSend
  rw [hid, hsender, hrecipient, hc.routingIdentity]
  split_ifs
  · exact .returned ⟨h, rfl⟩
  · cases e.recipient with
    | none => exact .returned ⟨h, rfl⟩
    | some recipient =>
        have hrouted := h.routeMessage hc he hsend recipient ref
        dsimp only
        generalize EncryptChat.routeMessage lib m c e recipient ref = x at hrouted ⊢
        generalize EncryptChat.routeMessage lib m' c' e' recipient ref = x' at hrouted ⊢
        cases hrouted with
        | raised error => exact .raised error
        | returned hboth => exact .returned ⟨hboth.state, by simp only [hboth.answer]⟩

theorem handlePrivileged (h : ManagersAlike P m m') (hc : ContextsAlike P c c')
    (he : EnvelopesAlike lib P e e') (ref : ℕ) :
    HandledAlike P (EncryptChat.handlePrivileged lib m c e ref)
      (EncryptChat.handlePrivileged lib m' c' e' ref) := by
  have hid : e'.messageId = e.messageId := by rw [he.rest]
  have htype : e'.type = e.type := by rw [he.rest]
  unfold EncryptChat.handlePrivileged
  rw [htype, hid]
  cases hvalue : e.type with
  | messageSend => exact h.handleMessageSend hc he hvalue ref
  | queueStatus =>
      dsimp only
      rw [hc.routingIdentity, h.offlineQueue.count]
      exact .returned ⟨h, rfl⟩
  | connectionReady | messageReceipt | messageDeliveryAck | heartbeatPong | protocolError
  | authReady | heartbeatPing | authAuthenticate => exact .returned ⟨h, rfl⟩

theorem enqueueResponses (cid : ConnId) {l l' : List OutboundMessage}
    (hl : List.Forall₂ (MessagesAlike P) l l') :
    ∀ {m m' : ConnectionManager}, ManagersAlike P m m' →
      BothAlike (ManagersAlike P) (EncryptChat.enqueueResponses m cid l)
        (EncryptChat.enqueueResponses m' cid l') := by
  induction hl with
  | nil => exact fun h => ⟨h, rfl⟩
  | cons hx _ ih =>
      intro m m' h
      have hsent := h.enqueueOutbound cid hx
      simp only [EncryptChat.enqueueResponses]
      rw [hsent.answer]
      split_ifs
      · exact ih hsent.state
      · exact ⟨hsent.state, rfl⟩

theorem respond (h : ManagersAlike P m m') (cid : ConnId) {l l' : List OutboundMessage}
    (hl : List.Forall₂ (MessagesAlike P) l l') :
    BothAlike (ManagersAlike P) (EncryptChat.respond m cid l) (EncryptChat.respond m' cid l') := by
  have hqueued := enqueueResponses cid hl h
  refine ⟨hqueued.state, ?_⟩
  simp only [EncryptChat.respond, hqueued.answer]

/-- Answers without a receipt are put on both queues alike. -/
theorem respond_plain (h : ManagersAlike P m m') (cid : ConnId) {l : List OutboundMessage}
    (hl : ∀ r ∈ l, r.receipt? = none) :
    BothAlike (ManagersAlike P) (EncryptChat.respond m cid l) (EncryptChat.respond m' cid l) :=
  h.respond cid (forall₂_alike_of_plain hl)

theorem finishAuthentication (h : ManagersAlike P m m') (cid : ConnId)
    (hc : ContextsAlike P c c') (hid : e'.messageId = e.messageId)
    (result : Except AuthError AuthenticatedIdentity) :
    ManagersAlike P (EncryptChat.finishAuthentication m cid c e result).1
        (EncryptChat.finishAuthentication m' cid c' e' result).1 ∧
      List.Forall₂ (MessagesAlike P) (EncryptChat.finishAuthentication m cid c e result).2
        (EncryptChat.finishAuthentication m' cid c' e' result).2 := by
  cases result with
  | error e =>
      simp only [EncryptChat.finishAuthentication, hid]
      exact ⟨h, .cons (errorMessage_alike _ _) .nil⟩
  | ok identity =>
      obtain ⟨hdrained, hqueued⟩ :=
        (h.bindIdentity cid hc identity).drainOffline identity.username
      simp only [EncryptChat.finishAuthentication, hid]
      exact ⟨hdrained, .cons (.plain rfl) hqueued⟩

end ManagersAlike

/-! ### One iteration of the receive loop -/

/-- Two ends of an iteration that are the same, or two resolutions for the same message. -/
inductive IterationsAlike : Iteration → Iteration → Prop
  | next : IterationsAlike .next .next
  | close (code : ℕ) : IterationsAlike (.close code) (.close code)
  | raise (e : PyError) : IterationsAlike (.raise e) (.raise e)
  | resolve {e e' : InboundEnvelope} (rawToken rawToken' : PyStr)
      (h : e'.messageId = e.messageId) :
      IterationsAlike (.resolve e rawToken) (.resolve e' rawToken')

/-- Two outcomes of an iteration. -/
structure OutcomesAlike (P : Dict → Dict → Prop) (x x' : ConnectionManager × Iteration) :
    Prop where
  manager : ManagersAlike P x.1 x'.1
  iteration : IterationsAlike x.2 x'.2

theorem OutcomesAlike.of_respond {m m' : ConnectionManager} {cid : ConnId}
    {l l' : List OutboundMessage}
    (h : BothAlike (ManagersAlike P) (respond m cid l) (respond m' cid l')) :
    OutcomesAlike P (respond m cid l) (respond m' cid l') := by
  refine ⟨h.state, ?_⟩
  rw [h.answer]
  unfold respond
  dsimp only
  split_ifs
  · exact .next
  · exact .close _

section Frames

variable {m m' : ConnectionManager} {c c' : ConnectionContext} {e e' : InboundEnvelope}

/-- An admissible token is resolved. -/
theorem beginAuthentication_of_token (hauth : ¬ c.authenticated = true)
    (h : OffersToken e.payload) : ∃ rawToken, beginAuthentication c e = .ok rawToken := by
  obtain ⟨rawToken, hget, hne, hle⟩ := h
  refine ⟨rawToken, ?_⟩
  rw [beginAuthentication, if_neg hauth, hget]
  exact if_neg (not_or.2 ⟨hne, not_lt.2 hle⟩)

/-- Whatever else is presented is refused in one way. -/
theorem beginAuthentication_of_no_token (hauth : ¬ c.authenticated = true)
    (h : ¬ OffersToken e.payload) :
    beginAuthentication c e = .error [errorMessage .authFailed (some e.messageId)] := by
  rw [beginAuthentication, if_neg hauth]
  split
  · rename_i rawToken hget
    split_ifs with hadmissible
    · rfl
    · obtain ⟨hne, hle⟩ := not_or.1 hadmissible
      exact absurd ⟨rawToken, hget, hne, not_lt.1 hle⟩ h
  · rfl

/-- A token is resolved in both or in neither, and a refusal is the same. -/
theorem beginAuthentication_alike (hc : ContextsAlike P c c') (he : EnvelopesAlike lib P e e')
    (htype : e.type = .authAuthenticate) :
    (∃ responses, beginAuthentication c e = .error responses ∧
        beginAuthentication c' e' = .error responses) ∨
      ∃ rawToken rawToken', beginAuthentication c e = .ok rawToken ∧
        beginAuthentication c' e' = .ok rawToken' := by
  have hid : e'.messageId = e.messageId := by rw [he.rest]
  by_cases hauth : c.authenticated = true
  · refine .inl ⟨_, if_pos hauth, ?_⟩
    rw [beginAuthentication, if_pos (hc.authenticated.trans hauth), hid]
  have hauth' : ¬ c'.authenticated = true := fun h => hauth (hc.authenticated.symm.trans h)
  by_cases htoken : OffersToken e.payload
  · obtain ⟨rawToken, hraw⟩ := beginAuthentication_of_token hauth htoken
    obtain ⟨rawToken', hraw'⟩ := beginAuthentication_of_token hauth' ((he.token htype).1 htoken)
    exact .inr ⟨rawToken, rawToken', hraw, hraw'⟩
  · have hnone' := beginAuthentication_of_no_token hauth' (mt (he.token htype).2 htoken)
    rw [hid] at hnone'
    exact .inl ⟨_, beginAuthentication_of_no_token hauth htoken, hnone'⟩

theorem dispatch_alike (h : ManagersAlike P m m') (cid : ConnId) (hc : ContextsAlike P c c')
    (he : EnvelopesAlike lib P e e') (clock : Datetime) (ref : ℕ) :
    OutcomesAlike P (dispatch lib m cid c e clock ref) (dispatch lib m' cid c' e' clock ref) := by
  have hid : e'.messageId = e.messageId := by rw [he.rest]
  have htype : e'.type = e.type := by rw [he.rest]
  have hhandled := h.handlePrivileged hc he ref
  unfold dispatch
  rw [htype, hid]
  cases heq : e.type with
  | authAuthenticate =>
      rcases beginAuthentication_alike hc he heq with
        ⟨responses, hr, hr'⟩ | ⟨rawToken, rawToken', hr, hr'⟩
      · dsimp only
        rw [hr, hr']
        exact .of_respond (h.respond_plain cid (receipt?_beginAuthentication hr))
      · dsimp only
        rw [hr, hr']
        exact ⟨h, .resolve rawToken rawToken' hid⟩
  | heartbeatPing =>
      exact .of_respond (h.respond_plain cid fun r hr => by
        rw [List.mem_singleton.1 hr]
        rfl)
  | messageSend | queueStatus =>
      dsimp only
      rw [if_pos (by decide), if_pos (by decide)]
      have hplain := @receipt?_handlePrivileged lib m c e ref
      generalize handlePrivileged lib m c e ref = x at hhandled hplain ⊢
      generalize handlePrivileged lib m' c' e' ref = x' at hhandled ⊢
      cases hhandled with
      | raised error => exact ⟨h, .raise error⟩
      | returned hboth =>
          dsimp only
          rw [hboth.answer]
          exact .of_respond (hboth.state.respond_plain cid (hplain rfl))
  | connectionReady | messageReceipt | messageDeliveryAck | heartbeatPong | protocolError
  | authReady =>
      dsimp only
      rw [if_neg (by decide), if_neg (by decide)]
      exact .of_respond (h.respond_plain cid fun r hr => by
        rw [List.mem_singleton.1 hr]
        rfl)

theorem handleFrame_alike (h : ManagersAlike P m m') (cid : ConnId) (hc : ContextsAlike P c c')
    {t t' : PyStr} (ht : LoadsAlike lib P (lib.loads t) (lib.loads t')) (clock : Datetime)
    (ref : ℕ) : OutcomesAlike P (handleFrame lib m cid c t clock ref)
      (handleFrame lib m' cid c' t' clock ref) := by
  have hverdict := validateInbound_alike lib ht hc.authenticated
  unfold handleFrame
  generalize validateInbound lib c t = v at hverdict ⊢
  generalize validateInbound lib c' t' = v' at hverdict ⊢
  cases hverdict with
  | raised e => exact ⟨h, .raise e⟩
  | rejected code id =>
      exact .of_respond (h.respond_plain cid fun r hr => by
        rw [List.mem_singleton.1 hr]
        rfl)
  | accepted he => exact dispatch_alike h cid hc he clock ref

/-- **Two related frames are handled alike.** -/
theorem receiveFrame_alike (h : ManagersAlike P m m') (hlimits : m.limits = limits) (cid : ConnId)
    (hc : ContextsAlike P c c') {t t' : PyStr} (ht : FramesAlike lib limits P t t') (now : ℚ)
    (clock : Datetime) (ref : ℕ) :
    OutcomesAlike P (receiveFrame lib m cid c t now clock ref)
      (receiveFrame lib m' cid c' t' now clock ref) := by
  have hlimits' : m'.limits = limits := h.limits.trans hlimits
  have htouched := h.modifyContext cid (f := fun c => c.touch now) fun _ _ hcc => hcc.touch now
  have hcounted := htouched.modifyContext cid (f := fun c => (c.allow now).1)
    fun _ _ hcc => (hcc.allow now).state
  unfold receiveFrame
  rw [hlimits, hlimits']
  cases ht with
  | @notEncodable e hn hn' =>
      rw [hn, hn']
      exact ⟨htouched, .raise e⟩
  | tooLarge hn hn' hlarge hlarge' =>
      rw [hn, hn']
      dsimp only
      rw [if_pos hlarge, if_pos hlarge']
      exact ⟨(htouched.enqueueOutbound cid (errorMessage_alike _ _)).state, .next⟩
  | admitted hn hn' hfits hfits' hloads =>
      rw [hn, hn']
      dsimp only
      rw [if_neg (not_lt.2 hfits), if_neg (not_lt.2 hfits'), (hc.allow now).answer]
      split_ifs
      · exact ⟨(hcounted.enqueueOutbound cid (errorMessage_alike _ _)).state, .next⟩
      · exact handleFrame_alike hcounted cid hc hloads clock ref

end Frames

/-! ### Handlers -/

/-- Two phases that are the same, or in which two tokens for the same message are resolved. -/
inductive PhasesAlike : Phase → Phase → Prop
  | authenticating {e e' : InboundEnvelope} (rawToken rawToken' : PyStr)
      (h : e'.messageId = e.messageId) :
      PhasesAlike (.authenticating e rawToken) (.authenticating e' rawToken')
  | same {p : Phase} (h : ∀ e rawToken, p ≠ .authenticating e rawToken) : PhasesAlike p p

/-- Two writers that are the same, or send related messages. -/
inductive WritersAlike (P : Dict → Dict → Prop) : Writer → Writer → Prop
  | sending {x x' : OutboundMessage} (h : MessagesAlike P x x') :
      WritersAlike P (.sending x) (.sending x')
  | same {w : Writer} (h : ∀ x, w ≠ .sending x) : WritersAlike P w w

/-- Two handlers that differ in payloads and tokens only. -/
structure HandlersAlike (P : Dict → Dict → Prop) (hd hd' : Handler) : Prop where
  phase : PhasesAlike hd.phase hd'.phase
  writer : WritersAlike P hd.writer hd'.writer
  rest : hd' = { hd with phase := hd'.phase, writer := hd'.writer }

/-- Two outcomes of a step of a connection. -/
structure StepsAlike (P : Dict → Dict → Prop) (x x' : ConnectionManager × Handler) : Prop where
  manager : ManagersAlike P x.1 x'.1
  handler : HandlersAlike P x.2 x'.2

section Handlers

variable {m m' : ConnectionManager} {c c' : ConnectionContext} {hd hd' : Handler} {cid : ConnId}

namespace HandlersAlike

/-- The writers move alike. -/
theorem written (h : HandlersAlike P hd hd') {writer writer' : Writer}
    (hwriter : WritersAlike P writer writer') :
    HandlersAlike P { hd with writer } { hd' with writer := writer' } := by
  refine ⟨h.phase, hwriter, ?_⟩
  rw [h.rest]

theorem raise (h : HandlersAlike P hd hd') (e : PyError) :
    HandlersAlike P (hd.raise e) (hd'.raise e) := by
  refine ⟨.same (by simp [Handler.raise]), h.writer, ?_⟩
  rw [h.rest]
  rfl

end HandlersAlike

theorem enterFinally_alike (hm : ManagersAlike P m m') (h : HandlersAlike P hd hd')
    (closeCode : ℕ) (raised : Option PyError) :
    StepsAlike P (enterFinally m cid hd closeCode raised)
      (enterFinally m' cid hd' closeCode raised) := by
  refine ⟨hm.modifyContext cid fun _ _ hc => hc.markClosing, ?_, h.writer, ?_⟩
  · exact .same (by simp [enterFinally])
  · unfold enterFinally
    rw [h.rest]

theorem continueLoop_alike (h : HandlersAlike P hd hd') {x x' : ConnectionManager × Iteration}
    (hx : OutcomesAlike P x x') :
    StepsAlike P (continueLoop cid hd x) (continueLoop cid hd' x') := by
  obtain ⟨m, it⟩ := x
  obtain ⟨m', it'⟩ := x'
  obtain ⟨hm, hit⟩ := hx
  dsimp only at hm hit
  cases hit with
  | next =>
      refine ⟨hm, .same (by simp [continueLoop]), h.writer, ?_⟩
      unfold continueLoop
      rw [h.rest]
  | close code => exact enterFinally_alike hm h code none
  | raise e => exact enterFinally_alike hm h _ (some e)
  | resolve rawToken rawToken' hid =>
      refine ⟨hm, .authenticating rawToken rawToken' hid, h.writer, ?_⟩
      unfold continueLoop
      rw [h.rest]

theorem acceptStep_alike (cid : ConnId) (hm : ManagersAlike P m m')
    (h : HandlersAlike P hd hd') (outcome : Option PyError) :
    StepsAlike P (acceptStep m cid hd outcome) (acceptStep m' cid hd' outcome) := by
  cases outcome with
  | none =>
      unfold acceptStep
      rw [hm.limits]
      refine ⟨(hm.enqueueOutbound cid (.plain rfl)).state, ?_, ?_, ?_⟩
      · exact .same (by simp)
      · exact .same (by simp)
      · rw [h.rest]
  | some e => exact ⟨hm, h.raise e⟩

theorem receiveRaisesStep_alike (hm : ManagersAlike P m m') (hc : ContextsAlike P c c')
    (h : HandlersAlike P hd hd') (e : PyError) :
    StepsAlike P (receiveRaisesStep m cid c hd e) (receiveRaisesStep m' cid c' hd' e) := by
  have hqueued (code : ProtocolErrorCode) :=
    (hm.enqueueOutbound cid (errorMessage_alike code none)).state
  unfold receiveRaisesStep
  rw [hc.authenticated]
  split
  · split_ifs
    · exact enterFinally_alike (hqueued _) h _ _
    · exact enterFinally_alike (hqueued _) h _ _
  · exact enterFinally_alike hm h _ _
  · exact enterFinally_alike hm h _ _
  · exact enterFinally_alike hm h _ _
  · exact enterFinally_alike hm h _ _

theorem resolvedStep_alike (hm : ManagersAlike P m m') (hc : ContextsAlike P c c')
    {e e' : InboundEnvelope} (hid : e'.messageId = e.messageId) (h : HandlersAlike P hd hd')
    (result : Except AuthError AuthenticatedIdentity) :
    StepsAlike P (resolvedStep m cid c e hd result) (resolvedStep m' cid c' e' hd' result) := by
  obtain ⟨hfinished, hresponses⟩ := hm.finishAuthentication cid hc hid result
  exact continueLoop_alike h (.of_respond (hfinished.respond cid hresponses))

theorem flushStep_alike (h : HandlersAlike P hd hd') (outcome : Option PyError) :
    HandlersAlike P (flushStep hd outcome) (flushStep hd' outcome) := by
  have hstopping : HandlersAlike P { hd with phase := .stoppingWriter, cancelRequested := true }
      { hd' with phase := .stoppingWriter, cancelRequested := true } := by
    refine ⟨.same (by simp), h.writer, ?_⟩
    rw [h.rest]
  unfold flushStep
  split
  · exact hstopping
  · exact hstopping
  · exact hstopping
  · exact h.raise _

theorem unregisterStep_alike (cid : ConnId) (hm : ManagersAlike P m m')
    (h : HandlersAlike P hd hd') :
    StepsAlike P (unregisterStep m cid hd) (unregisterStep m' cid hd') := by
  refine ⟨hm.unregister cid, .same (by simp [unregisterStep]), h.writer, ?_⟩
  unfold unregisterStep
  rw [h.rest]

theorem closeStep_alike (h : HandlersAlike P hd hd') (outcome : Option PyError) :
    HandlersAlike P (closeStep hd outcome) (closeStep hd' outcome) := by
  have hfinished : HandlersAlike P { hd with phase := .finished }
      { hd' with phase := .finished } := by
    refine ⟨.same (by simp), h.writer, ?_⟩
    rw [h.rest]
  unfold closeStep
  split
  · exact hfinished
  · exact hfinished
  · exact hfinished
  · exact h.raise _

theorem sendStep_alike (hm : ManagersAlike P m m') (hc : ContextsAlike P c c')
    (h : HandlersAlike P hd hd') (outcome : Option PyError) :
    StepsAlike P (sendStep m cid hd c outcome) (sendStep m' cid hd' c' outcome) := by
  have hdone := hm.modifyContext cid fun _ _ hc => ContextsAlike.taskDone hc
  have htwice := hdone.modifyContext cid fun _ _ hc => ContextsAlike.taskDone hc
  unfold sendStep
  rw [hc.outbound.unfinished]
  split
  · exact ⟨hdone, h.written (.same (by simp))⟩
  · exact ⟨hdone, h.written (.same (by simp))⟩
  · dsimp only
    split_ifs
    · exact ⟨htwice, h.written (.same (by simp))⟩
    · exact ⟨htwice, h.written (.same (by simp))⟩
    · exact ⟨hdone, h.written (.same (by simp))⟩

/-- Two labels of a connection: two related frames, or one label twice. -/
inductive HandlerActionsAlike (lib : Libraries) (limits : TransportLimits)
    (P : Dict → Dict → Prop) : HandlerAction → HandlerAction → Prop
  | frame {t t' : PyStr} (h : FramesAlike lib limits P t t') (now : ℚ) (clock : Datetime) :
      HandlerActionsAlike lib limits P (.frame t now clock) (.frame t' now clock)
  | same {a : HandlerAction} (h : ∀ t now clock, a ≠ .frame t now clock) :
      HandlerActionsAlike lib limits P a a

theorem frameStep_alike (hm : ManagersAlike P m m') (hlimits : m.limits = limits)
    (h : HandlersAlike P hd hd') {t t' : PyStr} (ht : FramesAlike lib limits P t t') (now : ℚ)
    (clock : Datetime) (ref : ℕ) :
    Option.Rel (StepsAlike P) (handlerStep lib m ref cid hd (.frame t now clock))
      (handlerStep lib m' ref cid hd' (.frame t' now clock)) := by
  have hphase := h.phase
  simp only [handlerStep]
  generalize hd.phase = p at hphase ⊢
  generalize hd'.phase = p' at hphase ⊢
  cases hphase with
  | authenticating => exact .none
  | same =>
      rcases cases_of_rel (hm.contexts cid) with ⟨hc, hc'⟩ | ⟨c, c', hc, hc', hcc⟩
      · rw [hc, hc']
        cases p <;> exact .none
      · rw [hc, hc']
        cases p with
        | receiving =>
            exact .some
              (continueLoop_alike h (receiveFrame_alike hm hlimits cid hcc ht now clock ref))
        | accepting | authenticating | flushing | stoppingWriter | closing | finished => exact .none

/-- What the writer takes from two related queues. -/
theorem writerGets_alike (hm : ManagersAlike P m m') (h : HandlersAlike P hd hd') (ref : ℕ) :
    Option.Rel (StepsAlike P) (handlerStep lib m ref cid hd .writerGets)
      (handlerStep lib m' ref cid hd' .writerGets) := by
  have hwriter := h.writer
  have hcancel : hd'.cancelRequested = hd.cancelRequested := by rw [h.rest]
  have hhead : Option.Rel (MessagesAlike P) ((m.contexts cid).bind fun c => c.outbound.items.head?)
      ((m'.contexts cid).bind fun c => c.outbound.items.head?) := by
    rcases cases_of_rel (hm.contexts cid) with ⟨hc, hc'⟩ | ⟨c, c', hc, hc', hcc⟩
    · rw [hc, hc']
      exact .none
    · rw [hc, hc']
      exact hcc.outbound.head?
  have htaken := hm.modifyContext cid fun _ _ hc => ContextsAlike.takeOutbound hc
  simp only [handlerStep]
  generalize hd.writer = w at hwriter ⊢
  generalize hd'.writer = w' at hwriter ⊢
  cases hwriter with
  | sending => exact .none
  | same =>
      rcases cases_of_rel hhead with ⟨hx, hx'⟩ | ⟨x, x', hx, hx', hxx⟩
      · rw [hx, hx']
        cases w <;> exact .none
      · rw [hx, hx']
        cases w with
        | waiting =>
            dsimp only
            by_cases hcancelled : hd.cancelRequested = true
            · rw [if_pos hcancelled, if_pos (hcancel.trans hcancelled)]
              exact .none
            · rw [if_neg hcancelled, if_neg (hcancel ▸ hcancelled)]
              exact .some ⟨htaken, h.written (.sending hxx)⟩
        | absent | sending | returned | cancelled | failed => exact .none

theorem writerSends_alike (hm : ManagersAlike P m m') (h : HandlersAlike P hd hd') (ref : ℕ)
    (outcome : Option PyError) :
    Option.Rel (StepsAlike P) (handlerStep lib m ref cid hd (.writerSends outcome))
      (handlerStep lib m' ref cid hd' (.writerSends outcome)) := by
  have hwriter := h.writer
  simp only [handlerStep]
  generalize hd.writer = w at hwriter ⊢
  generalize hd'.writer = w' at hwriter ⊢
  rcases cases_of_rel (hm.contexts cid) with ⟨hc, hc'⟩ | ⟨c, c', hc, hc', hcc⟩
  · rw [hc, hc']
    cases hwriter with
    | sending => exact .none
    | same hw => cases w <;> exact .none
  · rw [hc, hc']
    cases hwriter with
    | sending => exact .some (sendStep_alike hm hcc h outcome)
    | same hw =>
        cases w with
        | sending x => exact absurd rfl (hw x)
        | absent | waiting | returned | cancelled | failed => exact .none

/-- The end of the `finally` block: the writer is awaited. -/
theorem writerAwaited_alike (hm : ManagersAlike P m m') (h : HandlersAlike P hd hd') (ref : ℕ)
    {a : HandlerAction} (ha : a = .writerAwaited ∨ a = .writerAwaitCancelled) :
    Option.Rel (StepsAlike P) (handlerStep lib m ref cid hd a)
      (handlerStep lib m' ref cid hd' a) := by
  have hphase := h.phase
  have hwriter := h.writer
  have hunregistered := unregisterStep_alike cid hm h
  have hraised (e : PyError) : StepsAlike P (m, hd.raise e) (m', hd'.raise e) := ⟨hm, h.raise e⟩
  rcases ha with rfl | rfl
  all_goals
    simp only [handlerStep]
    generalize hd.phase = p at hphase ⊢
    generalize hd'.phase = p' at hphase ⊢
    generalize hd.writer = w at hwriter ⊢
    generalize hd'.writer = w' at hwriter ⊢
    cases hphase with
    | authenticating => exact .none
    | same hp =>
        cases hwriter with
        | sending hx => cases p <;> first | exact .none | exact .some hunregistered
        | same hw =>
            cases p <;> cases w <;>
              first | exact .none | exact .some hunregistered | exact .some (hraised _)

/-- The label of a flush is enabled in both or in neither. -/
theorem flushed_alike (hm : ManagersAlike P m m') (h : HandlersAlike P hd hd') (ref : ℕ)
    (outcome : Option PyError) :
    Option.Rel (StepsAlike P) (handlerStep lib m ref cid hd (.flushed outcome))
      (handlerStep lib m' ref cid hd' (.flushed outcome)) := by
  have hphase := h.phase
  have hunfinished : ((m'.contexts cid).any fun c => c.outbound.unfinished ≠ 0) =
      (m.contexts cid).any fun c => c.outbound.unfinished ≠ 0 := by
    rcases cases_of_rel (hm.contexts cid) with ⟨hc, hc'⟩ | ⟨c, c', hc, hc', hcc⟩
    · rw [hc, hc']
    · rw [hc, hc', Option.any_some, Option.any_some, hcc.outbound.unfinished]
  simp only [handlerStep]
  rw [hunfinished]
  generalize hd.phase = p at hphase ⊢
  generalize hd'.phase = p' at hphase ⊢
  cases hphase with
  | authenticating => exact .none
  | same hp =>
      cases p with
      | flushing =>
          dsimp only
          split_ifs
          · exact .none
          · exact .some ⟨hm, flushStep_alike h outcome⟩
      | accepting | receiving | authenticating | stoppingWriter | closing | finished => exact .none

/-- A resolution ends alike. -/
theorem resolved_alike (hm : ManagersAlike P m m') (h : HandlersAlike P hd hd') (ref : ℕ)
    {a : HandlerAction} (ha : (∃ result, a = .resolved result) ∨ ∃ e, a = .resolveRaises e) :
    Option.Rel (StepsAlike P) (handlerStep lib m ref cid hd a)
      (handlerStep lib m' ref cid hd' a) := by
  have hphase := h.phase
  rcases ha with ⟨result, rfl⟩ | ⟨e, rfl⟩
  · simp only [handlerStep]
    generalize hd.phase = p at hphase ⊢
    generalize hd'.phase = p' at hphase ⊢
    rcases cases_of_rel (hm.contexts cid) with ⟨hc, hc'⟩ | ⟨c, c', hc, hc', hcc⟩
    · rw [hc, hc']
      cases hphase with
      | authenticating => exact .none
      | same hp => cases p <;> exact .none
    · rw [hc, hc']
      cases hphase with
      | authenticating _ _ hid => exact .some (resolvedStep_alike hm hcc hid h result)
      | same hp =>
          cases p with
          | authenticating envelope rawToken => exact absurd rfl (hp envelope rawToken)
          | accepting | receiving | flushing | stoppingWriter | closing | finished => exact .none
  · simp only [handlerStep]
    generalize hd.phase = p at hphase ⊢
    generalize hd'.phase = p' at hphase ⊢
    cases hphase with
    | authenticating => exact .some (enterFinally_alike hm h _ _)
    | same hp =>
        cases p with
        | authenticating envelope rawToken => exact absurd rfl (hp envelope rawToken)
        | accepting | receiving | flushing | stoppingWriter | closing | finished => exact .none

/-- A frame that raises, or an exception while one is awaited. -/
theorem receiveRaises_alike (hm : ManagersAlike P m m') (h : HandlersAlike P hd hd') (ref : ℕ)
    {a : HandlerAction} (ha : (∃ now e, a = .frameRaises now e) ∨ ∃ e, a = .receiveRaises e) :
    Option.Rel (StepsAlike P) (handlerStep lib m ref cid hd a)
      (handlerStep lib m' ref cid hd' a) := by
  have hphase := h.phase
  rcases ha with ⟨now, e, rfl⟩ | ⟨e, rfl⟩
  · have hcounted := (hm.modifyContext cid (f := fun c => c.touch now)
      fun _ _ hc => hc.touch now).modifyContext cid (f := fun c => (c.allow now).1)
        fun _ _ hc => (hc.allow now).state
    simp only [handlerStep]
    generalize hd.phase = p at hphase ⊢
    generalize hd'.phase = p' at hphase ⊢
    cases hphase with
    | authenticating => exact .none
    | same hp =>
        cases p with
        | receiving => exact .some (enterFinally_alike hcounted h _ _)
        | accepting | authenticating | flushing | stoppingWriter | closing | finished =>
            exact .none
  · simp only [handlerStep]
    generalize hd.phase = p at hphase ⊢
    generalize hd'.phase = p' at hphase ⊢
    rcases cases_of_rel (hm.contexts cid) with ⟨hc, hc'⟩ | ⟨c, c', hc, hc', hcc⟩
    · rw [hc, hc']
      cases hphase with
      | authenticating => exact .none
      | same hp => cases p <;> exact .none
    · rw [hc, hc']
      cases hphase with
      | authenticating => exact .none
      | same hp =>
          cases p with
          | receiving => exact .some (receiveRaisesStep_alike hm hcc h e)
          | accepting | authenticating | flushing | stoppingWriter | closing | finished =>
              exact .none

/-- The upgrade is accepted, or the socket is closed. -/
theorem accepted_alike (hm : ManagersAlike P m m') (h : HandlersAlike P hd hd') (ref : ℕ)
    {a : HandlerAction} {outcome : Option PyError}
    (ha : a = .accepted outcome ∨ a = .closed outcome) :
    Option.Rel (StepsAlike P) (handlerStep lib m ref cid hd a)
      (handlerStep lib m' ref cid hd' a) := by
  have hphase := h.phase
  have haccepted := acceptStep_alike cid hm h outcome
  have hclosed : StepsAlike P (m, closeStep hd outcome) (m', closeStep hd' outcome) :=
    ⟨hm, closeStep_alike h outcome⟩
  rcases ha with rfl | rfl
  all_goals
    simp only [handlerStep]
    generalize hd.phase = p at hphase ⊢
    generalize hd'.phase = p' at hphase ⊢
    cases hphase with
    | authenticating => exact .none
    | same hp => cases p <;> first | exact .none | exact .some haccepted | exact .some hclosed

theorem writerCancelled_alike (hm : ManagersAlike P m m') (h : HandlersAlike P hd hd')
    (ref : ℕ) :
    Option.Rel (StepsAlike P) (handlerStep lib m ref cid hd .writerCancelled)
      (handlerStep lib m' ref cid hd' .writerCancelled) := by
  have hwriter := h.writer
  simp only [handlerStep]
  generalize hd.writer = w at hwriter ⊢
  generalize hd'.writer = w' at hwriter ⊢
  cases hwriter with
  | sending => exact .none
  | same hw =>
      cases w with
      | waiting => exact .some ⟨hm, h.written (.same (by simp))⟩
      | absent | sending | returned | cancelled | failed => exact .none

/-- **Two connections that differ in payloads and tokens take the same steps.** -/
theorem handlerStep_alike (cid : ConnId) (hm : ManagersAlike P m m') (hlimits : m.limits = limits)
    (h : HandlersAlike P hd hd') {a a' : HandlerAction}
    (ha : HandlerActionsAlike lib limits P a a') (ref : ℕ) :
    Option.Rel (StepsAlike P) (handlerStep lib m ref cid hd a)
      (handlerStep lib m' ref cid hd' a') := by
  cases ha with
  | frame ht now clock => exact frameStep_alike hm hlimits h ht now clock ref
  | same hframe =>
      cases a with
      | frame t now clock => exact absurd rfl (hframe t now clock)
      | accepted => exact accepted_alike hm h ref (.inl rfl)
      | closed => exact accepted_alike hm h ref (.inr rfl)
      | frameRaises now e => exact receiveRaises_alike hm h ref (.inl ⟨now, e, rfl⟩)
      | receiveRaises e => exact receiveRaises_alike hm h ref (.inr ⟨e, rfl⟩)
      | resolved result => exact resolved_alike hm h ref (.inl ⟨result, rfl⟩)
      | resolveRaises e => exact resolved_alike hm h ref (.inr ⟨e, rfl⟩)
      | flushed outcome => exact flushed_alike hm h ref outcome
      | writerAwaited => exact writerAwaited_alike hm h ref (.inl rfl)
      | writerAwaitCancelled => exact writerAwaited_alike hm h ref (.inr rfl)
      | writerGets => exact writerGets_alike hm h ref
      | writerSends outcome => exact writerSends_alike hm h ref outcome
      | writerCancelled => exact writerCancelled_alike hm h ref

end Handlers

/-! ### The server -/

/-- Two states of the server that hold the same but for payloads and tokens. -/
structure ServersAlike (P : Dict → Dict → Prop) (s s' : ServerState) : Prop where
  manager : ManagersAlike P s.manager s'.manager
  handlers : ∀ cid, Option.Rel (HandlersAlike P) (s.handlers cid) (s'.handlers cid)
  provisional : s'.provisional = s.provisional
  nextRef : s'.nextRef = s.nextRef

/-- Two labels of the server: two related frames of one connection, or one label twice. -/
inductive ServerActionsAlike (lib : Libraries) (limits : TransportLimits)
    (P : Dict → Dict → Prop) : ServerAction → ServerAction → Prop
  | act (cid : ConnId) {a a' : HandlerAction} (h : HandlerActionsAlike lib limits P a a') :
      ServerActionsAlike lib limits P (.act cid a) (.act cid a')
  | connect (cid : ConnId) (hex : PyStr) (origin : Option PyStr) (now : ℚ) :
      ServerActionsAlike lib limits P (.connect cid hex origin now) (.connect cid hex origin now)

namespace ServersAlike

variable {s s' : ServerState}

theorem put (h : ServersAlike P s s') (cid : ConnId) {x x' : ConnectionManager × Handler}
    (hx : StepsAlike P x x') : ServersAlike P (s.put cid x) (s'.put cid x') where
  manager := hx.manager
  handlers := by
    intro k
    simp only [ServerState.put, Function.update_apply]
    split_ifs
    · exact .some hx.handler
    · exact h.handlers k
  provisional := h.provisional
  nextRef := congrArg (· + 1) h.nextRef

/-- **A connection is turned away in both or in neither.** -/
theorem connect (h : ServersAlike P s s') (cid : ConnId) (hex : PyStr) (origin : Option PyStr)
    (now : ℚ) : ServersAlike P (s.connect cid hex origin now) (s'.connect cid hex origin now) := by
  unfold ServerState.connect
  rw [h.manager.limits, h.provisional]
  split_ifs
  · exact h
  rcases h.manager.register cid (provisionalId hex) now with
    ⟨reason, hr, hr'⟩ | ⟨n, n', hn, hn', hnn⟩
  · rw [hr, hr']
    exact ⟨h.manager, h.handlers, rfl, h.nextRef⟩
  · rw [hn, hn']
    refine ⟨hnn, ?_, rfl, h.nextRef⟩
    intro k
    simp only [Function.update_apply]
    split_ifs
    · exact .some ⟨.same (by simp), .same (by simp), rfl⟩
    · exact h.handlers k

theorem fresh (h : ServersAlike P s s') {cid : ConnId} {hex : PyStr} (hfresh : s.Fresh cid hex) :
    s'.Fresh cid hex := by
  obtain ⟨hcid, hhex, hnone, hnew⟩ := hfresh
  refine ⟨hcid, hhex, ?_, h.provisional ▸ hnew⟩
  rcases cases_of_rel (h.manager.contexts cid) with ⟨-, hc'⟩ | ⟨c, c', hc, -, -⟩
  · rw [hc']
    rfl
  · rw [hc] at hnone
    cases hnone

/-- **A step is followed by one under every related label.** -/
theorem step (h : ServersAlike P s s') (hlimits : s.manager.limits = limits) {a b : ServerAction}
    (hab : ServerActionsAlike lib limits P a b) {t : ServerState} (hstep : s.step lib a = some t) :
    ∃ t', s'.step lib b = some t' ∧ ServersAlike P t t' := by
  cases hab with
  | connect cid hex origin now =>
      simp only [ServerState.step] at hstep
      split_ifs at hstep with hfresh
      cases hstep
      exact ⟨_, if_pos (h.fresh hfresh), h.connect cid hex origin now⟩
  | @act cid a a' ha =>
      simp only [ServerState.step, Option.bind_eq_some_iff, Option.map_eq_some_iff] at hstep
      obtain ⟨hd, hhd, x, hx, rfl⟩ := hstep
      rcases cases_of_rel (h.handlers cid) with ⟨hnone, -⟩ | ⟨e, e', he, he', hee⟩
      · rw [hnone] at hhd
        cases hhd
      rw [he, Option.some.injEq] at hhd
      subst hhd
      rcases cases_of_rel (handlerStep_alike cid h.manager hlimits hee ha s.nextRef) with
        ⟨hnone, -⟩ | ⟨y, y', hy, hy', hyy⟩
      · rw [hnone] at hx
        cases hx
      rw [hy, Option.some.injEq] at hx
      subst hx
      refine ⟨s'.put cid y', ?_, h.put cid hyy⟩
      simp only [ServerState.step, he', Option.bind_some, h.nextRef, hy', Option.map_some]

/-- Before any connection there is nothing to differ in. -/
theorem new (P : Dict → Dict → Prop) (limits : TransportLimits) :
    ServersAlike P (.new limits) (.new limits) where
  manager := .new limits
  handlers := fun _ => .none
  provisional := rfl
  nextRef := rfl

end ServersAlike

/-- **The server simulates itself in lockstep, whatever the payloads and tokens.** -/
def payloadLockstep (lib : Libraries) (limits : TransportLimits) (P : Dict → Dict → Prop) :
    System.Lockstep (serverSystem lib limits) (serverSystem lib limits) where
  States := fun s s' => ServersAlike P s s' ∧ s.Inv limits
  Labels := ServerActionsAlike lib limits P
  step := by
    rintro s s' a t b ⟨hs, hinv⟩ hab hstep
    obtain ⟨t', hstep', ht⟩ := hs.step hinv.limits_eq hab hstep
    exact ⟨t', hstep', ht, hinv.step hstep⟩

/-- **The relay is opaque.**  Whatever is changed in the payloads and tokens of the frames of a run,
the same steps are enabled, and the run goes through the same states but for payloads and tokens:
every answer, every routing decision, every place on every queue and every close code is the same,
and a receipt carries the payload of the changed frame where it carried that of the original. -/
theorem relay_is_opaque (lib : Libraries) (limits : TransportLimits) (P : Dict → Dict → Prop)
    {s : ServerState} {tr : List (ServerState × ServerAction)}
    (h : (serverSystem lib limits).Run (.new limits) tr s) {labels : List ServerAction}
    (hlabels : List.Forall₂ (ServerActionsAlike lib limits P) (tr.map Prod.snd) labels) :
    ∃ tr' s', (serverSystem lib limits).Run (.new limits) tr' s' ∧ tr'.map Prod.snd = labels ∧
      List.Forall₂ (fun e e' => ServersAlike P e.1 e'.1) tr tr' ∧ ServersAlike P s s' := by
  obtain ⟨tr', s', hrun, hsame, hentries, hs⟩ := (payloadLockstep lib limits P).run h
    ⟨ServersAlike.new P limits, ServerState.inv_new limits⟩ hlabels
  exact ⟨tr', s', hrun, hsame, hentries.imp fun _ _ he => he.1.1, hs.1⟩

/-! ### A note that is replaced on the way -/

/-- Every value of the payload is replaced by one text. -/
def Sealed (p p' : Dict) : Prop := p' = p.map fun item => (item.1, .str (py "sealed"))

/-- The payload that holds the text `s` under the key `k`. -/
def oneField (k s : PyStr) : Dict := [(k, .str s)]

/-- `auth.authenticate` with the token `token`. -/
def offerText (token : PyStr) : PyStr :=
  frameText (py "auth.authenticate") (py "me")
    (py "\",\"payload\":\x7b\"access_token\":\"" ++ token ++ py "\"\x7d\x7d")

/-- `message.send` from `alice` to `bob` with the note `note`. -/
def noteText (note : PyStr) : PyStr :=
  frameText (py "message.send") (py "alice")
    (py "\",\"recipient\":\"bob\"," ++ py "\"payload\":\x7b\"note\":\"" ++ note ++ py "\"\x7d\x7d")

/-- The object `offerText` denotes. -/
def offerDict (token : PyStr) : Dict :=
  frameDict (py "auth.authenticate") (py "me")
    [(py "payload", .dict (oneField (py "access_token") token))]

/-- The object `noteText` denotes. -/
def noteDict (note : PyStr) : Dict :=
  frameDict (py "message.send") (py "alice")
    [(py "recipient", .str (py "bob")), (py "payload", .dict (oneField (py "note") note))]

/-- The parsers on these texts. -/
def noteLibraries : Libraries where
  loads raw :=
    if raw = offerText (py "token") then .value (.dict (offerDict (py "token")))
    else if raw = offerText (py "sealed") then .value (.dict (offerDict (py "sealed")))
    else if raw = noteText (py "hello") then .value (.dict (noteDict (py "hello")))
    else if raw = noteText (py "sealed") then .value (.dict (noteDict (py "sealed")))
    else .jsonDecodeError
  uuid := sampleLibraries.uuid
  uuidField := sampleLibraries.uuidField
  datetimeField := sampleLibraries.datetimeField
  dumpPayload := sampleLibraries.dumpPayload

/-- `alice` connects, authenticates with `token` and sends `note` to `bob`. -/
def aliceNotes (token note : PyStr) : List ServerAction :=
  [.connect aliceId aliceId none 0, .act aliceId (.accepted none), .act aliceId .writerGets,
    .act aliceId (.frame (offerText token) 0 (.utc 0)),
    .act aliceId (.resolved (.ok ⟨py "u1", py "alice", py "s1"⟩)),
    .act aliceId (.writerSends none), .act aliceId .writerGets,
    .act aliceId (.frame (noteText note) 0 (.utc 0))]

/-- The other fields are found whatever the payload after them is. -/
theorem dictGet_concat_of_ne {d : Dict} {k key : PyStr} (h : k ≠ key) (v : Json) :
    dictGet (d ++ [(key, v)]) k = dictGet d k := by
  have hkey : (k == key) = false := beq_eq_false_iff_ne.2 h
  rw [dictGet, dictGet, List.lookup_append, List.lookup_cons, hkey, List.lookup_nil, Option.or_none]

/-- Two notes to the same recipient differ in the payload only. -/
theorem objectsAlike_note (note : PyStr) :
    ObjectsAlike noteLibraries Sealed (noteDict note) (noteDict (py "sealed")) where
  keys := rfl
  others := fun _ hk => (dictGet_concat_of_ne (d := frameDict (py "message.send") (py "alice")
    [(py "recipient", .str (py "bob"))]) hk _).trans (dictGet_concat_of_ne hk _).symm
  payload := .object rfl
  token := by
    intro h
    have htype : dictGet (noteDict note) (py "type") = some (.str (py "message.send")) := rfl
    rw [htype, Option.some.injEq, Json.str.injEq] at h
    exact absurd h (by decide)
  dumps := by
    rintro - p p' hp hp'
    cases hp
    cases hp'
    rfl

/-- So do two offers of a token of admissible length. -/
theorem objectsAlike_offer {token : PyStr} (hne : token ≠ [])
    (hfits : token.length ≤ maxTokenLength) :
    ObjectsAlike noteLibraries Sealed (offerDict token) (offerDict (py "sealed")) where
  keys := rfl
  others := fun _ hk => (dictGet_concat_of_ne (d := frameDict (py "auth.authenticate") (py "me") [])
    hk _).trans (dictGet_concat_of_ne hk _).symm
  payload := .object rfl
  token := by
    rintro - p p' hp hp'
    cases hp
    cases hp'
    exact iff_of_true ⟨token, rfl, hne, hfits⟩ ⟨_, rfl, by decide, by decide⟩
  dumps := by
    intro h
    have htype : dictGet (offerDict token) (py "type") = some (.str (py "auth.authenticate")) := rfl
    rw [htype, Option.some.injEq, Json.str.injEq] at h
    exact absurd h (by decide)

theorem framesAlike_offer :
    FramesAlike noteLibraries onePending Sealed (offerText (py "token"))
      (offerText (py "sealed")) := by
  have hsize : utf8Length (offerText (py "token")) = .ok 178 := by decide +kernel
  have hsize' : utf8Length (offerText (py "sealed")) = .ok 179 := by decide +kernel
  refine .admitted hsize hsize' (by decide) (by decide) ?_
  have h : noteLibraries.loads (offerText (py "token")) =
      .value (.dict (offerDict (py "token"))) := by
    simp only [noteLibraries, if_true]
  have h' : noteLibraries.loads (offerText (py "sealed")) =
      .value (.dict (offerDict (py "sealed"))) := by
    have hne : offerText (py "sealed") ≠ offerText (py "token") := by decide +kernel
    simp only [noteLibraries, if_neg hne, if_true]
  rw [h, h']
  exact .object (objectsAlike_offer (by decide) (by decide))

theorem framesAlike_note :
    FramesAlike noteLibraries onePending Sealed (noteText (py "hello"))
      (noteText (py "sealed")) := by
  have hsize : utf8Length (noteText (py "hello")) = .ok 186 := by decide +kernel
  have hsize' : utf8Length (noteText (py "sealed")) = .ok 187 := by decide +kernel
  refine .admitted hsize hsize' (by decide) (by decide) ?_
  -- the types of the two begin differently
  have hne {note token : PyStr} : noteText note ≠ offerText token := by
    intro h
    simp only [noteText, offerText, frameText, List.append_assoc, List.append_cancel_left_eq] at h
    have hhead : (109 : ℕ) = 97 := congrArg (fun text => (text.head?.map Fin.val).getD 0) h
    exact absurd hhead (by decide)
  have h : noteLibraries.loads (noteText (py "hello")) =
      .value (.dict (noteDict (py "hello"))) := by
    simp only [noteLibraries, if_neg hne, if_true]
  have h' : noteLibraries.loads (noteText (py "sealed")) =
      .value (.dict (noteDict (py "sealed"))) := by
    have hhello : noteText (py "sealed") ≠ noteText (py "hello") := by decide +kernel
    simp only [noteLibraries, if_neg hne, if_neg hhello, if_true]
  rw [h, h']
  exact .object (objectsAlike_note _)

/-- The two runs differ in the note and the token only. -/
theorem aliceNotes_alike :
    List.Forall₂ (ServerActionsAlike noteLibraries onePending Sealed)
      (aliceNotes (py "token") (py "hello")) (aliceNotes (py "sealed") (py "sealed")) := by
  refine .cons (.connect _ _ _ _) (.cons (.act _ (.same ?_)) (.cons (.act _ (.same ?_))
    (.cons (.act _ (.frame framesAlike_offer _ _)) (.cons (.act _ (.same ?_))
      (.cons (.act _ (.same ?_)) (.cons (.act _ (.same ?_))
        (.cons (.act _ (.frame framesAlike_note _ _)) .nil)))))))
  all_goals simp

/-- The first of them is a run, and leaves a receipt for `bob`. -/
theorem exists_aliceNotes :
    ∃ s, (serverSystem noteLibraries onePending).exec (.new onePending)
        (aliceNotes (py "token") (py "hello")) = some s ∧
      (serverSystem noteLibraries onePending).Run (.new onePending)
        (System.traceOf (serverSystem noteLibraries onePending) (.new onePending)
          (aliceNotes (py "token") (py "hello"))) s ∧
      (s.manager.offlineQueue.queued (py "bob")).any (fun m => m.receipt?.isSome) = true := by
  have hexec : ((serverSystem noteLibraries onePending).exec (.new onePending)
      (aliceNotes (py "token") (py "hello"))).map
      (fun s => (s.manager.offlineQueue.queued (py "bob")).any fun m => m.receipt?.isSome) =
        some true := by decide +kernel
  exact System.exists_run_of_exec hexec

/-- The run of a sealed note is the run of the note, but for the note. -/
theorem relay_is_opaque_sealed :
    ∃ tr s, (serverSystem noteLibraries onePending).Run (.new onePending) tr s ∧
      (s.manager.offlineQueue.queued (py "bob")).any (fun m => m.receipt?.isSome) = true ∧
      ∃ tr' s', (serverSystem noteLibraries onePending).Run (.new onePending) tr' s' ∧
        tr'.map Prod.snd = aliceNotes (py "sealed") (py "sealed") ∧ ServersAlike Sealed s s' := by
  obtain ⟨s, hs, hrun, hp⟩ := exists_aliceNotes
  have halike := aliceNotes_alike
  rw [← System.map_snd_traceOf hs] at halike
  obtain ⟨tr', s', hrun', hsame, -, hss⟩ :=
    relay_is_opaque noteLibraries onePending Sealed hrun halike
  exact ⟨_, s, hrun, hp, tr', s', hrun', hsame, hss⟩

end EncryptChat
