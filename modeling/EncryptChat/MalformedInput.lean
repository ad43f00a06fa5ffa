/-
**Frames that are not well formed.**

Whatever a peer sends, the receive loop means to answer it: with the response to a validated
envelope, or with one protocol error.  `_validate_inbound` guards the decoder with an `except`
clause for the one exception a syntax error raises.  This module says which outcomes of the decoder
that clause covers, and what the others do to the connection; the one other exception that leaves
the loop is that of a receipt that cannot be serialized.

Main definitions:

* `Python.Loads.Handled` — the decoder returned a value or raised a syntax error;
* `EncryptChat.Answers` — an envelope and no errors, or no envelope and one error;
* `EncryptChat.Unserializable` — the frame of a message whose receipt cannot be serialized.

Main results:

* `EncryptChat.answers_validateDict` — a dictionary always has an answer;
* `EncryptChat.validateInbound_answers_iff` — **a frame has an answer exactly when the outcome of the
  decoder is handled**;
* `EncryptChat.receiveFrame_raises_iff` — the exceptions that leave the receive loop.
-/

import EncryptChat.OfflineDrain

set_option relaxedAutoImplicit false
set_option autoImplicit false

namespace Python

/-- The decoder returned a value or raised a `JSONDecodeError`. -/
def Loads.Handled : Loads → Prop
  | value _ => True
  | jsonDecodeError => True
  | valueError => False
  | recursionError => False

instance decidableHandled : (outcome : Loads) → Decidable outcome.Handled
  | .value _ => .isTrue trivial
  | .jsonDecodeError => .isTrue trivial
  | .valueError => .isFalse id
  | .recursionError => .isFalse id

end Python

namespace EncryptChat

open Python

/-! ### Answers -/

/-- The answer to a frame: an envelope with no errors, or no envelope with exactly one protocol
error. -/
def Answers (verdict : Option InboundEnvelope × List OutboundMessage) : Prop :=
  (∃ envelope, verdict = (some envelope, [])) ∨ ∃ code id, verdict = (none, [errorMessage code id])

theorem answers_rejection (code : ProtocolErrorCode) (id : Option Uuid) :
    Answers (rejection code id) := .inr ⟨code, id, rfl⟩

/-- **A dictionary always has an answer**, whatever its fields hold. -/
theorem answers_validateDict (lib : Libraries) (context : ConnectionContext) (parsed : Dict) :
    Answers (validateDict lib context parsed) := by
  rcases verdict_validateDict lib context parsed with ⟨code, id, hrej⟩ | ⟨envelope, heq, -⟩
  · rw [hrej]
    exact answers_rejection code id
  · rw [heq]
    exact .inl ⟨envelope, rfl⟩

/-- A decoded value always has an answer. -/
theorem answers_of_value {lib : Libraries} (context : ConnectionContext) {rawText : PyStr}
    {v : Json} (h : lib.loads rawText = .value v) :
    ∃ verdict, validateInbound lib context rawText = .ok verdict ∧ Answers verdict := by
  unfold validateInbound
  rw [h]
  -- only a dictionary goes on to the checks of its fields
  cases v with
  | dict parsed => exact ⟨_, rfl, answers_validateDict lib context parsed⟩
  | null | bool | int | float | str | list =>
      exact ⟨_, rfl, answers_rejection .schemaValidationFailed none⟩

/-! ### Exceptions -/

/-- What an outcome that is not handled raises. -/
theorem validateInbound_of_not_handled {lib : Libraries} (context : ConnectionContext)
    {rawText : PyStr} (h : ¬ (lib.loads rawText).Handled) :
    ∃ e, validateInbound lib context rawText = .error e := by
  unfold validateInbound
  cases hloads : lib.loads rawText with
  | value v =>
      rw [hloads] at h
      exact absurd trivial h
  | jsonDecodeError =>
      rw [hloads] at h
      exact absurd trivial h
  | valueError => exact ⟨.valueError, rfl⟩
  | recursionError => exact ⟨.recursionError, rfl⟩

/-- What an outcome that is handled returns. -/
theorem validateInbound_of_handled {lib : Libraries} (context : ConnectionContext)
    {rawText : PyStr} (h : (lib.loads rawText).Handled) :
    ∃ verdict, validateInbound lib context rawText = .ok verdict ∧ Answers verdict := by
  cases hloads : lib.loads rawText with
  | value v => exact answers_of_value context hloads
  | jsonDecodeError =>
      refine ⟨rejection .invalidJson none, ?_, answers_rejection .invalidJson none⟩
      unfold validateInbound
      rw [hloads]
  | valueError =>
      rw [hloads] at h
      exact absurd h id
  | recursionError =>
      rw [hloads] at h
      exact absurd h id

/-- **A frame has an answer exactly when the outcome of the decoder is handled**: for every
connection, authenticated or not, and every text. -/
theorem validateInbound_answers_iff (lib : Libraries) (context : ConnectionContext)
    (rawText : PyStr) :
    (∃ verdict, validateInbound lib context rawText = .ok verdict ∧ Answers verdict) ↔
      (lib.loads rawText).Handled := by
  constructor
  · rintro ⟨verdict, hok, -⟩
    by_contra hnot
    obtain ⟨e, herror⟩ := validateInbound_of_not_handled context hnot
    rw [hok] at herror
    cases herror
  · exact validateInbound_of_handled context

/-- The frame is a `message.send` that passes every check, and its receipt cannot be serialized. -/
def Unserializable (lib : Libraries) (c : ConnectionContext) (rawText : PyStr) : Prop :=
  ∃ envelope, validateInbound lib c rawText = .ok (some envelope, []) ∧
    envelope.type = .messageSend ∧ envelope.sender = c.routingIdentity ∧
    envelope.recipient.isSome = true ∧ ¬ lib.Dumps envelope.payload

/-- Putting responses on the queue raises nothing. -/
theorem respond_ne_raise (m : ConnectionManager) (cid : ConnId) (responses : List OutboundMessage)
    (e : PyError) : (respond m cid responses).2 ≠ .raise e := by
  unfold respond
  dsimp only
  split_ifs <;> simp

/-- The dispatch of an envelope raises what a privileged action raises. -/
theorem handled_of_dispatch_raises {lib : Libraries} {m : ConnectionManager} {cid : ConnId}
    {c : ConnectionContext} {envelope : InboundEnvelope} {clock : Datetime} {ref : ℕ} {e : PyError}
    (h : (dispatch lib m cid c envelope clock ref).2 = .raise e) :
    handlePrivileged lib m c envelope ref = .error e := by
  unfold dispatch at h
  split at h
  · split at h
    · exact absurd h (respond_ne_raise _ _ _ _)
    · cases h
  · exact absurd h (respond_ne_raise _ _ _ _)
  · split_ifs at h
    · split at h
      · rename_i e' herror
        cases h
        exact herror
      · exact absurd h (respond_ne_raise _ _ _ _)
    · exact absurd h (respond_ne_raise _ _ _ _)

/-- **The exceptions that leave the receive loop**: on a frame that passed the size check and the
rate check, they are those of the decoder that are not handled, and those of a receipt that cannot
be serialized. -/
theorem receiveFrame_raises_iff (lib : Libraries) {m : ConnectionManager} {cid : ConnId}
    {c : ConnectionContext} {rawText : PyStr} {now : ℚ} (hadmitted : Admitted m c rawText now)
    (clock : Datetime) (ref : ℕ) :
    (∃ e, (receiveFrame lib m cid c rawText now clock ref).2 = .raise e) ↔
      ¬ (lib.loads rawText).Handled ∨ Unserializable lib c rawText := by
  rw [receiveFrame_of_admitted lib hadmitted]
  constructor
  · rintro ⟨e, hraise⟩
    refine or_iff_not_imp_left.2 fun hhandled => ?_
    obtain ⟨verdict, hok, -⟩ := validateInbound_of_handled c (not_not.1 hhandled)
    unfold handleFrame at hraise
    rw [hok] at hraise
    obtain ⟨_ | envelope, errors⟩ := verdict
    · exact absurd hraise (respond_ne_raise _ _ _ _)
    · obtain ⟨rfl, -⟩ := validateInbound_eq_some hok
      obtain ⟨hsend, herror⟩ :=
        handlePrivileged_eq_error_iff.1 (handled_of_dispatch_raises hraise)
      obtain ⟨hsender, hrec, hdump⟩ := handleMessageSend_eq_error_iff.1 herror
      refine ⟨envelope, hok, hsend, hsender, hrec, ?_⟩
      rintro ⟨dumped, hdumped⟩
      rw [hdump] at hdumped
      cases hdumped
  · rintro (hnot | ⟨envelope, hvalid, hsend, hsender, hrec, hdumps⟩)
    · obtain ⟨e, herror⟩ := validateInbound_of_not_handled c hnot
      refine ⟨e, ?_⟩
      unfold handleFrame
      rw [herror]
    · cases hdump : lib.dumpPayload envelope.payload with
      | ok dumped => exact absurd ⟨dumped, hdump⟩ hdumps
      | error e =>
          have herror : handleMessageSend lib (m.counted cid now) c envelope ref = .error e :=
            handleMessageSend_eq_error_iff.2 ⟨hsender, hrec, hdump⟩
          exact ⟨e, congrArg Prod.snd (handleFrame_of_raised hvalid hsend herror cid clock)⟩

/-! ### A long integer literal -/

/-- The digit `1`. -/
def digitOne : CodePoint := Fin.ofNat 0x110000 '1'.toNat

/-- The text is an integer literal of more digits than `int` converts. -/
def isLongIntegerLiteral (s : PyStr) : Bool :=
  decide (4300 < s.length) && s.all (inRange '0' '9')

/-- The sample parsers, with the limit on integer literals. -/
def digitLibraries : Libraries :=
  { sampleLibraries with
    loads := fun s => if isLongIntegerLiteral s then .valueError else sampleLibraries.loads s }

theorem utf8Length_replicate_digitOne (n : ℕ) :
    utf8Length (List.replicate n digitOne) = .ok n := by
  have hplain : isSurrogate digitOne = false := by decide
  have hwidth : utf8Width digitOne = 1 := by decide
  simp [utf8Length, hplain, hwidth]

theorem isLongIntegerLiteral_replicate {n : ℕ} (h : 4300 < n) :
    isLongIntegerLiteral (List.replicate n digitOne) = true := by
  have hdigit : inRange '0' '9' digitOne = true := by decide
  simp [isLongIntegerLiteral, hdigit, h]

/-- An integer literal of 4301 digits: the text is well within the size limit, and
`_validate_inbound` raises on it for every connection. -/
theorem validateInbound_of_long_literal :
    utf8Length (List.replicate 4301 digitOne) = .ok 4301 ∧
      4301 ≤ ({} : TransportLimits).maxMessageBytes ∧
      ∀ context : ConnectionContext, ¬ ∃ verdict,
        validateInbound digitLibraries context (List.replicate 4301 digitOne) = .ok verdict ∧
          Answers verdict := by
  refine ⟨utf8Length_replicate_digitOne 4301, by decide, ?_⟩
  rintro context ⟨verdict, hok, -⟩
  have hliteral := isLongIntegerLiteral_replicate (n := 4301) (by decide)
  generalize List.replicate 4301 digitOne = text at hok hliteral
  have hloads : digitLibraries.loads text = .valueError := if_pos hliteral
  unfold validateInbound at hok
  rw [hloads] at hok
  cases hok

end EncryptChat
