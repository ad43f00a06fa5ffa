/-
**The answers a frame is owed.**

The receive loop answers a frame by putting messages on the queue of the connection that sent it.
This module separates what it answers from how it puts it there: the answers are a function of the
manager and the frame, and the handling of the frame is that function followed by the loop over the
responses.  Only `auth.authenticate` has no answer yet when the frame has been handled; its answer is
that of the second half of `_authenticate_connection`.

Main definitions:

* `EncryptChat.dispatchAnswer`, `EncryptChat.frameAnswer` — the responses, and the manager after a
  message has been routed;
* `EncryptChat.NotInternal` — the message is not `INTERNAL_PROTOCOL_ERROR`.

Main results:

* `EncryptChat.handleFrame_of_answer` — **the handling of a frame is its answer, put on the queue**;
* `EncryptChat.frameAnswer_ne_nil` — an answer is at least one message;
* `EncryptChat.held_receiveFrame` — no frame is answered with `INTERNAL_PROTOCOL_ERROR`.
-/

import EncryptChat.OfflineDrain

set_option relaxedAutoImplicit false
set_option autoImplicit false

namespace EncryptChat

open Python ConnectionManager

/-! ### Answers -/

/-- The responses to a validated envelope; none where an exception is raised or the handler
awaits. -/
def dispatchAnswer (lib : Libraries) (m : ConnectionManager) (context : ConnectionContext)
    (envelope : InboundEnvelope) (clock : Datetime) (ref : ℕ) :
    Option (ConnectionManager × List OutboundMessage) :=
  match envelope.type with
  | .authAuthenticate =>
      match beginAuthentication context envelope with
      | .error responses => some (m, responses)
      | .ok _ => none
  | .heartbeatPing => some (m, [.heartbeatPong envelope.messageId clock])
  | type =>
      if type ∈ MessageType.privileged then (handlePrivileged lib m context envelope ref).toOption
      else some (m, [errorMessage .internalProtocolError (some envelope.messageId)])

/-- The responses to a frame that passed the size and the rate check; none where an exception is
raised or the handler awaits. -/
def frameAnswer (lib : Libraries) (m : ConnectionManager) (context : ConnectionContext)
    (rawText : PyStr) (clock : Datetime) (ref : ℕ) :
    Option (ConnectionManager × List OutboundMessage) :=
  match validateInbound lib context rawText with
  | .error _ => none
  | .ok (none, errors) => some (m, errors)
  | .ok (some envelope, _) => dispatchAnswer lib m context envelope clock ref

section Answer

variable {lib : Libraries} {m : ConnectionManager} {context : ConnectionContext}
  {envelope : InboundEnvelope} {rawText : PyStr} {clock : Datetime} {ref : ℕ}
  {answer : ConnectionManager × List OutboundMessage}

theorem dispatch_of_answer (h : dispatchAnswer lib m context envelope clock ref = some answer)
    (cid : ConnId) :
    dispatch lib m cid context envelope clock ref = respond answer.1 cid answer.2 := by
  unfold dispatchAnswer at h
  unfold dispatch
  cases htype : envelope.type with
  | authAuthenticate =>
      rw [htype] at h
      cases hbegin : beginAuthentication context envelope with
      | error responses =>
          simp only [hbegin, Option.some.injEq] at h
          rw [← h]
      | ok rawToken => simp [hbegin] at h
  | heartbeatPing =>
      simp only [htype, Option.some.injEq] at h
      rw [← h]
  | connectionReady | messageReceipt | messageDeliveryAck | heartbeatPong | protocolError
  | authReady | messageSend | queueStatus =>
      simp only [htype] at h ⊢
      split_ifs at h ⊢
      · cases hhandled : handlePrivileged lib m context envelope ref with
        | error e => simp [hhandled, Except.toOption] at h
        | ok handled =>
            rw [hhandled] at h
            cases h
            rfl
      · cases h
        rfl

/-- A handler that has no answer yet raises, or awaits the resolution of a token. -/
theorem dispatch_of_no_answer (h : dispatchAnswer lib m context envelope clock ref = none)
    (cid : ConnId) :
    (∃ e, dispatch lib m cid context envelope clock ref = (m, .raise e)) ∨
      ∃ rawToken,
        dispatch lib m cid context envelope clock ref = (m, .resolve envelope rawToken) := by
  unfold dispatchAnswer at h
  unfold dispatch
  cases htype : envelope.type with
  | authAuthenticate =>
      rw [htype] at h
      cases hbegin : beginAuthentication context envelope with
      | error responses => simp [hbegin] at h
      | ok rawToken => exact .inr ⟨rawToken, rfl⟩
  | heartbeatPing => simp [htype] at h
  | connectionReady | messageReceipt | messageDeliveryAck | heartbeatPong | protocolError
  | authReady | messageSend | queueStatus =>
      simp only [htype] at h ⊢
      split_ifs at h ⊢
      cases hhandled : handlePrivileged lib m context envelope ref with
      | error e => exact .inl ⟨e, rfl⟩
      | ok handled => simp [hhandled, Except.toOption] at h

/-- **The handling of a frame is its answer, put on the queue.** -/
theorem handleFrame_of_answer (h : frameAnswer lib m context rawText clock ref = some answer)
    (cid : ConnId) :
    handleFrame lib m cid context rawText clock ref = respond answer.1 cid answer.2 := by
  unfold frameAnswer at h
  unfold handleFrame
  cases hvalid : validateInbound lib context rawText with
  | error e => simp [hvalid] at h
  | ok verdict =>
      obtain ⟨_ | envelope, errors⟩ := verdict
      · simp only [hvalid, Option.some.injEq] at h
        rw [← h]
      · simp only [hvalid] at h
        exact dispatch_of_answer h cid

/-- A frame without an answer raises or awaits, and changes nothing. -/
theorem handleFrame_of_no_answer (h : frameAnswer lib m context rawText clock ref = none)
    (cid : ConnId) :
    (∃ e, handleFrame lib m cid context rawText clock ref = (m, .raise e)) ∨
      ∃ envelope rawToken,
        handleFrame lib m cid context rawText clock ref = (m, .resolve envelope rawToken) := by
  unfold frameAnswer at h
  unfold handleFrame
  cases hvalid : validateInbound lib context rawText with
  | error e => exact .inl ⟨e, rfl⟩
  | ok verdict =>
      obtain ⟨_ | envelope, errors⟩ := verdict
      · simp [hvalid] at h
      · simp only [hvalid] at h
        exact (dispatch_of_no_answer h cid).imp_right fun hawaits => ⟨envelope, hawaits⟩

/-! ### What is answered -/

theorem handlePrivileged_ne_nil (h : handlePrivileged lib m context envelope ref = .ok answer) :
    answer.2 ≠ [] := by
  rcases handlePrivileged_cases h with ⟨-, h⟩ | ⟨-, response, -, rfl⟩
  · rcases handleMessageSend_cases h with ⟨-, rfl⟩ | ⟨-, -, rfl⟩ | ⟨recipient, -, -, -, rfl⟩
    · simp
    · simp
    · simp
  · simp

theorem beginAuthentication_ne_nil {responses : List OutboundMessage}
    (h : beginAuthentication context envelope = .error responses) : responses ≠ [] := by
  unfold beginAuthentication at h
  split_ifs at h
  · cases h
    simp
  · split at h
    · split_ifs at h
      cases h
      simp
    · cases h
      simp

/-- **An answer is at least one message.** -/
theorem frameAnswer_ne_nil (h : frameAnswer lib m context rawText clock ref = some answer) :
    answer.2 ≠ [] := by
  unfold frameAnswer at h
  split at h
  · cases h
  · rename_i errors hvalid
    obtain ⟨code, id, rfl⟩ := validateInbound_eq_none hvalid
    cases h
    simp
  · unfold dispatchAnswer at h
    split at h
    · split at h
      · rename_i hbegin
        cases h
        exact beginAuthentication_ne_nil hbegin
      · cases h
    · cases h
      simp
    · split_ifs at h
      · exact handlePrivileged_ne_nil (eq_ok_of_toOption h)
      · cases h
        simp

/-- The message is not `INTERNAL_PROTOCOL_ERROR`. -/
def NotInternal (message : OutboundMessage) : Prop :=
  ∀ id, message ≠ errorMessage .internalProtocolError id

theorem notInternal_errorMessage {code : ProtocolErrorCode} (h : code ≠ .internalProtocolError)
    (id : Option Uuid) : NotInternal (errorMessage code id) := by
  intro id' heq
  simp only [errorMessage, OutboundMessage.protocolError.injEq] at heq
  revert h
  have hvalue := heq.1
  revert hvalue
  cases code <;> decide

theorem notInternal_of_receipt (r : MessageReceipt) : NotInternal (.messageReceipt r) := by
  simp [NotInternal, errorMessage]

theorem notInternal_handlePrivileged (htype : envelope.type ∈ MessageType.privileged)
    (h : handlePrivileged lib m context envelope ref = .ok answer) :
    ∀ r ∈ answer.2, NotInternal r := by
  unfold handlePrivileged at h
  cases hvalue : envelope.type with
  | messageSend =>
      simp only [hvalue] at h
      rcases handleMessageSend_cases h with ⟨-, rfl⟩ | ⟨-, -, rfl⟩ | ⟨recipient, -, -, -, rfl⟩
      · simp only [List.forall_mem_cons]
        exact ⟨notInternal_errorMessage (by decide) _, by simp [NotInternal, errorMessage], by simp⟩
      · exact List.forall_mem_singleton.2 (notInternal_errorMessage (by decide) _)
      · simp [NotInternal, errorMessage]
  | queueStatus =>
      simp only [hvalue, Except.ok.injEq] at h
      subst h
      simp [NotInternal, errorMessage]
  | connectionReady | messageReceipt | messageDeliveryAck | heartbeatPong | protocolError
  | authReady | heartbeatPing | authAuthenticate =>
      rw [hvalue] at htype
      exact absurd htype (by decide)

theorem notInternal_beginAuthentication {responses : List OutboundMessage}
    (h : beginAuthentication context envelope = .error responses) :
    ∀ r ∈ responses, NotInternal r := by
  unfold beginAuthentication at h
  split_ifs at h
  · cases h
    exact List.forall_mem_singleton.2 (notInternal_errorMessage (by decide) _)
  · split at h
    · split_ifs at h
      cases h
      exact List.forall_mem_singleton.2 (notInternal_errorMessage (by decide) _)
    · cases h
      exact List.forall_mem_singleton.2 (notInternal_errorMessage (by decide) _)

/-- The error of a rejected frame has one of the codes of `_validate_inbound`. -/
theorem rejection_notInternal {verdict : Option InboundEnvelope × List OutboundMessage}
    (h : validateInbound lib context rawText = .ok verdict) : ∀ r ∈ verdict.2, NotInternal r := by
  have hreject : ∀ code id, code ≠ ProtocolErrorCode.internalProtocolError →
      ∀ r ∈ (rejection code id).2, NotInternal r := fun code id hne =>
    List.forall_mem_singleton.2 (notInternal_errorMessage hne id)
  unfold validateInbound at h
  split at h
  · cases h
    exact hreject _ _ (by decide)
  · cases h
  · cases h
  · cases h
    unfold validateDict
    split_ifs
    · exact hreject _ _ (by decide)
    · split
      · exact hreject _ _ (by decide)
      · rename_i t _
        unfold validateTyped
        by_cases hclient : t ∈ MessageType.clientSendable
        swap
        · rw [if_pos hclient]
          exact hreject _ _ (by decide)
        rw [if_neg (not_not.2 hclient)]
        split_ifs
        · exact hreject _ _ (by decide)
        · split
          · exact hreject _ _ (by decide)
          · simp
  · cases h
    exact hreject _ _ (by decide)

/-- The type of an accepted envelope has a handler of its own. -/
theorem handled_of_clientSendable {t : MessageType} (h : t ∈ MessageType.clientSendable) :
    t = .authAuthenticate ∨ t = .heartbeatPing ∨ t ∈ MessageType.privileged := by
  revert h
  cases t <;> decide

/-- **No answer is `INTERNAL_PROTOCOL_ERROR`.** -/
theorem notInternal_frameAnswer (h : frameAnswer lib m context rawText clock ref = some answer) :
    ∀ r ∈ answer.2, NotInternal r := by
  unfold frameAnswer at h
  cases hvalid : validateInbound lib context rawText with
  | error e => simp [hvalid] at h
  | ok verdict =>
      obtain ⟨_ | envelope, errors⟩ := verdict
      · simp only [hvalid, Option.some.injEq] at h
        subst h
        exact rejection_notInternal hvalid
      · simp only [hvalid, dispatchAnswer] at h
        have hsendable := (validateInbound_eq_some hvalid).2.1
        split at h
        · split at h
          · rename_i hbegin
            cases h
            exact notInternal_beginAuthentication hbegin
          · cases h
        · cases h
          simp [NotInternal, errorMessage]
        · rename_i t hauth hping
          have hpriv : envelope.type ∈ MessageType.privileged := by
            rcases handled_of_clientSendable hsendable with heq | heq | hmem
            · exact absurd heq hauth
            · exact absurd heq hping
            · exact hmem
          rw [if_pos hpriv] at h
          exact notInternal_handlePrivileged hpriv (eq_ok_of_toOption h)

/-- What is routed before the answer is a receipt. -/
theorem reaches_frameAnswer (h : frameAnswer lib m context rawText clock ref = some answer) :
    Reaches (ManagerOp.QuietPutting NotInternal) m answer.1 := by
  unfold frameAnswer at h
  cases hvalid : validateInbound lib context rawText with
  | error e => simp [hvalid] at h
  | ok verdict =>
      obtain ⟨_ | envelope, errors⟩ := verdict
      · simp only [hvalid, Option.some.injEq] at h
        subst h
        exact .refl m
      · simp only [hvalid, dispatchAnswer] at h
        split at h
        · split at h
          · cases h
            exact .refl m
          · cases h
        · cases h
          exact .refl m
        · split_ifs at h
          · refine reaches_handlePrivileged (eq_ok_of_toOption h) fun message hsent => ?_
            obtain ⟨-, -, -, recipient, -, rfl⟩ := hsent
            exact notInternal_of_receipt _
          · cases h
            exact .refl m

/-- **No frame is answered with `INTERNAL_PROTOCOL_ERROR`**, nor is one put on any other queue. -/
theorem held_receiveFrame (lib : Libraries) (m : ConnectionManager) (cid : ConnId)
    (context : ConnectionContext) (rawText : PyStr) (now : ℚ) (clock : Datetime) (ref : ℕ)
    {message : OutboundMessage}
    (h : (receiveFrame lib m cid context rawText now clock ref).1.Held message) :
    m.Held message ∨ NotInternal message := by
  have hreaches : Reaches (ManagerOp.QuietPutting NotInternal) m
      (receiveFrame lib m cid context rawText now clock ref).1 := by
    have htouch := reaches_touch (P := NotInternal) m cid now
    unfold receiveFrame
    dsimp only
    cases utf8Length rawText with
    | error e => exact htouch
    | ok size =>
        dsimp only
        split_ifs
        · exact htouch.trans
            (reaches_enqueueOutbound _ cid (notInternal_errorMessage (by decide) _))
        · exact (htouch.trans (reaches_allow _ cid now)).trans
            (reaches_enqueueOutbound _ cid (notInternal_errorMessage (by decide) _))
        · refine (htouch.trans (reaches_allow _ cid now)).trans ?_
          generalize (m.modifyContext cid fun c => c.touch now).modifyContext cid
            (fun c => (c.allow now).1) = m₁
          cases hanswer : frameAnswer lib m₁ context rawText clock ref with
          | some answer =>
              rw [handleFrame_of_answer hanswer]
              exact (reaches_frameAnswer hanswer).trans
                (reaches_respond _ cid (notInternal_frameAnswer hanswer))
          | none =>
              rcases handleFrame_of_no_answer hanswer cid with ⟨e, heq⟩ | ⟨envelope, token, heq⟩
              · rw [heq]
                exact .refl m₁
              · rw [heq]
                exact .refl m₁
  rcases hreaches.held h with hold | ⟨op, hop, hputs⟩
  · exact .inl hold
  · exact .inr (hop.2 message hputs)

/-- The answer to a resolved token is new or was queued for the account. -/
theorem held_finishAuthentication (m : ConnectionManager) (cid : ConnId)
    (context : ConnectionContext) (envelope : InboundEnvelope)
    (result : Except AuthError AuthenticatedIdentity) :
    ∀ r ∈ (finishAuthentication m cid context envelope result).2, m.Held r ∨ NotInternal r := by
  cases result with
  | error e =>
      exact List.forall_mem_singleton.2 (.inr (notInternal_errorMessage (by decide) _))
  | ok identity =>
      refine List.forall_mem_cons.2 ⟨.inr (by simp [NotInternal, errorMessage]), fun r hr => ?_⟩
      exact .inl (.inr ⟨identity.username, by
        simpa [drainOffline, bindIdentity_offlineQueue] using hr⟩)

end Answer

end EncryptChat
