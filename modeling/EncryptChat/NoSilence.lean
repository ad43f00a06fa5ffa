/-
**No frame is ignored, unless the queue is full.**

An iteration of the receive loop has several exits.  Most of them hand their responses to one loop,
which closes the connection when the queue refuses one; a frame that is too large or that comes too
fast is answered by a call of its own, whose result nobody looks at.

Main definitions:

* `EncryptChat.Owed` — the responses owed to a frame, and the iteration that puts them on the queue;
* `EncryptChat.Responded` — every response is on the queue, in order and at least one, or the loop
  has ended with a close code;
* `EncryptChat.RefusedEarly` — the frame is too large or comes too fast.

Main results:

* `EncryptChat.owed_of_receiveFrame` — a frame whose handling does not raise is owed responses;
* `EncryptChat.frame_never_silent_iff` — **an iteration answers its frame, exactly when it is not a
  frame refused early on a connection that takes no message**.
-/

import EncryptChat.InboundGrammar
import EncryptChat.OwnContext

set_option relaxedAutoImplicit false
set_option autoImplicit false

namespace EncryptChat

open Python Transition ConnectionManager

/-- The frame is too large or comes too fast. -/
def RefusedEarly (m : ConnectionManager) (c : ConnectionContext) (rawText : PyStr) (now : ℚ) :
    Prop :=
  ∃ size, utf8Length rawText = .ok size ∧
    (m.limits.maxMessageBytes < size ∨ (c.allow now).2 = false)

section Iteration

variable (lib : Libraries) (m : ConnectionManager) (cid : ConnId) (c : ConnectionContext)
  (rawText : PyStr) (now : ℚ) (clock : Datetime) (ref : ℕ)

/-- **The responses owed to a frame**: the manager they are put on, the responses, and the end of
the iteration.  An `auth.authenticate` that awaits is answered when the token has been resolved, on
whatever manager there is then. -/
inductive Owed : ConnectionManager → List OutboundMessage → ConnectionManager × Iteration → Prop
  | tooLarge {size : ℕ} (length : utf8Length rawText = .ok size)
      (large : m.limits.maxMessageBytes < size) :
      Owed (m.modifyContext cid fun c => c.touch now) [errorMessage .messageTooLarge none]
        (receiveFrame lib m cid c rawText now clock ref)
  | rateLimited {size : ℕ} (length : utf8Length rawText = .ok size)
      (small : ¬ m.limits.maxMessageBytes < size) (refused : (c.allow now).2 = false) :
      Owed (m.counted cid now) [errorMessage .rateLimited none]
        (receiveFrame lib m cid c rawText now clock ref)
  | answered (admitted : Admitted m c rawText now)
      {answer : ConnectionManager × List OutboundMessage}
      (answer_eq : frameAnswer lib (m.counted cid now) c rawText clock ref = some answer) :
      Owed answer.1 answer.2 (receiveFrame lib m cid c rawText now clock ref)
  | authenticated (admitted : Admitted m c rawText now) {envelope : InboundEnvelope}
      {rawToken : PyStr}
      (awaits : (receiveFrame lib m cid c rawText now clock ref).2 = .resolve envelope rawToken)
      {m' : ConnectionManager} {c' : ConnectionContext} (present : m'.contexts cid = some c')
      (result : Except AuthError AuthenticatedIdentity) :
      Owed (finishAuthentication m' cid c' envelope result).1
        (finishAuthentication m' cid c' envelope result).2
        (respond (finishAuthentication m' cid c' envelope result).1 cid
          (finishAuthentication m' cid c' envelope result).2)

end Iteration

/-- Every response is on the outbound queue of the connection, in order and at least one, and the
loop goes on; or it has ended with a close code. -/
def Responded (cid : ConnId) (before : ConnectionManager) (responses : List OutboundMessage)
    (outcome : ConnectionManager × Iteration) : Prop :=
  (outcome.2 = .next ∧ responses ≠ [] ∧
      ∃ c c', before.contexts cid = some c ∧ outcome.1.contexts cid = some c' ∧
        c'.outbound.items = c.outbound.items ++ responses) ∨
    ∃ code, outcome.2 = .close code

/-- No frame is ignored in silence. -/
def NeverSilent (lib : Libraries) (m : ConnectionManager) (cid : ConnId) (c : ConnectionContext)
    (rawText : PyStr) (now : ℚ) (clock : Datetime) (ref : ℕ) : Prop :=
  ∀ before responses outcome,
    Owed lib m cid c rawText now clock ref before responses outcome →
      Responded cid before responses outcome

/-! ### The loop over the responses -/

/-- When no response is refused, all of them are at the tail of the queue. -/
theorem ConnectionContext.enqueueResponses_items (responses : List OutboundMessage) :
    ∀ c : ConnectionContext, (c.enqueueResponses responses).2 = true →
      (c.enqueueResponses responses).1.outbound.items = c.outbound.items ++ responses := by
  induction responses with
  | nil =>
      intro c _
      simp [ConnectionContext.enqueueResponses]
  | cons r responses ih =>
      intro c htaken
      simp only [ConnectionContext.enqueueResponses] at htaken ⊢
      by_cases hroom : c.HasRoom
      · obtain ⟨q, heq, hitems, -⟩ := ConnectionContext.enqueueOutbound_of_hasRoom hroom r
        rw [heq] at htaken ⊢
        simp only [if_true] at htaken ⊢
        rw [ih _ htaken, hitems, List.append_assoc, List.singleton_append]
      · rw [ConnectionContext.enqueueOutbound_of_not_hasRoom hroom] at htaken
        simp at htaken

/-- **The loop over the responses** puts all of them on the queue or closes the connection. -/
theorem responded_respond {m : ConnectionManager} {cid : ConnId} {c : ConnectionContext}
    (hc : m.contexts cid = some c) {responses : List OutboundMessage} (hne : responses ≠ []) :
    Responded cid m responses (respond m cid responses) := by
  rw [respond_of_eq hc responses]
  cases htaken : (c.enqueueResponses responses).2 with
  | true =>
      exact .inl ⟨rfl, hne, c, _, hc, setContext_contexts_self m cid _,
        c.enqueueResponses_items responses htaken⟩
  | false => exact .inr ⟨WebSocketCloseCode.policyViolation, rfl⟩

/-- A response put on the queue by a call of its own: nobody looks at the result. -/
theorem responded_single_iff {m : ConnectionManager} {cid : ConnId} {c : ConnectionContext}
    (hc : m.contexts cid = some c) (message : OutboundMessage) :
    Responded cid m [message] ((m.enqueueOutbound cid message).1, .next) ↔ c.HasRoom := by
  rw [enqueueOutbound_of_eq hc message]
  constructor
  · rintro (⟨-, -, c₀, c', hc₀, hc', hitems⟩ | ⟨code, hcode⟩)
    · rw [hc, Option.some.injEq] at hc₀
      subst hc₀
      by_contra hroom
      simp only [ConnectionContext.enqueueOutbound_of_not_hasRoom hroom, setContext_contexts_self,
        Option.some.injEq] at hc'
      subst hc'
      have hlength := congrArg List.length hitems
      simp at hlength
    · cases hcode
  · intro hroom
    obtain ⟨q, heq, hitems, -⟩ := ConnectionContext.enqueueOutbound_of_hasRoom hroom message
    rw [heq]
    exact .inl ⟨rfl, by simp, c, _, hc, setContext_contexts_self m cid _, hitems⟩

/-! ### An iteration -/

section Cases

variable {lib : Libraries} {m : ConnectionManager} {cid : ConnId} {c : ConnectionContext}
  {rawText : PyStr} {now : ℚ} {clock : Datetime} {ref : ℕ}

theorem receiveFrame_of_tooLarge {size : ℕ} (hlength : utf8Length rawText = .ok size)
    (hlarge : m.limits.maxMessageBytes < size) :
    receiveFrame lib m cid c rawText now clock ref =
      (((m.modifyContext cid fun c => c.touch now).enqueueOutbound cid
        (errorMessage .messageTooLarge none)).1, .next) := by
  unfold receiveFrame
  simp only [hlength, if_pos hlarge]

theorem receiveFrame_of_rateLimited {size : ℕ} (hlength : utf8Length rawText = .ok size)
    (hsmall : ¬ m.limits.maxMessageBytes < size) (hrefused : (c.allow now).2 = false) :
    receiveFrame lib m cid c rawText now clock ref =
      (((m.counted cid now).enqueueOutbound cid (errorMessage .rateLimited none)).1, .next) := by
  unfold receiveFrame
  simp only [hlength, if_neg hsmall, if_pos hrefused]
  rfl

/-- The context a frame is handled with has the queue it had. -/
theorem touched_contexts (hc : m.contexts cid = some c) :
    (m.modifyContext cid fun c => c.touch now).contexts cid = some (c.touch now) := by
  simp [modifyContext, hc]

theorem counted_contexts (hc : m.contexts cid = some c) :
    (m.counted cid now).contexts cid = some ((c.touch now).allow now).1 := by
  simp [counted, modifyContext, hc]

/-- A frame is admitted or refused early, or its length cannot be taken. -/
theorem admitted_or (m : ConnectionManager) (c : ConnectionContext) (rawText : PyStr) (now : ℚ) :
    Admitted m c rawText now ∨ RefusedEarly m c rawText now ∨
      ∃ e, utf8Length rawText = .error e := by
  cases hlength : utf8Length rawText with
  | error e => exact .inr (.inr ⟨e, rfl⟩)
  | ok size =>
      by_cases hlarge : m.limits.maxMessageBytes < size
      · exact .inr (.inl ⟨size, hlength, .inl hlarge⟩)
      · cases hallow : (c.allow now).2 with
        | false => exact .inr (.inl ⟨size, hlength, .inr hallow⟩)
        | true =>
            refine .inl ⟨?_, hallow⟩
            simp only [hlength, Except.toOption, Option.any_some, decide_eq_true_eq]
            omega

theorem not_refusedEarly_of_admitted (h : Admitted m c rawText now) :
    ¬ RefusedEarly m c rawText now := by
  rintro ⟨size, hlength, hlarge | hrefused⟩
  · have hsize := h.1
    simp only [hlength, Except.toOption, Option.any_some, decide_eq_true_eq] at hsize
    omega
  · rw [h.2] at hrefused
    cases hrefused

/-- **A frame whose handling does not raise is owed responses**, when it is handled or when the
token it presents has been resolved. -/
theorem owed_of_receiveFrame
    (h : ∀ e, (receiveFrame lib m cid c rawText now clock ref).2 ≠ .raise e) :
    (∃ before responses, Owed lib m cid c rawText now clock ref before responses
        (receiveFrame lib m cid c rawText now clock ref)) ∨
      ∃ envelope rawToken,
        (receiveFrame lib m cid c rawText now clock ref).2 = .resolve envelope rawToken := by
  rcases admitted_or m c rawText now with hadmitted | ⟨size, hlength, hrefused⟩ | ⟨e, hlength⟩
  · cases hanswer : frameAnswer lib (m.counted cid now) c rawText clock ref with
    | some answer => exact .inl ⟨_, _, .answered hadmitted hanswer⟩
    | none =>
        have heq : receiveFrame lib m cid c rawText now clock ref =
            handleFrame lib (m.counted cid now) cid c rawText clock ref :=
          receiveFrame_of_admitted lib hadmitted clock ref
        rcases handleFrame_of_no_answer hanswer cid with ⟨e, hraise⟩ | ⟨envelope, token, hawait⟩
        · exact absurd (by rw [heq, hraise]) (h e)
        · exact .inr ⟨envelope, token, by rw [heq, hawait]⟩
  · by_cases hlarge : m.limits.maxMessageBytes < size
    · exact .inl ⟨_, _, .tooLarge hlength hlarge⟩
    · exact .inl ⟨_, _, .rateLimited hlength hlarge (hrefused.resolve_left hlarge)⟩
  · refine absurd ?_ (h e)
    unfold receiveFrame
    simp only [hlength]

/-- A frame refused early on a connection that takes no message is ignored. -/
theorem not_neverSilent (lib : Libraries) {m : ConnectionManager} {cid : ConnId}
    {c : ConnectionContext} (hc : m.contexts cid = some c) {rawText : PyStr} {now : ℚ}
    (hearly : RefusedEarly m c rawText now) (hroom : ¬ c.HasRoom) (clock : Datetime) (ref : ℕ) :
    ¬ NeverSilent lib m cid c rawText now clock ref := by
  intro h
  obtain ⟨size, hlength, hrefused⟩ := hearly
  by_cases hlarge : m.limits.maxMessageBytes < size
  · have hresponded := h _ _ _ (.tooLarge hlength hlarge)
    rw [receiveFrame_of_tooLarge hlength hlarge, responded_single_iff (touched_contexts hc)]
      at hresponded
    exact hroom hresponded
  · have hslow := hrefused.resolve_left hlarge
    have hresponded := h _ _ _ (.rateLimited hlength hlarge hslow)
    rw [receiveFrame_of_rateLimited hlength hlarge hslow,
      responded_single_iff (counted_contexts hc)] at hresponded
    exact hroom hresponded

/-- **An iteration answers its frame, exactly when it is not a frame refused early on a connection
that takes no message**: for every context and every frame. -/
theorem frame_never_silent_iff (lib : Libraries) {m : ConnectionManager} {cid : ConnId}
    {c : ConnectionContext} (hc : m.contexts cid = some c) (rawText : PyStr) (now : ℚ)
    (clock : Datetime) (ref : ℕ) :
    NeverSilent lib m cid c rawText now clock ref ↔
      ¬ (RefusedEarly m c rawText now ∧ ¬ c.HasRoom) := by
  refine ⟨fun h hearly => not_neverSilent lib hc hearly.1 hearly.2 clock ref h, ?_⟩
  intro h before responses outcome howed
  have htouched : (m.modifyContext cid fun c => c.touch now).contexts cid = some (c.touch now) :=
    touched_contexts hc
  have hcounted : (m.counted cid now).contexts cid = some ((c.touch now).allow now).1 :=
    counted_contexts hc
  cases howed with
  | tooLarge hlength hlarge =>
      rw [receiveFrame_of_tooLarge hlength hlarge, responded_single_iff htouched]
      exact by_contra fun hroom => h ⟨⟨_, hlength, .inl hlarge⟩, hroom⟩
  | rateLimited hlength hsmall hslow =>
      rw [receiveFrame_of_rateLimited hlength hsmall hslow, responded_single_iff hcounted]
      exact by_contra fun hroom => h ⟨⟨_, hlength, .inr hslow⟩, hroom⟩
  | @answered hadmitted answer hanswer =>
      obtain ⟨c₁, hc₁, -⟩ :=
        ((reaches_frameAnswer hanswer).untouched_of_quiet cid).present _ hcounted
      rw [receiveFrame_of_admitted lib hadmitted, handleFrame_of_answer hanswer]
      exact responded_respond hc₁ (frameAnswer_ne_nil hanswer)
  | @authenticated hadmitted envelope rawToken hawaits m' c' hc' result =>
      cases result with
      | error e => exact responded_respond hc' (by simp [finishAuthentication])
      | ok identity =>
          have hbound : (finishAuthentication m' cid c' envelope (.ok identity)).1.contexts cid =
              some (c'.authenticate identity) := by
            simp [finishAuthentication, drainOffline, bindIdentity_contexts]
          exact responded_respond hbound (by simp [finishAuthentication])

end Cases

/-! ### A full queue -/

/-- A message on a connection whose queue has room is answered. -/
theorem frame_never_silent_send :
    NeverSilent sampleLibraries ((ConnectionManager.new {}).setContext aliceId aliceBound) aliceId
      aliceBound sendText 0 (.utc 0) 0 := by
  have hroom : aliceBound.HasRoom := by decide
  exact (frame_never_silent_iff sampleLibraries
    (setContext_contexts_self (ConnectionManager.new {}) aliceId aliceBound) sendText 0 (.utc 0)
    0).2 fun h => h.2 hroom

/-- **A frame that is ignored**: the queue holds one message and has not been read since the
connection was accepted, and the frame is one byte too large. -/
theorem oversized_frame_ignored :
    ∃ tr s c, (serverSystem sampleLibraries onePending).Run (.new onePending) tr s ∧
      s.manager.contexts aliceId = some c ∧
      ¬ NeverSilent sampleLibraries s.manager aliceId c (List.replicate 65537 digitOne) 0 (.utc 0)
        0 := by
  have hexec : ((serverSystem sampleLibraries onePending).exec (.new onePending)
      (aliceSends.take 2)).map (fun s =>
        decide (s.manager.limits.maxMessageBytes = 65536) &&
          (s.manager.contexts aliceId).any fun c => !decide c.HasRoom) = some true := by
    decide +kernel
  obtain ⟨s, -, hrun, hp⟩ := System.exists_run_of_exec hexec
  simp only [Bool.and_eq_true, decide_eq_true_eq, Option.any_eq_true, Bool.not_eq_true',
    decide_eq_false_iff_not] at hp
  obtain ⟨hlimit, c, hc, hroom⟩ := hp
  refine ⟨_, s, c, hrun, hc, not_neverSilent sampleLibraries hc ?_ hroom (.utc 0) 0⟩
  exact ⟨65537, utf8Length_replicate_digitOne 65537, .inl (by omega)⟩

end EncryptChat
