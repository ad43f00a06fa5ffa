/-
**What an unauthenticated peer can do to the server, and learn from it.**

A frame of a connection without an identity is answered from the frame and the connection's own
context alone: the size check, the limiter, the authorization gate and the schema look at nothing
else, and a refused token is answered in one way only.  So the handling of such a frame is one
function of the own context, whatever the rest of the manager holds; that function is what this
module brings out.

Main definitions:

* `EncryptChat.ConnectionContext.OwnOnly` — nothing has changed but the outbound queue, the limiter
  and the last activity;
* `EncryptChat.ConnectionContext.SameUpToTime` — two contexts that differ in the server time of
  pongs at most.

Main results:

* `EncryptChat.receiveFrame_unauthenticated` — **the handling of a frame, from the own context**;
* `EncryptChat.finishAuthentication_refused` — the handling of a refused token;
* `EncryptChat.unauthenticated_noninterference` — **an unauthenticated peer neither affects nor
  observes the rest of the server**.
-/

import EncryptChat.OwnContext
import EncryptChat.SenderAuthenticity

set_option relaxedAutoImplicit false
set_option autoImplicit false

namespace EncryptChat

open Python

/-! ### Messages up to the time they tell -/

/-- The message without the server time of a pong. -/
def OutboundMessage.untimed : OutboundMessage → OutboundMessage
  | heartbeatPong messageId _ => heartbeatPong messageId (.utc 0)
  | message => message

/-- Two queues that hold the same messages up to the times they tell. -/
structure SameQueue (q q' : Queue OutboundMessage) : Prop where
  maxsize : q'.maxsize = q.maxsize
  unfinished : q'.unfinished = q.unfinished
  items : q'.items.map OutboundMessage.untimed = q.items.map OutboundMessage.untimed
  accepted : q'.accepted.map OutboundMessage.untimed = q.accepted.map OutboundMessage.untimed

namespace SameQueue

variable {q q' : Queue OutboundMessage}

theorem refl (q : Queue OutboundMessage) : SameQueue q q := ⟨rfl, rfl, rfl, rfl⟩

theorem full (h : SameQueue q q') : q'.full = q.full := by
  have hlength : q'.items.length = q.items.length := by
    have := congrArg List.length h.items
    simpa using this
  simp only [Queue.full, h.maxsize, hlength]

/-- Equal messages are accepted by both or by neither. -/
theorem putNowait (h : SameQueue q q') {x x' : OutboundMessage} (hx : x'.untimed = x.untimed) :
    (q.putNowait x = none ∧ q'.putNowait x' = none) ∨
      ∃ p p', q.putNowait x = some p ∧ q'.putNowait x' = some p' ∧ SameQueue p p' := by
  by_cases hfull : q.full = true
  · have hfull' : q'.full = true := by
      rw [h.full]
      exact hfull
    exact .inl ⟨Queue.putNowait_eq_none_iff.2 hfull, Queue.putNowait_eq_none_iff.2 hfull'⟩
  · have hfull' : ¬ q'.full = true := by
      rw [h.full]
      exact hfull
    refine .inr ⟨q.push x hfull, q'.push x' hfull', dif_neg hfull, dif_neg hfull', ?_⟩
    refine ⟨h.maxsize, ?_, ?_, ?_⟩
    · simp only [Queue.push, h.unfinished]
    · simp only [Queue.push, List.map_append, h.items, List.map_cons, hx, List.map_nil]
    · simp only [Queue.push, List.map_append, h.accepted, List.map_cons, hx, List.map_nil]

end SameQueue

namespace ConnectionContext

/-! ### The own context -/

/-- Nothing has changed but the outbound queue, the limiter and the last activity. -/
def OwnOnly (c c' : ConnectionContext) : Prop :=
  c' = { c with
    outbound := c'.outbound
    rateLimiter := c'.rateLimiter
    lastActivityMonotonic := c'.lastActivityMonotonic }

theorem OwnOnly.refl (c : ConnectionContext) : OwnOnly c c := rfl

theorem OwnOnly.trans {c c' c'' : ConnectionContext} (h : OwnOnly c c') (h' : OwnOnly c' c'') :
    OwnOnly c c'' := by
  unfold OwnOnly at h h' ⊢
  rw [h', h]

/-- Two contexts that differ in the times their messages tell at most. -/
structure SameUpToTime (c c' : ConnectionContext) : Prop where
  outbound : SameQueue c.outbound c'.outbound
  rest : c' = { c with outbound := c'.outbound }

theorem SameUpToTime.refl (c : ConnectionContext) : SameUpToTime c c := ⟨.refl _, rfl⟩

theorem SameUpToTime.closing {c c' : ConnectionContext} (h : SameUpToTime c c') :
    c'.closing = c.closing := by
  rw [h.rest]

theorem ownOnly_touch (c : ConnectionContext) (now : ℚ) : OwnOnly c (c.touch now) := rfl

theorem ownOnly_allow (c : ConnectionContext) (now : ℚ) : OwnOnly c (c.allow now).1 := rfl

theorem ownOnly_enqueueOutbound (c : ConnectionContext) (message : OutboundMessage) :
    OwnOnly c (c.enqueueOutbound message).1 := by
  unfold enqueueOutbound
  split_ifs
  · exact .refl c
  · split
    · exact .refl c
    · rfl

/-- Contexts that agree up to times take, or refuse, messages that agree up to times alike. -/
theorem SameUpToTime.enqueueOutbound {c c' : ConnectionContext} (h : SameUpToTime c c')
    (x x' : OutboundMessage) (hx : x'.untimed = x.untimed) :
    SameUpToTime (c.enqueueOutbound x).1 (c'.enqueueOutbound x').1 ∧
      (c'.enqueueOutbound x').2 = (c.enqueueOutbound x).2 := by
  unfold ConnectionContext.enqueueOutbound
  rw [h.closing]
  by_cases hclosing : c.closing = true
  · rw [if_pos hclosing, if_pos hclosing]
    exact ⟨h, rfl⟩
  · rw [if_neg hclosing, if_neg hclosing]
    rcases h.outbound.putNowait hx with ⟨hp, hp'⟩ | ⟨p, p', hp, hp', hsame⟩
    · rw [hp, hp']
      exact ⟨h, rfl⟩
    · rw [hp, hp']
      refine ⟨⟨hsame, ?_⟩, rfl⟩
      simp only
      rw [h.rest]

theorem ownOnly_enqueueResponses (responses : List OutboundMessage) :
    ∀ c : ConnectionContext, OwnOnly c (c.enqueueResponses responses).1 := by
  induction responses with
  | nil => exact fun c => .refl c
  | cons r responses ih =>
      intro c
      have hfirst := ownOnly_enqueueOutbound c r
      simp only [enqueueResponses]
      split_ifs
      · exact hfirst.trans (ih _)
      · exact hfirst

end ConnectionContext

open ConnectionManager

/-! ### A frame -/

/-- What a validated envelope of a connection without an identity can be. -/
theorem type_of_unauthenticated {lib : Libraries} {c : ConnectionContext} {rawText : PyStr}
    {envelope : InboundEnvelope} {errors : List OutboundMessage}
    (h : validateInbound lib c rawText = .ok (some envelope, errors))
    (hauth : c.authenticated = false) :
    envelope.type = .authAuthenticate ∨ envelope.type = .heartbeatPing := by
  have hgate := (validateInbound_eq_some h).2.2.resolve_left (by simp [hauth])
  revert hgate
  cases envelope.type <;> decide

/-- Two pongs to the same frame leave contexts that agree up to times. -/
theorem respond_pong (cid : ConnId) (c : ConnectionContext) (messageId : Uuid)
    (clock clock' : Datetime) :
    ∃ c₁ c₂ outcome, c.OwnOnly c₁ ∧ c.OwnOnly c₂ ∧ c₁.SameUpToTime c₂ ∧
      ∀ m : ConnectionManager, m.contexts cid = some c →
        respond m cid [.heartbeatPong messageId clock] = (m.setContext cid c₁, outcome) ∧
          respond m cid [.heartbeatPong messageId clock'] = (m.setContext cid c₂, outcome) := by
  obtain ⟨hsame, htaken⟩ := (ConnectionContext.SameUpToTime.refl c).enqueueOutbound
    (.heartbeatPong messageId clock) (.heartbeatPong messageId clock') rfl
  refine ⟨_, _, if (c.enqueueOutbound (.heartbeatPong messageId clock)).2 then .next
    else .close WebSocketCloseCode.policyViolation, c.ownOnly_enqueueOutbound _,
    c.ownOnly_enqueueOutbound _, hsame, fun m hm => ?_⟩
  rw [respond_of_eq hm, respond_of_eq hm, ConnectionContext.enqueueResponses_singleton,
    ConnectionContext.enqueueResponses_singleton, htaken]
  exact ⟨rfl, rfl⟩

/-- The handling of a frame that passed the size check and the rate check, from the own context:
two runs of it agree up to the times of the clock. -/
theorem handleFrame_unauthenticated (lib : Libraries) (cid : ConnId) {c : ConnectionContext}
    (hauth : c.authenticated = false) (current : ConnectionContext) (rawText : PyStr)
    (clock clock' : Datetime) :
    ∃ c₁ c₂ outcome, current.OwnOnly c₁ ∧ current.OwnOnly c₂ ∧ c₁.SameUpToTime c₂ ∧
      ∀ m ref, m.contexts cid = some current →
        handleFrame lib m cid c rawText clock ref = (m.setContext cid c₁, outcome) ∧
          handleFrame lib m cid c rawText clock' ref = (m.setContext cid c₂, outcome) := by
  -- answers that do not tell the time
  have hanswer : ∀ responses : List OutboundMessage,
      ∃ c₁ c₂ outcome, current.OwnOnly c₁ ∧ current.OwnOnly c₂ ∧ c₁.SameUpToTime c₂ ∧
        ∀ m, m.contexts cid = some current →
          respond m cid responses = (m.setContext cid c₁, outcome) ∧
            respond m cid responses = (m.setContext cid c₂, outcome) := by
    intro responses
    have hown := ConnectionContext.ownOnly_enqueueResponses responses current
    exact ⟨_, _, _, hown, hown, .refl _, fun m hm => ⟨respond_of_eq hm _, respond_of_eq hm _⟩⟩
  cases hvalid : validateInbound lib c rawText with
  | error e =>
      refine ⟨current, current, .raise e, .refl _, .refl _, .refl _, fun m ref hm => ?_⟩
      simp only [handleFrame, hvalid, setContext_of_eq hm, and_self]
  | ok verdict =>
      obtain ⟨_ | envelope, errors⟩ := verdict
      · obtain ⟨c₁, c₂, outcome, h₁, h₂, hsame, h⟩ := hanswer errors
        refine ⟨c₁, c₂, outcome, h₁, h₂, hsame, fun m ref hm => ?_⟩
        simpa only [handleFrame, hvalid] using h m hm
      · rcases type_of_unauthenticated hvalid hauth with htype | htype
        · cases hbegin : beginAuthentication c envelope with
          | error responses =>
              obtain ⟨c₁, c₂, outcome, h₁, h₂, hsame, h⟩ := hanswer responses
              refine ⟨c₁, c₂, outcome, h₁, h₂, hsame, fun m ref hm => ?_⟩
              simpa only [handleFrame, hvalid, dispatch, htype, hbegin] using h m hm
          | ok rawToken =>
              refine ⟨current, current, .resolve envelope rawToken, .refl _, .refl _, .refl _,
                fun m ref hm => ?_⟩
              simp only [handleFrame, hvalid, dispatch, htype, hbegin, setContext_of_eq hm,
                and_self]
        · -- the pongs differ in their times, and are taken alike
          obtain ⟨c₁, c₂, outcome, h₁, h₂, hsame, h⟩ :=
            respond_pong cid current envelope.messageId clock clock'
          refine ⟨c₁, c₂, outcome, h₁, h₂, hsame, fun m ref hm => ?_⟩
          simpa only [handleFrame, hvalid, dispatch, htype] using h m hm

/-- **The handling of a frame, from the own context**: what it does to the manager is to replace the
own context, by one that depends on the own context, the limits, the frame and the clocks alone. -/
theorem receiveFrame_unauthenticated (lib : Libraries) (limits : TransportLimits) (cid : ConnId)
    {c : ConnectionContext} (hauth : c.authenticated = false) (rawText : PyStr) (now : ℚ)
    (clock clock' : Datetime) :
    ∃ c₁ c₂ outcome, c.OwnOnly c₁ ∧ c.OwnOnly c₂ ∧ c₁.SameUpToTime c₂ ∧
      ∀ m ref, m.limits = limits → m.contexts cid = some c →
        receiveFrame lib m cid c rawText now clock ref = (m.setContext cid c₁, outcome) ∧
          receiveFrame lib m cid c rawText now clock' ref = (m.setContext cid c₂, outcome) := by
  have htouch := ConnectionContext.ownOnly_touch c now
  have hcount := htouch.trans (ConnectionContext.ownOnly_allow (c.touch now) now)
  cases hsize : utf8Length rawText with
  | error e =>
      refine ⟨c.touch now, c.touch now, .raise e, htouch, htouch, .refl _, fun m ref _ hm => ?_⟩
      simp only [receiveFrame, hsize, modifyContext_of_eq hm, and_self]
  | ok size =>
      by_cases hlarge : limits.maxMessageBytes < size
      · have hown := htouch.trans (ConnectionContext.ownOnly_enqueueOutbound (c.touch now)
          (errorMessage .messageTooLarge none))
        refine ⟨_, _, .next, hown, hown, .refl _, fun m ref hlimits hm => ?_⟩
        subst hlimits
        simp only [receiveFrame, hsize, if_pos hlarge, modifyContext_of_eq hm,
          enqueueOutbound_of_eq (setContext_contexts_self m cid _), setContext_setContext, and_self]
      · by_cases hrate : (c.allow now).2 = false
        · have hown := hcount.trans (ConnectionContext.ownOnly_enqueueOutbound
            ((c.touch now).allow now).1 (errorMessage .rateLimited none))
          refine ⟨_, _, .next, hown, hown, .refl _, fun m ref hlimits hm => ?_⟩
          subst hlimits
          simp only [receiveFrame, hsize, if_neg hlarge, if_pos hrate, modifyContext_of_eq hm,
            modifyContext_of_eq (setContext_contexts_self m cid _),
            enqueueOutbound_of_eq (setContext_contexts_self _ cid _), setContext_setContext,
            and_self]
        · -- the frame is admitted, and is handled with the context it has just counted
          obtain ⟨c₁, c₂, outcome, h₁, h₂, hsame, hhandled⟩ :=
            handleFrame_unauthenticated lib cid hauth ((c.touch now).allow now).1 rawText clock clock'
          refine ⟨c₁, c₂, outcome, hcount.trans h₁, hcount.trans h₂, hsame,
            fun m ref hlimits hm => ?_⟩
          subst hlimits
          have hcounted := hhandled (m.setContext cid ((c.touch now).allow now).1) ref
            (setContext_contexts_self m cid _)
          simpa only [receiveFrame, hsize, if_neg hlarge, if_neg hrate, modifyContext_of_eq hm,
            modifyContext_of_eq (setContext_contexts_self m cid _), setContext_setContext]
            using hcounted

/-! ### A refused token -/

/-- **The handling of a refused token, from the own context**: the reason is not looked at. -/
theorem finishAuthentication_refused (cid : ConnId) (c : ConnectionContext)
    (envelope : InboundEnvelope) :
    ∃ c' outcome, c.OwnOnly c' ∧ ∀ m (e : AuthError), m.contexts cid = some c →
      finishAuthentication m cid c envelope (.error e) =
          (m, [errorMessage .authFailed (some envelope.messageId)]) ∧
        respond m cid [errorMessage .authFailed (some envelope.messageId)] =
          (m.setContext cid c', outcome) :=
  ⟨_, _, ConnectionContext.ownOnly_enqueueResponses _ c, fun _ _ hm => ⟨rfl, respond_of_eq hm _⟩⟩

/-- **An unauthenticated peer neither affects nor observes the rest of the server.**  Take any two
managers that agree on the limits and on the context of a connection without an identity.  Handling
a frame of that connection does to each of them nothing but to change the outbound queue, the limiter
and the last activity of that context, and it ends alike in both, with the same messages up to the
server time of a pong; and if it comes to resolving a token, and the token is refused, then what
follows the await does nothing more, whatever the reasons were. -/
theorem unauthenticated_noninterference (lib : Libraries) {m m' : ConnectionManager} {cid : ConnId}
    {c : ConnectionContext} (hlimits : m'.limits = m.limits) (hm : m.contexts cid = some c)
    (hm' : m'.contexts cid = some c) (hauth : c.authenticated = false) :
    (∀ rawText now clock clock' ref ref', ∃ c₁ c₂ outcome,
        c.OwnOnly c₁ ∧ c.OwnOnly c₂ ∧ c₁.SameUpToTime c₂ ∧
          receiveFrame lib m cid c rawText now clock ref = (m.setContext cid c₁, outcome) ∧
          receiveFrame lib m' cid c rawText now clock' ref' = (m'.setContext cid c₂, outcome)) ∧
      ∀ (envelope : InboundEnvelope) (e e' : AuthError), ∃ responses c₁ outcome, c.OwnOnly c₁ ∧
        finishAuthentication m cid c envelope (.error e) = (m, responses) ∧
        finishAuthentication m' cid c envelope (.error e') = (m', responses) ∧
        respond m cid responses = (m.setContext cid c₁, outcome) ∧
        respond m' cid responses = (m'.setContext cid c₁, outcome) := by
  refine ⟨?_, ?_⟩
  · intro rawText now clock clock' ref ref'
    obtain ⟨c₁, c₂, outcome, h₁, h₂, hsame, hhandled⟩ :=
      receiveFrame_unauthenticated lib m.limits cid hauth rawText now clock clock'
    exact ⟨c₁, c₂, outcome, h₁, h₂, hsame, (hhandled m ref rfl hm).1,
      (hhandled m' ref' hlimits hm').2⟩
  · intro envelope e e'
    obtain ⟨c₁, outcome, h₁, hrefused⟩ := finishAuthentication_refused cid c envelope
    obtain ⟨hfinish, hrespond⟩ := hrefused m e hm
    obtain ⟨hfinish', hrespond'⟩ := hrefused m' e' hm'
    exact ⟨_, c₁, outcome, h₁, hfinish, hfinish', hrespond, hrespond'⟩

/-! ### Two servers that differ elsewhere -/

/-- A server to which one connection has come. -/
def aliceArrives : ConnectionManager :=
  (ConnectionManager.new {}).registered aliceId (provisionalId aliceId) 0

/-- The same server with a message waiting for `bob`. -/
def aliceArrivesLater : ConnectionManager :=
  (aliceArrives.enqueueOffline (py "bob") (errorMessage .internalProtocolError none)).1

/-- A token that is presented is handled alike by both, whatever it is refused for. -/
theorem unauthenticated_noninterference_alice :
    (∀ rawText now clock clock' ref ref', ∃ c₁ c₂ outcome,
        (freshContext {} aliceId (provisionalId aliceId) 0).OwnOnly c₁ ∧
          (freshContext {} aliceId (provisionalId aliceId) 0).OwnOnly c₂ ∧ c₁.SameUpToTime c₂ ∧
          receiveFrame sampleLibraries aliceArrives aliceId
              (freshContext {} aliceId (provisionalId aliceId) 0) rawText now clock ref =
            (aliceArrives.setContext aliceId c₁, outcome) ∧
          receiveFrame sampleLibraries aliceArrivesLater aliceId
              (freshContext {} aliceId (provisionalId aliceId) 0) rawText now clock' ref' =
            (aliceArrivesLater.setContext aliceId c₂, outcome)) ∧
      aliceArrives.offlineQueue.count (py "bob") = 0 ∧
      aliceArrivesLater.offlineQueue.count (py "bob") = 1 := by
  have harrived : aliceArrives.contexts aliceId =
      some (freshContext {} aliceId (provisionalId aliceId) 0) := by
    unfold aliceArrives
    rw [registered_contexts, if_pos rfl]
    rfl
  have hlater : aliceArrivesLater.contexts aliceId =
      some (freshContext {} aliceId (provisionalId aliceId) 0) := harrived
  have hlimits : aliceArrivesLater.limits = aliceArrives.limits := rfl
  exact ⟨(unauthenticated_noninterference sampleLibraries hlimits harrived hlater rfl).1,
    by decide +kernel, by decide +kernel⟩

end EncryptChat
