/-
**The authentication deadline, against the clock.**

The receive loop waits for a frame with a timer, and arms it again at every iteration: with the idle
timeout once the connection has an identity, with the authentication deadline before.  What is
advertised as a deadline therefore bounds one wait, and a connection without an identity that sends
a frame now and then is never closed by it.

The server is watched here together with the clock.  Time passes between the steps, but not beyond
the timer of the watched connection while its loop waits, and the steps that read the clock read it.

Main definitions:

* `EncryptChat.receiveTimeout` — the timer of an iteration;
* `EncryptChat.Watch`, `EncryptChat.watchedSystem` — **the server and the clock**, with the moments
  at which one connection was accepted and at which its timer was armed;
* `EncryptChat.WaitsAgain`, `EncryptChat.Rearms` — the step leaves the loop waiting again for a
  connection without an identity;
* `EncryptChat.Watch.OnTime` — no more than the deadline has passed since it was accepted;
* `EncryptChat.Watch.Prompt` — no frame makes it wait again later than that, and a resolution does
  not outlast the deadline.

Main results:

* `EncryptChat.receiveFrame_next_iff` — which frames make it wait again;
* `EncryptChat.Watch.loop_cases` — **what one step can do to the loop of the watched connection**;
* `EncryptChat.deadline_kept` — **the deadline is one in every run whose steps are prompt**;
* `EncryptChat.late_of_rearmed` — a timer armed again runs out too late.
-/

import EncryptChat.NoSilence
import EncryptChat.PeerIsolation
import Mathlib.Tactic.Linarith

set_option relaxedAutoImplicit false
set_option autoImplicit false

namespace EncryptChat

open Python Transition ConnectionManager

/-! ### The frames that make the loop wait again -/

/-- The frame is an `auth.authenticate` of which `_authenticate_connection` gets a token to
resolve. -/
def PresentsToken (lib : Libraries) (c : ConnectionContext) (rawText : PyStr) : Prop :=
  ∃ envelope errors rawToken, validateInbound lib c rawText = .ok (some envelope, errors) ∧
    envelope.type = .authAuthenticate ∧ beginAuthentication c envelope = .ok rawToken

/-- **The loop waits again** after a frame of a connection without an identity: it is too large or
comes too fast; or it is handled without an exception, presents no token, and there is room for the
answer. -/
def WaitsAgain (lib : Libraries) (m : ConnectionManager) (c : ConnectionContext) (rawText : PyStr)
    (now : ℚ) : Prop :=
  RefusedEarly m c rawText now ∨
    Admitted m c rawText now ∧ c.HasRoom ∧
      (∃ verdict, validateInbound lib c rawText = .ok verdict) ∧ ¬ PresentsToken lib c rawText

section Frame

variable {lib : Libraries} {m : ConnectionManager} {cid : ConnId} {c : ConnectionContext}
  {rawText : PyStr} {now : ℚ} {clock : Datetime} {ref : ℕ}

/-- One response is taken where there is room. -/
theorem respond_single_next_iff (hc : m.contexts cid = some c) (message : OutboundMessage) :
    (respond m cid [message]).2 = .next ↔ c.HasRoom := by
  rw [respond_of_eq hc, ConnectionContext.enqueueResponses_singleton]
  by_cases hroom : c.HasRoom
  · obtain ⟨q, heq, -, -⟩ := ConnectionContext.enqueueOutbound_of_hasRoom hroom message
    simp [heq, hroom]
  · simp [ConnectionContext.enqueueOutbound_of_not_hasRoom hroom, hroom]

/-- The second thoughts of `_authenticate_connection` before its await are one message. -/
theorem beginAuthentication_error {envelope : InboundEnvelope} {responses : List OutboundMessage}
    (h : beginAuthentication c envelope = .error responses) : ∃ message, responses = [message] := by
  unfold beginAuthentication at h
  split_ifs at h
  · cases h
    exact ⟨_, rfl⟩
  · split at h
    · split_ifs at h
      cases h
      exact ⟨_, rfl⟩
    · cases h
      exact ⟨_, rfl⟩

/-- A frame that is handled, of a connection without an identity. -/
theorem handleFrame_next_iff (hc : m.contexts cid = some c) {c₀ : ConnectionContext}
    (hauth : c₀.authenticated = false) :
    (handleFrame lib m cid c₀ rawText clock ref).2 = .next ↔
      c.HasRoom ∧ (∃ verdict, validateInbound lib c₀ rawText = .ok verdict) ∧
        ¬ PresentsToken lib c₀ rawText := by
  unfold handleFrame
  cases hvalid : validateInbound lib c₀ rawText with
  | error e => simp
  | ok verdict =>
      obtain ⟨_ | envelope, errors⟩ := verdict
      · obtain ⟨code, id, rfl⟩ := validateInbound_eq_none hvalid
        have hno : ¬ PresentsToken lib c₀ rawText := by
          rintro ⟨envelope, errors, rawToken, heq, -⟩
          rw [hvalid] at heq
          simp at heq
        simp only [respond_single_next_iff hc, hno, not_false_eq_true, and_true]
        exact ⟨fun hroom => ⟨hroom, _, rfl⟩, fun h => h.1⟩
      · have hiff : PresentsToken lib c₀ rawText ↔ envelope.type = .authAuthenticate ∧
            ∃ rawToken, beginAuthentication c₀ envelope = .ok rawToken := by
          constructor
          · rintro ⟨envelope', errors', rawToken, heq, htype, hbegin⟩
            rw [hvalid] at heq
            cases heq
            exact ⟨htype, rawToken, hbegin⟩
          · rintro ⟨htype, rawToken, hbegin⟩
            exact ⟨envelope, errors, rawToken, hvalid, htype, hbegin⟩
        rw [hiff]
        rcases type_of_unauthenticated hvalid hauth with htype | htype
        · cases hbegin : beginAuthentication c₀ envelope with
          | error responses =>
              obtain ⟨message, rfl⟩ := beginAuthentication_error hbegin
              simp [dispatch, htype, hbegin, respond_single_next_iff hc]
          | ok rawToken => simp [dispatch, htype, hbegin]
        · simp [dispatch, htype, respond_single_next_iff hc]

/-- **Which frames make the loop wait again.** -/
theorem receiveFrame_next_iff (hc : m.contexts cid = some c) (hauth : c.authenticated = false) :
    (receiveFrame lib m cid c rawText now clock ref).2 = .next ↔
      WaitsAgain lib m c rawText now := by
  rcases admitted_or m c rawText now with hadmitted | ⟨size, hlength, hrefused⟩ | ⟨e, hlength⟩
  · have hcounted : (m.counted cid now).contexts cid = some ((c.touch now).allow now).1 :=
      counted_contexts hc
    rw [receiveFrame_of_admitted lib hadmitted, handleFrame_next_iff hcounted hauth]
    constructor
    · exact fun h => .inr ⟨hadmitted, h⟩
    · rintro (hearly | h)
      · exact absurd hearly (not_refusedEarly_of_admitted hadmitted)
      · exact h.2
  · refine ⟨fun _ => .inl ⟨size, hlength, hrefused⟩, fun _ => ?_⟩
    by_cases hlarge : m.limits.maxMessageBytes < size
    · rw [receiveFrame_of_tooLarge hlength hlarge]
    · rw [receiveFrame_of_rateLimited hlength hlarge (hrefused.resolve_left hlarge)]
  · constructor
    · intro h
      simp [receiveFrame, hlength] at h
    · rintro (⟨size, hlength', -⟩ | ⟨⟨hsize, -⟩, -⟩)
      · rw [hlength] at hlength'
        cases hlength'
      · simp [hlength, Except.toOption] at hsize

end Frame

/-! ### The server and the clock -/

/-- The timer of an iteration: the idle timeout of a connection with an identity, the authentication
deadline of one without. -/
def receiveTimeout (limits : TransportLimits) (c : ConnectionContext) : ℚ :=
  if c.authenticated then limits.idleTimeoutSeconds else limits.unauthenticatedTimeoutSeconds

/-- The server, the clock, and two moments of the watched connection. -/
structure Watch where
  server : ServerState
  /-- `time.monotonic()`. -/
  clock : ℚ
  /-- When `websocket.accept()` returned. -/
  acceptedAt : Option ℚ := none
  /-- When the loop last began to wait. -/
  armedAt : ℚ := 0

/-- Time passes, or the server takes a step. -/
inductive WatchAction where
  | pass (seconds : ℚ)
  | act (action : ServerAction)

/-- The time a step reads off the clock, if it reads one. -/
def ServerAction.now? : ServerAction → Option ℚ
  | .connect _ _ _ now => some now
  | .act _ (.frame _ now _) => some now
  | .act _ (.frameRaises now _) => some now
  | .act _ _ => none

/-- The loop waits for a frame. -/
def Handler.waits (hd : Handler) : Bool :=
  match hd.phase with
  | .receiving => true
  | _ => false

/-- The loop handles a frame whose token is being resolved. -/
def Handler.resolves (hd : Handler) : Bool :=
  match hd.phase with
  | .authenticating _ _ => true
  | _ => false

namespace Watch

/-- Before any connection. -/
def new (limits : TransportLimits) (start : ℚ) : Watch where
  server := .new limits
  clock := start

/-- When the timer of the watched connection runs out, if it runs. -/
def timer? (s : Watch) (cid : ConnId) : Option ℚ :=
  match s.server.handlers cid, s.server.manager.contexts cid with
  | some hd, some c =>
      if hd.waits then some (s.armedAt + receiveTimeout s.server.manager.limits c) else none
  | _, _ => none

/-- A step of the watched connection sets its moments. -/
def stamp (s : Watch) : HandlerAction → Watch
  | .accepted none => { s with acceptedAt := some s.clock, armedAt := s.clock }
  | .frame _ _ _ => { s with armedAt := s.clock }
  | .resolved _ => { s with armedAt := s.clock }
  | _ => s

/-- The moments after a step of the server. -/
def stamped (s : Watch) (cid : ConnId) : ServerAction → Watch
  | .connect _ _ _ _ => s
  | .act cid' a => if cid' = cid then s.stamp a else s

/-- The timer of the watched connection only raises when it runs out. -/
def TimerRaises (s : Watch) (cid : ConnId) : ServerAction → Prop
  | .act cid' (.receiveRaises .timeoutError) => cid' = cid → ∀ t ∈ s.timer? cid, s.clock = t
  | _ => True

instance decidableTimerRaises (s : Watch) (cid : ConnId) (a : ServerAction) :
    Decidable (s.TimerRaises cid a) := by
  unfold TimerRaises
  split <;> infer_instance

/-- One step: time that passes stops where the timer runs out. -/
def step (lib : Libraries) (cid : ConnId) (s : Watch) : WatchAction → Option Watch
  | .pass seconds =>
      if 0 ≤ seconds ∧ ∀ t ∈ s.timer? cid, s.clock + seconds ≤ t then
        some { s with clock := s.clock + seconds }
      else none
  | .act a =>
      if (∀ t ∈ a.now?, t = s.clock) ∧ s.TimerRaises cid a then
        (s.server.step lib a).map fun server => { s.stamped cid a with server := server }
      else none

end Watch

/-- **The server and the clock**, with an eye on one connection. -/
def watchedSystem (lib : Libraries) (limits : TransportLimits) (cid : ConnId) :
    Transition.System Watch WatchAction where
  init := fun s => ∃ start, s = .new limits start
  step := Watch.step lib cid

/-! ### The loop of one connection -/

/-- **What a step of a connection that ends in its loop is.** -/
inductive LoopEffect (lib : Libraries) (m : ConnectionManager) (c c' : ConnectionContext)
    (hd hd' : Handler) : HandlerAction → Prop
  | writer {a : HandlerAction} (phase : hd'.phase = hd.phase)
      (auth : c'.authenticated = c.authenticated) (stamp : ∀ s : Watch, s.stamp a = s) :
      LoopEffect lib m c c' hd hd' a
  | accepted (waits' : hd'.waits = true) : LoopEffect lib m c c' hd hd' (.accepted none)
  | answered {rawText : PyStr} {now : ℚ} {clock : Datetime} (waits : hd.waits = true)
      (waits' : hd'.waits = true) (auth : c'.authenticated = c.authenticated)
      (again : c.authenticated = false → WaitsAgain lib m c rawText now) :
      LoopEffect lib m c c' hd hd' (.frame rawText now clock)
  | presented {rawText : PyStr} {now : ℚ} {clock : Datetime} (waits : hd.waits = true)
      (resolves' : hd'.resolves = true) (unauthenticated : c.authenticated = false) :
      LoopEffect lib m c c' hd hd' (.frame rawText now clock)
  | refused {e : AuthError} (resolves : hd.resolves = true) (waits' : hd'.waits = true)
      (room : c.HasRoom) : LoopEffect lib m c c' hd hd' (.resolved (.error e))
  | bound {identity : AuthenticatedIdentity} (waits' : hd'.waits = true)
      (auth : c'.authenticated = true) : LoopEffect lib m c c' hd hd' (.resolved (.ok identity))

section Effect

variable {lib : Libraries} {m : ConnectionManager} {ref : ℕ} {cid : ConnId} {hd : Handler}
  {c c' : ConnectionContext}

/-- A handler in its `finally` block has left the loop. -/
theorem not_inLoop_enterFinally {m₁ : ConnectionManager} {code : ℕ} {raised : Option PyError} :
    ¬ ((enterFinally m₁ cid hd code raised).2.waits = true ∨
      (enterFinally m₁ cid hd code raised).2.resolves = true) := by
  simp [enterFinally, Handler.waits, Handler.resolves]

/-- Where the loop goes on after an iteration, it waits for a frame or for a token. -/
theorem inLoop_continueLoop {outcome : ConnectionManager × Iteration}
    (h : (continueLoop cid hd outcome).2.waits = true ∨
      (continueLoop cid hd outcome).2.resolves = true) :
    (continueLoop cid hd outcome).1 = outcome.1 ∧
      (outcome.2 = .next ∧ (continueLoop cid hd outcome).2.waits = true ∨
        (∃ envelope rawToken, outcome.2 = .resolve envelope rawToken) ∧
          (continueLoop cid hd outcome).2.resolves = true) := by
  unfold continueLoop at h ⊢
  split at h
  · rename_i hnext
    exact ⟨rfl, .inl ⟨hnext, rfl⟩⟩
  · rename_i envelope rawToken hresolve
    exact ⟨rfl, .inr ⟨⟨envelope, rawToken, hresolve⟩, rfl⟩⟩
  · exact absurd h not_inLoop_enterFinally
  · exact absurd h not_inLoop_enterFinally

/-- The writer of a connection does not touch its loop. -/
theorem waits_of_phase {hd' : Handler} (h : hd'.phase = hd.phase) : hd'.waits = hd.waits := by
  unfold Handler.waits
  rw [h]

theorem resolves_of_phase {hd' : Handler} (h : hd'.phase = hd.phase) :
    hd'.resolves = hd.resolves := by
  unfold Handler.resolves
  rw [h]

/-- A handler stands at one await. -/
theorem resolves_of_waits (h : hd.waits = true) : hd.resolves = false := by
  unfold Handler.waits at h
  unfold Handler.resolves
  split at h
  · rename_i hphase
    rw [hphase]
  · cases h

theorem exists_of_resolves (h : hd.resolves = true) :
    ∃ envelope rawToken, hd.phase = .authenticating envelope rawToken := by
  unfold Handler.resolves at h
  split at h
  · rename_i envelope rawToken hphase
    exact ⟨envelope, rawToken, hphase⟩
  · cases h

/-- A resolved token leaves the loop, or leaves it waiting: after a refusal there was room for the
answer, and after a success the connection has an identity. -/
theorem loopEffect_resolved (hc : m.contexts cid = some c) {envelope : InboundEnvelope}
    (hresolves : hd.resolves = true) (result : Except AuthError AuthenticatedIdentity)
    (hc' : (resolvedStep m cid c envelope hd result).1.contexts cid = some c')
    (hloop : (resolvedStep m cid c envelope hd result).2.waits = true ∨
      (resolvedStep m cid c envelope hd result).2.resolves = true) :
    LoopEffect lib m c c' hd (resolvedStep m cid c envelope hd result).2 (.resolved result) := by
  obtain ⟨hmanager, ⟨hnext, hwaits⟩ | ⟨⟨_, _, hresolve⟩, -⟩⟩ := inLoop_continueLoop hloop
  · cases result with
    | error e =>
        refine .refused hresolves hwaits ?_
        exact (respond_single_next_iff hc _).1 hnext
    | ok identity =>
        refine .bound hwaits ?_
        have hbound : (finishAuthentication m cid c envelope (.ok identity)).1.contexts cid =
            some (c.authenticate identity) := by
          simp [finishAuthentication, drainOffline, bindIdentity_contexts]
        have hmoved := (@reaches_respond (fun _ => True)
          (finishAuthentication m cid c envelope (.ok identity)).1 cid
          (finishAuthentication m cid c envelope (.ok identity)).2
          fun _ _ => trivial).untouched_of_quiet cid
        obtain ⟨c₁, hc₁, hsame, -⟩ := hmoved.present _ hbound
        have heq : some c' = some c₁ :=
          hc'.symm.trans ((congrArg (·.contexts cid) hmanager).trans hc₁)
        cases heq
        exact hsame.authenticated
  · exact absurd hresolve (respond_ne_resolve _ _ _ _ _)

/-- **A step that ends in the loop is one of them.** -/
theorem loopEffect {a : HandlerAction} {outcome : ConnectionManager × Handler}
    (hc : m.contexts cid = some c) (h : HandlerEffect lib m ref cid hd a outcome)
    (hc' : outcome.1.contexts cid = some c')
    (hloop : outcome.2.waits = true ∨ outcome.2.resolves = true) :
    LoopEffect lib m c c' hd outcome.2 a := by
  cases h with
  | accepted hphase e =>
      cases e with
      | none => exact .accepted rfl
      | some e => simp [acceptStep, Handler.raise, Handler.waits, Handler.resolves] at hloop
  | @frame context hphase hctx rawText now clock =>
      rw [hc] at hctx
      cases hctx
      have hwaits : hd.waits = true := by
        unfold Handler.waits
        rw [hphase]
      obtain ⟨hmanager, ⟨hnext, hwaits'⟩ | ⟨⟨_, _, hresolve⟩, hresolves'⟩⟩ :=
        inLoop_continueLoop hloop
      -- only a binding changes who is authenticated, and a frame does not bind
      · have hmoved := (reaches_receiveFrame (P := fun _ => True) lib m cid c rawText now clock ref
          (fun _ _ => trivial) fun _ _ _ _ => trivial).untouched_of_quiet cid
        obtain ⟨c₁, hc₁, hsame, -⟩ := hmoved.present c hc
        have heq : some c' = some c₁ :=
          hc'.symm.trans ((congrArg (·.contexts cid) hmanager).trans hc₁)
        cases heq
        exact .answered hwaits hwaits' hsame.authenticated fun hauth =>
          (receiveFrame_next_iff hc hauth).1 hnext
      · exact .presented hwaits hresolves' (unauthenticated_of_receiveFrame hresolve)
  | frameRaises => exact absurd hloop not_inLoop_enterFinally
  | @receiveRaises context hphase hctx e =>
      obtain ⟨m', code, raised, heq, -⟩ := receiveRaisesStep_eq m cid context hd e
      rw [heq] at hloop
      exact absurd hloop not_inLoop_enterFinally
  | @resolved context envelope rawToken hphase hctx result =>
      rw [hc] at hctx
      cases hctx
      refine loopEffect_resolved hc ?_ result hc' hloop
      unfold Handler.resolves
      rw [hphase]
  | resolveRaises => exact absurd hloop not_inLoop_enterFinally
  | flushed hphase e =>
      unfold flushStep at hloop
      split at hloop <;> simp [Handler.raise, Handler.waits, Handler.resolves] at hloop
  | writerEnded | writerAwaitCancelled =>
      -- these leave the loop
      simp [unregisterStep, Handler.waits, Handler.resolves] at hloop
  | writerFailed => simp [Handler.raise, Handler.waits, Handler.resolves] at hloop
  | closed hphase e =>
      obtain ⟨raised, heq⟩ := closeStep_eq hd e
      rw [heq] at hloop
      simp [Handler.waits, Handler.resolves] at hloop
  | writerGets message =>
      have hmoved : Untouched m (m.modifyContext cid ConnectionContext.takeOutbound) cid :=
        (Reaches.single (K := fun op => op = .takeOutbound cid) _ rfl rfl).untouched
          (by rintro _ rfl; exact id)
      obtain ⟨c₁, hc₁, hsame, -⟩ := hmoved.present c hc
      rw [hc'] at hc₁
      cases hc₁
      exact .writer rfl hsame.authenticated fun _ => rfl
  | @writerSends context hctx e =>
      have hmoved : Untouched m (sendStep m cid hd context e).1 cid :=
        (reaches_sendStep hd context e).untouched (by rintro _ rfl; exact id)
      obtain ⟨c₁, hc₁, hsame, -⟩ := hmoved.present c hc
      rw [hc'] at hc₁
      cases hc₁
      refine .writer ?_ hsame.authenticated fun _ => rfl
      obtain ⟨m', writer, heq, -⟩ := sendStep_eq m cid hd context e
      rw [heq]
  | writerCancelled =>
      rw [hc] at hc'
      cases hc'
      exact .writer rfl rfl fun _ => rfl

end Effect

/-! ### The deadline -/

/-- The step makes the loop wait again for a connection without an identity: a frame it answers, or
a token that is refused and finds room for the answer. -/
def Rearms (lib : Libraries) (m : ConnectionManager) (c : ConnectionContext) :
    HandlerAction → Prop
  | .frame rawText now _ => WaitsAgain lib m c rawText now
  | .resolved (.error _) => c.HasRoom
  | _ => False

namespace Watch

/-- The handler of the watched connection, its context, and that it is in the receive loop. -/
structure InLoop (s : Watch) (cid : ConnId) (hd : Handler) (c : ConnectionContext) : Prop where
  handler : s.server.handlers cid = some hd
  context : s.server.manager.contexts cid = some c
  inLoop : hd.waits = true ∨ hd.resolves = true

/-- **While the loop handles a frame or waits for one, without an identity, no more than the
advertised deadline has passed since the connection was accepted.** -/
def OnTime (s : Watch) (cid : ConnId) : Prop :=
  ∀ hd c, s.InLoop cid hd c → c.authenticated = false →
    ∃ accepted, s.acceptedAt = some accepted ∧
      s.clock ≤ accepted + s.server.manager.limits.unauthenticatedTimeoutSeconds

/-- **The step is prompt**: it does not make the loop wait again later than at the moment of the
acceptance, and time does not pass beyond the deadline while a token is being resolved. -/
def Prompt (lib : Libraries) (cid : ConnId) (s : Watch) : WatchAction → Prop
  | .pass seconds => ∀ hd c accepted, s.InLoop cid hd c → hd.resolves = true →
      s.acceptedAt = some accepted →
      s.clock + seconds ≤ accepted + s.server.manager.limits.unauthenticatedTimeoutSeconds
  | .act (.act cid' a) => ∀ hd c accepted, cid' = cid → s.InLoop cid hd c →
      c.authenticated = false → Rearms lib s.server.manager c a →
      s.acceptedAt = some accepted → s.clock ≤ accepted
  | .act (.connect _ _ _ _) => True

variable {lib : Libraries} {limits : TransportLimits} {cid : ConnId} {s s' : Watch}

theorem step_pass {seconds : ℚ} (h : s.step lib cid (.pass seconds) = some s') :
    0 ≤ seconds ∧ (∀ t ∈ s.timer? cid, s.clock + seconds ≤ t) ∧
      s' = { s with clock := s.clock + seconds } := by
  simp only [step] at h
  split_ifs at h with hpass
  cases h
  exact ⟨hpass.1, hpass.2, rfl⟩

theorem step_act {a : ServerAction} (h : s.step lib cid (.act a) = some s') :
    s.server.step lib a = some s'.server ∧
      s' = { s.stamped cid a with server := s'.server } := by
  simp only [step] at h
  split_ifs at h
  rw [Option.map_eq_some_iff] at h
  obtain ⟨server, hserver, rfl⟩ := h
  exact ⟨hserver, rfl⟩

@[simp] theorem stamp_clock (s : Watch) (a : HandlerAction) : (s.stamp a).clock = s.clock := by
  unfold stamp
  split <;> rfl

@[simp] theorem stamped_clock (s : Watch) (cid : ConnId) (a : ServerAction) :
    (s.stamped cid a).clock = s.clock := by
  cases a with
  | connect => rfl
  | act cid' a =>
      unfold stamped
      dsimp only
      split_ifs
      · exact stamp_clock s a
      · rfl

/-- **What one step can do to the loop of the watched connection**: when it is in its loop after the
step, it was as it is and its moments are as they were; or the step is its own. -/
theorem loop_cases (hinv : s.server.Inv limits) {a : ServerAction}
    (h : s.step lib cid (.act a) = some s') {hd' : Handler} {c' : ConnectionContext}
    (hloop : s'.InLoop cid hd' c') :
    (∃ c, s.InLoop cid hd' c ∧ c'.authenticated = c.authenticated ∧
        s'.acceptedAt = s.acceptedAt ∧ s'.armedAt = s.armedAt) ∨
      ∃ a' hd c, a = .act cid a' ∧ s.server.handlers cid = some hd ∧
        s.server.manager.contexts cid = some c ∧
        LoopEffect lib s.server.manager c c' hd hd' a' ∧
        s'.acceptedAt = (s.stamp a').acceptedAt ∧ s'.armedAt = (s.stamp a').armedAt := by
  obtain ⟨hserver, hs'⟩ := step_act h
  have hmoments : s'.acceptedAt = (s.stamped cid a).acceptedAt ∧
      s'.armedAt = (s.stamped cid a).armedAt := by
    rw [hs']
    exact ⟨rfl, rfl⟩
  have hinv' := hinv.step hserver
  cases a with
  | connect cid' hex origin now =>
      obtain ⟨hnone, ⟨hm, hh⟩ | ⟨happ, -, -, hh⟩⟩ := ServerState.step_connect hserver
      · refine .inl ⟨c', ⟨?_, ?_, hloop.inLoop⟩, rfl, hmoments⟩
        · rw [← hh]
          exact hloop.handler
        · rw [← hm]
          exact hloop.context
      · have hhd' := hloop.handler
        rw [hh] at hhd'
        by_cases hcid : cid = cid'
        · -- it awaits the upgrade
          subst hcid
          rw [Function.update_self, Option.some.injEq] at hhd'
          have hno := hloop.inLoop
          rw [← hhd'] at hno
          simp [Handler.waits, Handler.resolves] at hno
        · rw [Function.update_of_ne hcid] at hhd'
          have hmoved := untouched_of_effect (ManagerOp.effect happ) fun heq => hcid heq.symm
          obtain ⟨c, hc⟩ := (hinv.handler cid hd' hhd').present
          obtain ⟨c₁, hc₁, hsame, -⟩ := hmoved.present c hc
          rw [hloop.context] at hc₁
          cases hc₁
          exact .inl ⟨c, ⟨hhd', hc, hloop.inLoop⟩, hsame.authenticated, hmoments⟩
  | act cid' a' =>
      by_cases hcid : cid' = cid
      · subst hcid
        obtain ⟨hd, outcome, hhd, heffect, hput⟩ := ServerState.step_act hserver
        obtain ⟨c, hc⟩ := (hinv.handler cid' hd hhd).present
        have hhd' := hloop.handler
        have hc' := hloop.context
        rw [hput] at hhd' hc'
        simp only [ServerState.put, Function.update_self, Option.some.injEq] at hhd' hc'
        subst hhd'
        refine .inr ⟨a', hd, c, rfl, hhd, hc, loopEffect hc heffect hc' hloop.inLoop, ?_⟩
        simpa [stamped] using hmoments
      · have hmoved : Untouched s.server.manager s'.server.manager cid :=
          (hinv.reaches_act hserver).untouched fun op hop htarget =>
            hcid (hop.targets htarget).symm
        obtain ⟨hd, outcome, hhd, heffect, hput⟩ := ServerState.step_act hserver
        have hhd' := hloop.handler
        rw [hput] at hhd'
        simp only [ServerState.put, Function.update_of_ne (Ne.symm hcid)] at hhd'
        obtain ⟨c, hc⟩ := (hinv.handler cid hd' hhd').present
        obtain ⟨c₁, hc₁, hsame, -⟩ := hmoved.present c hc
        rw [hloop.context] at hc₁
        cases hc₁
        refine .inl ⟨c, ⟨hhd', hc, hloop.inLoop⟩, hsame.authenticated, ?_⟩
        simpa [stamped, hcid] using hmoments

theorem timer?_of_waits {hd : Handler} {c : ConnectionContext} (h : s.InLoop cid hd c)
    (hwaits : hd.waits = true) :
    s.timer? cid = some (s.armedAt + receiveTimeout s.server.manager.limits c) := by
  simp only [timer?, h.handler, h.context, hwaits, if_true]

/-- **What prompt steps preserve**: without an identity, the loop waits since the acceptance, and
resolves a token before the deadline. -/
structure Punctual (limits : TransportLimits) (cid : ConnId) (s : Watch) : Prop where
  inv : s.server.Inv limits
  waits : ∀ hd c, s.InLoop cid hd c → hd.waits = true → c.authenticated = false →
    ∃ accepted, s.acceptedAt = some accepted ∧ s.armedAt ≤ accepted ∧
      s.clock ≤ s.armedAt + limits.unauthenticatedTimeoutSeconds
  resolves : ∀ hd c, s.InLoop cid hd c → hd.resolves = true →
    ∃ accepted, s.acceptedAt = some accepted ∧
      s.clock ≤ accepted + limits.unauthenticatedTimeoutSeconds

theorem punctual_new (limits : TransportLimits) (cid : ConnId) (start : ℚ) :
    Punctual limits cid (.new limits start) where
  inv := ServerState.inv_new limits
  waits := by
    rintro hd c ⟨hhd, -, -⟩
    cases hhd
  resolves := by
    rintro hd c ⟨hhd, -, -⟩
    cases hhd

/-- Time that passes stops where the timer runs out. -/
theorem Punctual.pass (h : Punctual limits cid s) {seconds : ℚ}
    (hprompt : s.Prompt lib cid (.pass seconds))
    (hstep : s.step lib cid (.pass seconds) = some s') : Punctual limits cid s' := by
  obtain ⟨-, htimer, rfl⟩ := step_pass hstep
  refine ⟨h.inv, fun hd c hloop hwaits hauth => ?_, fun hd c hloop hresolves => ?_⟩
  · have hloop' : s.InLoop cid hd c := ⟨hloop.handler, hloop.context, hloop.inLoop⟩
    obtain ⟨accepted, hacc, harmed, -⟩ := h.waits hd c hloop' hwaits hauth
    have hle := htimer _ (timer?_of_waits hloop' hwaits)
    rw [receiveTimeout, hauth, h.inv.limits_eq] at hle
    exact ⟨accepted, hacc, harmed, hle⟩
  · have hloop' : s.InLoop cid hd c := ⟨hloop.handler, hloop.context, hloop.inLoop⟩
    obtain ⟨accepted, hacc, -⟩ := h.resolves hd c hloop' hresolves
    have hle := hprompt hd c accepted hloop' hresolves hacc
    rw [h.inv.limits_eq] at hle
    exact ⟨accepted, hacc, hle⟩

/-- **A prompt step of the server.** -/
theorem Punctual.act (h : Punctual limits cid s) (hD : 0 ≤ limits.unauthenticatedTimeoutSeconds)
    {a : ServerAction} (hprompt : s.Prompt lib cid (.act a))
    (hstep : s.step lib cid (.act a) = some s') : Punctual limits cid s' := by
  have hclock : s'.clock = s.clock := by
    rw [(step_act hstep).2]
    exact stamped_clock s cid a
  have hnow : s.clock ≤ s.clock + limits.unauthenticatedTimeoutSeconds := by linarith
  have hinv' := h.inv.step (step_act hstep).1
  -- both fields, for a handler that is in its loop after the step
  suffices hboth : ∀ hd' c', s'.InLoop cid hd' c' →
      (hd'.waits = true → c'.authenticated = false →
        ∃ accepted, s'.acceptedAt = some accepted ∧ s'.armedAt ≤ accepted ∧
          s.clock ≤ s'.armedAt + limits.unauthenticatedTimeoutSeconds) ∧
      (hd'.resolves = true → ∃ accepted, s'.acceptedAt = some accepted ∧
        s.clock ≤ accepted + limits.unauthenticatedTimeoutSeconds) by
    refine ⟨hinv', fun hd' c' hloop => ?_, fun hd' c' hloop => ?_⟩
    · rw [hclock]
      exact (hboth hd' c' hloop).1
    · rw [hclock]
      exact (hboth hd' c' hloop).2
  intro hd' c' hloop
  rcases loop_cases h.inv hstep hloop with
    ⟨c, hloop', hauth, hacc, harmed⟩ | ⟨a', hd, c, rfl, hhd, hc, heffect, hacc, harmed⟩
  · rw [hacc, harmed, hauth]
    exact ⟨h.waits hd' c hloop', h.resolves hd' c hloop'⟩
  · rw [hacc, harmed]
    cases heffect with
    | writer hphase hauth hstamp =>
        have hwaits := waits_of_phase hphase
        have hresolves := resolves_of_phase hphase
        have hloop' : s.InLoop cid hd c :=
          ⟨hhd, hc, by rw [← hwaits, ← hresolves]; exact hloop.inLoop⟩
        rw [hstamp, hwaits, hresolves, hauth]
        exact ⟨h.waits hd c hloop', h.resolves hd c hloop'⟩
    | accepted hwaits' =>
        refine ⟨fun _ _ => ⟨s.clock, rfl, le_refl _, hnow⟩, fun hresolves' => ?_⟩
        rw [resolves_of_waits hwaits'] at hresolves'
        cases hresolves'
    | answered hwaits hwaits' hauth hagain =>
        have hloop' : s.InLoop cid hd c := ⟨hhd, hc, .inl hwaits⟩
        refine ⟨fun _ hun => ?_, fun hresolves' => ?_⟩
        · rw [hauth] at hun
          obtain ⟨accepted, haccepted, -, -⟩ := h.waits hd c hloop' hwaits hun
          have hle := hprompt hd c accepted rfl hloop' hun (hagain hun) haccepted
          exact ⟨accepted, haccepted, hle, hnow⟩
        · rw [resolves_of_waits hwaits'] at hresolves'
          cases hresolves'
    | presented hwaits hresolves' hun =>
        have hloop' : s.InLoop cid hd c := ⟨hhd, hc, .inl hwaits⟩
        refine ⟨fun hwaits' => ?_, fun _ => ?_⟩
        · rw [resolves_of_waits hwaits'] at hresolves'
          cases hresolves'
        · obtain ⟨accepted, haccepted, harmed', hle⟩ := h.waits hd c hloop' hwaits hun
          exact ⟨accepted, haccepted, by linarith⟩
    | refused hresolves hwaits' hroom =>
        have hloop' : s.InLoop cid hd c := ⟨hhd, hc, .inr hresolves⟩
        refine ⟨fun _ _ => ?_, fun hresolves' => ?_⟩
        · obtain ⟨envelope, rawToken, hphase⟩ := exists_of_resolves hresolves
          have hun := (h.inv.handler cid hd hhd).unauthenticated envelope rawToken hphase c hc
          obtain ⟨accepted, haccepted, -⟩ := h.resolves hd c hloop' hresolves
          have hle := hprompt hd c accepted rfl hloop' hun hroom haccepted
          exact ⟨accepted, haccepted, hle, hnow⟩
        · rw [resolves_of_waits hwaits'] at hresolves'
          cases hresolves'
    | bound hwaits' hauth =>
        refine ⟨fun _ hun => ?_, fun hresolves' => ?_⟩
        · rw [hauth] at hun
          cases hun
        · rw [resolves_of_waits hwaits'] at hresolves'
          cases hresolves'

/-- What is punctual is on time. -/
theorem Punctual.onTime (h : Punctual limits cid s) : s.OnTime cid := by
  intro hd c hloop hauth
  rw [h.inv.limits_eq]
  rcases hloop.inLoop with hwaits | hresolves
  · obtain ⟨accepted, hacc, harmed, hle⟩ := h.waits hd c hloop hwaits hauth
    exact ⟨accepted, hacc, by linarith⟩
  · exact h.resolves hd c hloop hresolves

end Watch

/-- **The deadline is one, in every run whose steps are prompt**: arbitrary frames of the watched
connection at arbitrary times, between arbitrary steps of the others. -/
theorem deadline_kept {lib : Libraries} {limits : TransportLimits} {cid : ConnId} {start : ℚ}
    {s : Watch} {tr : List (Watch × WatchAction)} (hD : 0 ≤ limits.unauthenticatedTimeoutSeconds)
    (hrun : (watchedSystem lib limits cid).Run (.new limits start) tr s)
    (hprompt : ∀ e ∈ tr, e.1.Prompt lib cid e.2) : s.OnTime cid := by
  have hpunctual : s.Punctual limits cid := by
    refine hrun.invariant_of ?_ hprompt (Watch.punctual_new limits cid start)
    intro u a v hu hC hstep
    cases a with
    | pass seconds => exact hu.pass hC hstep
    | act a => exact hu.act hD hC hstep
  exact hpunctual.onTime

/-- A step that is prompt because nothing is sent later than at the acceptance, and nothing is being
resolved. -/
def Watch.promptly (cid : ConnId) (e : Watch × WatchAction) : Bool :=
  match e.2 with
  | .pass _ => (e.1.server.handlers cid).all fun hd => !hd.resolves
  | .act _ => e.1.acceptedAt.all fun accepted => decide (e.1.clock ≤ accepted)

theorem Watch.prompt_of_promptly {lib : Libraries} {cid : ConnId} {e : Watch × WatchAction}
    (h : Watch.promptly cid e = true) : e.1.Prompt lib cid e.2 := by
  obtain ⟨s, a⟩ := e
  cases a with
  | pass seconds =>
      simp only [promptly, Option.all_eq_true, Bool.not_eq_true'] at h
      intro hd c accepted hloop hresolves
      rw [h hd hloop.handler] at hresolves
      cases hresolves
  | act a =>
      simp only [promptly, Option.all_eq_true, decide_eq_true_eq] at h
      cases a with
      | connect => trivial
      | act cid' a => exact fun _ _ accepted _ _ _ _ hacc => h accepted hacc

/-- `alice` connects, sends something that is no JSON at once, and waits. -/
def aliceWaits : List WatchAction :=
  [.act (.connect aliceId aliceId none 0), .act (.act aliceId (.accepted none)),
    .act (.act aliceId (.frame (py "hello") 0 (.utc 0))), .pass 15]

/-- Fifteen seconds without an identity, under a deadline of fifteen. -/
theorem deadline_kept_alice :
    ∃ tr s, (watchedSystem sampleLibraries {} aliceId).Run (.new {} 0) tr s ∧ s.clock = 15 ∧
      s.OnTime aliceId := by
  have hexec : ((watchedSystem sampleLibraries {} aliceId).exec (.new {} 0) aliceWaits).map
      (fun s => decide (s.clock = 15) && ((watchedSystem sampleLibraries {} aliceId).traceOf
        (.new {} 0) aliceWaits).all (Watch.promptly aliceId)) = some true := by
    decide +kernel
  obtain ⟨s, -, hrun, hp⟩ := System.exists_run_of_exec hexec
  rw [Bool.and_eq_true, decide_eq_true_eq, List.all_eq_true] at hp
  exact ⟨_, s, hrun, hp.1, deadline_kept (by decide +kernel) hrun fun e he =>
    Watch.prompt_of_promptly (hp.2 e he)⟩

/-! ### A frame now and then -/

/-- **The timer of a wait without an identity** is never overrun, in any run. -/
theorem clock_le_timer {lib : Libraries} {limits : TransportLimits} {cid : ConnId} {start : ℚ}
    {s : Watch} {tr : List (Watch × WatchAction)} (hD : 0 ≤ limits.unauthenticatedTimeoutSeconds)
    (hrun : (watchedSystem lib limits cid).Run (.new limits start) tr s) :
    s.server.Inv limits ∧ ∀ hd c, s.InLoop cid hd c → hd.waits = true → c.authenticated = false →
      s.clock ≤ s.armedAt + limits.unauthenticatedTimeoutSeconds := by
  refine hrun.invariant (P := fun s => s.server.Inv limits ∧ ∀ hd c, s.InLoop cid hd c →
    hd.waits = true → c.authenticated = false →
      s.clock ≤ s.armedAt + limits.unauthenticatedTimeoutSeconds) ?_
    ⟨ServerState.inv_new limits, fun hd c h => ?_⟩
  · rintro u a v ⟨hinv, hu⟩ hrunstep
    have hstep : u.step lib cid a = some v := hrunstep
    cases a with
    | pass seconds =>
        obtain ⟨-, htimer, rfl⟩ := Watch.step_pass hstep
        refine ⟨hinv, fun hd c hloop hwaits hauth => ?_⟩
        have hloop' : u.InLoop cid hd c := ⟨hloop.handler, hloop.context, hloop.inLoop⟩
        have hle := htimer _ (Watch.timer?_of_waits hloop' hwaits)
        rw [receiveTimeout, hauth, hinv.limits_eq] at hle
        exact hle
    | act a =>
        have hclock : v.clock = u.clock := by
          rw [(Watch.step_act hstep).2]
          exact Watch.stamped_clock u cid a
        have hnow : u.clock ≤ u.clock + limits.unauthenticatedTimeoutSeconds := by linarith
        refine ⟨hinv.step (Watch.step_act hstep).1, fun hd' c' hloop hwaits' hauth' => ?_⟩
        rw [hclock]
        rcases Watch.loop_cases hinv hstep hloop with
          ⟨c, hloop', hauth, -, harmed⟩ | ⟨a', hd, c, rfl, hhd, hc, heffect, -, harmed⟩
        · rw [harmed]
          exact hu hd' c hloop' hwaits' (hauth ▸ hauth')
        · rw [harmed]
          -- what the coroutine does arms the timer now; what its writer does leaves it as it is
          cases heffect with
          | writer hphase hauth hstamp =>
              have hwaits : hd.waits = true := waits_of_phase hphase ▸ hwaits'
              rw [hstamp]
              exact hu hd c ⟨hhd, hc, .inl hwaits⟩ hwaits (hauth ▸ hauth')
          | accepted | answered | presented | refused | bound => exact hnow
  · cases h.handler

/-- **A timer that was armed again runs out too late**: nothing but time has to pass. -/
theorem late_of_rearmed {lib : Libraries} {limits : TransportLimits} {cid : ConnId} {start : ℚ}
    {s : Watch} {tr : List (Watch × WatchAction)} (hD : 0 ≤ limits.unauthenticatedTimeoutSeconds)
    (hrun : (watchedSystem lib limits cid).Run (.new limits start) tr s) {hd : Handler}
    {c : ConnectionContext} (hloop : s.InLoop cid hd c) (hwaits : hd.waits = true)
    (hauth : c.authenticated = false) {accepted : ℚ} (hacc : s.acceptedAt = some accepted)
    (hlate : accepted < s.armedAt) :
    ∃ seconds s', s.step lib cid (.pass seconds) = some s' ∧ ¬ s'.OnTime cid := by
  obtain ⟨hinv, htimer⟩ := clock_le_timer hD hrun
  have hle := htimer hd c hloop hwaits hauth
  have htimeout : s.timer? cid = some (s.armedAt + limits.unauthenticatedTimeoutSeconds) := by
    rw [Watch.timer?_of_waits hloop hwaits, receiveTimeout, hauth, hinv.limits_eq]
    rfl
  let seconds := s.armedAt + limits.unauthenticatedTimeoutSeconds - s.clock
  have hpasses : 0 ≤ seconds ∧ ∀ t ∈ s.timer? cid, s.clock + seconds ≤ t := by
    refine ⟨by linarith, fun t ht => ?_⟩
    rw [htimeout, Option.mem_some_iff] at ht
    linarith
  refine ⟨seconds, { s with clock := s.clock + seconds }, if_pos hpasses, fun hontime => ?_⟩
  obtain ⟨accepted', hacc', hle'⟩ := hontime hd c ⟨hloop.handler, hloop.context, hloop.inLoop⟩ hauth
  rw [hacc, Option.some.injEq] at hacc'
  simp only [hinv.limits_eq] at hle'
  linarith

/-- The loop is late, computed. -/
def Watch.late (s : Watch) (cid : ConnId) : Bool :=
  (s.server.handlers cid).any fun hd => (s.server.manager.contexts cid).any fun c =>
    (hd.waits || hd.resolves) && !c.authenticated && s.acceptedAt.all fun accepted =>
      decide (accepted + s.server.manager.limits.unauthenticatedTimeoutSeconds < s.clock)

theorem Watch.not_onTime_of_late {s : Watch} {cid : ConnId} (h : s.late cid = true) :
    ¬ s.OnTime cid := by
  simp only [late, Option.any_eq_true, Bool.and_eq_true, Bool.or_eq_true, Bool.not_eq_true',
    Option.all_eq_true, decide_eq_true_eq] at h
  obtain ⟨hd, hhd, c, hc, ⟨hloop, hauth⟩, hlate⟩ := h
  intro hontime
  obtain ⟨accepted, hacc, hle⟩ := hontime hd c ⟨hhd, hc, hloop⟩ hauth
  exact absurd hle (not_le_of_gt (hlate accepted hacc))

/-- `alice` connects, and sends something that is no JSON once in a while. -/
def aliceLingers : List WatchAction :=
  [.act (.connect aliceId aliceId none 0), .act (.act aliceId (.accepted none)), .pass 14,
    .act (.act aliceId (.frame (py "hello") 14 (.utc 0))), .pass 6]

/-- **Twenty seconds without an identity**, under a deadline of fifteen. -/
theorem deadline_passed :
    ∃ tr s, (watchedSystem sampleLibraries {} aliceId).Run (.new {} 0) tr s ∧
      ¬ s.OnTime aliceId := by
  have hexec : ((watchedSystem sampleLibraries {} aliceId).exec (.new {} 0) aliceLingers).map
      (fun s => s.late aliceId) = some true := by
    decide +kernel
  obtain ⟨s, -, hrun, hlate⟩ := System.exists_run_of_exec hexec
  exact ⟨_, s, hrun, Watch.not_onTime_of_late hlate⟩

end EncryptChat
