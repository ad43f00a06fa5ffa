/-
**Which operations a step of the server performs, and what its handlers know.**

A step of one connection changes the manager by operations about that connection and by quiet
operations; so a connection finds itself as it left it, however many others ran meanwhile.  What a
handler knows at each of its awaits is the invariant of this module, and it makes the identity bound
after an awaited token resolution a first binding.

Main definitions:

* `EncryptChat.HandlerEffect` — **the steps a connection can take**, each with what it needs;
* `EncryptChat.HandlerOps` — the operations a step of a connection may perform;
* `EncryptChat.HandlerInv` — what holds at the await a handler stands at;
* `EncryptChat.ServerState.Inv` — the invariant of the server.

Main results:

* `EncryptChat.handlerEffect` — an enabled step is one of them;
* `EncryptChat.reaches_handlerEffect` — a step performs operations of `HandlerOps` only;
* `EncryptChat.ServerState.Inv.step`, `EncryptChat.inv_of_run` — **the invariant holds along every
  run**;
* `EncryptChat.manager_reachable_of_run` — what holds of every manager that operations lead to holds
  of that of a server.
-/

import EncryptChat.EndpointFrame
import EncryptChat.Server

set_option relaxedAutoImplicit false
set_option autoImplicit false

namespace EncryptChat

open Python Transition ConnectionManager

/-! ### The steps of a connection -/

/-- **The steps a connection can take.** -/
inductive HandlerEffect (lib : Libraries) (m : ConnectionManager) (ref : ℕ) (cid : ConnId)
    (hd : Handler) : HandlerAction → ConnectionManager × Handler → Prop
  | accepted (phase : hd.phase = .accepting) (outcome : Option PyError) :
      HandlerEffect lib m ref cid hd (.accepted outcome) (acceptStep m cid hd outcome)
  | frame {context : ConnectionContext} (phase : hd.phase = .receiving)
      (present : m.contexts cid = some context) (rawText : PyStr) (now : ℚ) (clock : Datetime) :
      HandlerEffect lib m ref cid hd (.frame rawText now clock)
        (continueLoop cid hd (receiveFrame lib m cid context rawText now clock ref))
  | frameRaises (phase : hd.phase = .receiving) (now : ℚ) (e : PyError) :
      HandlerEffect lib m ref cid hd (.frameRaises now e)
        (enterFinally ((m.modifyContext cid fun c => c.touch now).modifyContext cid
          fun c => (c.allow now).1) cid hd WebSocketCloseCode.normal (some e))
  | receiveRaises {context : ConnectionContext} (phase : hd.phase = .receiving)
      (present : m.contexts cid = some context) (e : PyError) :
      HandlerEffect lib m ref cid hd (.receiveRaises e) (receiveRaisesStep m cid context hd e)
  | resolved {context : ConnectionContext} {envelope : InboundEnvelope} {rawToken : PyStr}
      (phase : hd.phase = .authenticating envelope rawToken)
      (present : m.contexts cid = some context)
      (result : Except AuthError AuthenticatedIdentity) :
      HandlerEffect lib m ref cid hd (.resolved result)
        (resolvedStep m cid context envelope hd result)
  | resolveRaises {envelope : InboundEnvelope} {rawToken : PyStr}
      (phase : hd.phase = .authenticating envelope rawToken) (e : PyError) :
      HandlerEffect lib m ref cid hd (.resolveRaises e)
        (enterFinally m cid hd WebSocketCloseCode.normal (some e))
  | flushed (phase : hd.phase = .flushing) (outcome : Option PyError) :
      HandlerEffect lib m ref cid hd (.flushed outcome) (m, flushStep hd outcome)
  | writerEnded (phase : hd.phase = .stoppingWriter)
      (writer : hd.writer = .returned ∨ hd.writer = .cancelled) :
      HandlerEffect lib m ref cid hd .writerAwaited (unregisterStep m cid hd)
  | writerFailed {e : PyError} (phase : hd.phase = .stoppingWriter)
      (writer : hd.writer = .failed e) :
      HandlerEffect lib m ref cid hd .writerAwaited (m, hd.raise e)
  | writerAwaitCancelled (phase : hd.phase = .stoppingWriter) :
      HandlerEffect lib m ref cid hd .writerAwaitCancelled (unregisterStep m cid hd)
  | closed (phase : hd.phase = .closing) (outcome : Option PyError) :
      HandlerEffect lib m ref cid hd (.closed outcome) (m, closeStep hd outcome)
  | writerGets (message : OutboundMessage) :
      HandlerEffect lib m ref cid hd .writerGets
        (m.modifyContext cid ConnectionContext.takeOutbound, { hd with writer := .sending message })
  | writerSends {context : ConnectionContext} (present : m.contexts cid = some context)
      (outcome : Option PyError) :
      HandlerEffect lib m ref cid hd (.writerSends outcome) (sendStep m cid hd context outcome)
  | writerCancelled :
      HandlerEffect lib m ref cid hd .writerCancelled (m, { hd with writer := .cancelled })

/-- **An enabled step is one of them.** -/
theorem handlerEffect {lib : Libraries} {m : ConnectionManager} {ref : ℕ} {cid : ConnId}
    {hd : Handler} {a : HandlerAction} {outcome : ConnectionManager × Handler}
    (h : handlerStep lib m ref cid hd a = some outcome) :
    HandlerEffect lib m ref cid hd a outcome := by
  cases a with
  | accepted e =>
      simp only [handlerStep] at h
      split at h
      · rename_i hphase
        exact Option.some.inj h ▸ .accepted hphase e
      · cases h
  | frame rawText now clock =>
      simp only [handlerStep] at h
      split at h
      · rename_i hphase hctx
        exact Option.some.inj h ▸ .frame hphase hctx rawText now clock
      · cases h
  | frameRaises now e =>
      simp only [handlerStep] at h
      split at h
      · rename_i hphase
        exact Option.some.inj h ▸ .frameRaises hphase now e
      · cases h
  | receiveRaises e =>
      simp only [handlerStep] at h
      split at h
      · rename_i hphase hctx
        exact Option.some.inj h ▸ .receiveRaises hphase hctx e
      · cases h
  | resolved result =>
      simp only [handlerStep] at h
      split at h
      · rename_i hphase hctx
        exact Option.some.inj h ▸ .resolved hphase hctx result
      · cases h
  | resolveRaises e =>
      simp only [handlerStep] at h
      split at h
      · rename_i hphase
        exact Option.some.inj h ▸ .resolveRaises hphase e
      · cases h
  | flushed e =>
      simp only [handlerStep] at h
      split at h
      · rename_i hphase
        split_ifs at h
        exact Option.some.inj h ▸ .flushed hphase e
      · cases h
  | writerAwaited =>
      simp only [handlerStep] at h
      split at h
      · rename_i hphase hwriter
        exact Option.some.inj h ▸ .writerEnded hphase (.inl hwriter)
      · rename_i hphase hwriter
        exact Option.some.inj h ▸ .writerEnded hphase (.inr hwriter)
      · rename_i hphase hwriter
        exact Option.some.inj h ▸ .writerFailed hphase hwriter
      · cases h
  | writerAwaitCancelled =>
      simp only [handlerStep] at h
      split at h
      · rename_i hphase _
        exact Option.some.inj h ▸ .writerAwaitCancelled hphase
      · rename_i hphase _
        exact Option.some.inj h ▸ .writerAwaitCancelled hphase
      · cases h
  | closed e =>
      simp only [handlerStep] at h
      split at h
      · rename_i hphase
        exact Option.some.inj h ▸ .closed hphase e
      · cases h
  | writerGets =>
      simp only [handlerStep] at h
      split at h
      · split_ifs at h
        exact Option.some.inj h ▸ .writerGets _
      · cases h
  | writerSends e =>
      simp only [handlerStep] at h
      split at h
      · rename_i hctx
        exact Option.some.inj h ▸ .writerSends hctx e
      · cases h
  | writerCancelled =>
      simp only [handlerStep] at h
      split at h
      · exact Option.some.inj h ▸ .writerCancelled
      · cases h

/-! ### The operations of a step -/

/-- The message is no receipt, or answers the frame the context received. -/
def AnswersFrame (lib : Libraries) (m : ConnectionManager) (ref : ℕ) (cid : ConnId)
    (rawText : PyStr) (message : OutboundMessage) : Prop :=
  message.receipt? = none ∨
    ∃ context envelope, m.contexts cid = some context ∧
      validateInbound lib context rawText = .ok (some envelope, []) ∧
      SentBy lib context envelope ref message

/-- The operations a step of the connection may perform. -/
def HandlerOps (lib : Libraries) (m : ConnectionManager) (ref : ℕ) (cid : ConnId) :
    HandlerAction → ManagerOp → Prop
  | .frame rawText _ _, op =>
      op = .markClosing cid ∨ op.QuietPutting (AnswersFrame lib m ref cid rawText)
  | .resolved (.ok identity), op =>
      op = .bindIdentity cid identity ∨ op = .drainOffline identity.username ∨
        op = .markClosing cid ∨ op.QuietPutting fun message =>
          message.receipt? = none ∨ message ∈ m.offlineQueue.queued identity.username
  | .writerAwaited, op => op = .unregister cid
  | .writerAwaitCancelled, op => op = .unregister cid
  | _, op => op = .markClosing cid ∨ op.QuietPutting fun message => message.receipt? = none

/-- **What an operation of a step can be**: it closes or removes the connection, or binds and drains
what the step resolved, or is quiet. -/
theorem HandlerOps.cases {lib : Libraries} {m : ConnectionManager} {ref : ℕ} {cid : ConnId}
    {a : HandlerAction} {op : ManagerOp} (h : HandlerOps lib m ref cid a op) :
    op = .markClosing cid ∨ op = .unregister cid ∨
      (∃ identity, a = .resolved (.ok identity) ∧
        (op = .bindIdentity cid identity ∨ op = .drainOffline identity.username)) ∨ op.Quiet := by
  cases a with
  | resolved result =>
      cases result with
      | error e => exact h.imp_right fun hq => .inr (.inr hq.1)
      | ok identity =>
          rcases h with h | h | h | h
          · exact .inr (.inr (.inl ⟨identity, rfl, .inl h⟩))
          · exact .inr (.inr (.inl ⟨identity, rfl, .inr h⟩))
          · exact .inl h
          · exact .inr (.inr (.inr h.1))
  | writerAwaited | writerAwaitCancelled => exact .inr (.inl h)
  | frame => exact h.imp_right fun hq => .inr (.inr hq.1)
  | accepted | frameRaises | receiveRaises | resolveRaises | flushed | closed | writerGets
  | writerSends | writerCancelled => exact h.imp_right fun hq => .inr (.inr hq.1)

/-- The operations of a step are about no other connection. -/
theorem HandlerOps.targets {lib : Libraries} {m : ConnectionManager} {ref : ℕ} {cid cid' : ConnId}
    {a : HandlerAction} {op : ManagerOp} (h : HandlerOps lib m ref cid a op)
    (hop : op.Targets cid') : cid' = cid := by
  rcases h.cases with rfl | rfl | ⟨identity, -, rfl | rfl⟩ | hquiet
  · exact hop.symm
  · exact hop.symm
  · exact hop.symm
  · exact absurd hop id
  · exact absurd hop (hquiet.not_targets cid')

section Reaches

variable {K : ManagerOp → Prop} {m m₁ : ConnectionManager} {cid : ConnId}

theorem Reaches.enterFinally (h : Reaches K m m₁) (hK : K (.markClosing cid)) (hd : Handler)
    (code : ℕ) (raised : Option PyError) :
    Reaches K m (EncryptChat.enterFinally m₁ cid hd code raised).1 :=
  h.tail hK rfl

theorem Reaches.continueLoop {outcome : ConnectionManager × Iteration} (h : Reaches K m outcome.1)
    (hK : K (.markClosing cid)) (hd : Handler) :
    Reaches K m (EncryptChat.continueLoop cid hd outcome).1 := by
  unfold EncryptChat.continueLoop
  split
  · exact h
  · exact h
  · exact Reaches.enterFinally h hK hd _ _
  · exact Reaches.enterFinally h hK hd _ _

end Reaches

section HandlerStep

variable {lib : Libraries} {m : ConnectionManager} {ref : ℕ} {cid : ConnId}

/-- What is quiet and puts no receipt is an operation of every step that takes those. -/
theorem Reaches.of_quiet {K : ManagerOp → Prop} {m' : ConnectionManager}
    (h : Reaches (ManagerOp.QuietPutting fun message => message.receipt? = none) m m')
    (hK : ∀ op : ManagerOp, op.QuietPutting (fun message => message.receipt? = none) → K op) :
    Reaches K m m' :=
  h.mono hK

theorem reaches_receiveRaisesStep (context : ConnectionContext) (hd : Handler) (e : PyError) :
    Reaches (HandlerOps lib m ref cid (.receiveRaises e)) m
      (receiveRaisesStep m cid context hd e).1 := by
  have hclose : HandlerOps lib m ref cid (.receiveRaises e) (.markClosing cid) := .inl rfl
  obtain ⟨m', code, raised, heq, hm'⟩ := receiveRaisesStep_eq m cid context hd e
  have hreach : Reaches (HandlerOps lib m ref cid (.receiveRaises e)) m m' := by
    rcases hm' with rfl | ⟨error, rfl⟩
    · exact .refl _
    · exact Reaches.of_quiet (reaches_enqueueOutbound m cid rfl) fun _ => .inr
  rw [heq]
  exact Reaches.enterFinally hreach hclose hd _ _

/-- A binding, the drain of the bound name, and the responses. -/
theorem reaches_resolvedStep {context : ConnectionContext} (hctx : m.contexts cid = some context)
    (hcid : cid ∈ m.connections) (hauth : context.authenticated = false)
    (envelope : InboundEnvelope) (hd : Handler) (result : Except AuthError AuthenticatedIdentity) :
    Reaches (HandlerOps lib m ref cid (.resolved result)) m
      (resolvedStep m cid context envelope hd result).1 := by
  unfold resolvedStep
  cases result with
  | error e =>
      refine Reaches.continueLoop ?_ (.inl rfl) hd
      refine Reaches.of_quiet (reaches_respond m cid ?_) fun _ => .inr
      simp [finishAuthentication]
  | ok identity =>
      refine Reaches.continueLoop ?_ (.inr (.inr (.inl rfl))) hd
      have hbind : (ManagerOp.bindIdentity cid identity).apply m =
          some (m.bindIdentity cid context identity) := by
        simp only [ManagerOp.apply, hctx]
        rw [if_pos ⟨hcid, hauth⟩]
      have hdrain := (Reaches.single (K := HandlerOps lib m ref cid (.resolved (.ok identity)))
        _ (.inl rfl) hbind).tail (.inr (.inl rfl))
        (by rfl : (ManagerOp.drainOffline identity.username).apply _ = some _)
      refine hdrain.trans ((reaches_respond _ cid ?_).mono fun _ hop => .inr (.inr (.inr hop)))
      intro message hmem
      rcases List.mem_cons.1 hmem with rfl | hmem
      · exact .inl rfl
      · exact .inr (by simpa [drainOffline, bindIdentity_offlineQueue] using hmem)

/-- A message that has been sent is reported as done, and nothing else. -/
theorem reaches_sendStep (hd : Handler) (context : ConnectionContext) (outcome : Option PyError) :
    Reaches (fun op => op = .taskDone cid) m (sendStep m cid hd context outcome).1 := by
  have hdone : Reaches (fun op => op = .taskDone cid) m
      (m.modifyContext cid ConnectionContext.taskDone) := .single _ rfl rfl
  obtain ⟨m', writer, heq, rfl | rfl⟩ := sendStep_eq m cid hd context outcome
  · rw [heq]
    exact hdone
  · rw [heq]
    exact hdone.tail rfl rfl

/-- **A step of a connection performs operations of its class only**; a binding needs a connection
that is registered and has no identity. -/
theorem reaches_handlerEffect {hd : Handler} {a : HandlerAction}
    {outcome : ConnectionManager × Handler} (h : HandlerEffect lib m ref cid hd a outcome)
    (hbind : ∀ envelope rawToken, hd.phase = .authenticating envelope rawToken →
      cid ∈ m.connections ∧ ∀ c, m.contexts cid = some c → c.authenticated = false) :
    Reaches (HandlerOps lib m ref cid a) m outcome.1 := by
  cases h with
  | accepted _ e =>
      cases e with
      | none => exact Reaches.of_quiet (reaches_enqueueOutbound m cid rfl) fun _ => .inr
      | some e => exact .refl m
  | frame _ hctx rawText now clock =>
      refine Reaches.continueLoop ?_ (.inl rfl) hd
      refine (reaches_receiveFrame lib m cid _ rawText now clock ref ?_ ?_).mono fun _ => .inr
      · exact fun _ => .inl
      · exact fun envelope message hvalid hsent => .inr ⟨_, envelope, hctx, hvalid, hsent⟩
  | frameRaises _ now e =>
      refine Reaches.enterFinally (Reaches.of_quiet ?_ fun _ => .inr) (.inl rfl) hd _ _
      exact (reaches_touch m cid now).trans (reaches_allow _ cid now)
  | receiveRaises _ _ e => exact reaches_receiveRaisesStep _ hd e
  | resolved hphase hctx result =>
      obtain ⟨hcid, hauth⟩ := hbind _ _ hphase
      exact reaches_resolvedStep hctx hcid (hauth _ hctx) _ hd result
  | resolveRaises => exact Reaches.enterFinally (.refl m) (.inl rfl) hd _ _
  | flushed | closed | writerCancelled | writerFailed => exact .refl m
  | writerEnded | writerAwaitCancelled => exact .single (.unregister cid) rfl rfl
  | writerGets => exact .single (.takeOutbound cid) (.inr ⟨trivial, by simp [ManagerOp.puts]⟩) rfl
  | writerSends _ e =>
      refine (reaches_sendStep hd _ e).mono ?_
      rintro _ rfl
      exact .inr ⟨trivial, by simp [ManagerOp.puts]⟩

end HandlerStep

/-! ### What a handler knows at its awaits -/

/-- The handler still serves its connection. -/
def Phase.Serving : Phase → Prop
  | accepting => True
  | receiving => True
  | authenticating _ _ => True
  | _ => False

/-- The handler has not removed its connection yet. -/
def Phase.Before : Phase → Prop
  | closing => False
  | finished => False
  | _ => True

/-- **What holds at the await a handler stands at.** -/
structure HandlerInv (m : ConnectionManager) (cid : ConnId) (hd : Handler) : Prop where
  present : ∃ c, m.contexts cid = some c
  registered : hd.phase.Before → cid ∈ m.connections
  serving : hd.phase.Serving → ∀ c, m.contexts cid = some c → c.closing = false
  unauthenticated : ∀ envelope rawToken, hd.phase = .authenticating envelope rawToken →
    ∀ c, m.contexts cid = some c → c.authenticated = false
  removed : hd.phase = .closing → cid ∉ m.connections

/-- What leaves the connection alone leaves the invariant of its handler alone. -/
theorem HandlerInv.untouched {m m' : ConnectionManager} {cid : ConnId} {hd : Handler}
    (h : HandlerInv m cid hd) (hm : Untouched m m' cid) : HandlerInv m' cid hd := by
  obtain ⟨c, hc⟩ := h.present
  obtain ⟨c', hc', hsame, hclosing⟩ := hm.present c hc
  refine ⟨⟨c', hc'⟩, ?_, ?_, ?_, ?_⟩
  · exact fun hbefore => hm.registered.2 (h.registered hbefore)
  · intro hserving c₁ hc₁
    rw [hc'] at hc₁
    cases hc₁
    rw [hclosing, h.serving hserving c hc]
  · intro envelope rawToken hphase c₁ hc₁
    rw [hc'] at hc₁
    cases hc₁
    rw [hsame.authenticated, h.unauthenticated envelope rawToken hphase c hc]
  · exact fun hphase hmem => h.removed hphase (hm.registered.1 hmem)

/-- A step of the writer leaves what the handler knows alone. -/
theorem HandlerInv.of_phase {m : ConnectionManager} {cid : ConnId} {hd hd' : Handler}
    (h : HandlerInv m cid hd) (hphase : hd'.phase = hd.phase) : HandlerInv m cid hd' := by
  refine ⟨h.present, ?_, ?_, ?_, ?_⟩ <;> rw [hphase]
  · exact h.registered
  · exact h.serving
  · exact h.unauthenticated
  · exact h.removed

section Phases

variable {m : ConnectionManager} {cid : ConnId} {c : ConnectionContext}

/-- A handler in its `finally` block knows that its connection is registered. -/
theorem handlerInv_enterFinally (hcid : cid ∈ m.connections) (hc : m.contexts cid = some c)
    (hd : Handler) (code : ℕ) (raised : Option PyError) :
    HandlerInv (enterFinally m cid hd code raised).1 cid
      (enterFinally m cid hd code raised).2 := by
  refine ⟨⟨c.markClosing, ?_⟩, fun _ => hcid, ?_, ?_, ?_⟩
  · simp only [enterFinally, modifyContext_contexts, if_true, hc, Option.map_some]
  · exact fun hserving => absurd hserving id
  · exact fun _ _ hphase => Phase.noConfusion hphase
  · exact fun hphase => Phase.noConfusion hphase

/-- A handler that waits for a frame knows that its connection is registered and open. -/
theorem handlerInv_receiving (hcid : cid ∈ m.connections) (hc : m.contexts cid = some c)
    (hopen : c.closing = false) {hd : Handler} (hphase : hd.phase = .receiving) :
    HandlerInv m cid hd := by
  refine ⟨⟨c, hc⟩, fun _ => hcid, ?_, ?_, ?_⟩
  · rintro - c' hc'
    rw [hc] at hc'
    cases hc'
    exact hopen
  · rw [hphase]
    exact fun _ _ h => Phase.noConfusion h
  · rw [hphase]
    exact fun h => Phase.noConfusion h

/-- A handler back in its loop knows that its connection is registered and open. -/
theorem handlerInv_continueLoop {outcome : ConnectionManager × Iteration}
    (hcid : cid ∈ outcome.1.connections) (hc : outcome.1.contexts cid = some c)
    (hopen : c.closing = false)
    (hresolve : ∀ envelope rawToken, outcome.2 = .resolve envelope rawToken →
      c.authenticated = false) (hd : Handler) :
    HandlerInv (continueLoop cid hd outcome).1 cid (continueLoop cid hd outcome).2 := by
  unfold continueLoop
  split
  · exact handlerInv_receiving hcid hc hopen rfl
  · rename_i envelope rawToken houtcome
    refine ⟨⟨c, hc⟩, fun _ => hcid, ?_, ?_, ?_⟩
    · rintro - c' hc'
      rw [hc] at hc'
      cases hc'
      exact hopen
    · rintro - - - c' hc'
      rw [hc] at hc'
      cases hc'
      exact hresolve envelope rawToken houtcome
    · exact fun hphase => Phase.noConfusion hphase
  · exact handlerInv_enterFinally hcid hc hd _ _
  · exact handlerInv_enterFinally hcid hc hd _ _

/-- A handler that has ended has nothing left to rely on. -/
theorem handlerInv_finished (hc : m.contexts cid = some c) {hd : Handler}
    (hphase : hd.phase = .finished) : HandlerInv m cid hd := by
  refine ⟨⟨c, hc⟩, ?_, ?_, ?_, ?_⟩ <;> rw [hphase]
  · exact fun h => absurd h id
  · exact fun h => absurd h id
  · exact fun _ _ h => Phase.noConfusion h
  · exact fun h => Phase.noConfusion h

end Phases

/-- **Every step of a connection leaves its handler knowing what it relies on next.** -/
theorem HandlerInv.effect {lib : Libraries} {m : ConnectionManager} {ref : ℕ} {cid : ConnId}
    {hd : Handler} {a : HandlerAction} {outcome : ConnectionManager × Handler}
    (hinv : HandlerInv m cid hd) (h : HandlerEffect lib m ref cid hd a outcome) :
    HandlerInv outcome.1 cid outcome.2 := by
  obtain ⟨c, hc⟩ := hinv.present
  cases h with
  | accepted hphase e =>
      cases e with
      | none =>
          have hmoved := (@reaches_enqueueOutbound (fun _ => True) m cid
            (connectionReady m.limits cid) trivial).untouched_of_quiet cid
          have hmid := hinv.untouched hmoved
          obtain ⟨c', hc'⟩ := hmid.present
          have hopen := hmid.serving (by rw [hphase]; trivial) c' hc'
          exact handlerInv_receiving (hmid.registered (by rw [hphase]; trivial)) hc' hopen rfl
      | some e => exact handlerInv_finished hc rfl
  | frame hphase hctx rawText now clock =>
      rw [hc] at hctx
      cases hctx
      have hmoved := (reaches_receiveFrame (P := fun _ => True) lib m cid c rawText now clock ref
        (fun _ _ => trivial) fun _ _ _ _ => trivial).untouched_of_quiet cid
      have hmid := hinv.untouched hmoved
      obtain ⟨c', hc', hsame, -⟩ := hmoved.present c hc
      refine handlerInv_continueLoop (hmid.registered (by rw [hphase]; trivial)) hc'
        (hmid.serving (by rw [hphase]; trivial) c' hc') ?_ hd
      intro envelope rawToken hresolve
      rw [hsame.authenticated, unauthenticated_of_receiveFrame hresolve]
  | frameRaises hphase now e =>
      have hmoved := ((reaches_touch (P := fun _ => True) m cid now).trans
        (reaches_allow _ cid now)).untouched_of_quiet cid
      have hmid := hinv.untouched hmoved
      obtain ⟨c', hc'⟩ := hmid.present
      exact handlerInv_enterFinally (hmid.registered (by rw [hphase]; trivial)) hc' hd _ _
  | @receiveRaises context hphase hctx e =>
      have hcid := hinv.registered (by rw [hphase]; trivial)
      obtain ⟨m', code, raised, heq, hm'⟩ := receiveRaisesStep_eq m cid context hd e
      rw [heq]
      rcases hm' with rfl | ⟨error, rfl⟩
      · exact handlerInv_enterFinally hcid hc hd _ _
      · have hmoved := (@reaches_enqueueOutbound (fun _ => True) m cid
          (errorMessage error none) trivial).untouched_of_quiet cid
        obtain ⟨c', hc', -⟩ := hmoved.present c hc
        exact handlerInv_enterFinally (hmoved.registered.2 hcid) hc' hd _ _
  | @resolved context envelope rawToken hphase hctx result =>
      rw [hc] at hctx
      cases hctx
      have hcid := hinv.registered (by rw [hphase]; trivial)
      have hopen := hinv.serving (by rw [hphase]; trivial) c hc
      -- the binding is about this very connection, the responses are about none
      have hbound : cid ∈ (finishAuthentication m cid c envelope result).1.connections ∧
          ∃ c', (finishAuthentication m cid c envelope result).1.contexts cid = some c' ∧
            c'.closing = false := by
        cases result with
        | error e => exact ⟨hcid, c, hc, hopen⟩
        | ok identity =>
            refine ⟨?_, c.authenticate identity, ?_, hopen⟩
            · simpa [finishAuthentication, drainOffline] using hcid
            · simp [finishAuthentication, drainOffline, bindIdentity_contexts]
      obtain ⟨hcid', c', hc', hopen'⟩ := hbound
      have hmoved := (@reaches_respond (fun _ => True)
        (finishAuthentication m cid c envelope result).1 cid
        (finishAuthentication m cid c envelope result).2
        fun _ _ => trivial).untouched_of_quiet cid
      obtain ⟨c'', hc'', -, hclosing⟩ := hmoved.present c' hc'
      refine handlerInv_continueLoop (hmoved.registered.2 hcid') hc'' (hclosing.trans hopen') ?_ hd
      exact fun _ _ hresolve => absurd hresolve (respond_ne_resolve _ _ _ _ _)
  | resolveRaises hphase e =>
      exact handlerInv_enterFinally (hinv.registered (by rw [hphase]; trivial)) hc hd _ _
  | flushed hphase e =>
      have hcid := hinv.registered (by rw [hphase]; trivial)
      have hstopping : HandlerInv m cid
          { hd with phase := .stoppingWriter, cancelRequested := true } :=
        ⟨⟨c, hc⟩, fun _ => hcid, fun h => absurd h id, fun _ _ h => Phase.noConfusion h,
          fun h => Phase.noConfusion h⟩
      unfold flushStep
      split
      · exact hstopping
      · exact hstopping
      · exact hstopping
      · exact handlerInv_finished hc rfl
  | writerEnded hphase | writerAwaitCancelled hphase =>
      have hcid := hinv.registered (by rw [hphase]; trivial)
      refine ⟨⟨c.markClosing, ?_⟩, fun h => absurd h id, fun h => absurd h id,
        fun _ _ h => Phase.noConfusion h, fun _ => ?_⟩
      · simp only [unregisterStep, unregister_contexts hcid hc, if_true]
      · simp [unregisterStep]
  | writerFailed => exact handlerInv_finished hc rfl
  | closed hphase e =>
      obtain ⟨raised, heq⟩ := closeStep_eq hd e
      rw [heq]
      exact handlerInv_finished hc rfl
  | writerGets message =>
      have hmoved : Untouched m (m.modifyContext cid ConnectionContext.takeOutbound) cid :=
        (Reaches.single (K := fun op => op = .takeOutbound cid) _ rfl rfl).untouched
          (by rintro _ rfl; exact id)
      exact (hinv.untouched hmoved).of_phase rfl
  | @writerSends context hctx e =>
      have hmoved : Untouched m (sendStep m cid hd context e).1 cid :=
        (reaches_sendStep hd context e).untouched (by rintro _ rfl; exact id)
      obtain ⟨m', writer, heq, -⟩ := sendStep_eq m cid hd context e
      rw [heq] at hmoved ⊢
      exact (hinv.untouched hmoved).of_phase rfl
  | writerCancelled => exact hinv.of_phase rfl

/-! ### The server -/

namespace ServerState

/-- **The invariant of the server.** -/
structure Inv (limits : TransportLimits) (s : ServerState) : Prop where
  wf : s.manager.WF
  limits_eq : s.manager.limits = limits
  handler : ∀ cid hd, s.handlers cid = some hd → HandlerInv s.manager cid hd
  unhandled : ∀ cid, s.handlers cid = none → s.manager.contexts cid = none

theorem inv_new (limits : TransportLimits) : (new limits).Inv limits where
  wf := wf_new limits
  limits_eq := rfl
  handler := by simp [new]
  unhandled := by simp [new, ConnectionManager.new]

section Step

variable {lib : Libraries} {s s' : ServerState}

/-- What a step of a connection is. -/
theorem step_act {cid : ConnId} {a : HandlerAction} (h : s.step lib (.act cid a) = some s') :
    ∃ hd outcome, s.handlers cid = some hd ∧
      HandlerEffect lib s.manager s.nextRef cid hd a outcome ∧ s' = s.put cid outcome := by
  simp only [step, Option.bind_eq_some_iff, Option.map_eq_some_iff] at h
  obtain ⟨hd, hhd, outcome, hout, rfl⟩ := h
  exact ⟨hd, outcome, hhd, handlerEffect hout, rfl⟩

/-- What the arrival of a connection is: it is turned away and nothing is registered, or it is
registered and its handler awaits the upgrade. -/
theorem step_connect {cid : ConnId} {hex : PyStr} {origin : Option PyStr} {now : ℚ}
    (h : s.step lib (.connect cid hex origin now) = some s') :
    s.manager.contexts cid = none ∧
      ((s'.manager = s.manager ∧ s'.handlers = s.handlers) ∨
        ((ManagerOp.register cid (provisionalId hex) now).apply s.manager = some s'.manager ∧
          s'.manager = s.manager.registered cid (provisionalId hex) now ∧
          s.manager.connections.card < s.manager.limits.maxTotalConnections ∧
          s'.handlers = Function.update s.handlers cid
            (some { phase := .accepting, writer := .absent }))) := by
  simp only [step] at h
  split_ifs at h with hfresh
  obtain ⟨-, -, hnone, -⟩ := hfresh
  rw [Option.isNone_iff_eq_none] at hnone
  refine ⟨hnone, ?_⟩
  simp only [Option.some.injEq] at h
  subst h
  unfold connect
  split_ifs
  · exact .inl ⟨rfl, rfl⟩
  · cases hreg : s.manager.register cid (provisionalId hex) now with
    | error reason => exact .inl ⟨rfl, rfl⟩
    | ok m =>
        obtain ⟨hcard, -, hm⟩ := register_eq_ok hreg
        refine .inr ⟨?_, hm, hcard, rfl⟩
        simp only [ManagerOp.apply, hnone, hreg]

variable {limits : TransportLimits}

/-- A step of a connection performs operations of its class only. -/
theorem Inv.reaches_act (hinv : s.Inv limits) {cid : ConnId} {a : HandlerAction}
    (h : s.step lib (.act cid a) = some s') :
    Reaches (HandlerOps lib s.manager s.nextRef cid a) s.manager s'.manager := by
  obtain ⟨hd, outcome, hhd, heffect, rfl⟩ := step_act h
  have hknown := hinv.handler cid hd hhd
  refine reaches_handlerEffect heffect fun envelope rawToken hphase => ?_
  exact ⟨hknown.registered (by rw [hphase]; trivial), hknown.unauthenticated _ _ hphase⟩

/-- **Every step preserves the invariant of the server.** -/
theorem Inv.step (hinv : s.Inv limits) {a : ServerAction} (h : s.step lib a = some s') :
    s'.Inv limits := by
  cases a with
  | connect cid hex origin now =>
      obtain ⟨hnone, ⟨hm, hh⟩ | ⟨happ, hm, hcard, hh⟩⟩ := step_connect h
      · exact ⟨hm ▸ hinv.wf, hm ▸ hinv.limits_eq, hm ▸ hh ▸ hinv.handler,
          hm ▸ hh ▸ hinv.unhandled⟩
      -- the context of the arriving connection is new, so no other one is touched
      · have hothers : ∀ cid', cid' ≠ cid → Untouched s.manager s'.manager cid' := fun cid' hne =>
          untouched_of_effect (ManagerOp.effect happ) fun heq => hne heq.symm
        have hctx : s'.manager.contexts cid = some
            (freshContext s.manager.limits cid (provisionalId hex) now) := by
          rw [hm, registered_contexts, if_pos rfl]
        refine ⟨?_, ?_, ?_, ?_⟩
        · rw [hm]
          exact hinv.wf.registered hnone hcard _ _
        · rw [hm]
          exact hinv.limits_eq
        · intro cid' hd hhd
          rw [hh] at hhd
          by_cases hne : cid' = cid
          · subst hne
            rw [Function.update_self, Option.some.injEq] at hhd
            subst hhd
            refine ⟨⟨_, hctx⟩, fun _ => ?_, ?_, fun _ _ h => Phase.noConfusion h,
              fun h => Phase.noConfusion h⟩
            · rw [hm, registered_connections]
              exact Finset.mem_insert_self _ _
            · rintro - c hc
              rw [hctx] at hc
              cases hc
              rfl
          · rw [Function.update_of_ne hne] at hhd
            exact (hinv.handler cid' hd hhd).untouched (hothers cid' hne)
        · intro cid' hhd
          rw [hh] at hhd
          by_cases hne : cid' = cid
          · subst hne
            rw [Function.update_self] at hhd
            cases hhd
          · rw [Function.update_of_ne hne] at hhd
            exact (hothers cid' hne).absent (hinv.unhandled cid' hhd)
  | act cid a =>
      have hreach := hinv.reaches_act h
      have hmanager : s'.manager.WF ∧ s'.manager.limits = limits := by
        refine hreach.invariant (P := fun m => m.WF ∧ m.limits = limits) ?_
          ⟨hinv.wf, hinv.limits_eq⟩
        rintro m op m' ⟨hwf, hlimits⟩ - happ
        exact ⟨hwf.apply happ, (limits_apply happ).trans hlimits⟩
      have hothers : ∀ cid', cid' ≠ cid → Untouched s.manager s'.manager cid' :=
        fun cid' hne => hreach.untouched fun op hop htarget => hne (hop.targets htarget)
      obtain ⟨hd, outcome, hhd, heffect, rfl⟩ := step_act h
      refine ⟨hmanager.1, hmanager.2, ?_, ?_⟩
      · intro cid' hd' hhd'
        by_cases hne : cid' = cid
        · subst hne
          simp only [put, Function.update_self, Option.some.injEq] at hhd'
          subst hhd'
          exact (hinv.handler cid' hd hhd).effect heffect
        · simp only [put, Function.update_of_ne hne] at hhd'
          exact (hinv.handler cid' hd' hhd').untouched (hothers cid' hne)
      · intro cid' hhd'
        by_cases hne : cid' = cid
        · subst hne
          simp [put] at hhd'
        · simp only [put, Function.update_of_ne hne] at hhd'
          exact (hothers cid' hne).absent (hinv.unhandled cid' hhd')

end Step

end ServerState

/-- **The invariant holds along every run.** -/
theorem inv_of_run {lib : Libraries} {limits : TransportLimits} {s : ServerState}
    {tr : List (ServerState × ServerAction)}
    (h : (serverSystem lib limits).Run (.new limits) tr s) : s.Inv limits :=
  h.invariant (fun _ _ _ hinv hstep => hinv.step hstep) (ServerState.inv_new limits)

/-- **The manager of a server is one that operations lead to**, in every run. -/
theorem manager_reachable_of_run {lib : Libraries} {limits : TransportLimits} {s : ServerState}
    {tr : List (ServerState × ServerAction)}
    (h : (serverSystem lib limits).Run (.new limits) tr s) :
    (managerSystem limits).Reachable s.manager := by
  induction h with
  | nil => exact System.Reachable.init rfl
  | @snoc u w tr a hrun hstep ih =>
      have hstep' : u.step lib a = some w := hstep
      cases a with
      | connect cid hex origin now =>
          obtain ⟨-, ⟨hm, -⟩ | ⟨happ, -⟩⟩ := ServerState.step_connect hstep'
          · rw [hm]
            exact ih
          · exact ih.step (a := .register cid (provisionalId hex) now) happ
      | act cid a => exact ((inv_of_run hrun).reaches_act hstep').reachable ih

end EncryptChat
