/-
**The server: every connection's handler, interleaved.**

One coroutine, `websocket_transport`, serves each connection, and one task writes its outbound
queue.  Both run on one event loop, so a step of the system is what a handler or a writer does
between two awaits; which of them runs next, and how each awaited call ends, is a label.

Main definitions:

* `EncryptChat.Phase`, `EncryptChat.Writer`, `EncryptChat.Handler` — where a handler and its writer
  stand;
* `EncryptChat.HandlerAction`, `EncryptChat.handlerStep` — one step of one connection;
* `EncryptChat.ServerState`, `EncryptChat.serverSystem` — **the transition system of the server**.
-/

import EncryptChat.Endpoint
import EncryptChat.Transition

set_option relaxedAutoImplicit false
set_option autoImplicit false

namespace EncryptChat

open Python

/-! ### One handler and its writer -/

/-- The await a handler stands at. -/
inductive Phase where
  /-- `await websocket.accept()`, after `register` has returned. -/
  | accepting
  /-- `await asyncio.wait_for(websocket.receive_text(), ...)`. -/
  | receiving
  /-- `await service.resolve_access_token(db, raw_token)`. -/
  | authenticating (envelope : InboundEnvelope) (rawToken : PyStr)
  /-- `await asyncio.wait_for(context.outbound.join(), ...)`, in the `finally` block. -/
  | flushing
  /-- `await writer`, after `writer.cancel()`. -/
  | stoppingWriter
  /-- `await websocket.close(code=close_code)`, after `unregister`. -/
  | closing
  /-- The coroutine has returned or raised. -/
  | finished

/-- What the writer task does. -/
inductive Writer where
  /-- It has not been created. -/
  | absent
  /-- `await context.outbound.get()`. -/
  | waiting
  /-- `await websocket.send_json(message)`. -/
  | sending (message : OutboundMessage)
  | returned
  | cancelled
  | failed (e : PyError)

/-- A handler, its writer, the close code it will use and the exception it carries. -/
structure Handler where
  phase : Phase
  writer : Writer
  cancelRequested : Bool := false
  closeCode : ℕ := WebSocketCloseCode.normal
  raised : Option PyError := none

/-- How an awaited call of a connection ends, or a step of its writer.  An outcome `none` is a call
that completes, `some e` one that raises `e`, a cancellation being `CancelledError`. -/
inductive HandlerAction where
  | accepted (outcome : Option PyError)
  /-- A text frame is received and handled. -/
  | frame (rawText : PyStr) (now : ℚ) (clock : Datetime)
  /-- A text frame is received and a library raises while it is handled. -/
  | frameRaises (now : ℚ) (e : PyError)
  | receiveRaises (e : PyError)
  /-- `resolve_access_token` returns an identity or raises `AuthError`. -/
  | resolved (result : Except AuthError AuthenticatedIdentity)
  /-- `resolve_access_token` raises something else. -/
  | resolveRaises (e : PyError)
  | flushed (outcome : Option PyError)
  /-- The writer has ended and `await writer` passes its outcome on. -/
  | writerAwaited
  /-- `await writer` is cancelled while the writer is still running. -/
  | writerAwaitCancelled
  | closed (outcome : Option PyError)
  | writerGets
  | writerSends (outcome : Option PyError)
  /-- The writer is cancelled while it waits for a message. -/
  | writerCancelled

/-- Entering the `finally` block: `context.mark_closing()`. -/
def enterFinally (m : ConnectionManager) (cid : ConnId) (h : Handler) (closeCode : ℕ)
    (raised : Option PyError) : ConnectionManager × Handler :=
  (m.modifyContext cid ConnectionContext.markClosing,
    { h with phase := .flushing, closeCode := closeCode, raised := raised })

/-- Where the receive loop goes after an iteration. -/
def continueLoop (cid : ConnId) (h : Handler) (outcome : ConnectionManager × Iteration) :
    ConnectionManager × Handler :=
  match outcome.2 with
  | .next => (outcome.1, { h with phase := .receiving })
  | .resolve envelope rawToken => (outcome.1, { h with phase := .authenticating envelope rawToken })
  | .close code => enterFinally outcome.1 cid h code none
  | .raise e => enterFinally outcome.1 cid h WebSocketCloseCode.normal (some e)

/-- The `connection.ready` message. -/
def connectionReady (limits : TransportLimits) (cid : ConnId) : OutboundMessage :=
  .connectionReady cid limits.unauthenticatedTimeoutSeconds limits.heartbeatIntervalSeconds
    limits.idleTimeoutSeconds limits.maxMessageBytes

/-- The coroutine ends by an exception. -/
def Handler.raise (h : Handler) (e : PyError) : Handler :=
  { h with phase := .finished, raised := some e }

/-- `websocket.accept()` ends: the writer is created and `connection.ready` is queued, or the
exception leaves the coroutine before the `try` block. -/
def acceptStep (m : ConnectionManager) (cid : ConnId) (h : Handler) :
    Option PyError → ConnectionManager × Handler
  | none =>
      ((m.enqueueOutbound cid (connectionReady m.limits cid)).1,
        { h with phase := .receiving, writer := .waiting })
  | some e => (m, h.raise e)

/-- `wait_for(receive_text())` raises. -/
def receiveRaisesStep (m : ConnectionManager) (cid : ConnId) (context : ConnectionContext)
    (h : Handler) : PyError → ConnectionManager × Handler
  -- the error is queued first: a connection that is closing would refuse it
  | .timeoutError =>
      if context.authenticated then
        enterFinally (m.enqueueOutbound cid (errorMessage .idleTimeout none)).1 cid h
          WebSocketCloseCode.idleTimeout none
      else
        enterFinally (m.enqueueOutbound cid (errorMessage .authRequired none)).1 cid h
          WebSocketCloseCode.authRequired none
  | .webSocketDisconnect => enterFinally m cid h WebSocketCloseCode.normal none
  | .runtimeError => enterFinally m cid h WebSocketCloseCode.normal none
  | .recursionError => enterFinally m cid h WebSocketCloseCode.normal none
  | e => enterFinally m cid h WebSocketCloseCode.normal (some e)

/-- Whatever is raised, the `finally` block is entered, after an error was queued or not. -/
theorem receiveRaisesStep_eq (m : ConnectionManager) (cid : ConnId) (context : ConnectionContext)
    (h : Handler) (e : PyError) :
    ∃ m' code raised, receiveRaisesStep m cid context h e = enterFinally m' cid h code raised ∧
      (m' = m ∨ ∃ error : ProtocolErrorCode,
        m' = (m.enqueueOutbound cid (errorMessage error none)).1) := by
  unfold receiveRaisesStep
  split
  · split_ifs
    · exact ⟨_, _, _, rfl, .inr ⟨_, rfl⟩⟩
    · exact ⟨_, _, _, rfl, .inr ⟨_, rfl⟩⟩
  · exact ⟨_, _, _, rfl, .inl rfl⟩
  · exact ⟨_, _, _, rfl, .inl rfl⟩
  · exact ⟨_, _, _, rfl, .inl rfl⟩
  · exact ⟨_, _, _, rfl, .inl rfl⟩

/-- `resolve_access_token` returns or raises `AuthError`, and the responses are queued. -/
def resolvedStep (m : ConnectionManager) (cid : ConnId) (context : ConnectionContext)
    (envelope : InboundEnvelope) (h : Handler)
    (result : Except AuthError AuthenticatedIdentity) : ConnectionManager × Handler :=
  let finished := finishAuthentication m cid context envelope result
  continueLoop cid h (respond finished.1 cid finished.2)

/-- The join ends and `writer.cancel()` is called, unless the join raised something that is not
suppressed. -/
def flushStep (h : Handler) : Option PyError → Handler
  | none => { h with phase := .stoppingWriter, cancelRequested := true }
  | some .timeoutError => { h with phase := .stoppingWriter, cancelRequested := true }
  | some .cancelledError => { h with phase := .stoppingWriter, cancelRequested := true }
  | some e => h.raise e

/-- `manager.unregister(context.connection_id)`. -/
def unregisterStep (m : ConnectionManager) (cid : ConnId) (h : Handler) :
    ConnectionManager × Handler :=
  (m.unregister cid, { h with phase := .closing })

/-- `websocket.close` ends; `RuntimeError` is suppressed. -/
def closeStep (h : Handler) : Option PyError → Handler
  | none => { h with phase := .finished }
  | some .runtimeError => { h with phase := .finished }
  | some .recursionError => { h with phase := .finished }
  | some e => h.raise e

/-- The coroutine has ended, whatever `websocket.close` did. -/
theorem closeStep_eq (h : Handler) (outcome : Option PyError) :
    ∃ raised, closeStep h outcome = { h with phase := .finished, raised := raised } := by
  unfold closeStep
  split <;> exact ⟨_, rfl⟩

/-- `send_json` ends.  On a disconnect the message is reported as done twice. -/
def sendStep (m : ConnectionManager) (cid : ConnId) (h : Handler) (context : ConnectionContext) :
    Option PyError → ConnectionManager × Handler
  | none => (m.modifyContext cid ConnectionContext.taskDone, { h with writer := .waiting })
  | some .cancelledError =>
      (m.modifyContext cid ConnectionContext.taskDone, { h with writer := .cancelled })
  | some e =>
      let done := m.modifyContext cid ConnectionContext.taskDone
      if e = .webSocketDisconnect ∨ e.IsRuntimeError then
        -- the first `task_done` is not suppressed, and raises at zero
        (done.modifyContext cid ConnectionContext.taskDone,
          { h with
            writer := if context.outbound.unfinished = 0 then .failed .valueError else .returned })
      else (done, { h with writer := .failed e })

/-- However a send ends, the message is reported as done once or twice, and the writer moves. -/
theorem sendStep_eq (m : ConnectionManager) (cid : ConnId) (h : Handler)
    (context : ConnectionContext) (outcome : Option PyError) :
    ∃ m' writer, sendStep m cid h context outcome = (m', { h with writer := writer }) ∧
      (m' = m.modifyContext cid ConnectionContext.taskDone ∨
        m' = (m.modifyContext cid ConnectionContext.taskDone).modifyContext cid
          ConnectionContext.taskDone) := by
  unfold sendStep
  split
  · exact ⟨_, _, rfl, .inl rfl⟩
  · exact ⟨_, _, rfl, .inl rfl⟩
  · rename_i e _
    by_cases he : e = .webSocketDisconnect ∨ e.IsRuntimeError
    · simp only [if_pos he]
      exact ⟨_, _, rfl, .inr rfl⟩
    · simp only [if_neg he]
      exact ⟨_, _, rfl, .inl rfl⟩

/-- **One step of one connection**: the manager and the handler it leaves, `none` where the handler
or its writer is not at that await.  `ref` is the identity of the receipt the step may build. -/
def handlerStep (lib : Libraries) (m : ConnectionManager) (ref : ℕ) (cid : ConnId) (h : Handler) :
    HandlerAction → Option (ConnectionManager × Handler)
  | .accepted outcome =>
      match h.phase with
      | .accepting => some (acceptStep m cid h outcome)
      | _ => none
  | .frame rawText now clock =>
      match h.phase, m.contexts cid with
      | .receiving, some context =>
          some (continueLoop cid h (receiveFrame lib m cid context rawText now clock ref))
      | _, _ => none
  | .frameRaises now e =>
      match h.phase with
      | .receiving =>
          some (enterFinally ((m.modifyContext cid fun c => c.touch now).modifyContext cid
            fun c => (c.allow now).1) cid h WebSocketCloseCode.normal (some e))
      | _ => none
  | .receiveRaises e =>
      match h.phase, m.contexts cid with
      | .receiving, some context => some (receiveRaisesStep m cid context h e)
      | _, _ => none
  | .resolved result =>
      match h.phase, m.contexts cid with
      | .authenticating envelope _, some context =>
          some (resolvedStep m cid context envelope h result)
      | _, _ => none
  | .resolveRaises e =>
      match h.phase with
      | .authenticating _ _ => some (enterFinally m cid h WebSocketCloseCode.normal (some e))
      | _ => none
  | .flushed outcome =>
      match h.phase with
      | .flushing =>
          -- the join only completes when every message is done
          if outcome = none ∧ (m.contexts cid).any (fun c => c.outbound.unfinished ≠ 0) then none
          else some (m, flushStep h outcome)
      | _ => none
  | .writerAwaited =>
      match h.phase, h.writer with
      | .stoppingWriter, .returned => some (unregisterStep m cid h)
      | .stoppingWriter, .cancelled => some (unregisterStep m cid h)
      -- not suppressed, and raised before `unregister` is reached
      | .stoppingWriter, .failed e => some (m, h.raise e)
      | _, _ => none
  | .writerAwaitCancelled =>
      match h.phase, h.writer with
      | .stoppingWriter, .waiting => some (unregisterStep m cid h)
      | .stoppingWriter, .sending _ => some (unregisterStep m cid h)
      | _, _ => none
  | .closed outcome =>
      match h.phase with
      | .closing => some (m, closeStep h outcome)
      | _ => none
  | .writerGets =>
      match h.writer, (m.contexts cid).bind fun c => c.outbound.items.head? with
      | .waiting, some message =>
          -- a cancelled writer raises at its await and takes nothing
          if h.cancelRequested then none
          else some (m.modifyContext cid ConnectionContext.takeOutbound,
            { h with writer := .sending message })
      | _, _ => none
  | .writerSends outcome =>
      match h.writer, m.contexts cid with
      | .sending _, some context => some (sendStep m cid h context outcome)
      | _, _ => none
  | .writerCancelled =>
      match h.writer with
      | .waiting => some (m, { h with writer := .cancelled })
      | _ => none

/-! ### The server -/

/-- The manager and the handlers, with the history needed to draw what is fresh. -/
structure ServerState where
  manager : ConnectionManager
  handlers : ConnId → Option Handler
  /-- The provisional ids drawn so far: `uuid4` does not repeat. -/
  provisional : List PyStr
  /-- The next identity of a receipt. -/
  nextRef : ℕ

/-- A new connection arrives, or a connection takes a step. -/
inductive ServerAction where
  /-- `cid` and `hex` are the `uuid4().hex` of the connection id and of the provisional id. -/
  | connect (cid : ConnId) (hex : PyStr) (origin : Option PyStr) (now : ℚ)
  | act (cid : ConnId) (action : HandlerAction)

/-- `f"anon-{uuid4().hex}"`. -/
def provisionalId (hex : PyStr) : PyStr := py "anon-" ++ hex

namespace ServerState

/-- Before any connection. -/
def new (limits : TransportLimits) : ServerState := ⟨.new limits, fun _ => none, [], 0⟩

/-- Store the outcome of a handler's step. -/
def put (s : ServerState) (cid : ConnId) (outcome : ConnectionManager × Handler) : ServerState :=
  { s with
    manager := outcome.1
    handlers := Function.update s.handlers cid (some outcome.2)
    nextRef := s.nextRef + 1 }

/-- The beginning of `websocket_transport`: the origin, then the registration.  A rejected upgrade
leaves no handler that holds a context. -/
def connect (s : ServerState) (cid : ConnId) (hex : PyStr) (origin : Option PyStr) (now : ℚ) :
    ServerState :=
  if s.manager.limits.isOriginAllowed origin = false then s
  else
    match s.manager.register cid (provisionalId hex) now with
    | .error _ => { s with provisional := provisionalId hex :: s.provisional }
    | .ok m =>
        { s with
          manager := m
          handlers := Function.update s.handlers cid (some { phase := .accepting, writer := .absent })
          provisional := provisionalId hex :: s.provisional }

/-- Both ids are fresh. -/
def Fresh (s : ServerState) (cid : ConnId) (hex : PyStr) : Prop :=
  isUuidHex cid = true ∧ isUuidHex hex = true ∧ (s.manager.contexts cid).isNone = true ∧
    provisionalId hex ∉ s.provisional

instance (s : ServerState) (cid : ConnId) (hex : PyStr) : Decidable (s.Fresh cid hex) :=
  inferInstanceAs (Decidable (_ ∧ _ ∧ _ ∧ _))

/-- One step of the server. -/
def step (lib : Libraries) (s : ServerState) : ServerAction → Option ServerState
  | .connect cid hex origin now =>
      if s.Fresh cid hex then some (s.connect cid hex origin now) else none
  | .act cid action =>
      (s.handlers cid).bind fun h =>
        (handlerStep lib s.manager s.nextRef cid h action).map (s.put cid)

end ServerState

/-- **The transition system of the server**: any interleaving of any number of connections. -/
def serverSystem (lib : Libraries) (limits : TransportLimits) :
    Transition.System ServerState ServerAction where
  init := fun s => s = .new limits
  step := ServerState.step lib

end EncryptChat
