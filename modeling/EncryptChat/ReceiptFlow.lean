/-
**Where receipts go.**

A step of the server does one of three things to receipts: it moves none; or it routes one, to the
live connections of its recipient or else to the offline queue; or it binds a connection and moves
the queue of the bound name into it.  This module says so once.  What holds of every run about the
order, the place and the time of receipts is then a matter of these three cases.

Main definitions:

* `EncryptChat.ConnectionContext.receipts` — the receipts a connection has accepted, in order;
* `EncryptChat.ManagerOp.MovesNoReceipt` — the operations that leave receipts where they are;
* `EncryptChat.ConnectionContext.Gains` — a context whose queue has accepted more;
* `EncryptChat.RoutesFrame`, `EncryptChat.Binds` — a step that routes, a step that binds;
* `EncryptChat.routing?` — the receipt a step routes, and the status its sender is told.

Main results:

* `EncryptChat.receiveFrame_cases` — the handling of a frame moves no receipt or routes one;
* `EncryptChat.ServerState.Inv.step_cases` — **the three kinds of steps**;
* `EncryptChat.still_of_reaches`, `EncryptChat.RoutesFrame.gains`, `EncryptChat.Binds.gains` — what
  each kind adds to every outbound queue and to every offline queue.
-/

import EncryptChat.OfflineDrain
import EncryptChat.OwnContext

set_option relaxedAutoImplicit false
set_option autoImplicit false

namespace EncryptChat

open Python Transition ConnectionManager

/-! ### Receipts on a connection -/

namespace ConnectionContext

/-- The receipts the connection has accepted, oldest first. -/
def receipts (c : ConnectionContext) : List MessageReceipt :=
  c.outbound.accepted.filterMap OutboundMessage.receipt?

theorem mem_receipts {c : ConnectionContext} {r : MessageReceipt} :
    r ∈ c.receipts ↔ .messageReceipt r ∈ c.outbound.accepted := by
  unfold receipts
  rw [List.mem_filterMap]
  constructor
  · rintro ⟨message, hmem, hr⟩
    cases message with
    | messageReceipt r' =>
        cases hr
        exact hmem
    | connectionReady | authReady | deliveryAck | heartbeatPong | queueStatus | protocolError =>
        cases hr
  · exact fun hmem => ⟨_, hmem, rfl⟩

/-- The queue of the context has accepted `l` more, and a closing context stays so. -/
structure Gains (c c' : ConnectionContext) (l : List OutboundMessage) : Prop where
  accepted : c'.outbound.accepted = c.outbound.accepted ++ l
  closing : c.closing = true → c'.closing = true

namespace Gains

variable {c c' c'' : ConnectionContext} {l l' : List OutboundMessage}

theorem refl (c : ConnectionContext) : Gains c c [] := ⟨(List.append_nil _).symm, id⟩

theorem trans (h : Gains c c' l) (h' : Gains c' c'' l') : Gains c c'' (l ++ l') := by
  refine ⟨?_, fun hclosing => h'.closing (h.closing hclosing)⟩
  rw [h'.accepted, h.accepted, List.append_assoc]

theorem receipts (h : Gains c c' l) :
    c'.receipts = c.receipts ++ l.filterMap OutboundMessage.receipt? := by
  unfold ConnectionContext.receipts
  rw [h.accepted, List.filterMap_append]

end Gains

end ConnectionContext

open ConnectionContext (Gains)

/-- None of the messages is a receipt. -/
def Plain (l : List OutboundMessage) : Prop := ∀ message ∈ l, message.receipt? = none

theorem plain_nil : Plain [] := by simp [Plain]

theorem Plain.append {l l' : List OutboundMessage} (h : Plain l) (h' : Plain l') :
    Plain (l ++ l') := by
  intro message hmem
  rcases List.mem_append.1 hmem with hmem | hmem
  · exact h message hmem
  · exact h' message hmem

theorem Plain.filterMap {l : List OutboundMessage} (h : Plain l) :
    l.filterMap OutboundMessage.receipt? = [] :=
  List.filterMap_eq_nil_iff.2 h

/-! ### Operations that move no receipt -/

/-- The operation leaves the receipts on every queue where they are. -/
def ManagerOp.MovesNoReceipt : ManagerOp → Prop
  | enqueueOutbound _ message => message.receipt? = none
  | deliverToClient _ _ => False
  | enqueueOffline _ _ => False
  | drainOffline _ => False
  | discardOffline _ => False
  | _ => True

/-- Every outbound queue has gained messages that are no receipts, and every offline queue is as it
was. -/
structure ConnectionManager.Still (m m' : ConnectionManager) : Prop where
  offlineQueue : m'.offlineQueue = m.offlineQueue
  kept : ∀ cid c, m.contexts cid = some c →
    ∃ c' l, m'.contexts cid = some c' ∧ Gains c c' l ∧ Plain l
  fresh : ∀ cid c', m.contexts cid = none → m'.contexts cid = some c' →
    Plain c'.outbound.accepted

namespace ConnectionManager

theorem Still.refl (m : ConnectionManager) : Still m m where
  offlineQueue := rfl
  kept := fun _ c hc => ⟨c, [], hc, .refl c, plain_nil⟩
  fresh := fun cid c' hnone hc' => by
    rw [hnone] at hc'
    cases hc'

theorem Still.trans {m m' m'' : ConnectionManager} (h : Still m m') (h' : Still m' m'') :
    Still m m'' where
  offlineQueue := h'.offlineQueue.trans h.offlineQueue
  kept := by
    intro cid c hc
    obtain ⟨c', l, hc', hgains, hplain⟩ := h.kept cid c hc
    obtain ⟨c'', l', hc'', hgains', hplain'⟩ := h'.kept cid c' hc'
    exact ⟨c'', l ++ l', hc'', hgains.trans hgains', hplain.append hplain'⟩
  fresh := by
    intro cid c'' hnone hc''
    cases hmid : m'.contexts cid with
    | none => exact h'.fresh cid c'' hmid hc''
    | some c' =>
        obtain ⟨d, l, hd, hgains, hplain⟩ := h'.kept cid c' hmid
        rw [hc''] at hd
        cases hd
        rw [hgains.accepted]
        exact (h.fresh cid c' hnone hmid).append hplain

/-- A context that was not there before the step has accepted no receipt. -/
theorem Still.back {m m' : ConnectionManager} (h : Still m m') {cid : ConnId}
    {c' : ConnectionContext} (hc' : m'.contexts cid = some c') :
    (∃ c l, m.contexts cid = some c ∧ Gains c c' l ∧ Plain l) ∨
      m.contexts cid = none ∧ Plain c'.outbound.accepted := by
  cases hm : m.contexts cid with
  | none => exact .inr ⟨rfl, h.fresh cid c' hm hc'⟩
  | some c =>
      obtain ⟨d, l, hd, hgains, hplain⟩ := h.kept cid c hm
      rw [hc'] at hd
      cases hd
      exact .inl ⟨c, l, rfl, hgains, hplain⟩

/-- What an operation that moves no receipt puts on queues is none. -/
theorem plain_puts {op : ManagerOp} (h : op.MovesNoReceipt) : Plain op.puts := by
  cases op with
  | enqueueOutbound cid message =>
      have hnone : message.receipt? = none := h
      simp [Plain, ManagerOp.puts, hnone]
  | deliverToClient | enqueueOffline => exact absurd h id
  | register | bindIdentity | markClosing | unregister | drainOffline | discardOffline | touch
  | allow | takeOutbound | taskDone => exact plain_nil

theorem still_of_effect {m m' : ConnectionManager} {op : ManagerOp}
    (h : ManagerOp.Effect m op m') (hop : op.MovesNoReceipt) : Still m m' where
  offlineQueue := by
    cases h with
    | rejected | registered | contexts => rfl
    | bound => exact m.bindIdentity_offlineQueue _ _ _
    | unregistered cid => exact m.unregister_offlineQueue cid
    | enqueued | drained | discarded => exact absurd hop id
  kept := by
    intro cid c hc
    obtain ⟨c', hc', hcc | ⟨identity, -, -, rfl⟩⟩ := h.context hc
    · obtain ⟨l, hl, hputs⟩ := hcc.accepted
      exact ⟨c', l, hc', ⟨hl, hcc.closing⟩, fun message hmem =>
        plain_puts hop message (hputs message hmem)⟩
    · exact ⟨_, [], hc', ⟨(List.append_nil _).symm, id⟩, plain_nil⟩
  fresh := by
    intro cid c' hnone hc'
    rcases h.context_back hc' with ⟨c, hc⟩ | ⟨k, now, -, rfl⟩
    · rw [hnone] at hc
      cases hc
    · simp [Plain, freshContext]

/-- **Operations that move no receipt**, any number of them. -/
theorem still_of_reaches {m m' : ConnectionManager} (h : Reaches ManagerOp.MovesNoReceipt m m') :
    Still m m' := by
  induction h with
  | refl => exact .refl _
  | tail _ hop happ ih => exact ih.trans (still_of_effect (ManagerOp.effect happ) hop)

/-! ### The operations of a frame -/

theorem reaches_enqueueResponses_plain (cid : ConnId) :
    ∀ (responses : List OutboundMessage) (m : ConnectionManager), Plain responses →
      Reaches ManagerOp.MovesNoReceipt m (enqueueResponses m cid responses).1 := by
  intro responses
  induction responses with
  | nil => exact fun m _ => .refl m
  | cons r responses ih =>
      intro m hplain
      have hfirst : Reaches ManagerOp.MovesNoReceipt m (m.enqueueOutbound cid r).1 :=
        .single (.enqueueOutbound cid r) (hplain r List.mem_cons_self) rfl
      simp only [enqueueResponses]
      split_ifs
      · exact hfirst.trans (ih _ fun message hmem =>
          hplain message (List.mem_cons_of_mem r hmem))
      · exact hfirst

theorem reaches_respond_plain (m : ConnectionManager) (cid : ConnId)
    {responses : List OutboundMessage} (h : Plain responses) :
    Reaches ManagerOp.MovesNoReceipt m (respond m cid responses).1 :=
  reaches_enqueueResponses_plain cid responses m h

theorem reaches_counted (m : ConnectionManager) (cid : ConnId) (now : ℚ) :
    Reaches ManagerOp.MovesNoReceipt m (m.counted cid now) := by
  have htouch : Reaches ManagerOp.MovesNoReceipt m (m.modifyContext cid fun c => c.touch now) :=
    .single (.touch cid now) trivial rfl
  have hallow : (ManagerOp.allow cid now).apply (m.modifyContext cid fun c => c.touch now) =
      some (m.counted cid now) := rfl
  exact htouch.tail (by trivial) hallow

end ConnectionManager

/-- The handling of a `message.send` moves no receipt or routes one. -/
theorem reaches_respond_handled {lib : Libraries} {m : ConnectionManager} {c : ConnectionContext}
    {envelope : InboundEnvelope} {ref : ℕ} {handled : ConnectionManager × List OutboundMessage}
    (h : handleMessageSend lib m c envelope ref = .ok handled) (cid : ConnId) :
    Reaches ManagerOp.MovesNoReceipt m (respond handled.1 cid handled.2).1 ∨
      ∃ recipient, envelope.sender = c.routingIdentity ∧ envelope.recipient = some recipient ∧
        lib.Dumps envelope.payload ∧
        Reaches ManagerOp.MovesNoReceipt (routeReceipt m c envelope recipient ref).1
          (respond handled.1 cid handled.2).1 := by
  rcases handleMessageSend_cases h with
    ⟨-, rfl⟩ | ⟨-, -, rfl⟩ | ⟨recipient, hsender, hrec, hdumps, rfl⟩
  · exact .inl (reaches_respond_plain m cid
      (by simp [Plain, errorMessage, OutboundMessage.receipt?]))
  · exact .inl (reaches_respond_plain m cid (by simp [Plain]))
  · refine .inr ⟨recipient, hsender, hrec, hdumps, ?_⟩
    exact reaches_respond_plain _ cid (by simp [Plain, OutboundMessage.receipt?])

/-- **The handling of a frame** moves no receipt, or the frame is a `message.send` that passed every
check and its receipt is routed. -/
theorem receiveFrame_cases (lib : Libraries) (m : ConnectionManager) (cid : ConnId)
    (c : ConnectionContext) (rawText : PyStr) (now : ℚ) (clock : Datetime) (ref : ℕ) :
    Reaches ManagerOp.MovesNoReceipt m (receiveFrame lib m cid c rawText now clock ref).1 ∨
      ∃ envelope recipient, Admitted m c rawText now ∧
        validateInbound lib c rawText = .ok (some envelope, []) ∧ envelope.type = .messageSend ∧
        envelope.sender = c.routingIdentity ∧ envelope.recipient = some recipient ∧
        lib.Dumps envelope.payload ∧
        Reaches ManagerOp.MovesNoReceipt
          (routeReceipt (m.counted cid now) c envelope recipient ref).1
          (receiveFrame lib m cid c rawText now clock ref).1 := by
  have hplain : ∀ code id, Plain [errorMessage code id] := by simp [Plain]
  by_cases hadmitted : Admitted m c rawText now
  swap
  · -- the frame is dropped with one error at most
    left
    have htouch : Reaches ManagerOp.MovesNoReceipt m (m.modifyContext cid fun c => c.touch now) :=
      .single (.touch cid now) trivial rfl
    unfold receiveFrame
    dsimp only
    cases hsize : utf8Length rawText with
    | error e => exact htouch
    | ok size =>
        dsimp only
        split_ifs with hlarge hrate
        · exact htouch.tail (by trivial)
            (by rfl : (ManagerOp.enqueueOutbound cid (errorMessage .messageTooLarge none)).apply _ =
              some _)
        · exact (reaches_counted m cid now).tail (by trivial)
            (by rfl : (ManagerOp.enqueueOutbound cid (errorMessage .rateLimited none)).apply _ =
              some _)
        · refine absurd ⟨?_, by simpa using hrate⟩ hadmitted
          simp only [hsize, Except.toOption, Option.any_some, decide_eq_true_eq]
          omega
  rw [receiveFrame_of_admitted lib hadmitted]
  have hcounted := reaches_counted m cid now
  unfold handleFrame
  cases hvalid : validateInbound lib c rawText with
  | error e => exact .inl hcounted
  | ok verdict =>
      obtain ⟨_ | envelope, errors⟩ := verdict
      · obtain ⟨code, id, rfl⟩ := validateInbound_eq_none hvalid
        exact .inl (hcounted.trans (reaches_respond_plain _ cid (hplain code id)))
      · obtain ⟨rfl, -⟩ := validateInbound_eq_some hvalid
        dsimp only
        unfold dispatch
        cases htype : envelope.type with
        | authAuthenticate =>
            left
            cases hbegin : beginAuthentication c envelope with
            | error responses =>
                exact hcounted.trans (reaches_respond_plain _ cid
                  (receipt?_beginAuthentication hbegin))
            | ok rawToken => exact hcounted
        | heartbeatPing =>
            exact .inl (hcounted.trans (reaches_respond_plain _ cid
              (by simp [Plain, OutboundMessage.receipt?])))
        | messageSend =>
            dsimp only
            rw [if_pos (by decide)]
            simp only [handlePrivileged, htype]
            cases hhandled : handleMessageSend lib (m.counted cid now) c envelope ref with
            | error e => exact .inl hcounted
            | ok handled =>
                rcases reaches_respond_handled hhandled cid with
                  h | ⟨recipient, hsender, hrec, hdumps, h⟩
                · exact .inl (hcounted.trans h)
                · exact .inr ⟨envelope, recipient, hadmitted, rfl, htype, hsender, hrec, hdumps, h⟩
        | queueStatus =>
            left
            dsimp only
            rw [if_pos (by decide)]
            simp only [handlePrivileged, htype]
            exact hcounted.trans (reaches_respond_plain _ cid
              (by simp [Plain, OutboundMessage.receipt?]))
        | _ =>
            left
            dsimp only
            rw [if_neg (by decide)]
            exact hcounted.trans (reaches_respond_plain _ cid (hplain _ _))

/-! ### The three kinds of steps -/

/-- The step handles a `message.send` that passes every check, and routes its receipt. -/
structure RoutesFrame (lib : Libraries) (s : ServerState) (cid : ConnId) (rawText : PyStr) (now : ℚ)
    (c : ConnectionContext) (envelope : InboundEnvelope) (recipient : PyStr) (s' : ServerState) :
    Prop where
  present : s.manager.contexts cid = some c
  admitted : Admitted s.manager c rawText now
  valid : validateInbound lib c rawText = .ok (some envelope, [])
  type_eq : envelope.type = .messageSend
  sender_eq : envelope.sender = c.routingIdentity
  recipient_eq : envelope.recipient = some recipient
  dumps : lib.Dumps envelope.payload
  rest : Reaches ManagerOp.MovesNoReceipt
    (routeReceipt (s.manager.counted cid now) c envelope recipient s.nextRef).1 s'.manager

/-- The step binds an identity to a connection that has none, and answers it with the queue of the
bound name. -/
structure Binds (s : ServerState) (cid : ConnId) (identity : AuthenticatedIdentity)
    (c : ConnectionContext) (s' : ServerState) : Prop where
  present : s.manager.contexts cid = some c
  registered : cid ∈ s.manager.connections
  unauthenticated : c.authenticated = false
  answered : ∃ envelope hd,
    s'.manager = (resolvedStep s.manager cid c envelope hd (.ok identity)).1

section Steps

variable {m : ConnectionManager} {cid : ConnId}

/-- Entering the `finally` block moves no receipt. -/
theorem reaches_enterFinally_plain {m₁ : ConnectionManager}
    (h : Reaches ManagerOp.MovesNoReceipt m m₁) (hd : Handler) (code : ℕ)
    (raised : Option PyError) :
    Reaches ManagerOp.MovesNoReceipt m (enterFinally m₁ cid hd code raised).1 :=
  Reaches.enterFinally h (by trivial) hd code raised

theorem reaches_receiveRaisesStep_plain (m : ConnectionManager) (cid : ConnId)
    (c : ConnectionContext) (hd : Handler) (e : PyError) :
    Reaches ManagerOp.MovesNoReceipt m (receiveRaisesStep m cid c hd e).1 := by
  obtain ⟨m', code, raised, heq, hm'⟩ := receiveRaisesStep_eq m cid c hd e
  rw [heq]
  rcases hm' with rfl | ⟨error, rfl⟩
  · exact reaches_enterFinally_plain (.refl _) hd _ _
  · have hsend : Reaches ManagerOp.MovesNoReceipt m
        (m.enqueueOutbound cid (errorMessage error none)).1 :=
      .single (.enqueueOutbound cid (errorMessage error none)) (by trivial) rfl
    exact reaches_enterFinally_plain hsend hd _ _

end Steps

namespace ServerState

variable {lib : Libraries} {limits : TransportLimits} {s s' : ServerState}

/-- **The three kinds of steps**: a step moves no receipt, or routes one, or binds a connection. -/
theorem Inv.step_cases (hinv : s.Inv limits) {a : ServerAction} (h : s.step lib a = some s') :
    (Reaches ManagerOp.MovesNoReceipt s.manager s'.manager ∧
        ∀ cid identity, a ≠ .act cid (.resolved (.ok identity))) ∨
      (∃ cid rawText now clock c envelope recipient, a = .act cid (.frame rawText now clock) ∧
        RoutesFrame lib s cid rawText now c envelope recipient s') ∨
      ∃ cid identity c, a = .act cid (.resolved (.ok identity)) ∧ Binds s cid identity c s' := by
  cases a with
  | connect cid hex origin now =>
      refine .inl ⟨?_, by simp⟩
      obtain ⟨-, ⟨hm, -⟩ | ⟨happ, -⟩⟩ := step_connect h
      · rw [hm]
        exact .refl _
      · exact .single _ (by trivial) happ
  | act cid a =>
      obtain ⟨hd, outcome, hhd, heffect, rfl⟩ := step_act h
      change (Reaches ManagerOp.MovesNoReceipt s.manager outcome.1 ∧ _) ∨ _
      cases heffect with
      | accepted hphase e =>
          refine .inl ⟨?_, by simp⟩
          cases e with
          | none =>
              exact .single (.enqueueOutbound cid (connectionReady s.manager.limits cid))
                (by trivial) rfl
          | some e => exact .refl _
      -- the one step that routes
      | @frame c hphase hc rawText now clock =>
          rcases receiveFrame_cases lib s.manager cid c rawText now clock s.nextRef with
            hstill | ⟨envelope, recipient, hadmitted, hvalid, htype, hsender, hrec, hdumps, hrest⟩
          · exact .inl ⟨Reaches.continueLoop hstill (by trivial) hd, by simp⟩
          · exact .inr (.inl ⟨cid, rawText, now, clock, c, envelope, recipient, rfl,
              hc, hadmitted, hvalid, htype, hsender, hrec, hdumps,
              Reaches.continueLoop hrest (by trivial) hd⟩)
      | frameRaises hphase now e =>
          exact .inl ⟨reaches_enterFinally_plain (reaches_counted s.manager cid now) hd _ _,
            by simp⟩
      | receiveRaises hphase hc e =>
          exact .inl ⟨reaches_receiveRaisesStep_plain s.manager cid _ hd e, by simp⟩
      | @resolved c envelope rawToken hphase hc result =>
          have hknown := hinv.handler cid hd hhd
          cases result with
          | error e =>
              refine .inl ⟨Reaches.continueLoop ?_ (by trivial) hd, by simp⟩
              exact reaches_respond_plain s.manager cid (by simp [finishAuthentication, Plain])
          -- the one step that binds
          | ok identity =>
              exact .inr (.inr ⟨cid, identity, c, rfl, hc,
                hknown.registered (by rw [hphase]; trivial),
                hknown.unauthenticated _ _ hphase c hc, envelope, hd, rfl⟩)
      | resolveRaises hphase e =>
          exact .inl ⟨reaches_enterFinally_plain (.refl _) hd _ _, by simp⟩
      | flushed | closed | writerCancelled | writerFailed => exact .inl ⟨.refl _, by simp⟩
      | writerEnded | writerAwaitCancelled =>
          exact .inl ⟨.single (.unregister cid) (by trivial) rfl, by simp⟩
      | writerGets =>
          exact .inl ⟨.single (.takeOutbound cid) (by trivial) rfl, by simp⟩
      | writerSends hc e =>
          refine .inl ⟨(reaches_sendStep hd _ e).mono ?_, by simp⟩
          rintro _ rfl
          trivial

/-- A step that is no binding keeps every context as authenticated as it is. -/
theorem Inv.authenticated_step (hinv : s.Inv limits) {a : ServerAction}
    (h : s.step lib a = some s') {cid : ConnId}
    (hnot : ∀ identity, a ≠ .act cid (.resolved (.ok identity))) {c c' : ConnectionContext}
    (hc : s.manager.contexts cid = some c) (hc' : s'.manager.contexts cid = some c') :
    c'.authenticated = c.authenticated := by
  obtain ⟨d, hd, hsame | ⟨-, identity, ha, -⟩⟩ := hinv.identity_step h hc
  · rw [hc'] at hd
    cases hd
    exact congrArg Prod.fst hsame
  · exact absurd ha (hnot identity)

/-- A step keeps the name under which a connection has arrived. -/
theorem Inv.transportClientId_step (hinv : s.Inv limits) {a : ServerAction}
    (h : s.step lib a = some s') {cid : ConnId} {c c' : ConnectionContext}
    (hc : s.manager.contexts cid = some c) (hc' : s'.manager.contexts cid = some c') :
    c'.transportClientId = c.transportClientId := by
  have hkept : ∃ d, s'.manager.contexts cid = some d ∧
      d.transportClientId = c.transportClientId := by
    cases a with
    | connect cid' hex origin now =>
        obtain ⟨-, ⟨hm, -⟩ | ⟨happ, -⟩⟩ := step_connect h
        · exact ⟨c, by rw [hm, hc], rfl⟩
        · obtain ⟨d, hd, hcc | ⟨_, hop, -⟩⟩ := (ManagerOp.effect happ).context hc
          · exact ⟨d, hd, hcc.transportClientId⟩
          · cases hop
    | act cid' a' =>
        refine (hinv.reaches_act h).invariant (P := fun m => ∃ d, m.contexts cid = some d ∧
          d.transportClientId = c.transportClientId) ?_ ⟨c, hc, rfl⟩
        rintro m op m' ⟨d, hd, hsame⟩ - happ
        obtain ⟨d', hd', hcc | ⟨_, -, -, rfl⟩⟩ := (ManagerOp.effect happ).context hd
        · exact ⟨d', hd', hcc.transportClientId.trans hsame⟩
        · exact ⟨_, hd', hsame⟩
  obtain ⟨d, hd, hsame⟩ := hkept
  rw [hc'] at hd
  cases hd
  exact hsame

/-- The steps of connections are counted, and each has a new identity for its receipt. -/
theorem nextRef_step {a : ServerAction} (h : s.step lib a = some s') :
    s.nextRef ≤ s'.nextRef ∧ ∀ cid a', a = .act cid a' → s'.nextRef = s.nextRef + 1 := by
  cases a with
  | connect cid hex origin now =>
      refine ⟨?_, by simp⟩
      simp only [step] at h
      split_ifs at h
      cases h
      unfold connect
      split_ifs
      · exact le_rfl
      · split <;> exact le_rfl
  | act cid a' =>
      obtain ⟨hd, outcome, -, -, rfl⟩ := step_act h
      exact ⟨Nat.le_succ _, fun _ _ _ => rfl⟩

/-- A step of a connection creates no context. -/
theorem Inv.context_of_act (hinv : s.Inv limits) {cid : ConnId} {a : HandlerAction}
    (h : s.step lib (.act cid a) = some s') {cid' : ConnId} {c' : ConnectionContext}
    (hc' : s'.manager.contexts cid' = some c') : ∃ c, s.manager.contexts cid' = some c := by
  cases hc : s.manager.contexts cid' with
  | some c => exact ⟨c, rfl⟩
  | none =>
      obtain ⟨⟨hex, origin, now, ha⟩, -⟩ := hinv.identity_of_new h hc' hc
      cases ha

end ServerState

/-! ### What a step routes -/

/-- The receipt that `_route_message` handles in a step, and the status it returns; where the
receipt cannot be serialized it returns none. -/
def routing? (lib : Libraries) (s : ServerState) :
    ServerAction → Option (MessageReceipt × DeliveryStatus)
  | .act cid (.frame rawText now _) =>
      (s.manager.contexts cid).bind fun c =>
        match validateInbound lib c rawText with
        | .ok (some envelope, _) =>
            if Admitted s.manager c rawText now ∧ envelope.type = .messageSend ∧
                envelope.sender = c.routingIdentity then
              envelope.recipient.bind fun recipient =>
                (routeMessage lib (s.manager.counted cid now) c envelope recipient
                  s.nextRef).toOption.map fun routed =>
                    (receiptOf c envelope recipient s.nextRef, routed.2)
            else none
        | _ => none
  | _ => none

section Routing

variable {lib : Libraries} {s s' : ServerState} {cid : ConnId} {rawText : PyStr} {now : ℚ}
  {clock : Datetime} {c : ConnectionContext} {envelope : InboundEnvelope} {recipient : PyStr}

theorem routing?_of_routesFrame (h : RoutesFrame lib s cid rawText now c envelope recipient s')
    (clock : Datetime) : routing? lib s (.act cid (.frame rawText now clock)) =
      some (receiptOf c envelope recipient s.nextRef,
        (routeReceipt (s.manager.counted cid now) c envelope recipient s.nextRef).2) := by
  simp only [routing?, h.present, Option.bind_some, h.valid, h.recipient_eq,
    routeMessage_of_dumps h.dumps]
  rw [if_pos ⟨h.admitted, h.type_eq, h.sender_eq⟩]
  rfl

/-- **A step whose receipt is routed** routes it, whatever the status. -/
theorem routesFrame_of_routing? (h : s.step lib (.act cid (.frame rawText now clock)) = some s')
    {r : MessageReceipt} {status : DeliveryStatus}
    (hr : routing? lib s (.act cid (.frame rawText now clock)) = some (r, status)) :
    ∃ c envelope recipient, RoutesFrame lib s cid rawText now c envelope recipient s' ∧
      r = receiptOf c envelope recipient s.nextRef ∧
      status = (routeReceipt (s.manager.counted cid now) c envelope recipient s.nextRef).2 := by
  obtain ⟨c, hc, hr⟩ := Option.bind_eq_some_iff.1 hr
  split at hr
  swap
  · cases hr
  rename_i envelope errors hvalid
  split_ifs at hr with hchecks
  obtain ⟨hadmitted, htype, hsender⟩ := hchecks
  obtain ⟨recipient, hrec, hr⟩ := Option.bind_eq_some_iff.1 hr
  obtain ⟨routed, hrouted, heq⟩ := Option.map_eq_some_iff.1 hr
  have hroute := eq_ok_of_toOption hrouted
  obtain ⟨hdumps, rfl⟩ := routeMessage_eq_ok_iff.1 hroute
  rw [Prod.mk.injEq] at heq
  obtain ⟨rfl, -⟩ := validateInbound_eq_some hvalid
  refine ⟨c, envelope, recipient, ⟨hc, hadmitted, hvalid, htype, hsender, hrec, hdumps, ?_⟩,
    heq.1.symm, heq.2.symm⟩
  obtain ⟨hd, outcome, -, heffect, rfl⟩ := ServerState.step_act h
  cases heffect with
  | @frame c' hphase hc' =>
      rw [hc] at hc'
      cases hc'
      have hhandled : handleMessageSend lib (s.manager.counted cid now) c envelope s.nextRef = _ :=
        handleMessageSend_of_recipient hsender hrec
      rw [hroute] at hhandled
      have hresponds := (receiveFrame_of_admitted lib hadmitted clock s.nextRef).trans
        (handleFrame_of_handled hvalid htype hhandled cid clock)
      change Reaches ManagerOp.MovesNoReceipt _ (continueLoop cid hd
        (receiveFrame lib s.manager cid c rawText now clock s.nextRef)).1
      rw [hresponds]
      exact Reaches.continueLoop (reaches_respond_plain _ cid
        (by simp [Plain, OutboundMessage.receipt?])) (by trivial) hd

end Routing

/-! ### What a step adds -/

section Adds

variable {lib : Libraries} {s s' : ServerState} {cid : ConnId} {c : ConnectionContext}

/-- Counting a frame leaves the room of every connection as it is. -/
theorem counted_context (m : ConnectionManager) (cid : ConnId) (now : ℚ) {cid' : ConnId}
    {c : ConnectionContext} (hc : m.contexts cid' = some c) :
    ∃ c₁, (m.counted cid now).contexts cid' = some c₁ ∧ c₁.outbound = c.outbound ∧
      c₁.closing = c.closing := by
  unfold ConnectionManager.counted
  rw [modifyContext_contexts, modifyContext_contexts, modifyContext_contexts]
  by_cases hne : cid' = cid
  · subst hne
    simp only [if_true, hc, Option.map_some]
    exact ⟨_, rfl, rfl, rfl⟩
  · simp only [if_neg hne, hc]
    exact ⟨_, rfl, rfl, rfl⟩

/-- A counted frame leaves the queues as they are. -/
theorem gains_counted (m : ConnectionManager) (cid : ConnId) (now : ℚ) {cid' : ConnId}
    {c₀ : ConnectionContext} (hc₀ : m.contexts cid' = some c₀) :
    ∃ c₁, (m.counted cid now).contexts cid' = some c₁ ∧ Gains c₀ c₁ [] ∧
      (c₁.HasRoom ↔ c₀.HasRoom) := by
  obtain ⟨c₁, hc₁, hout, hclosing⟩ := counted_context m cid now hc₀
  refine ⟨c₁, hc₁, ⟨by rw [hout, List.append_nil], fun h => hclosing.trans h⟩, ?_⟩
  unfold ConnectionContext.HasRoom
  rw [hout, hclosing]

/-- Counting a frame changes nobody's room. -/
theorem takes_counted (m : ConnectionManager) (cid : ConnId) (now : ℚ) (cid' : ConnId) :
    (m.counted cid now).Takes cid' ↔ m.Takes cid' := by
  unfold Takes
  cases hc : m.contexts cid' with
  | none =>
      have hnone : (m.counted cid now).contexts cid' = none := by
        unfold ConnectionManager.counted
        rw [modifyContext_contexts, modifyContext_contexts, modifyContext_contexts]
        by_cases heq : cid' = cid
        · subst heq
          simp only [if_true, hc, Option.map_none]
        · simp only [if_neg heq, hc]
      rw [hnone]
  | some c =>
      obtain ⟨c₁, hc₁, -, hroom⟩ := gains_counted m cid now hc
      simp only [hc₁, Option.some.injEq, exists_eq_left', hroom]

/-- The connections of a name that take a message. -/
def ConnectionManager.takers (m : ConnectionManager) (k : PyStr) : List ConnId :=
  (m.connectionsFor k).filter fun cid => (m.contexts cid).any fun c => decide c.HasRoom

theorem mem_takers {m : ConnectionManager} {k : PyStr} :
    cid ∈ m.takers k ↔ cid ∈ m.connectionsFor k ∧ m.Takes cid := by
  simp [takers, Takes, Option.any_eq_true]

variable {rawText : PyStr} {now : ℚ} {envelope : InboundEnvelope} {recipient : PyStr}

/-- **What a routed message adds to a connection**: of receipts only its own, if the connection is
one of those that take it. -/
theorem RoutesFrame.gains (h : RoutesFrame lib s cid rawText now c envelope recipient s')
    (hwf : s.manager.WF) {cid' : ConnId} {c₀ : ConnectionContext}
    (hc₀ : s.manager.contexts cid' = some c₀) :
    ∃ c' l, s'.manager.contexts cid' = some c' ∧ Gains c₀ c' l ∧
      l.filterMap OutboundMessage.receipt? =
        if cid' ∈ s.manager.takers recipient then [receiptOf c envelope recipient s.nextRef]
        else [] := by
  obtain ⟨c₁, hc₁, hgains₁, hroom₁⟩ := gains_counted s.manager cid now hc₀
  -- the delivery, then the acknowledgement
  obtain ⟨c₂, l₂, hc₂, hgains₂, hl₂⟩ : ∃ c₂ l₂,
      (routeReceipt (s.manager.counted cid now) c envelope recipient s.nextRef).1.contexts cid' =
        some c₂ ∧ Gains c₁ c₂ l₂ ∧ l₂.filterMap OutboundMessage.receipt? =
          if cid' ∈ s.manager.takers recipient then [receiptOf c envelope recipient s.nextRef]
          else [] := by
    rw [fst_routeReceipt]
    by_cases hconn : (s.manager.counted cid now).isConnected recipient = true
    swap
    · have hnone : s.manager.connectionsFor recipient = [] :=
        (hwf.isConnected_eq_false_iff recipient).1 (Bool.eq_false_iff.2 hconn)
      rw [if_neg hconn, if_neg (by simp [mem_takers, hnone])]
      exact ⟨c₁, [], hc₁, .refl _, rfl⟩
    rw [if_pos hconn]
    have hdelivered := (s.manager.counted cid now).deliveredTo_deliverToClient recipient
      (.messageReceipt (receiptOf c envelope recipient s.nextRef))
    by_cases htaker : cid' ∈ s.manager.takers recipient
    · obtain ⟨htarget, d, hd, hroom⟩ := mem_takers.1 htaker
      rw [hc₀] at hd
      cases hd
      obtain ⟨q, hq, -, haccepted⟩ := hdelivered.gained cid' htarget c₁ hc₁ (hroom₁.2 hroom)
      refine ⟨_, _, hq, ⟨haccepted, id⟩, ?_⟩
      rw [if_pos htaker]
      rfl
    · refine ⟨c₁, [], ?_, .refl _, ?_⟩
      · rw [hdelivered.others cid' ?_, hc₁]
        rintro ⟨htarget, htakes⟩
        exact htaker (mem_takers.2 ⟨htarget, (takes_counted _ _ _ _).1 htakes⟩)
      · rw [if_neg htaker]
        rfl
  obtain ⟨c', l', hc', hgains', hplain⟩ := (still_of_reaches h.rest).kept cid' c₂ hc₂
  refine ⟨c', [] ++ l₂ ++ l', hc', (hgains₁.trans hgains₂).trans hgains', ?_⟩
  rw [List.nil_append, List.filterMap_append, hplain.filterMap, List.append_nil, hl₂]

/-- What it adds to the receipts of a connection. -/
theorem RoutesFrame.receipts (h : RoutesFrame lib s cid rawText now c envelope recipient s')
    (hwf : s.manager.WF) {cid' : ConnId} {c₀ : ConnectionContext}
    (hc₀ : s.manager.contexts cid' = some c₀) :
    ∃ c', s'.manager.contexts cid' = some c' ∧ c'.receipts = c₀.receipts ++
      if cid' ∈ s.manager.takers recipient then [receiptOf c envelope recipient s.nextRef]
      else [] := by
  obtain ⟨c', l, hc', hgains, hl⟩ := h.gains hwf hc₀
  exact ⟨c', hc', by rw [hgains.receipts, hl]⟩

/-- **What a routed message adds to the offline queues**: nothing while its recipient is connected;
otherwise at most its receipt, to the queue of its recipient. -/
theorem RoutesFrame.queued (h : RoutesFrame lib s cid rawText now c envelope recipient s') :
    (∀ k, s'.manager.offlineQueue.queued k = s.manager.offlineQueue.queued k) ∨
      s.manager.isConnected recipient = false ∧
        ∀ k, s'.manager.offlineQueue.queued k =
          if k = recipient then s.manager.offlineQueue.queued k ++
            [.messageReceipt (receiptOf c envelope recipient s.nextRef)]
          else s.manager.offlineQueue.queued k := by
  rw [(still_of_reaches h.rest).offlineQueue]
  have hqueued := queued_routeReceipt (m := s.manager.counted cid now) c envelope recipient s.nextRef
  by_cases hstatus :
      (routeReceipt (s.manager.counted cid now) c envelope recipient s.nextRef).2 = .queued
  · have hnot : s.manager.isConnected recipient = false :=
      isConnected_of_queued (m := s.manager.counted cid now) c envelope recipient s.nextRef hstatus
    refine .inr ⟨hnot, fun k => ?_⟩
    rw [hqueued k]
    by_cases hk : k = recipient
    · subst hk
      rw [if_pos ⟨rfl, hstatus⟩, if_pos rfl]
      rfl
    · rw [if_neg fun hboth => hk hboth.1, if_neg hk, List.append_nil]
      rfl
  · refine .inl fun k => ?_
    rw [hqueued k, if_neg fun hboth => hstatus hboth.2, List.append_nil]
    rfl

variable {identity : AuthenticatedIdentity}

/-- The messages a binding answers with. -/
def bindingResponses (m : ConnectionManager) (envelope : InboundEnvelope)
    (identity : AuthenticatedIdentity) : List OutboundMessage :=
  .authReady envelope.messageId identity.userId identity.username identity.sessionId ::
    m.offlineQueue.queued identity.username

/-- **What a binding does to the manager**: it binds, drains, and replaces the context of the
connection by the one that has been answered, closing when a message was refused. -/
theorem Binds.manager_eq (h : Binds s cid identity c s') :
    ∃ envelope c', s'.manager =
        ((s.manager.bindIdentity cid c identity).drainOffline identity.username).1.setContext cid c' ∧
      (c' = ((c.authenticate identity).enqueueResponses
            (bindingResponses s.manager envelope identity)).1 ∧
          ((c.authenticate identity).enqueueResponses
            (bindingResponses s.manager envelope identity)).2 = true ∨
        c' = ((c.authenticate identity).enqueueResponses
            (bindingResponses s.manager envelope identity)).1.markClosing) := by
  obtain ⟨envelope, hd, hs'⟩ := h.answered
  have hbound : ((s.manager.bindIdentity cid c identity).drainOffline
      identity.username).1.contexts cid = some (c.authenticate identity) := by
    simp [drainOffline, bindIdentity_contexts]
  have hresponses : (finishAuthentication s.manager cid c envelope (.ok identity)).2 =
      bindingResponses s.manager envelope identity := by
    simp [finishAuthentication, bindingResponses, drainOffline]
  have hresolved : resolvedStep s.manager cid c envelope hd (.ok identity) =
      continueLoop cid hd (respond
        ((s.manager.bindIdentity cid c identity).drainOffline identity.username).1 cid
        (bindingResponses s.manager envelope identity)) := by
    rw [← hresponses]
    rfl
  rw [hresolved, respond_of_eq hbound] at hs'
  refine ⟨envelope, ?_⟩
  by_cases htaken : ((c.authenticate identity).enqueueResponses
      (bindingResponses s.manager envelope identity)).2 = true
  · rw [if_pos htaken] at hs'
    exact ⟨_, hs', .inl ⟨rfl, htaken⟩⟩
  · rw [if_neg htaken] at hs'
    refine ⟨_, ?_, .inr rfl⟩
    rw [hs']
    simp only [continueLoop, enterFinally]
    rw [modifyContext_of_eq (setContext_contexts_self _ cid _), setContext_setContext]

/-- **What a binding adds to the connection it binds**: a prefix of `auth.ready` and the queue of the
bound name; a connection that takes nothing of it is closing. -/
theorem Binds.gains (h : Binds s cid identity c s') :
    ∃ envelope c' n, s'.manager.contexts cid = some c' ∧ c'.identity = identity.bound ∧
      Gains c c' ((bindingResponses s.manager envelope identity).take n) ∧
      (n = 0 → c'.closing = true) := by
  obtain ⟨envelope, c', hs', hcase⟩ := h.manager_eq
  obtain ⟨n, haccepted, hclosing, hall⟩ :=
    (c.authenticate identity).enqueueResponses_accepted
      (bindingResponses s.manager envelope identity)
  have hsame := ConnectionContext.enqueueResponses_sameIdentity
    (bindingResponses s.manager envelope identity) (c.authenticate identity)
  refine ⟨envelope, c', n, by rw [hs', setContext_contexts_self], ?_⟩
  rcases hcase with ⟨rfl, htaken⟩ | rfl
  · refine ⟨hsame.identity, ⟨haccepted, hclosing.trans⟩, fun hn => ?_⟩
    have hlength := hall htaken
    rw [hn] at hlength
    simp [bindingResponses] at hlength
  · exact ⟨hsame.identity, ⟨haccepted, fun _ => rfl⟩, fun _ => rfl⟩

/-- A binding leaves the other connections as they are. -/
theorem Binds.others (h : Binds s cid identity c s') {cid' : ConnId} (hne : cid' ≠ cid) :
    s'.manager.contexts cid' = s.manager.contexts cid' := by
  obtain ⟨envelope, c', hs', -⟩ := h.manager_eq
  rw [hs', setContext_contexts, if_neg hne]
  simp [drainOffline, bindIdentity_contexts, hne]

/-- **A binding empties the queue of the bound name** and leaves the others as they are. -/
theorem Binds.queued (h : Binds s cid identity c s') (k : PyStr) :
    s'.manager.offlineQueue.queued k =
      if k = identity.username then [] else s.manager.offlineQueue.queued k := by
  obtain ⟨envelope, c', hs', -⟩ := h.manager_eq
  have hqueue : s'.manager.offlineQueue =
      (s.manager.offlineQueue.drain identity.username).1 := by
    rw [hs']
    simp [drainOffline, setContext]
  rw [hqueue, OfflineQueue.queued_drain]

/-! ### Where the receipts of a connection come from -/

/-- After a step that moves no receipt, a connection has the receipts it had, or none if it has just
arrived. -/
theorem ConnectionManager.Still.receipts_back {m m' : ConnectionManager} (h : Still m m')
    {cid : ConnId} {c' : ConnectionContext} (hc' : m'.contexts cid = some c') :
    (∃ c, m.contexts cid = some c ∧ c'.receipts = c.receipts) ∨
      m.contexts cid = none ∧ c'.receipts = [] := by
  rcases h.back hc' with ⟨c, l, hc, hgains, hplain⟩ | ⟨hnone, hplain⟩
  · refine .inl ⟨c, hc, ?_⟩
    rw [hgains.receipts, hplain.filterMap, List.append_nil]
  · exact .inr ⟨hnone, hplain.filterMap⟩

/-- After a step that routes a receipt, a connection has the receipts it had, and maybe that one, if
it is a connection of the recipient. -/
theorem RoutesFrame.receipts_back {limits : TransportLimits} {clock : Datetime}
    (h : RoutesFrame lib s cid rawText now c envelope recipient s') (hinv : s.Inv limits)
    (hstep : s.step lib (.act cid (.frame rawText now clock)) = some s') {cid' : ConnId}
    {c' : ConnectionContext} (hc' : s'.manager.contexts cid' = some c') :
    ∃ c₀, s.manager.contexts cid' = some c₀ ∧ (c'.receipts = c₀.receipts ∨
      cid' ∈ s.manager.connectionsFor recipient ∧
        c'.receipts = c₀.receipts ++ [receiptOf c envelope recipient s.nextRef]) := by
  obtain ⟨c₀, hc₀⟩ := hinv.context_of_act hstep hc'
  obtain ⟨d, hd, hreceipts⟩ := h.receipts hinv.wf hc₀
  rw [hc'] at hd
  cases hd
  refine ⟨c₀, hc₀, ?_⟩
  split_ifs at hreceipts with htaker
  · exact .inr ⟨(mem_takers.1 htaker).1, hreceipts⟩
  · exact .inl (hreceipts.trans (List.append_nil _))

/-- After a step that routes a receipt, the others that wait have waited before. -/
theorem RoutesFrame.queued_back (h : RoutesFrame lib s cid rawText now c envelope recipient s')
    {r : MessageReceipt} (hne : r ≠ receiptOf c envelope recipient s.nextRef) {k : PyStr}
    (hk : .messageReceipt r ∈ s'.manager.offlineQueue.queued k) :
    .messageReceipt r ∈ s.manager.offlineQueue.queued k := by
  rcases h.queued with hsame | ⟨-, hqueued⟩
  · rwa [hsame] at hk
  · rw [hqueued] at hk
    split_ifs at hk
    · rcases List.mem_append.1 hk with hk | hk
      · exact hk
      · rw [List.mem_singleton, OutboundMessage.messageReceipt.injEq] at hk
        exact absurd hk hne
    · exact hk

/-- A binding moves a prefix of the queue of the bound name to the connection. -/
theorem Binds.receipts (h : Binds s cid identity c s') {l : List MessageReceipt}
    (hl : s.manager.offlineQueue.queued identity.username = l.map .messageReceipt) :
    ∃ c' n, s'.manager.contexts cid = some c' ∧ c'.identity = identity.bound ∧
      c'.receipts = c.receipts ++ l.take n := by
  obtain ⟨envelope, c', n, hc', hbound, hgains, -⟩ := h.gains
  have hreceipts : ∀ l : List MessageReceipt,
      (l.map OutboundMessage.messageReceipt).filterMap OutboundMessage.receipt? = l := by
    intro l
    rw [List.filterMap_map]
    exact List.filterMap_some
  refine ⟨c', n - 1, hc', hbound, ?_⟩
  rw [hgains.receipts, bindingResponses, hl]
  cases n with
  | zero => rfl
  | succ n =>
      rw [List.take_succ_cons, ← List.map_take, Nat.add_sub_cancel]
      change c.receipts ++ ((l.take n).map OutboundMessage.messageReceipt).filterMap _ = _
      rw [hreceipts]

end Adds

end EncryptChat
