/-
**The log is an exact account of the messages that were taken over.**

A message is taken over when its receipt comes onto a queue, be it of a connection of its recipient
or the one that waits for it.  The transport logs this as `message_routed` or `message_queued`, with
the connection, the account and the session of the sender.  The records of these two events are, in
order, the receipts that came onto a queue in the run: none is missing, none is false, and each
names the user id and the session id that were bound to the connection together with the account
name the receipt was sent under.

Main definitions:

* `EncryptChat.takesOver` — the record is one of the two;
* `EncryptChat.ServerState.TakesOver` — a step brings a receipt onto a queue;
* `EncryptChat.Documents` — the record names the sender of the receipt.

Main results:

* `EncryptChat.filter_serverLog` — what a step logs of it, and what it does;
* `EncryptChat.audit_trail_is_exact` — **the log of a run accounts for its receipts**.
-/

import EncryptChat.ReceiptOrder
import EncryptChat.TransportLog

set_option relaxedAutoImplicit false
set_option autoImplicit false

namespace EncryptChat

open Python Transition ConnectionManager

/-! ### Reading a record -/

theorem dictGet_dictAssign_of_ne (d : Dict) {key k : PyStr} (h : k ≠ key) (value : Json) :
    dictGet (dictAssign d key value) k = dictGet d k := by
  have hkey : (k == key) = false := beq_eq_false_iff_ne.2 h
  -- the items of other keys are left alone
  have hitems : (d.map fun item => if item.1 == key then (key, value) else item).lookup k =
      d.lookup k := by
    induction d with
    | nil => rfl
    | cons item d ih =>
        obtain ⟨k', v⟩ := item
        rw [List.map_cons, List.lookup_cons]
        by_cases hk : k' = key
        · subst hk
          simp only [beq_self_eq_true, if_true, List.lookup_cons, hkey, ih]
        · have hne : (k' == key) = false := beq_eq_false_iff_ne.2 hk
          simp only [hne, Bool.false_eq_true, if_false, List.lookup_cons, ih]
  unfold dictAssign dictGet
  split_ifs
  · exact hitems
  · rw [List.lookup_append, List.lookup_cons, hkey, List.lookup_nil, Option.or_none]

/-- What is not updated stays. -/
theorem dictGet_dictUpdate_of_notMem {other : Dict} {k : PyStr} :
    ∀ {d : Dict}, k ∉ other.map Prod.fst → dictGet (dictUpdate d other) k = dictGet d k := by
  induction other with
  | nil => exact fun _ => rfl
  | cons item other ih =>
      intro d h
      rw [List.map_cons, List.mem_cons, not_or] at h
      exact (ih h.2).trans (dictGet_dictAssign_of_ne d h.1 item.2)

/-- The event of a record. -/
theorem dictGet_event (event : PyStr) (context : Option ConnectionContext) {fields : Dict}
    (h : py "event" ∉ fields.map Prod.fst) :
    dictGet (logRecord event context fields) (py "event") = some (.str event) := by
  rw [logRecord, dictGet_dictUpdate_of_notMem h, dictGet, List.lookup_cons, beq_self_eq_true]

/-- The record says that a message was taken over. -/
def takesOver (record : Dict) : Bool :=
  match dictGet record (py "event") with
  | some (.str event) => event == py "message_routed" || event == py "message_queued"
  | _ => false

theorem takesOver_logRecord (event : PyStr) (context : Option ConnectionContext) {fields : Dict}
    (h : py "event" ∉ fields.map Prod.fst) :
    takesOver (logRecord event context fields) =
      (event == py "message_routed" || event == py "message_queued") := by
  rw [takesOver, dictGet_event event context h]

/-- No record says that a message was taken over. -/
def Silent (records : List Dict) : Prop := records.filter takesOver = []

theorem silent_nil : Silent [] := rfl

/-- A record of another event. -/
theorem silent_logRecord {event : PyStr} (context : Option ConnectionContext) {fields : Dict}
    (hevent : (event == py "message_routed" || event == py "message_queued") = false)
    (hfields : py "event" ∉ fields.map Prod.fst) : Silent [logRecord event context fields] := by
  rw [Silent, List.filter_cons_of_neg, List.filter_nil]
  rw [takesOver_logRecord event context hfields, hevent]
  simp

theorem Silent.append {l l' : List Dict} (h : Silent l) (h' : Silent l') : Silent (l ++ l') := by
  unfold Silent at h h' ⊢
  rw [List.filter_append, h, h', List.append_nil]

/-! ### The functions that take nothing over -/

section Silence

variable (lib : Libraries) (m : ConnectionManager) (cid : ConnId) (context : ConnectionContext)

theorem silent_validationFailed (reason : PyStr) : Silent (validationFailed context reason) :=
  silent_logRecord _ (by decide) (by simp; decide)

theorem silent_validateInboundLog (rawText : PyStr) :
    Silent (validateInboundLog lib context rawText) := by
  have hfailed := silent_validationFailed context
  unfold validateInboundLog
  cases lib.loads rawText with
  | jsonDecodeError => exact hfailed _
  | valueError | recursionError => exact silent_nil
  | value v =>
      cases v with
      | null | bool | int | float | str | list => exact hfailed _
      | dict parsed =>
          dsimp only
          unfold validateDictLog
          split_ifs
          · exact hfailed _
          cases (dictGet parsed (py "type")).bind InboundEnvelope.typeField with
          | none => exact hfailed _
          | some type =>
              dsimp only
              unfold validateTypedLog
              split
              · exact hfailed _
              split
              · exact silent_logRecord _ (by decide) (by simp; decide)
              cases InboundEnvelope.modelValidate lib parsed with
              | none => exact hfailed _
              | some envelope => exact silent_nil

theorem silent_beginAuthenticationLog (envelope : InboundEnvelope) :
    Silent (beginAuthenticationLog context envelope) := by
  rw [beginAuthenticationLog_eq]
  split_ifs
  · exact silent_nil
  cases beginAuthentication context envelope with
  | ok rawToken => exact silent_nil
  | error responses => exact silent_logRecord _ (by decide) (by simp; decide)

theorem silent_finishAuthenticationLog (result : Except AuthError AuthenticatedIdentity) :
    Silent (finishAuthenticationLog context result) := by
  cases result with
  | error e => exact silent_logRecord _ (by decide) (by simp; decide)
  | ok identity => exact silent_logRecord _ (by decide) (by simp)

theorem silent_respondLog (responses : List OutboundMessage) :
    Silent (respondLog m cid responses) := by
  unfold respondLog
  dsimp only
  split_ifs
  · exact silent_nil
  · exact silent_logRecord _ (by decide) (by simp)

theorem silent_receiveRaisesLog (e : PyError) : Silent (receiveRaisesLog context e) := by
  unfold receiveRaisesLog
  split
  · split_ifs <;> exact silent_logRecord _ (by decide) (by simp)
  · exact silent_nil

theorem silent_unregisterLog : Silent (unregisterLog m cid) :=
  silent_logRecord _ (by decide) (by simp [activeConnections]; decide)

theorem silent_connectLog (s : ServerState) (hex : PyStr) (origin : Option PyStr) (now : ℚ) :
    Silent (connectLog s cid hex origin now) := by
  have hrejected (code : ProtocolErrorCode) : Silent [rejectUpgradeLog code] :=
    silent_logRecord _ (by decide) (by simp; decide)
  unfold connectLog
  split_ifs
  · exact (silent_logRecord none (by decide) (by simp)).append (hrejected _)
  · split
    · exact hrejected _
    · exact silent_nil

/-- Whatever a connection does but handle a frame takes no message over. -/
theorem silent_handlerLog (ref : ℕ) (hd : Handler) {a : HandlerAction}
    (ha : ∀ rawText now clock, a ≠ .frame rawText now clock) :
    Silent (handlerLog lib m ref cid hd a) := by
  have hunregistered := silent_unregisterLog m cid
  cases a with
  | frame rawText now clock => exact absurd rfl (ha rawText now clock)
  | accepted outcome =>
      cases outcome with
      | none => exact silent_logRecord _ (by decide) (by simp [activeConnections]; decide)
      | some e => exact silent_nil
  | receiveRaises e =>
      simp only [handlerLog]
      cases m.contexts cid with
      | none => exact silent_nil
      | some context => exact silent_receiveRaisesLog context e
  | resolved result =>
      simp only [handlerLog]
      split
      · exact (silent_finishAuthenticationLog _ result).append (silent_respondLog _ cid _)
      · exact silent_nil
  | writerAwaited =>
      simp only [handlerLog]
      split
      · exact silent_nil
      · exact hunregistered
  | writerAwaitCancelled => exact hunregistered
  | frameRaises | resolveRaises | flushed | closed | writerGets | writerSends | writerCancelled =>
      exact silent_nil

end Silence

/-! ### The functions that may take something over -/

/-- The record of a message that was taken over. -/
def takeoverRecord (context : ConnectionContext) (envelope : InboundEnvelope) :
    DeliveryStatus → Option Dict
  | .delivered => some (messageRecord (py "message_routed") context envelope
      (py "status", .str DeliveryStatus.delivered.value))
  | .queued => some (messageRecord (py "message_queued") context envelope
      (py "status", .str DeliveryStatus.queued.value))
  | _ => none

section Frames

variable {lib : Libraries} {m : ConnectionManager} {cid : ConnId} {context : ConnectionContext}
  {envelope : InboundEnvelope} {recipient : PyStr}

theorem takesOver_messageRecord (event : PyStr) (context : ConnectionContext)
    (envelope : InboundEnvelope) {field : PyStr × Json} (hfield : field.1 ≠ py "event") :
    takesOver (messageRecord event context envelope field) =
      (event == py "message_routed" || event == py "message_queued") := by
  refine takesOver_logRecord event _ ?_
  simp only [List.map_cons, List.map_nil, List.mem_cons, List.not_mem_nil, or_false, not_or]
  exact ⟨by decide, hfield.symm⟩

theorem silent_messageRejected (context : ConnectionContext) (envelope : InboundEnvelope)
    (reason : PyStr) : Silent [messageRejected context envelope reason] := by
  have hrejected : takesOver (messageRejected context envelope reason) = false :=
    (takesOver_messageRecord _ context envelope (by dsimp only; decide)).trans (by decide)
  rw [Silent, List.filter_cons_of_neg (by simp [hrejected]), List.filter_nil]

/-- **Routing logs what it did.** -/
theorem filter_routeReceiptLog (m : ConnectionManager) (context : ConnectionContext)
    (envelope : InboundEnvelope) (recipient : PyStr) (ref : ℕ) :
    (routeReceiptLog m context envelope recipient ref).filter takesOver =
      (takeoverRecord context envelope
        (routeReceipt m context envelope recipient ref).2).toList := by
  have hrejected := silent_messageRejected context envelope
  have htaken {event : PyStr} (status : Json)
      (hevent : (event == py "message_routed" || event == py "message_queued") = true) :
      [messageRecord event context envelope (py "status", status)].filter takesOver =
        [messageRecord event context envelope (py "status", status)] :=
    List.filter_eq_self.2 fun record hrecord => by
      rw [List.mem_singleton.1 hrecord,
        takesOver_messageRecord event context envelope (by dsimp only; decide), hevent]
  unfold routeReceiptLog routeReceipt
  dsimp only
  split_ifs
  · exact htaken _ (by decide)
  · exact hrejected _
  · exact htaken _ (by decide)
  · exact hrejected _

/-- The frame is a `message.send` that passes every check, and its receipt can be serialized. -/
structure Accepts (lib : Libraries) (m : ConnectionManager) (context : ConnectionContext)
    (rawText : PyStr) (now : ℚ) (envelope : InboundEnvelope) (recipient : PyStr) : Prop where
  admitted : Admitted m context rawText now
  valid : validateInbound lib context rawText = .ok (some envelope, [])
  type_eq : envelope.type = .messageSend
  sender_eq : envelope.sender = context.routingIdentity
  recipient_eq : envelope.recipient = some recipient
  dumps : lib.Dumps envelope.payload

theorem receiveFrameLog_of_admitted {rawText : PyStr} {now : ℚ}
    (h : Admitted m context rawText now) (clock : Datetime) (ref : ℕ) :
    receiveFrameLog lib m cid context rawText now clock ref =
      handleFrameLog lib (m.counted cid now) cid context rawText clock ref := by
  obtain ⟨hsize, hrate⟩ := h
  unfold receiveFrameLog
  cases hlength : utf8Length rawText with
  | error e => simp [hlength, Except.toOption] at hsize
  | ok size =>
      simp only [hlength, Except.toOption, Option.any_some, decide_eq_true_eq] at hsize
      dsimp only
      rw [if_neg (not_lt.2 hsize), if_neg (by simp [hrate])]
      rfl

/-- A frame that is not admitted takes nothing over. -/
theorem silent_of_not_admitted {rawText : PyStr} {now : ℚ}
    (h : ¬ Admitted m context rawText now) (clock : Datetime) (ref : ℕ) :
    Silent (receiveFrameLog lib m cid context rawText now clock ref) := by
  unfold receiveFrameLog
  cases hlength : utf8Length rawText with
  | error e => exact silent_nil
  | ok size =>
      dsimp only
      split_ifs with hlarge hrate
      · exact silent_logRecord _ (by decide) (by simp; decide)
      · exact silent_logRecord _ (by decide) (by simp)
      · refine absurd ⟨?_, by simpa using hrate⟩ h
        simp only [hlength, Except.toOption, Option.any_some, decide_eq_true_eq]
        omega

/-- **A frame that passes every check logs how it was routed.** -/
theorem filter_receiveFrameLog (cid : ConnId) {rawText : PyStr} {now : ℚ}
    (h : Accepts lib m context rawText now envelope recipient) (clock : Datetime) (ref : ℕ) :
    (receiveFrameLog lib m cid context rawText now clock ref).filter takesOver =
      (takeoverRecord context envelope
        (routeReceipt (m.counted cid now) context envelope recipient ref).2).toList := by
  obtain ⟨dumped, hdumped⟩ := h.dumps
  have hvalidation := silent_validateInboundLog lib context rawText
  rw [receiveFrameLog_of_admitted h.admitted, handleFrameLog, h.valid, List.filter_append,
    hvalidation, List.nil_append]
  dsimp only
  unfold dispatchLog
  rw [h.type_eq]
  dsimp only
  rw [if_pos (by decide), List.filter_append, handlePrivileged, h.type_eq]
  dsimp only
  rw [handleMessageSend_of_recipient h.sender_eq h.recipient_eq, routeMessage_of_dumps h.dumps]
  dsimp only [Except.map]
  rw [silent_respondLog, List.append_nil, handlePrivilegedLog, h.type_eq]
  dsimp only
  rw [handleMessageSendLog, if_neg (not_not.2 h.sender_eq), h.recipient_eq]
  simp only [routeMessageLog, hdumped]
  exact filter_routeReceiptLog _ context envelope recipient ref

/-- Any other frame takes nothing over. -/
theorem silent_receiveFrameLog {rawText : PyStr} {now : ℚ}
    (h : ∀ envelope recipient, ¬ Accepts lib m context rawText now envelope recipient)
    (clock : Datetime) (ref : ℕ) :
    Silent (receiveFrameLog lib m cid context rawText now clock ref) := by
  by_cases hadmitted : Admitted m context rawText now
  swap
  · exact silent_of_not_admitted hadmitted clock ref
  rw [receiveFrameLog_of_admitted hadmitted]
  have hvalidation := silent_validateInboundLog lib context rawText
  unfold handleFrameLog
  refine hvalidation.append ?_
  cases hvalid : validateInbound lib context rawText with
  | error e => exact silent_nil
  | ok verdict =>
      obtain ⟨_ | envelope, errors⟩ := verdict
      · exact silent_respondLog _ cid errors
      obtain ⟨rfl, -⟩ := validateInbound_eq_some hvalid
      dsimp only
      unfold dispatchLog
      cases htype : envelope.type with
      | authAuthenticate =>
          refine (silent_beginAuthenticationLog context envelope).append ?_
          cases beginAuthentication context envelope with
          | error responses => exact silent_respondLog _ cid responses
          | ok rawToken => exact silent_nil
      | heartbeatPing => exact silent_respondLog _ cid _
      | messageSend =>
          dsimp only
          rw [if_pos (by decide)]
          refine Silent.append ?_ ?_
          swap
          · split
            · exact silent_nil
            · exact silent_respondLog _ cid _
          rw [handlePrivilegedLog, htype]
          dsimp only
          unfold handleMessageSendLog
          by_cases hsender : envelope.sender = context.routingIdentity
          swap
          · rw [if_pos hsender]
            exact silent_messageRejected context envelope _
          rw [if_neg (not_not.2 hsender)]
          cases hrecipient : envelope.recipient with
          | none => exact silent_nil
          | some recipient =>
              dsimp only
              unfold routeMessageLog
              cases hdump : lib.dumpPayload envelope.payload with
              | error e => exact silent_nil
              | ok dumped =>
                  exact absurd ⟨hadmitted, hvalid, htype, hsender, hrecipient, dumped, hdump⟩
                    (h envelope recipient)
      | queueStatus =>
          dsimp only
          rw [if_pos (by decide), handlePrivilegedLog, handlePrivileged, htype]
          exact silent_respondLog _ cid _
      | connectionReady | messageReceipt | messageDeliveryAck | heartbeatPong | protocolError
      | authReady =>
          dsimp only
          rw [if_neg (by decide)]
          exact silent_respondLog _ cid _

end Frames

/-! ### What comes onto a queue -/

/-- A receipt is where it was after operations that move none. -/
theorem held_iff_of_still {m m' : ConnectionManager} (h : Still m m') (r : MessageReceipt) :
    m'.Held (.messageReceipt r) ↔ m.Held (.messageReceipt r) := by
  constructor
  · rintro (⟨cid, c', hc', hr⟩ | ⟨k, hk⟩)
    · rw [← ConnectionContext.mem_receipts] at hr
      rcases h.receipts_back hc' with ⟨c, hc, heq⟩ | ⟨-, heq⟩
      · rw [heq, ConnectionContext.mem_receipts] at hr
        exact .inl ⟨cid, c, hc, hr⟩
      · rw [heq] at hr
        cases hr
    · rw [h.offlineQueue] at hk
      exact .inr ⟨k, hk⟩
  · rintro (⟨cid, c, hc, hr⟩ | ⟨k, hk⟩)
    · obtain ⟨c', l, hc', hgains, -⟩ := h.kept cid c hc
      refine .inl ⟨cid, c', hc', ?_⟩
      rw [hgains.accepted]
      exact List.mem_append_left _ hr
    · rw [← h.offlineQueue] at hk
      exact .inr ⟨k, hk⟩

/-- **A new receipt comes onto a queue exactly when its sender is told so.** -/
theorem held_routeReceipt_iff {m : ConnectionManager} (hwf : m.WF) (context : ConnectionContext)
    (envelope : InboundEnvelope) (recipient : PyStr) {ref : ℕ}
    (hnew : ¬ m.Held (.messageReceipt (receiptOf context envelope recipient ref))) :
    (routeReceipt m context envelope recipient ref).1.Held
        (.messageReceipt (receiptOf context envelope recipient ref)) ↔
      (takeoverRecord context envelope
        (routeReceipt m context envelope recipient ref).2).isSome = true := by
  have hdelivered := routeReceipt_delivered_iff context envelope recipient ref hwf
  cases hstatus : (routeReceipt m context envelope recipient ref).2 with
  | delivered =>
      obtain ⟨cid, hcid, c, hc, hroom⟩ := hdelivered.1 hstatus
      obtain ⟨q, hq, -, haccepted⟩ :=
        (deliveredTo_routeReceipt context envelope recipient ref hwf hstatus).gained cid hcid c hc
          hroom
      refine iff_of_true (.inl ⟨cid, _, hq, ?_⟩) rfl
      rw [haccepted]
      exact List.mem_append_right _ (List.mem_singleton_self _)
  | queued =>
      refine iff_of_true (.inr ⟨recipient, ?_⟩) rfl
      rw [(queuedFor_routeReceipt context envelope recipient ref hwf hstatus).gained]
      exact List.mem_append_right _ (List.mem_singleton_self _)
  | rejected => exact absurd hstatus (routeReceipt_ne_rejected context envelope recipient ref)
  | recipientUnavailable =>
      refine iff_of_false (fun hheld => hnew ?_) (by simp [takeoverRecord])
      rcases hheld with ⟨cid, c, hc, hr⟩ | ⟨k, hk⟩
      · rw [contexts_routeReceipt context envelope recipient ref (by simp [hstatus])] at hc
        exact .inl ⟨cid, c, hc, hr⟩
      · rw [queued_routeReceipt, hstatus] at hk
        exact .inr ⟨k, by simpa using hk⟩

/-! ### Steps -/

namespace ServerState

variable {lib : Libraries} {limits : TransportLimits} {s s' : ServerState}

/-- The step brings the receipt onto a queue. -/
def TakesOver (s s' : ServerState) (r : MessageReceipt) : Prop :=
  s'.manager.Held (.messageReceipt r) ∧ ¬ s.manager.Held (.messageReceipt r)

/-- A step that handles no frame that passes every check. -/
theorem Inv.not_takesOver (hinv : s.Inv limits) {a : ServerAction} (h : s.step lib a = some s')
    (hnone : routedReceipt? lib s a = none) (r : MessageReceipt) : ¬ TakesOver s s' r := by
  rintro ⟨hheld, hnot⟩
  have hrouted := (routedReceipt?_of_held hinv h hheld).resolve_left hnot
  rw [hnone] at hrouted
  cases hrouted

/-- What the handling of a frame that passes every check routes. -/
theorem routedReceipt?_of_accepts {cid : ConnId} {c : ConnectionContext} {rawText : PyStr} {now : ℚ}
    {envelope : InboundEnvelope} {recipient : PyStr} (hc : s.manager.contexts cid = some c)
    (h : Accepts lib s.manager c rawText now envelope recipient) (clock : Datetime) :
    routedReceipt? lib s (.act cid (.frame rawText now clock)) =
      some (receiptOf c envelope recipient s.nextRef) := by
  simp only [routedReceipt?, hc, Option.bind_some, h.valid, h.recipient_eq, Option.map_some]
  rw [if_pos ⟨h.admitted, h.type_eq, h.sender_eq⟩]

/-- Any other frame brings no receipt onto a queue. -/
theorem Inv.not_takesOver_of_frame (hinv : s.Inv limits) {cid : ConnId} {c : ConnectionContext}
    {rawText : PyStr} {now : ℚ} {clock : Datetime}
    (h : s.step lib (.act cid (.frame rawText now clock)) = some s')
    (hc : s.manager.contexts cid = some c)
    (hnone : ∀ envelope recipient, ¬ Accepts lib s.manager c rawText now envelope recipient)
    (r : MessageReceipt) : ¬ TakesOver s s' r := by
  rintro ⟨hheld, hnot⟩
  rcases hinv.step_cases h with ⟨hstill, -⟩ | ⟨cid', rawText', now', clock', c', envelope,
    recipient, ha, hroutes⟩ | ⟨cid', identity, c', ha, -⟩
  · exact hnot ((held_iff_of_still (still_of_reaches hstill) r).1 hheld)
  · cases ha
    have hc' := hroutes.present
    rw [hc, Option.some.injEq] at hc'
    subst hc'
    exact hnone envelope recipient ⟨hroutes.admitted, hroutes.valid, hroutes.type_eq,
      hroutes.sender_eq, hroutes.recipient_eq, hroutes.dumps⟩
  · cases ha

/-- The handling of a frame that passes every check brings its receipt onto a queue exactly when the
log says so. -/
theorem Inv.takesOver_iff (hinv : s.Inv limits) {cid : ConnId} {c : ConnectionContext}
    {rawText : PyStr} {now : ℚ} {clock : Datetime} {envelope : InboundEnvelope} {recipient : PyStr}
    (h : s.step lib (.act cid (.frame rawText now clock)) = some s')
    (hc : s.manager.contexts cid = some c)
    (haccepts : Accepts lib s.manager c rawText now envelope recipient)
    (hnew : ¬ s.manager.Held (.messageReceipt (receiptOf c envelope recipient s.nextRef)))
    (r : MessageReceipt) :
    TakesOver s s' r ↔ r = receiptOf c envelope recipient s.nextRef ∧
      (takeoverRecord c envelope
        (routeReceipt (s.manager.counted cid now) c envelope recipient s.nextRef).2).isSome =
          true := by
  have hrouted := routedReceipt?_of_accepts hc haccepts clock
  have hcounted := held_iff_of_still (still_of_reaches (reaches_counted s.manager cid now))
    (receiptOf c envelope recipient s.nextRef)
  have hroute := held_routeReceipt_iff (hinv.wf.counted cid now) c envelope recipient
    (mt hcounted.1 hnew)
  -- after the routing only acknowledgements are put on queues
  have hrest : s'.manager.Held (.messageReceipt (receiptOf c envelope recipient s.nextRef)) ↔
      (routeReceipt (s.manager.counted cid now) c envelope recipient s.nextRef).1.Held
        (.messageReceipt (receiptOf c envelope recipient s.nextRef)) := by
    obtain ⟨hd, outcome, hhd, heffect, rfl⟩ := step_act h
    cases heffect with
    | frame hphase hc' =>
        rw [hc] at hc'
        cases hc'
        refine held_iff_of_still (still_of_reaches (Reaches.continueLoop ?_ (by trivial) hd)) _
        have hhandled :
            handleMessageSend lib (s.manager.counted cid now) c envelope s.nextRef = _ :=
          handleMessageSend_of_recipient haccepts.sender_eq haccepts.recipient_eq
        rw [routeMessage_of_dumps haccepts.dumps] at hhandled
        rw [receiveFrame_of_admitted lib haccepts.admitted,
          handleFrame_of_handled haccepts.valid haccepts.type_eq hhandled]
        exact reaches_respond_plain _ cid (by simp [Plain, OutboundMessage.receipt?])
  constructor
  · rintro ⟨hheld, hnot⟩
    have hr := (routedReceipt?_of_held hinv h hheld).resolve_left hnot
    rw [hrouted, Option.some.injEq] at hr
    subst hr
    exact ⟨rfl, hroute.1 (hrest.1 hheld)⟩
  · rintro ⟨rfl, hsome⟩
    exact ⟨hrest.2 (hroute.2 hsome), hnew⟩

/-- **What a step logs of it, and what it does**: nothing, or it brings one receipt onto a queue and
logs its one record. -/
theorem Inv.filter_serverLog (hinv : s.Inv limits) {a : ServerAction}
    (h : s.step lib a = some s')
    (hfresh : ∀ r, s.manager.Held (.messageReceipt r) → r.ref < s.nextRef) :
    (Silent (serverLog lib (s, a)) ∧ ∀ r, ¬ TakesOver s s' r) ∨
      ∃ cid c envelope recipient status record, s.manager.contexts cid = some c ∧
        c.authenticated = true ∧ (∃ rawText now clock, a = .act cid (.frame rawText now clock)) ∧
        takeoverRecord c envelope status = some record ∧
        (serverLog lib (s, a)).filter takesOver = [record] ∧
        ∀ r, TakesOver s s' r ↔ r = receiptOf c envelope recipient s.nextRef := by
  cases a with
  | connect cid hex origin now =>
      exact .inl ⟨silent_connectLog cid s hex origin now, hinv.not_takesOver h rfl⟩
  | act cid a =>
      obtain ⟨hd, outcome, hhd, heffect, -⟩ := step_act h
      have hlog : serverLog lib (s, .act cid a) =
          handlerLog lib s.manager s.nextRef cid hd a := by
        simp only [serverLog, hhd, Option.elim_some]
      rw [hlog]
      cases heffect with
      | @frame c hphase hc rawText now clock =>
          simp only [handlerLog, hc, Option.elim_some]
          by_cases hnone : ∀ envelope recipient,
              ¬ Accepts lib s.manager c rawText now envelope recipient
          · exact .inl ⟨silent_receiveFrameLog hnone clock s.nextRef,
              hinv.not_takesOver_of_frame h hc hnone⟩
          simp only [not_forall, not_not] at hnone
          obtain ⟨envelope, recipient, haccepts⟩ := hnone
          have hnew : ¬ s.manager.Held
              (.messageReceipt (receiptOf c envelope recipient s.nextRef)) :=
            fun hheld => absurd (hfresh _ hheld) (lt_irrefl _)
          have hiff := hinv.takesOver_iff h hc haccepts hnew
          have hfilter := filter_receiveFrameLog cid haccepts clock s.nextRef
          cases hrecord : takeoverRecord c envelope
              (routeReceipt (s.manager.counted cid now) c envelope recipient s.nextRef).2 with
          | none =>
              rw [hrecord] at hfilter hiff
              refine .inl ⟨hfilter, fun r hr => ?_⟩
              exact absurd ((hiff r).1 hr).2 (by simp)
          | some record =>
              rw [hrecord] at hfilter hiff
              refine .inr ⟨cid, c, envelope, recipient, _, record, hc,
                authenticated_of_messageSend haccepts.valid haccepts.type_eq,
                ⟨rawText, now, clock, rfl⟩, hrecord, hfilter, fun r => ?_⟩
              rw [hiff r]
              exact and_iff_left rfl
      | accepted | frameRaises | receiveRaises | resolved | resolveRaises | flushed | writerEnded
      | writerFailed | writerAwaitCancelled | closed | writerGets | writerSends
      | writerCancelled =>
          exact .inl ⟨silent_handlerLog lib s.manager cid s.nextRef hd (by simp),
            hinv.not_takesOver h rfl⟩

end ServerState

/-! ### Runs -/

/-- The record of a message that was taken over from a connection with this identity. -/
def auditRecord (event status : PyStr) (cid : ConnId) (identity : AuthenticatedIdentity)
    (messageId : Uuid) : Dict :=
  [(py "event", .str event), (py "connection_id", .str cid), (py "authenticated", .bool true),
    (py "user_id", .str identity.userId), (py "session_id", .str identity.sessionId),
    (py "message_id", .str (uuidStr messageId)), (py "status", .str status)]

/-- The record is that of the receipt: it names the user id and the session id of an identity that
was resolved for the connection in the run, and whose account name is the sender of the receipt. -/
def Documents (tr : List (ServerState × ServerAction)) (r : MessageReceipt) (record : Dict) :
    Prop :=
  ∃ cid identity v, (v, ServerAction.act cid (.resolved (.ok identity))) ∈ tr ∧
    identity.username = r.sender ∧
    (record = auditRecord (py "message_routed") (py "delivered") cid identity r.messageId ∨
      record = auditRecord (py "message_queued") (py "queued") cid identity r.messageId)

theorem Documents.mono {tr tr' : List (ServerState × ServerAction)} (hsub : tr ⊆ tr')
    {r : MessageReceipt} {record : Dict} (h : Documents tr r record) : Documents tr' r record := by
  obtain ⟨cid, identity, v, hmem, hrest⟩ := h
  exact ⟨cid, identity, v, hsub hmem, hrest⟩

/-- What a record says of a connection with an identity. -/
theorem messageRecord_of_identity {c : ConnectionContext} {identity : AuthenticatedIdentity}
    (h : c.identity = identity.bound) (event : PyStr) (envelope : InboundEnvelope)
    (status : PyStr) :
    messageRecord event c envelope (py "status", .str status) =
      auditRecord event status c.connectionId identity envelope.messageId := by
  have hauth : c.authenticated = true := congrArg (fun i => i.1) h
  have huser : c.userId = some identity.userId := congrArg (fun i => i.2.1) h
  have hsession : c.sessionId = some identity.sessionId := congrArg (fun i => i.2.2.2) h
  unfold messageRecord logRecord contextFields
  simp only [Option.elim_some, hauth, huser, hsession, Option.map_some, Option.toList_some]
  rfl

/-- A record of a step is the document of the receipt it brings onto a queue. -/
theorem documents_of_takeoverRecord {lib : Libraries} {limits : TransportLimits} {s : ServerState}
    {tr : List (ServerState × ServerAction)}
    (hrun : (serverSystem lib limits).Run (.new limits) tr s) {cid : ConnId}
    {c : ConnectionContext} (hc : s.manager.contexts cid = some c)
    (hauth : c.authenticated = true) {envelope : InboundEnvelope} {status : DeliveryStatus}
    {record : Dict} (h : takeoverRecord c envelope status = some record) (recipient : PyStr) :
    Documents tr (receiptOf c envelope recipient s.nextRef) record := by
  obtain ⟨v, identity, hmem, hbound⟩ := exists_resolved_of_authenticated hrun hc hauth
  have hname : c.accountUsername = some identity.username :=
    congrArg (fun i => i.2.2.1) hbound
  have hcid : c.connectionId = cid := ((inv_of_run hrun).wf.context cid c hc).connectionId
  refine ⟨cid, identity, v, hmem, ?_, ?_⟩
  · simp [receiptOf, ConnectionContext.routingIdentity, hname]
  cases status with
  | delivered =>
      rw [takeoverRecord, messageRecord_of_identity hbound, hcid, Option.some.injEq] at h
      exact .inl h.symm
  | queued =>
      rw [takeoverRecord, messageRecord_of_identity hbound, hcid, Option.some.injEq] at h
      exact .inr h.symm
  | recipientUnavailable | rejected => cases h

/-- **The log accounts for every message that was taken over.**  There is a list of receipts, in the
order in which they were routed, that holds exactly those which a step of the run brought onto a
queue, and so every one that is on a queue at the end; and the records of the two events are their
documents, one by one. -/
theorem audit_trail_is_exact (lib : Libraries) (limits : TransportLimits) {s : ServerState}
    {tr : List (ServerState × ServerAction)}
    (h : (serverSystem lib limits).Run (.new limits) tr s) :
    ∃ receipts : List MessageReceipt, receipts.Pairwise MessageReceipt.Before ∧
      (∀ r, r ∈ receipts ↔
        ∃ u a u', (u, a) ∈ tr ∧ u.step lib a = some u' ∧ u.TakesOver u' r) ∧
      (∀ r, s.manager.Held (.messageReceipt r) → r ∈ receipts) ∧
      List.Forall₂ (Documents tr) receipts ((tr.flatMap (serverLog lib)).filter takesOver) := by
  have hheld {tr : List (ServerState × ServerAction)} {s : ServerState}
      (h : (serverSystem lib limits).Run (.new limits) tr s) {r : MessageReceipt}
      (hr : s.manager.Held (.messageReceipt r)) :
      ∃ u a u', (u, a) ∈ tr ∧ u.step lib a = some u' ∧ u.TakesOver u' r := by
    have hnone : ¬ (ServerState.new limits).manager.Held (.messageReceipt r) := by
      rintro (⟨cid, c, hc, -⟩ | ⟨k, hmem⟩)
      · simp [ServerState.new, ConnectionManager.new] at hc
      · simp [ServerState.new, ConnectionManager.new, OfflineQueue.new,
          OfflineQueue.queued] at hmem
    obtain ⟨tr₁, tr₂, u, a, u', rfl, -, hstep, -, hbefore, hafter⟩ :=
      h.exists_creator (P := fun u => u.manager.Held (.messageReceipt r)) hnone hr
    exact ⟨u, a, u', by simp, hstep, hafter, hbefore⟩
  suffices hlists : ∃ receipts : List MessageReceipt,
      receipts.Pairwise MessageReceipt.Before ∧
      (∀ r, r ∈ receipts ↔
        ∃ u a u', (u, a) ∈ tr ∧ u.step lib a = some u' ∧ u.TakesOver u' r) ∧
      List.Forall₂ (Documents tr) receipts ((tr.flatMap (serverLog lib)).filter takesOver) by
    obtain ⟨receipts, hpairwise, hmem, hdocuments⟩ := hlists
    exact ⟨receipts, hpairwise, hmem, fun r hr => (hmem r).2 (hheld h hr), hdocuments⟩
  induction h with
  | nil => exact ⟨[], .nil, by simp, .nil⟩
  | @snoc u w tr a hrun hstep ih =>
      obtain ⟨receipts, hpairwise, hmem, hdocuments⟩ := ih
      have hstep' : u.step lib a = some w := hstep
      have hlt := (routedReceipts_pairwise hrun).2
      have hlog : ((tr ++ [(u, a)]).flatMap (serverLog lib)).filter takesOver =
          (tr.flatMap (serverLog lib)).filter takesOver ++
            (serverLog lib (u, a)).filter takesOver := by
        rw [List.flatMap_append, List.filter_append, List.flatMap_singleton]
      -- the steps of the longer run
      have hsteps (r : MessageReceipt) : (∃ v b v', (v, b) ∈ tr ++ [(u, a)] ∧
          v.step lib b = some v' ∧ v.TakesOver v' r) ↔ r ∈ receipts ∨ u.TakesOver w r := by
        rw [hmem r]
        constructor
        · rintro ⟨v, b, v', hvb, hv, htakes⟩
          rcases List.mem_append.1 hvb with hvb | hvb
          · exact .inl ⟨v, b, v', hvb, hv, htakes⟩
          · cases List.mem_singleton.1 hvb
            rw [hstep', Option.some.injEq] at hv
            exact .inr (hv ▸ htakes)
        · rintro (⟨v, b, v', hvb, hv, htakes⟩ | htakes)
          · exact ⟨v, b, v', List.mem_append_left _ hvb, hv, htakes⟩
          · exact ⟨u, a, w, by simp, hstep', htakes⟩
      have hold := hdocuments.imp fun r record =>
        Documents.mono (List.subset_append_left tr [(u, a)])
      rcases (inv_of_run hrun).filter_serverLog hstep'
          (fun r hr => hlt r (mem_routedReceipts_of_held hrun hr)) with
        ⟨hsilent, hnone⟩ | ⟨cid, c, envelope, recipient, status, record, hc, hauth, -, hrecord,
          hfilter, hiff⟩
      · refine ⟨receipts, hpairwise, fun r => ?_, ?_⟩
        · rw [hsteps r, or_iff_left (hnone r)]
        · rw [hlog, hsilent, List.append_nil]
          exact hold
      · refine ⟨receipts ++ [receiptOf c envelope recipient u.nextRef], ?_, fun r => ?_, ?_⟩
        · refine pairwise_before_snoc hpairwise fun r hr => ?_
          -- an earlier receipt was routed by an earlier step
          obtain ⟨v, b, v', hvb, hv, htakes⟩ := (hmem r).1 hr
          obtain ⟨tr₁, tr₂, v'', rfl, hrun₁, -, -⟩ := hrun.of_mem hvb
          have hrouted := (routedReceipt?_of_held (inv_of_run hrun₁) hv htakes.1).resolve_left
            htakes.2
          exact hlt r (List.mem_filterMap.2 ⟨(v, b), by simp, hrouted⟩)
        · rw [hsteps r, List.mem_append, List.mem_singleton, hiff r]
        · rw [hlog, hfilter]
          exact List.rel_append hold (.cons
            ((documents_of_takeoverRecord hrun hc hauth hrecord recipient).mono
              (List.subset_append_left tr [(u, a)])) .nil)

/-- The note of `alice` is in the log. -/
theorem audit_trail_is_exact_alice :
    ∃ tr s, (serverSystem noteLibraries onePending).Run (.new onePending) tr s ∧
      ∃ r record, record ∈ (tr.flatMap (serverLog noteLibraries)).filter takesOver ∧
        .messageReceipt r ∈ s.manager.offlineQueue.queued (py "bob") ∧ Documents tr r record := by
  obtain ⟨s, -, hrun, hp⟩ := exists_aliceNotes
  obtain ⟨receipts, -, -, hheld, hdocuments⟩ :=
    audit_trail_is_exact noteLibraries onePending hrun
  rw [List.any_eq_true] at hp
  obtain ⟨m, hm, hr⟩ := hp
  cases m with
  | messageReceipt r =>
      obtain ⟨record, hrecord, hdocument⟩ :=
        System.exists_mem_of_forall₂ hdocuments (hheld r (.inr ⟨_, hm⟩))
      exact ⟨_, s, hrun, r, record, hrecord, hm, hdocument⟩
  | connectionReady | authReady | deliveryAck | heartbeatPong | queueStatus | protocolError =>
      simp [OutboundMessage.receipt?] at hr

end EncryptChat
