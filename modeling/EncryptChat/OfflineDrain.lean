/-
**Messages acknowledged as queued.**

The offline queue and the outbound queue of a connection are bounded by independent settings.  When
the recipient authenticates, the first is emptied in one step and its messages pass one by one
through the second; the first one refused closes the connection, and what is left is in neither.

Main definitions:

* `EncryptChat.AckedQueued` — the frame is answered with the status `queued`, and this is the
  receipt it queued;
* `EncryptChat.DrainFits` — a step that drains a queue finds room for what it drains.

Main results:

* `EncryptChat.enqueueResponses_of_room` — an open queue with room for all takes all;
* `EncryptChat.ServerState.Inv.keptFor_step` — a step that fits keeps a message kept;
* `EncryptChat.queued_messages_are_kept` — **no acknowledged message is lost**, in runs whose drains
  all fit;
* `EncryptChat.queued_message_lost` — a drain that does not fit.
-/

import EncryptChat.SenderAuthenticity
import EncryptChat.Delivery

set_option relaxedAutoImplicit false
set_option autoImplicit false

namespace EncryptChat

open Python Transition ConnectionManager

/-! ### Room for all responses -/

/-- **An open queue with room for all responses takes all of them.** -/
theorem enqueueResponses_of_room (cid : ConnId) :
    ∀ (responses : List OutboundMessage) (m : ConnectionManager) {c : ConnectionContext},
      m.contexts cid = some c → c.closing = false →
      c.outbound.items.length + responses.length ≤ c.outbound.maxsize →
      (enqueueResponses m cid responses).2 = true ∧
        ∃ c', (enqueueResponses m cid responses).1.contexts cid = some c' ∧
          ConnectionContext.SameIdentity c c' ∧
          c'.outbound.accepted = c.outbound.accepted ++ responses := by
  intro responses
  induction responses with
  | nil => exact fun m c hc _ _ => ⟨rfl, c, hc, .refl c, (List.append_nil _).symm⟩
  | cons r responses ih =>
      intro m c hc hopen hroom
      rw [List.length_cons] at hroom
      have hfits : c.HasRoom := by
        refine ⟨hopen, fun hfull => ?_⟩
        rw [Queue.full_iff (by omega)] at hfull
        omega
      obtain ⟨q, heq, hitems, haccepted, hmax⟩ :=
        ConnectionContext.enqueueOutbound_of_hasRoom hfits r
      have hsent : m.enqueueOutbound cid r = (m.setContext cid { c with outbound := q }, true) := by
        simp only [ConnectionManager.enqueueOutbound, hc, heq]
      have hc₁ : (m.setContext cid { c with outbound := q }).contexts cid =
          some { c with outbound := q } := by simp [setContext]
      obtain ⟨hall, c', hc', hsame, hacc⟩ := ih _ hc₁ hopen (by
        change q.items.length + _ ≤ q.maxsize
        rw [hitems, hmax, List.length_append, List.length_singleton]
        omega)
      simp only [enqueueResponses, hsent, if_true]
      have hpushed : ConnectionContext.SameIdentity c { c with outbound := q } :=
        ⟨rfl, rfl, rfl, rfl, rfl, rfl, hmax⟩
      refine ⟨hall, c', hc', hpushed.trans hsame, ?_⟩
      rw [hacc, haccepted, List.append_assoc, List.singleton_append]

/-! ### Drains -/

/-- A step that drains the queue of a name finds the connection with room for `auth.ready` and for
everything it drains. -/
def DrainFits (s : ServerState) : ServerAction → Prop
  | .act cid (.resolved (.ok identity)) =>
      s.manager.offlineQueue.count identity.username = 0 ∨
        ∀ c ∈ s.manager.contexts cid,
          c.outbound.items.length + 1 + s.manager.offlineQueue.count identity.username ≤
            s.manager.limits.maxPendingOutbound
  | _ => True

instance (s : ServerState) : ∀ a, Decidable (DrainFits s a)
  | .connect _ _ _ _ => inferInstanceAs (Decidable True)
  | .act _ (.resolved (.ok _)) => inferInstanceAs (Decidable (_ ∨ _))
  | .act _ (.resolved (.error _)) => inferInstanceAs (Decidable True)
  | .act _ (.accepted _) | .act _ (.frame _ _ _) | .act _ (.frameRaises _ _)
  | .act _ (.receiveRaises _) | .act _ (.resolveRaises _) | .act _ (.flushed _)
  | .act _ .writerAwaited | .act _ .writerAwaitCancelled | .act _ (.closed _)
  | .act _ .writerGets | .act _ (.writerSends _) | .act _ .writerCancelled =>
      inferInstanceAs (Decidable True)

/-- **A drain that fits places every message it drains** on the connection it binds. -/
theorem placedFor_resolvedStep {m : ConnectionManager} {cid : ConnId} {c : ConnectionContext}
    (hwf : c.WF m.limits cid) (hopen : c.closing = false)
    {identity : AuthenticatedIdentity}
    (hroom : c.outbound.items.length + 1 + m.offlineQueue.count identity.username ≤
      m.limits.maxPendingOutbound) (envelope : InboundEnvelope) (hd : Handler)
    {message : OutboundMessage} (hmem : message ∈ m.offlineQueue.queued identity.username) :
    (resolvedStep m cid c envelope hd (.ok identity)).1.PlacedFor identity.username message := by
  have hdrained : ((m.bindIdentity cid c identity).drainOffline identity.username).2 =
      m.offlineQueue.queued identity.username := by
    simp [drainOffline, bindIdentity_offlineQueue]
  have hbound : ((m.bindIdentity cid c identity).drainOffline identity.username).1.contexts cid =
      some (c.authenticate identity) := by
    change (m.bindIdentity cid c identity).contexts cid = _
    rw [bindIdentity_contexts, if_pos rfl]
  have hmax : c.outbound.maxsize = m.limits.maxPendingOutbound := hwf.maxsize
  obtain ⟨hall, c', hc', hsame, hacc⟩ := enqueueResponses_of_room cid
    (.authReady envelope.messageId identity.userId identity.username identity.sessionId ::
      ((m.bindIdentity cid c identity).drainOffline identity.username).2) _ hbound hopen (by
        change c.outbound.items.length + _ ≤ c.outbound.maxsize
        rw [List.length_cons, hdrained, hmax, ← OfflineQueue.count_eq]
        omega)
  have hstep : (resolvedStep m cid c envelope hd (.ok identity)).1.contexts cid = some c' := by
    unfold resolvedStep finishAuthentication respond
    simp only [hall, continueLoop, if_true]
    exact hc'
  refine ⟨cid, c', hstep, hsame.authenticated, hsame.accountUsername, ?_⟩
  rw [hacc, hdrained]
  exact List.mem_append_right _ (List.mem_cons_of_mem _ hmem)

/-- The class of a step drains no name but the one the step resolved. -/
theorem eq_of_handlerOps_drainOffline {lib : Libraries} {m : ConnectionManager} {ref : ℕ}
    {cid : ConnId} {a : HandlerAction} {k : PyStr}
    (h : HandlerOps lib m ref cid a (.drainOffline k)) :
    ∃ identity, a = .resolved (.ok identity) ∧ identity.username = k := by
  rcases h.cases with h | h | ⟨identity, ha, h | h⟩ | hquiet
  · cases h
  · cases h
  · cases h
  · cases h
    exact ⟨identity, ha, rfl⟩
  · exact absurd hquiet id

/-- No step of a connection discards a queue. -/
theorem not_handlerOps_discardOffline {lib : Libraries} {m : ConnectionManager} {ref : ℕ}
    {cid : ConnId} {a : HandlerAction} {k : PyStr} :
    ¬ HandlerOps lib m ref cid a (.discardOffline k) := by
  intro h
  rcases h.cases with h | h | ⟨identity, -, h | h⟩ | hquiet
  · cases h
  · cases h
  · cases h
  · cases h
  · exact hquiet

/-- **A step whose drain fits keeps a message kept.** -/
theorem ServerState.Inv.keptFor_step {lib : Libraries} {limits : TransportLimits}
    {s s' : ServerState} (hinv : s.Inv limits) {a : ServerAction} (h : s.step lib a = some s')
    (hfits : DrainFits s a) {k : PyStr} {message : OutboundMessage}
    (hkept : s.manager.KeptFor k message) : s'.manager.KeptFor k message := by
  cases a with
  | connect cid hex origin now =>
      obtain ⟨-, ⟨hm, -⟩ | ⟨happ, -⟩⟩ := step_connect h
      · rwa [hm]
      · exact hkept.of_effect (ManagerOp.effect happ) (by simp) (by simp)
  | act cid a' =>
      have hreach := hinv.reaches_act h
      by_cases hdrains : ∃ identity, a' = .resolved (.ok identity) ∧ identity.username = k
      swap
      · refine hreach.keptFor (fun op hop => ⟨?_, ?_⟩) hkept
        · rintro rfl
          exact hdrains (eq_of_handlerOps_drainOffline hop)
        · rintro rfl
          exact not_handlerOps_discardOffline hop
      obtain ⟨identity, rfl, rfl⟩ := hdrains
      rcases hkept with hmem | hplaced
      · obtain ⟨hd, outcome, hhd, heffect, rfl⟩ := step_act h
        cases heffect with
        | @resolved c envelope rawToken hphase hc =>
            have hopen := (hinv.handler cid hd hhd).serving (by rw [hphase]; trivial) c hc
            have hcount : s.manager.offlineQueue.count identity.username ≠ 0 := by
              rw [OfflineQueue.count_eq]
              exact (List.length_pos_of_mem hmem).ne'
            exact .inr (placedFor_resolvedStep (hinv.wf.context cid c hc) hopen
              (hfits.resolve_left hcount c hc) envelope hd hmem)
      · exact .inr (hreach.placedFor hplaced)

/-! ### Acknowledgements -/

/-- The manager a frame is handled with: its context has been touched and has counted the frame. -/
def ConnectionManager.counted (m : ConnectionManager) (cid : ConnId) (now : ℚ) :
    ConnectionManager :=
  (m.modifyContext cid fun c => c.touch now).modifyContext cid fun c => (c.allow now).1

theorem ConnectionManager.WF.counted {m : ConnectionManager} (h : m.WF) (cid : ConnId) (now : ℚ) :
    (m.counted cid now).WF :=
  (h.apply (show ManagerOp.apply m (.touch cid now) = some _ from rfl)).apply
    (show ManagerOp.apply _ (.allow cid now) = some _ from rfl)

/-- The frame passes the size check and the rate check. -/
def Admitted (m : ConnectionManager) (c : ConnectionContext) (rawText : PyStr) (now : ℚ) : Prop :=
  (utf8Length rawText).toOption.any (fun size => size ≤ m.limits.maxMessageBytes) = true ∧
    (c.allow now).2 = true

instance (m : ConnectionManager) (c : ConnectionContext) (rawText : PyStr) (now : ℚ) :
    Decidable (Admitted m c rawText now) :=
  inferInstanceAs (Decidable (_ ∧ _))

theorem receiveFrame_of_admitted (lib : Libraries) {m : ConnectionManager} {cid : ConnId}
    {c : ConnectionContext} {rawText : PyStr} {now : ℚ} (h : Admitted m c rawText now)
    (clock : Datetime) (ref : ℕ) :
    receiveFrame lib m cid c rawText now clock ref =
      handleFrame lib (m.counted cid now) cid c rawText clock ref := by
  obtain ⟨hsize, hallow⟩ := h
  unfold receiveFrame
  cases hlength : utf8Length rawText with
  | error e => simp [hlength, Except.toOption] at hsize
  | ok size =>
      have hle : ¬ m.limits.maxMessageBytes < size := by
        simpa [hlength, Except.toOption] using hsize
      simp only [if_neg hle, hallow]
      rfl

/-- The frame is a `message.send` that is answered with the status `queued`, and this is the receipt
made from it. -/
def AckedQueued (lib : Libraries) (s : ServerState) (cid : ConnId) (rawText : PyStr) (now : ℚ)
    (c : ConnectionContext) (r : MessageReceipt) : Prop :=
  s.manager.contexts cid = some c ∧ Admitted s.manager c rawText now ∧
    ∃ envelope recipient, validateInbound lib c rawText = .ok (some envelope, []) ∧
      envelope.type = .messageSend ∧ envelope.recipient = some recipient ∧
      r = receiptOf c envelope recipient s.nextRef ∧
      ∃ handled, handleMessageSend lib (s.manager.counted cid now) c envelope s.nextRef =
          .ok handled ∧ .deliveryAck envelope.messageId .queued ∈ handled.2

/-- The acknowledgement is only given for a message that has been queued. -/
theorem queued_of_handleMessageSend {lib : Libraries} {m : ConnectionManager} (hwf : m.WF)
    {c : ConnectionContext} {envelope : InboundEnvelope} {recipient : PyStr} {ref : ℕ} {id : Uuid}
    {handled : ConnectionManager × List OutboundMessage}
    (h : handleMessageSend lib m c envelope ref = .ok handled)
    (hrec : envelope.recipient = some recipient) (hack : .deliveryAck id .queued ∈ handled.2) :
    .messageReceipt (receiptOf c envelope recipient ref) ∈
      handled.1.offlineQueue.queued recipient := by
  obtain ⟨rfl, hstatus⟩ := routed_of_deliveryAck c ref h hrec hack (by decide)
  rw [(queuedFor_routeReceipt c envelope recipient ref hwf hstatus).gained]
  exact List.mem_append_right _ (List.mem_singleton_self _)

/-- **A step that acknowledges a message as queued keeps it.** -/
theorem keptFor_of_ackedQueued {lib : Libraries} {limits : TransportLimits} {s s' : ServerState}
    (hinv : s.Inv limits) {cid : ConnId} {rawText : PyStr} {now : ℚ} {clock : Datetime}
    {c : ConnectionContext} {r : MessageReceipt}
    (h : s.step lib (.act cid (.frame rawText now clock)) = some s')
    (hacked : AckedQueued lib s cid rawText now c r) :
    s'.manager.KeptFor r.recipient (.messageReceipt r) := by
  obtain ⟨hc, hadmitted, envelope, recipient, hvalid, hsend, hrec, rfl, handled, hhandled,
    hack⟩ := hacked
  obtain ⟨hd, outcome, -, heffect, rfl⟩ := ServerState.step_act h
  cases heffect with
  | @frame c' hphase hc' =>
      rw [hc] at hc'
      cases hc'
      have hqueued := queued_of_handleMessageSend (hinv.wf.counted cid now) hhandled hrec hack
      have hresponds : receiveFrame lib s.manager cid c rawText now clock s.nextRef =
          respond handled.1 cid handled.2 := by
        rw [receiveFrame_of_admitted lib hadmitted,
          handleFrame_of_handled hvalid hsend hhandled cid clock]
      change (continueLoop cid hd (receiveFrame lib s.manager cid c rawText now clock
        s.nextRef)).1.KeptFor recipient _
      rw [hresponds]
      -- what follows drains nothing
      have hreach := Reaches.continueLoop (K := fun op => op = .markClosing cid ∨
        op.QuietPutting fun _ => True) ((reaches_respond (P := fun _ => True) handled.1 cid
          fun r (_ : r ∈ handled.2) => trivial).mono fun _ => .inr) (.inl rfl) hd
      refine hreach.keptFor (fun op hop => ⟨?_, ?_⟩) (.inl hqueued)
      · rintro rfl
        rcases hop with hop | hop
        · cases hop
        · exact hop.1
      · rintro rfl
        rcases hop with hop | hop
        · cases hop
        · exact hop.1

/-- **No acknowledged message is lost**, in runs whose drains all fit: a message that was answered
with the status `queued` is, at the end of the run, queued for its recipient or placed on a
connection bound to it. -/
theorem queued_messages_are_kept (lib : Libraries) (limits : TransportLimits) {s : ServerState}
    {tr : List (ServerState × ServerAction)}
    (h : (serverSystem lib limits).Run (.new limits) tr s) (hfits : ∀ e ∈ tr, DrainFits e.1 e.2)
    {u : ServerState} {cid : ConnId} {rawText : PyStr} {now : ℚ} {clock : Datetime}
    (hmem : (u, ServerAction.act cid (.frame rawText now clock)) ∈ tr) {c : ConnectionContext}
    {r : MessageReceipt} (hacked : AckedQueued lib u cid rawText now c r) :
    s.manager.KeptFor r.recipient (.messageReceipt r) := by
  obtain ⟨tr₁, tr₂, u', rfl, hrun, hstep, hrest⟩ := h.of_mem hmem
  have hinv := inv_of_run hrun
  change u.step lib (.act cid (.frame rawText now clock)) = some u' at hstep
  have hkept : s.Inv limits ∧ s.manager.KeptFor r.recipient (.messageReceipt r) := by
    refine hrest.invariant_of (C := DrainFits)
      (P := fun t => t.Inv limits ∧ t.manager.KeptFor r.recipient (.messageReceipt r)) ?_ ?_
      ⟨hinv.step hstep, keptFor_of_ackedQueued hinv hstep hacked⟩
    · rintro t a t' ⟨ht, hkept⟩ hfit hst
      exact ⟨ht.step hst, ht.keptFor_step hst hfit hkept⟩
    · exact fun e he => hfits e (by simp [he])
  exact hkept.2

/-! ### Two drains -/

/-- The receipt of a frame that is answered with the status `queued`, computed. -/
def ackedQueued? (lib : Libraries) (s : ServerState) (cid : ConnId) (rawText : PyStr) (now : ℚ)
    (c : ConnectionContext) : Option MessageReceipt :=
  match validateInbound lib c rawText with
  | .ok (some envelope, []) =>
      match handleMessageSend lib (s.manager.counted cid now) c envelope s.nextRef with
      | .ok handled =>
          if Admitted s.manager c rawText now ∧ envelope.type = .messageSend ∧
              handled.2.any
                (fun | .deliveryAck id .queued => id == envelope.messageId | _ => false) = true then
            envelope.recipient.map fun recipient => receiptOf c envelope recipient s.nextRef
          else none
      | .error _ => none
  | _ => none

theorem ackedQueued_of_eq_some {lib : Libraries} {s : ServerState} {cid : ConnId}
    {rawText : PyStr} {now : ℚ} {c : ConnectionContext} {r : MessageReceipt}
    (hc : s.manager.contexts cid = some c) (h : ackedQueued? lib s cid rawText now c = some r) :
    AckedQueued lib s cid rawText now c r := by
  unfold ackedQueued? at h
  split at h
  · rename_i envelope hvalid
    split at h
    · rename_i handled hhandled
      split_ifs at h with hif
      obtain ⟨recipient, hrec, rfl⟩ := Option.map_eq_some_iff.1 h
      obtain ⟨message, hmem, hack⟩ := List.any_eq_true.1 hif.2.2
      refine ⟨hc, hif.1, envelope, recipient, hvalid, hif.2.1, hrec, rfl, handled, hhandled, ?_⟩
      split at hack
      · rw [← eq_of_beq hack]
        exact hmem
      · cases hack
    · cases h
  · cases h

/-- `alice` connects and authenticates; her next frame is a message to `bob`. -/
def aliceConnects : List ServerAction := aliceSends.dropLast

/-- The connection of `bob`. -/
def bobId : ConnId := py "0000000000000000" ++ py "000000000000000b"

/-- The message of `alice`; then `bob` connects and authenticates, and his connection is not
read. -/
def bobConnects : List ServerAction :=
  [.act aliceId (.frame sendText 0 (.utc 0)), .connect bobId bobId none 0,
    .act bobId (.accepted none), .act bobId (.frame authText 0 (.utc 0)),
    .act bobId (.resolved (.ok ⟨py "u2", py "bob", py "s2"⟩))]

/-- Under the default limits the message reaches `bob`. -/
theorem queued_messages_are_kept_bob :
    ∃ tr s r, (serverSystem sampleLibraries {}).Run (.new {}) tr s ∧ r.recipient = py "bob" ∧
      (∃ u now clock c, (u, ServerAction.act aliceId (.frame sendText now clock)) ∈ tr ∧
        AckedQueued sampleLibraries u aliceId sendText now c r) ∧
      s.manager.KeptFor (py "bob") (.messageReceipt r) := by
  have hexec : ((serverSystem sampleLibraries {}).exec (.new {}) aliceConnects).map (fun u =>
      ((serverSystem sampleLibraries {}).traceOf (.new {}) aliceConnects).all
          (fun e => decide (DrainFits e.1 e.2)) &&
        (u.manager.contexts aliceId).any (fun c =>
          (ackedQueued? sampleLibraries u aliceId sendText 0 c).any
            fun r => decide (r.recipient = py "bob")) &&
        ((serverSystem sampleLibraries {}).exec u bobConnects).isSome &&
        ((serverSystem sampleLibraries {}).traceOf u bobConnects).all
          fun e => decide (DrainFits e.1 e.2)) = some true := by decide +kernel
  obtain ⟨u, -, hrun, hp⟩ := System.exists_run_of_exec hexec
  simp only [Bool.and_eq_true, List.all_eq_true, Option.any_eq_true, decide_eq_true_eq,
    Option.isSome_iff_exists] at hp
  obtain ⟨⟨⟨hfits, c, hc, r, hacked, hbob⟩, s, hs⟩, hfits'⟩ := hp
  have hacked := ackedQueued_of_eq_some hc hacked
  have hrun' := hrun.trans (System.exec_run hs)
  have hmem : (u, ServerAction.act aliceId (.frame sendText 0 (.utc 0))) ∈
      (serverSystem sampleLibraries {}).traceOf (.new {}) aliceConnects ++
        (serverSystem sampleLibraries {}).traceOf u bobConnects :=
    List.mem_append_right _ List.mem_cons_self
  have hfit : ∀ e ∈ (serverSystem sampleLibraries {}).traceOf (.new {}) aliceConnects ++
      (serverSystem sampleLibraries {}).traceOf u bobConnects, DrainFits e.1 e.2 := fun e he =>
    (List.mem_append.1 he).elim (hfits e) (hfits' e)
  refine ⟨_, s, r, hrun', hbob, ⟨u, 0, _, c, hmem, hacked⟩, ?_⟩
  rw [← hbob]
  exact queued_messages_are_kept sampleLibraries {} hrun' hfit hmem hacked

/-- **A message lost in a drain**: the outbound queue of `bob` holds one message, and is full with
`connection.ready` when his offline queue is emptied. -/
theorem queued_message_lost :
    onePending.Positive ∧
      ∃ tr s r, (serverSystem sampleLibraries onePending).Run (.new onePending) tr s ∧
        (∃ u now clock c, (u, ServerAction.act aliceId (.frame sendText now clock)) ∈ tr ∧
          AckedQueued sampleLibraries u aliceId sendText now c r) ∧
        ¬ s.manager.KeptFor r.recipient (.messageReceipt r) := by
  refine ⟨⟨by decide, by decide, by decide, by decide, by decide⟩, ?_⟩
  have hexec : ((serverSystem sampleLibraries onePending).exec (.new onePending) aliceConnects).map
      (fun u => (u.manager.contexts aliceId).any (fun c =>
          (ackedQueued? sampleLibraries u aliceId sendText 0 c).any
            fun r => decide (r.recipient = py "bob")) &&
        ((serverSystem sampleLibraries onePending).exec u bobConnects).any fun s =>
          (s.manager.offlineQueue.queued (py "bob")).isEmpty &&
            (s.manager.contexts aliceId).all (fun c => c.accountUsername != some (py "bob")) &&
            (s.manager.contexts bobId).all fun c =>
              c.outbound.accepted.all fun m => m.receipt?.isNone) = some true := by decide +kernel
  obtain ⟨u, -, hrun, hp⟩ := System.exists_run_of_exec hexec
  simp only [Bool.and_eq_true, Option.any_eq_true, decide_eq_true_eq, List.isEmpty_iff,
    Option.all_eq_true, List.all_eq_true, bne_iff_ne, Option.isNone_iff_eq_none] at hp
  obtain ⟨⟨c, hc, r, hacked, hbob⟩, s, hs, ⟨hqueued, halice⟩, hbobs⟩ := hp
  have hrun' := hrun.trans (System.exec_run hs)
  refine ⟨_, s, r, hrun', ⟨u, 0, .utc 0, c, List.mem_append_right _ List.mem_cons_self,
    ackedQueued_of_eq_some hc hacked⟩, ?_⟩
  rw [hbob]
  rintro (hmem | ⟨cid, c', hc', -, hname, hmem⟩)
  · rw [hqueued] at hmem
    cases hmem
  · -- only the two connections have a context
    obtain ⟨v, hex, origin, now, hconn⟩ := exists_connect_of_context hrun' hc'
    have hcid : cid = aliceId ∨ cid = bobId := by
      rcases List.mem_append.1 hconn with hconn | hconn
      · have := System.mem_of_mem_traceOf hconn
        simp [aliceConnects, aliceSends] at this
        exact .inl this.1
      · have := System.mem_of_mem_traceOf hconn
        simp [bobConnects] at this
        exact .inr this.1
    rcases hcid with rfl | rfl
    · exact halice c' hc' hname
    · have := hbobs c' hc' _ hmem
      cases this

end EncryptChat
