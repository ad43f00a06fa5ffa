/-
**What a delivery acknowledgement tells.**

`_handle_message_send` is three functions deep: the test for a recipient, the fan-out to the
recipient's sessions and the fallback to the offline queue all read the same index.  On a manager
that satisfies the registry invariant they agree, and the status of the one acknowledgement says
exactly which queues the receipt was put on.

Main definitions:

* `EncryptChat.ConnectionManager.Takes` — a connection that is not closing and has outbound room;
* `EncryptChat.ConnectionManager.DeliveredTo` — every such session of one name gained one message
  at the tail of its queue, and nothing else changed;
* `EncryptChat.ConnectionManager.QueuedFor` — one message was appended to one name's offline list,
  and nothing else changed.

Main results:

* `EncryptChat.routeReceipt_delivered_iff`, `EncryptChat.routeReceipt_queued_iff` — when the status
  is `delivered` and when it is `queued`;
* `EncryptChat.queued_routeReceipt` — what routing does to the offline queues;
* `EncryptChat.handleMessageSend_outcome` — **the acknowledgement tells what happened**, in every
  reachable state.
-/

import EncryptChat.SenderAuthenticity

set_option relaxedAutoImplicit false
set_option autoImplicit false

namespace EncryptChat

open Python Transition

namespace ConnectionManager

/-! ### A fan-out -/

/-- The connection is not closing and has outbound room. -/
def Takes (m : ConnectionManager) (cid : ConnId) : Prop :=
  ∃ c, m.contexts cid = some c ∧ c.HasRoom

theorem enqueueOutbound_snd (m : ConnectionManager) (cid : ConnId) (message : OutboundMessage) :
    (m.enqueueOutbound cid message).2 = true ↔ m.Takes cid := by
  unfold enqueueOutbound Takes
  cases m.contexts cid with
  | none => simp
  | some c =>
      by_cases h : c.HasRoom
      · obtain ⟨q, heq, -⟩ := ConnectionContext.enqueueOutbound_of_hasRoom h message
        simp [heq, h]
      · simp [ConnectionContext.enqueueOutbound_of_not_hasRoom h, h]

/-- Sending to one connection leaves the room of the others alone. -/
theorem takes_enqueueOutbound_of_ne (m : ConnectionManager) {cid cid' : ConnId} (h : cid' ≠ cid)
    (message : OutboundMessage) : (m.enqueueOutbound cid message).1.Takes cid' ↔ m.Takes cid' := by
  unfold Takes
  rw [enqueueOutbound_contexts, if_neg h]

/-- A fan-out is accepted somewhere exactly when one of its targets takes the message. -/
theorem mem_enqueueEach (message : OutboundMessage) :
    ∀ (targets : List ConnId) (m : ConnectionManager), targets.Nodup →
      (true ∈ (m.enqueueEach message targets).2 ↔ ∃ cid ∈ targets, m.Takes cid) := by
  intro targets
  induction targets with
  | nil => intro m _; simp [enqueueEach]
  | cons t targets ih =>
      intro m hnd
      obtain ⟨ht, hnd⟩ := List.nodup_cons.1 hnd
      simp only [enqueueEach, List.mem_cons, exists_eq_or_imp]
      rw [ih _ hnd, eq_comm, enqueueOutbound_snd]
      refine or_congr_right (exists_congr fun cid => and_congr_right fun hcid => ?_)
      exact m.takes_enqueueOutbound_of_ne (by rintro rfl; exact ht hcid) message

theorem deliverToClient_snd (m : ConnectionManager) (k : PyStr) (message : OutboundMessage) :
    (m.deliverToClient k message).2 = true ↔ ∃ cid ∈ m.connectionsFor k, m.Takes cid := by
  rw [← mem_enqueueEach message _ m (m.connectionsFor_nodup k)]
  unfold deliverToClient
  cases m.connectionsFor k with
  | nil => simp [enqueueEach]
  | cons t ts => simp

/-- Every live session of the name with room gained the message at the tail of its queue, and
nothing else changed. -/
structure DeliveredTo (m m' : ConnectionManager) (k : PyStr) (message : OutboundMessage) :
    Prop where
  frame : m' = { m with contexts := m'.contexts }
  gained : ∀ cid ∈ m.connectionsFor k, ∀ c, m.contexts cid = some c → c.HasRoom →
    ∃ q, m'.contexts cid = some { c with outbound := q } ∧
      q.items = c.outbound.items ++ [message] ∧ q.accepted = c.outbound.accepted ++ [message]
  others : ∀ cid, ¬ (cid ∈ m.connectionsFor k ∧ m.Takes cid) → m'.contexts cid = m.contexts cid

theorem deliveredTo_deliverToClient (m : ConnectionManager) (k : PyStr)
    (message : OutboundMessage) : m.DeliveredTo (m.deliverToClient k message).1 k message := by
  rw [deliverToClient_fst]
  have hcontexts := enqueueEach_contexts message _ m (m.connectionsFor_nodup k)
  obtain ⟨contexts, heq⟩ := enqueueEach_eq message (m.connectionsFor k) m
  refine ⟨by rw [heq], ?_, ?_⟩
  · intro cid hcid c hc hroom
    obtain ⟨q, henq, hitems, haccepted, -⟩ :=
      ConnectionContext.enqueueOutbound_of_hasRoom hroom message
    refine ⟨q, ?_, hitems, haccepted⟩
    rw [hcontexts cid, if_pos hcid, hc, Option.map_some, henq]
  · intro cid hnot
    rw [hcontexts cid]
    split_ifs with hcid
    · cases hc : m.contexts cid with
      | none => rfl
      | some c =>
          have hroom : ¬ c.HasRoom := fun hroom => hnot ⟨hcid, c, hc, hroom⟩
          rw [Option.map_some, ConnectionContext.enqueueOutbound_of_not_hasRoom hroom]
    · rfl

/-- A delivery no session takes changes nothing. -/
theorem DeliveredTo.eq_of_not_takes {m m' : ConnectionManager} {k : PyStr}
    {message : OutboundMessage} (h : m.DeliveredTo m' k message)
    (hnone : ¬ ∃ cid ∈ m.connectionsFor k, m.Takes cid) : m' = m := by
  have hcontexts : m'.contexts = m.contexts :=
    funext fun cid => h.others cid fun ⟨hcid, htakes⟩ => hnone ⟨cid, hcid, htakes⟩
  rw [h.frame, hcontexts]

/-! ### The offline queue -/

/-- The message was appended to the offline list of the name, and nothing else changed. -/
structure QueuedFor (m m' : ConnectionManager) (k : PyStr) (message : OutboundMessage) :
    Prop where
  frame : m' = { m with offlineQueue := m'.offlineQueue }
  gained : m'.offlineQueue.queued k = m.offlineQueue.queued k ++ [message]
  others : ∀ k', k' ≠ k → m'.offlineQueue.queued k' = m.offlineQueue.queued k'

theorem queuedFor_enqueueOffline {m : ConnectionManager} {k : PyStr}
    (h : m.offlineQueue.HasRoom k) (message : OutboundMessage) :
    m.QueuedFor (m.enqueueOffline k message).1 k message := by
  have hqueued := OfflineQueue.queued_enqueue_of_room message h
  refine ⟨rfl, ?_, ?_⟩
  · simpa [enqueueOffline] using hqueued k
  · intro k' hk
    simpa [enqueueOffline, hk] using hqueued k'

/-- No live connection has the name. -/
theorem WF.isConnected_eq_false_iff {m : ConnectionManager} (h : m.WF) (k : PyStr) :
    m.isConnected k = false ↔ m.connectionsFor k = [] := by
  rw [← Bool.not_eq_true, h.isConnected_iff, not_not]

end ConnectionManager

open ConnectionManager

/-! ### Routing -/

section Route

variable {m : ConnectionManager} (context : ConnectionContext) (envelope : InboundEnvelope)
  (recipient : PyStr) (ref : ℕ)

/-- **The status is `delivered`** exactly when some live session of the recipient takes the
receipt. -/
theorem routeReceipt_delivered_iff (hwf : m.WF) :
    (routeReceipt m context envelope recipient ref).2 = .delivered ↔
      ∃ cid ∈ m.connectionsFor recipient, m.Takes cid := by
  rw [snd_routeReceipt]
  by_cases hconn : m.isConnected recipient = true
  · rw [if_pos hconn, ← m.deliverToClient_snd recipient
      (.messageReceipt (receiptOf context envelope recipient ref))]
    split_ifs with hok <;> simp [hok]
  · have hnone := (hwf.isConnected_eq_false_iff recipient).1 (by simpa using hconn)
    rw [if_neg hconn, hnone]
    split_ifs <;> simp

/-- **The status is `queued`** exactly when the recipient has no live session and the offline queue
has room. -/
theorem routeReceipt_queued_iff (hwf : m.WF) :
    (routeReceipt m context envelope recipient ref).2 = .queued ↔
      m.connectionsFor recipient = [] ∧ m.offlineQueue.HasRoom recipient := by
  rw [snd_routeReceipt]
  by_cases hconn : m.isConnected recipient = true
  · have hsome := (hwf.isConnected_iff recipient).1 hconn
    rw [if_pos hconn]
    split_ifs <;> simp [hsome]
  · have hnone := (hwf.isConnected_eq_false_iff recipient).1 (by simpa using hconn)
    rw [if_neg hconn, ← OfflineQueue.enqueue_iff m.offlineQueue recipient
      (.messageReceipt (receiptOf context envelope recipient ref))]
    simp only [hnone, true_and, enqueueOffline]
    split_ifs with hok <;> simp [hok]

theorem routeReceipt_ne_rejected :
    (routeReceipt m context envelope recipient ref).2 ≠ .rejected := by
  rw [snd_routeReceipt]
  split_ifs <;> simp

/-- What a message reported as delivered changed. -/
theorem deliveredTo_routeReceipt (hwf : m.WF)
    (h : (routeReceipt m context envelope recipient ref).2 = .delivered) :
    m.DeliveredTo (routeReceipt m context envelope recipient ref).1 recipient
      (.messageReceipt (receiptOf context envelope recipient ref)) := by
  obtain ⟨cid, hcid, -⟩ := (routeReceipt_delivered_iff context envelope recipient ref hwf).1 h
  have hconn : m.isConnected recipient = true :=
    (hwf.isConnected_iff recipient).2 (List.ne_nil_of_mem hcid)
  rw [fst_routeReceipt, if_pos hconn]
  exact m.deliveredTo_deliverToClient recipient _

/-- What a message reported as queued changed. -/
theorem queuedFor_routeReceipt (hwf : m.WF)
    (h : (routeReceipt m context envelope recipient ref).2 = .queued) :
    m.QueuedFor (routeReceipt m context envelope recipient ref).1 recipient
      (.messageReceipt (receiptOf context envelope recipient ref)) := by
  obtain ⟨hnone, hroom⟩ := (routeReceipt_queued_iff context envelope recipient ref hwf).1 h
  have hconn := (hwf.isConnected_eq_false_iff recipient).2 hnone
  rw [fst_routeReceipt, if_neg (by simp [hconn])]
  exact queuedFor_enqueueOffline hroom _

/-- A message that is not reported as delivered changed no connection. -/
theorem contexts_routeReceipt (h : (routeReceipt m context envelope recipient ref).2 ≠ .delivered) :
    (routeReceipt m context envelope recipient ref).1.contexts = m.contexts := by
  rw [fst_routeReceipt]
  by_cases hconn : m.isConnected recipient = true
  · rw [snd_routeReceipt, if_pos hconn] at h
    have hnone : ¬ ∃ cid ∈ m.connectionsFor recipient, m.Takes cid := by
      rw [← m.deliverToClient_snd recipient
        (.messageReceipt (receiptOf context envelope recipient ref))]
      exact fun hok => h (if_pos hok)
    rw [if_pos hconn, (m.deliveredTo_deliverToClient recipient _).eq_of_not_takes hnone]
  · rw [if_neg hconn]
    rfl

/-- A message is reported as queued only where its recipient is not in the index. -/
theorem isConnected_of_queued (h : (routeReceipt m context envelope recipient ref).2 = .queued) :
    m.isConnected recipient = false := by
  rw [snd_routeReceipt] at h
  by_contra hconn
  rw [if_pos (by simpa using hconn)] at h
  split_ifs at h

/-- **What routing does to the offline queues**: a message reported as queued is appended to the
queue of its recipient, and nothing else changes. -/
theorem queued_routeReceipt (k : PyStr) :
    (routeReceipt m context envelope recipient ref).1.offlineQueue.queued k =
      m.offlineQueue.queued k ++
        if k = recipient ∧ (routeReceipt m context envelope recipient ref).2 = .queued then
          [.messageReceipt (receiptOf context envelope recipient ref)]
        else [] := by
  by_cases hconn : m.isConnected recipient = true
  · have hstatus : (routeReceipt m context envelope recipient ref).2 ≠ .queued := by
      intro h
      rw [isConnected_of_queued context envelope recipient ref h] at hconn
      cases hconn
    have hframe := (m.deliveredTo_deliverToClient recipient
      (.messageReceipt (receiptOf context envelope recipient ref))).frame
    rw [if_neg fun hboth => hstatus hboth.2, List.append_nil, fst_routeReceipt, if_pos hconn,
      hframe]
  rw [fst_routeReceipt, snd_routeReceipt, if_neg hconn, if_neg hconn]
  by_cases hroom : m.offlineQueue.HasRoom recipient
  · have hok : (m.enqueueOffline recipient
        (.messageReceipt (receiptOf context envelope recipient ref))).2 = true :=
      (OfflineQueue.enqueue_iff _ _ _).2 hroom
    have hqueued := queuedFor_enqueueOffline hroom
      (.messageReceipt (receiptOf context envelope recipient ref))
    rw [if_pos hok]
    by_cases hk : k = recipient
    · subst hk
      rw [if_pos ⟨rfl, rfl⟩]
      exact hqueued.gained
    · rw [if_neg fun hboth => hk hboth.1, List.append_nil]
      exact hqueued.others k hk
  · have hrefused : (m.enqueueOffline recipient
        (.messageReceipt (receiptOf context envelope recipient ref))).2 ≠ true :=
      fun hok => hroom ((OfflineQueue.enqueue_iff _ _ _).1 hok)
    rw [if_neg hrefused, if_neg (by simp), List.append_nil]
    exact OfflineQueue.queued_enqueue_of_not_room _ hroom k

/-- A message that found no room changed nothing. -/
theorem routeReceipt_eq_of_unavailable (hwf : m.WF) (hpos : 0 < m.limits.maxQueuedPerRecipient)
    (h : (routeReceipt m context envelope recipient ref).2 = .recipientUnavailable) :
    (routeReceipt m context envelope recipient ref).1 = m := by
  have hdelivered := routeReceipt_delivered_iff context envelope recipient ref hwf
  have hqueued := routeReceipt_queued_iff context envelope recipient ref hwf
  rw [h] at hdelivered hqueued
  simp only [reduceCtorEq, false_iff] at hdelivered hqueued
  rw [fst_routeReceipt]
  by_cases hconn : m.isConnected recipient = true
  · rw [if_pos hconn]
    exact (m.deliveredTo_deliverToClient recipient _).eq_of_not_takes hdelivered
  · have hnone := (hwf.isConnected_eq_false_iff recipient).1 (by simpa using hconn)
    have hroom : ¬ m.offlineQueue.HasRoom recipient := fun hroom => hqueued ⟨hnone, hroom⟩
    have hmax : 0 < m.offlineQueue.maxPerRecipient := by rwa [hwf.maxPerRecipient]
    rw [if_neg hconn]
    simp only [enqueueOffline, OfflineQueue.enqueue_of_refused hmax hroom]

/-- An acknowledgement that is no refusal tells how the receipt was routed. -/
theorem routed_of_deliveryAck {lib : Libraries} {envelope : InboundEnvelope} {recipient : PyStr}
    {handled : ConnectionManager × List OutboundMessage} {id : Uuid} {status : DeliveryStatus}
    (h : handleMessageSend lib m context envelope ref = .ok handled)
    (hrec : envelope.recipient = some recipient) (hack : .deliveryAck id status ∈ handled.2)
    (hstatus : status ≠ .rejected) :
    handled = ((routeReceipt m context envelope recipient ref).1,
        [.deliveryAck envelope.messageId status]) ∧
      (routeReceipt m context envelope recipient ref).2 = status := by
  rcases handleMessageSend_cases h with ⟨-, rfl⟩ | ⟨-, hnone, -⟩ | ⟨recipient', -, hrec', -, rfl⟩
  · simp only [errorMessage, List.mem_cons, reduceCtorEq, OutboundMessage.deliveryAck.injEq,
      List.not_mem_nil, or_false, false_or] at hack
    exact absurd hack.2 hstatus
  · rw [hrec] at hnone
    cases hnone
  · rw [hrec, Option.some.injEq] at hrec'
    subst hrec'
    simp only [List.mem_singleton, OutboundMessage.deliveryAck.injEq] at hack
    exact ⟨by rw [hack.2], hack.2.symm⟩

end Route

/-! ### The acknowledgement -/

/-- **The acknowledgement tells exactly what happened.**  A sender that is not the name of the
connection is refused; without a recipient there is an error and no acknowledgement; a receipt that
cannot be serialized raises, before anything has changed; otherwise there is one acknowledgement,
and its status says which queues the receipt was put on. -/
theorem handleMessageSend_outcome (lib : Libraries) (limits : TransportLimits)
    (hpos : limits.Positive) {m : ConnectionManager} (h : (managerSystem limits).Reachable m)
    (context : ConnectionContext) (envelope : InboundEnvelope) (ref : ℕ) :
    (envelope.sender ≠ context.routingIdentity →
        handleMessageSend lib m context envelope ref =
          .ok (m, [errorMessage .senderMismatch (some envelope.messageId),
            .deliveryAck envelope.messageId .rejected])) ∧
      (envelope.sender = context.routingIdentity → envelope.recipient = none →
        handleMessageSend lib m context envelope ref =
          .ok (m, [errorMessage .invalidRecipient (some envelope.messageId)])) ∧
      ∀ recipient, envelope.sender = context.routingIdentity →
        envelope.recipient = some recipient →
        (∀ e, lib.dumpPayload envelope.payload = .error e →
          handleMessageSend lib m context envelope ref = .error e) ∧
        (lib.Dumps envelope.payload →
          ∃ m' status, handleMessageSend lib m context envelope ref =
              .ok (m', [.deliveryAck envelope.messageId status]) ∧
            (status = .delivered ↔ ∃ cid ∈ m.connectionsFor recipient, m.Takes cid) ∧
            (status = .delivered → m.DeliveredTo m' recipient
              (.messageReceipt (receiptOf context envelope recipient ref))) ∧
            (status = .queued ↔
              m.connectionsFor recipient = [] ∧ m.offlineQueue.HasRoom recipient) ∧
            (status = .queued → m.QueuedFor m' recipient
              (.messageReceipt (receiptOf context envelope recipient ref))) ∧
            (status = .recipientUnavailable → m' = m) ∧ status ≠ .rejected) := by
  obtain ⟨hwf, hlimits⟩ := wf_of_reachable h
  refine ⟨?_, ?_, ?_⟩
  · intro hsender
    rw [handleMessageSend, if_pos hsender]
  · intro hsender hrec
    rw [handleMessageSend, if_neg (not_not.2 hsender), hrec]
  · intro recipient hsender hrec
    refine ⟨?_, ?_⟩
    · intro e he
      rw [handleMessageSend_of_recipient hsender hrec, routeMessage, he]
      rfl
    · intro hdumps
      refine ⟨(routeReceipt m context envelope recipient ref).1,
        (routeReceipt m context envelope recipient ref).2, ?_, ?_, ?_, ?_, ?_, ?_, ?_⟩
      · rw [handleMessageSend_of_recipient hsender hrec, routeMessage_of_dumps hdumps]
        rfl
      · exact routeReceipt_delivered_iff context envelope recipient ref hwf
      · exact deliveredTo_routeReceipt context envelope recipient ref hwf
      · exact routeReceipt_queued_iff context envelope recipient ref hwf
      · exact queuedFor_routeReceipt context envelope recipient ref hwf
      · exact routeReceipt_eq_of_unavailable context envelope recipient ref hwf
          (hlimits ▸ hpos.maxQueuedPerRecipient)
      · exact routeReceipt_ne_rejected context envelope recipient ref

/-! ### Two accounts, one session each -/

/-- Two connections, bound to `alice` and to `bob`. -/
def aliceAndBob : List ManagerOp :=
  [.register (py "c1") (py "anon-1") 0, .bindIdentity (py "c1") ⟨py "u1", py "alice", py "s1"⟩,
    .register (py "c2") (py "anon-2") 0, .bindIdentity (py "c2") ⟨py "u2", py "bob", py "s2"⟩]

/-- A message to `bob`. -/
def toBob (sender : PyStr) (payload : Dict) : InboundEnvelope where
  messageId := 1
  type := .messageSend
  sender := sender
  recipient := some (py "bob")
  timestamp := .utc 0
  payload := payload

/-- An object in an object, under a key that UTF-8 cannot encode. -/
def surrogateKey : Dict := [(py "x", .dict [([0xD800], .int 1)])]

/-- Both connections are there, and that of `bob` has room. -/
theorem exists_aliceAndBob :
    ∃ m context, (managerSystem {}).Reachable m ∧ m.contexts (py "c1") = some context ∧
      context.authenticated = true ∧ context.routingIdentity = py "alice" ∧
      ∃ cid ∈ m.connectionsFor (py "bob"), m.Takes cid := by
  have hexec : ((managerSystem {}).exec (.new {}) aliceAndBob).map (fun m =>
      (m.contexts (py "c1")).any (fun c => c.authenticated && c.routingIdentity == py "alice") &&
        (m.connectionsFor (py "bob") == [py "c2"]) &&
        (m.contexts (py "c2")).any fun c => decide c.HasRoom) = some true := by decide
  obtain ⟨m, hm, -, hp⟩ := System.exists_run_of_exec hexec
  simp only [Bool.and_eq_true, Option.any_eq_true, beq_iff_eq, decide_eq_true_eq] at hp
  obtain ⟨⟨⟨c, hc, hauth, hname⟩, hbob⟩, c₂, hc₂, hroom⟩ := hp
  exact ⟨m, c, System.exec_reachable rfl hm, hc, hauth, hname, py "c2", by simp [hbob], c₂, hc₂,
    hroom⟩

/-- The message of `alice` to `bob` is delivered. -/
theorem handleMessageSend_outcome_alice :
    ∃ m context, (managerSystem {}).Reachable m ∧ m.contexts (py "c1") = some context ∧
      ∃ m', handleMessageSend sampleLibraries m context (toBob (py "alice") []) 0 =
          .ok (m', [.deliveryAck 1 .delivered]) ∧
        m.DeliveredTo m' (py "bob")
          (.messageReceipt (receiptOf context (toBob (py "alice") []) (py "bob") 0)) := by
  obtain ⟨m, c, hm, hc, -, hname, hbob⟩ := exists_aliceAndBob
  obtain ⟨-, -, hsent⟩ := handleMessageSend_outcome sampleLibraries {}
    TransportLimits.positive_default hm c (toBob (py "alice") []) 0
  obtain ⟨m', status, hout, hiff, hdelivered, -⟩ := (hsent (py "bob") hname.symm rfl).2 ⟨[], rfl⟩
  have hstatus : status = .delivered := hiff.2 hbob
  subst hstatus
  exact ⟨m, c, hm, hc, m', hout, hdelivered rfl⟩

/-- **Two messages with room at their recipient that are not delivered**: one names another sender
than its connection, and the payload of the other cannot be serialized, so that there is no
acknowledgement at all. -/
theorem handleMessageSend_of_other_sender :
    ∃ m context, (managerSystem {}).Reachable m ∧ m.contexts (py "c1") = some context ∧
      context.authenticated = true ∧ (∃ cid ∈ m.connectionsFor (py "bob"), m.Takes cid) ∧
      transportIdentifier (py "mallory") = true ∧
      handleMessageSend sampleLibraries m context (toBob (py "mallory") []) 0 =
        .ok (m, [errorMessage .senderMismatch (some 1), .deliveryAck 1 .rejected]) ∧
      handleMessageSend sampleLibraries m context (toBob (py "alice") surrogateKey) 0 =
        .error .unicodeEncodeError := by
  obtain ⟨m, c, hm, hc, hauth, hname, hbob⟩ := exists_aliceAndBob
  refine ⟨m, c, hm, hc, hauth, hbob, by decide, ?_, ?_⟩
  · have hsender : (toBob (py "mallory") []).sender ≠ c.routingIdentity := by
      rw [hname]
      decide
    rw [handleMessageSend, if_pos hsender]
    rfl
  · have hrec : (toBob (py "alice") surrogateKey).recipient = some (py "bob") := rfl
    rw [handleMessageSend_of_recipient hname.symm hrec, routeMessage]
    rfl

end EncryptChat
