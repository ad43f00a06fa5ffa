/-
**Why a message is dropped.**

`recipient_unavailable` is documented as a full queue: the offline queue of somebody who is not
connected, or the outbound queues of somebody who is.  Whether an identity is connected and whether
one of its connections takes a message are two different questions, though, and between
`mark_closing` and `unregister` a connection answers yes to the first and no to the second.

Main definitions:

* `EncryptChat.ConnectionManager.OfflineFull`, `EncryptChat.ConnectionManager.NoRoom` — the
  documented meaning of the status;
* `EncryptChat.ConnectionManager.OthersTake` — a connection that closes with room to spare is not
  the last one to take messages.

Main result:

* `EncryptChat.dropped_without_room_iff` — **in every reachable state, what is dropped found no room
  exactly when no closing connection is in the way**.
-/

import EncryptChat.OfflineDrain

set_option relaxedAutoImplicit false
set_option autoImplicit false

namespace EncryptChat

open Python Transition

namespace ConnectionManager

/-- The offline queue is full for the recipient in one of its two dimensions. -/
def OfflineFull (m : ConnectionManager) (recipient : PyStr) : Prop :=
  (∃ l, m.offlineQueue.queues.lookup recipient = some l ∧
      m.limits.maxQueuedPerRecipient ≤ l.length) ∨
    (m.offlineQueue.queues.lookup recipient = none ∧
      m.limits.maxQueuedRecipients ≤ m.offlineQueue.recipientCount)

/-- The outbound queue of the connection holds as many messages as it may. -/
def OutboundFull (m : ConnectionManager) (cid : ConnId) : Prop :=
  ∃ c, m.contexts cid = some c ∧ c.outbound.items.length = m.limits.maxPendingOutbound

/-- **There is truly no room**: no connection of the recipient is registered and the offline queue
is full, or every registered connection of the recipient has a full outbound queue. -/
def NoRoom (m : ConnectionManager) (recipient : PyStr) : Prop :=
  (m.connectionsFor recipient = [] ∧ m.OfflineFull recipient) ∨
    (m.connectionsFor recipient ≠ [] ∧ ∀ cid ∈ m.connectionsFor recipient, m.OutboundFull cid)

/-- Where a registered connection of the recipient is closing and its outbound queue is not full,
another registered connection of the recipient takes messages. -/
def OthersTake (m : ConnectionManager) (recipient : PyStr) : Prop :=
  ∀ cid ∈ m.connectionsFor recipient, ∀ c, m.contexts cid = some c → c.closing = true →
    ¬ m.OutboundFull cid → ∃ cid' ∈ m.connectionsFor recipient, m.Takes cid'

/-- An offline queue without room is full. -/
theorem WF.offlineFull_of_not_hasRoom {m : ConnectionManager} (h : m.WF)
    (hpos : 0 < m.limits.maxQueuedPerRecipient) {recipient : PyStr}
    (hroom : ¬ m.offlineQueue.HasRoom recipient) : m.OfflineFull recipient := by
  unfold OfflineQueue.HasRoom at hroom
  rw [h.maxPerRecipient, h.maxRecipients] at hroom
  cases hlookup : m.offlineQueue.queues.lookup recipient with
  | none =>
      simp only [hlookup, not_and] at hroom
      exact .inr ⟨hlookup, Nat.le_of_not_lt fun hlt => hroom hlt hpos⟩
  | some l =>
      simp only [hlookup] at hroom
      exact .inl ⟨l, hlookup, by omega⟩

/-- A connection that takes no message is closing, or its queue is full. -/
theorem WF.takes_or {m : ConnectionManager} (h : m.WF) (hpos : 0 < m.limits.maxPendingOutbound)
    {cid : ConnId} {c : ConnectionContext} (hc : m.contexts cid = some c) :
    m.Takes cid ∨ c.closing = true ∨ m.OutboundFull cid := by
  by_cases hclosing : c.closing = true
  · exact .inr (.inl hclosing)
  · have hmax := (h.context cid c hc).maxsize
    have hfull : c.outbound.full ↔ c.outbound.items.length = c.outbound.maxsize :=
      Queue.full_iff (by rw [hmax]; exact hpos)
    rw [hmax] at hfull
    by_cases hlen : c.outbound.full
    · exact .inr (.inr ⟨c, hc, hfull.1 hlen⟩)
    · exact .inl ⟨c, hc, by simpa using hclosing, hlen⟩

end ConnectionManager

open ConnectionManager

section Route

variable {m : ConnectionManager} (context : ConnectionContext) (envelope : InboundEnvelope)
  (recipient : PyStr) (ref : ℕ)

/-- **The status is `recipient_unavailable`** exactly when no registered connection of the
recipient takes the message, and the offline queue does not either where there is none. -/
theorem routeReceipt_unavailable_iff (hwf : m.WF) :
    (routeReceipt m context envelope recipient ref).2 = .recipientUnavailable ↔
      (¬ ∃ cid ∈ m.connectionsFor recipient, m.Takes cid) ∧
        ¬ (m.connectionsFor recipient = [] ∧ m.offlineQueue.HasRoom recipient) := by
  have hdelivered := routeReceipt_delivered_iff context envelope recipient ref hwf
  have hqueued := routeReceipt_queued_iff context envelope recipient ref hwf
  have hrejected := routeReceipt_ne_rejected (m := m) context envelope recipient ref
  rw [← hdelivered, ← hqueued]
  cases hstatus : (routeReceipt m context envelope recipient ref).2 with
  | delivered => simp
  | queued => simp
  | recipientUnavailable => simp
  | rejected => exact absurd hstatus hrejected

/-- **What is dropped found no room, exactly when no closing connection is in the way.** -/
theorem ConnectionManager.WF.noRoom_iff (hwf : m.WF) (hpending : 0 < m.limits.maxPendingOutbound)
    (hqueued : 0 < m.limits.maxQueuedPerRecipient) :
    ((routeReceipt m context envelope recipient ref).2 = .recipientUnavailable →
        m.NoRoom recipient) ↔ m.OthersTake recipient := by
  rw [routeReceipt_unavailable_iff context envelope recipient ref hwf]
  have hlive : ∀ cid ∈ m.connectionsFor recipient, ∃ c, m.contexts cid = some c := by
    intro cid hcid
    simp only [connectionsFor, List.mem_filter, decide_eq_true_eq] at hcid
    exact hwf.live cid hcid.2
  constructor
  · intro h cid hcid c hc hclosing hnotfull
    by_contra hnone
    have hne : m.connectionsFor recipient ≠ [] := List.ne_nil_of_mem hcid
    rcases h ⟨hnone, fun hempty => hne hempty.1⟩ with ⟨hempty, -⟩ | ⟨-, hfull⟩
    · exact hne hempty
    · exact hnotfull (hfull cid hcid)
  · rintro h ⟨hnone, hoffline⟩
    by_cases hempty : m.connectionsFor recipient = []
    · exact .inl ⟨hempty, hwf.offlineFull_of_not_hasRoom hqueued fun hroom =>
        hoffline ⟨hempty, hroom⟩⟩
    · refine .inr ⟨hempty, fun cid hcid => by_contra fun hnotfull => hnone ?_⟩
      obtain ⟨c, hc⟩ := hlive cid hcid
      rcases hwf.takes_or hpending hc with htakes | hclosing | hfull
      · exact ⟨cid, hcid, htakes⟩
      · exact h cid hcid c hc hclosing hnotfull
      · exact absurd hfull hnotfull

end Route

/-- **In every state any interleaving of the connections reaches**, a message that is dropped as
`recipient_unavailable` found no room, exactly when its receipt cannot be serialized, so that it is
not dropped as anything, or a registered connection of the recipient that closes with room in its
queue is not the last one to take messages.  The manager is the one the frame of the sender is
handled with. -/
theorem dropped_without_room_iff (lib : Libraries) (limits : TransportLimits)
    (hpos : limits.Positive) {s : ServerState} {tr : List (ServerState × ServerAction)}
    (h : (serverSystem lib limits).Run (.new limits) tr s) (cid : ConnId) (now : ℚ)
    (context : ConnectionContext) (envelope : InboundEnvelope) (recipient : PyStr) (ref : ℕ) :
    (∀ m', routeMessage lib (s.manager.counted cid now) context envelope recipient ref =
          .ok (m', .recipientUnavailable) → (s.manager.counted cid now).NoRoom recipient) ↔
      (lib.Dumps envelope.payload → (s.manager.counted cid now).OthersTake recipient) := by
  have hinv := inv_of_run h
  have hlimits : (s.manager.counted cid now).limits = limits := hinv.limits_eq
  have hiff := (hinv.wf.counted cid now).noRoom_iff context envelope recipient ref
    (by rw [hlimits]; exact hpos.maxPendingOutbound)
    (by rw [hlimits]; exact hpos.maxQueuedPerRecipient)
  constructor
  · intro hdropped hdumps
    refine hiff.1 fun hstatus =>
      hdropped (routeReceipt (s.manager.counted cid now) context envelope recipient ref).1 ?_
    exact (routeMessage_of_dumps hdumps).trans (congrArg Except.ok (Prod.ext rfl hstatus))
  · intro hothers m' hroute
    obtain ⟨hdumps, hrouted⟩ := routeMessage_eq_ok_iff.1 hroute
    exact hiff.2 (hothers hdumps) (by rw [hrouted])

/-! ### A connection that is flushing, and one that is full -/

/-- The status of a message of `alice` to `bob`, sent in this state. -/
def statusForBob (s : ServerState) : Option DeliveryStatus :=
  (s.manager.contexts aliceId).bind fun c =>
    ((validateInbound sampleLibraries c sendText).toOption.bind Prod.fst).bind fun envelope =>
      (routeMessage sampleLibraries (s.manager.counted aliceId 0) c envelope (py "bob")
        s.nextRef).toOption.map Prod.snd

theorem exists_of_statusForBob {s : ServerState} {status : DeliveryStatus}
    (h : statusForBob s = some status) :
    ∃ c envelope, s.manager.contexts aliceId = some c ∧
      (∃ errors, validateInbound sampleLibraries c sendText = .ok (some envelope, errors)) ∧
      ∃ m', routeMessage sampleLibraries (s.manager.counted aliceId 0) c envelope (py "bob")
        s.nextRef = .ok (m', status) := by
  obtain ⟨c, hc, h⟩ := Option.bind_eq_some_iff.1 h
  obtain ⟨envelope, henvelope, h⟩ := Option.bind_eq_some_iff.1 h
  refine ⟨c, envelope, hc, ?_, ?_⟩
  swap
  · obtain ⟨routed, hrouted, rfl⟩ := Option.map_eq_some_iff.1 h
    exact ⟨routed.1, eq_ok_of_toOption hrouted⟩
  cases hvalid : validateInbound sampleLibraries c sendText with
  | error e =>
      rw [hvalid] at henvelope
      cases henvelope
  | ok verdict =>
      obtain ⟨_ | envelope', errors⟩ := verdict
      · rw [hvalid] at henvelope
        cases henvelope
      · rw [hvalid] at henvelope
        cases henvelope
        exact ⟨errors, rfl⟩

/-- `alice` and `bob` authenticate, and the peer of `bob` goes away: his connection flushes. -/
def bobLeaves : List ServerAction :=
  aliceConnects ++ bobConnects.tail ++ [.act bobId (.receiveRaises .webSocketDisconnect)]

/-- `alice` and `bob` authenticate, and the connection of `bob` is not read. -/
def bobStalls : List ServerAction :=
  aliceConnects ++ [.connect bobId bobId none 0, .act bobId (.accepted none),
    .act bobId .writerGets, .act bobId (.frame authText 0 (.utc 0)),
    .act bobId (.resolved (.ok ⟨py "u2", py "bob", py "s2"⟩))]

/-- The one connection of `bob` is not full. -/
def bobHasSpace (s : ServerState) : Bool :=
  decide ((s.manager.counted aliceId 0).connectionsFor (py "bob") = [bobId]) &&
    ((s.manager.counted aliceId 0).contexts bobId).all fun c =>
      decide (c.outbound.items.length ≠ (s.manager.counted aliceId 0).limits.maxPendingOutbound)

/-- **A message dropped while there is room**: the connection of `bob` is flushing, two of its
hundred places are taken, and nothing is queued for anybody. -/
theorem dropped_with_room :
    ∃ tr s, (serverSystem sampleLibraries {}).Run (.new {}) tr s ∧
      ∃ c envelope, s.manager.contexts aliceId = some c ∧
        (∃ errors, validateInbound sampleLibraries c sendText = .ok (some envelope, errors)) ∧
        (∃ m', routeMessage sampleLibraries (s.manager.counted aliceId 0) c envelope (py "bob")
          s.nextRef = .ok (m', .recipientUnavailable)) ∧
        ¬ (s.manager.counted aliceId 0).NoRoom (py "bob") := by
  have hexec : ((serverSystem sampleLibraries {}).exec (.new {}) bobLeaves).map (fun s =>
      decide (statusForBob s = some .recipientUnavailable) && bobHasSpace s) = some true := by
    decide +kernel
  obtain ⟨s, -, hrun, hp⟩ := System.exists_run_of_exec hexec
  simp only [Bool.and_eq_true, decide_eq_true_eq, bobHasSpace, Option.all_eq_true] at hp
  obtain ⟨hstatus, htargets, hspace⟩ := hp
  obtain ⟨c, envelope, hc, hvalid, hdropped⟩ := exists_of_statusForBob hstatus
  refine ⟨_, s, hrun, c, envelope, hc, hvalid, hdropped, ?_⟩
  rintro (⟨hnone, -⟩ | ⟨-, hfull⟩)
  · rw [htargets] at hnone
    cases hnone
  · obtain ⟨c', hc', hlen⟩ := hfull bobId (by simp [htargets])
    exact hspace c' hc' hlen

/-- Where the queue of `bob` holds the one message it may, a message to him finds no room. -/
theorem dropped_without_room_bob :
    ∃ tr s, (serverSystem sampleLibraries onePending).Run (.new onePending) tr s ∧
      statusForBob s = some .recipientUnavailable ∧
      (s.manager.counted aliceId 0).NoRoom (py "bob") := by
  have hexec : ((serverSystem sampleLibraries onePending).exec (.new onePending) bobStalls).map
      (fun s => decide (statusForBob s = some .recipientUnavailable) &&
        decide ((s.manager.counted aliceId 0).connectionsFor (py "bob") = [bobId]) &&
        ((s.manager.counted aliceId 0).contexts bobId).all fun c => !c.closing) = some true := by
    decide +kernel
  obtain ⟨s, -, hrun, hp⟩ := System.exists_run_of_exec hexec
  simp only [Bool.and_eq_true, decide_eq_true_eq, Option.all_eq_true, Bool.not_eq_true'] at hp
  obtain ⟨⟨hstatus, htargets⟩, hopen⟩ := hp
  obtain ⟨c, envelope, hc, -, m', hdropped⟩ := exists_of_statusForBob hstatus
  refine ⟨_, s, hrun, hstatus, ?_⟩
  refine (dropped_without_room_iff sampleLibraries onePending
    ⟨by decide, by decide, by decide, by decide, by decide⟩ hrun aliceId 0 c envelope (py "bob")
    s.nextRef).2 ?_ m' hdropped
  intro _ cid hcid c' hc' hclosing
  rw [htargets, List.mem_singleton] at hcid
  subst hcid
  rw [hopen c' hc'] at hclosing
  cases hclosing

end EncryptChat
