/-
**The registry invariant of the connection manager.**

`_connections` and `_by_client` are updated by hand in three operations, and one of them re-keys an
entry after mutating the field it is keyed by.  The invariant says what they must agree on, and
that every bound holds; each operation of `EncryptChat.ManagerOp` preserves it.

Main definition:

* `EncryptChat.ConnectionManager.WF` — **the invariant**.

Main results:

* `EncryptChat.ConnectionManager.WF.apply` — every operation preserves the invariant;
* `EncryptChat.ConnectionManager.wf_of_reachable` — it holds in every reachable state;
* `EncryptChat.ConnectionManager.registry_and_memory_bounds` — what follows for the two maps, the
  lookups and the memory the manager holds.
-/

import EncryptChat.ManagerStep

set_option relaxedAutoImplicit false
set_option autoImplicit false

namespace EncryptChat

open Python Transition

/-! ### The invariant -/

/-- What holds of the context object with a given id, at any time. -/
structure ConnectionContext.WF (c : ConnectionContext) (limits : TransportLimits) (cid : ConnId) :
    Prop where
  connectionId : c.connectionId = cid
  maxsize : c.outbound.maxsize = limits.maxPendingOutbound
  /-- The context is authenticated exactly when an identity is bound to it. -/
  bound : c.authenticated = c.accountUsername.isSome ∧ c.authenticated = c.userId.isSome ∧
    c.authenticated = c.sessionId.isSome

theorem ConnectionContext.WF.of_sameIdentity {c c' : ConnectionContext} {limits : TransportLimits}
    {cid : ConnId} (h : c.WF limits cid) (hsame : ConnectionContext.SameIdentity c c') :
    c'.WF limits cid where
  connectionId := hsame.connectionId.trans h.connectionId
  maxsize := hsame.maxsize.trans h.maxsize
  bound := by
    rw [hsame.authenticated, hsame.accountUsername, hsame.userId, hsame.sessionId]
    exact h.bound

namespace ConnectionManager

/-- **The registry invariant.** -/
structure WF (m : ConnectionManager) : Prop where
  /-- `_by_client` is the inverse index of `_connections` by routing identity. -/
  indexed : ∀ cid k, cid ∈ m.clients k ↔
    cid ∈ m.connections ∧ ∃ c, m.contexts cid = some c ∧ c.routingIdentity = k
  /-- A registered id has a context object. -/
  live : ∀ cid ∈ m.connections, ∃ c, m.contexts cid = some c
  noEmptySet : m.NoEmptySet
  connections_le : m.connections.card ≤ m.limits.maxTotalConnections
  context : ∀ cid c, m.contexts cid = some c → c.WF m.limits cid
  maxPerRecipient : m.offlineQueue.maxPerRecipient = m.limits.maxQueuedPerRecipient
  maxRecipients : m.offlineQueue.maxRecipients = m.limits.maxQueuedRecipients

theorem wf_new (limits : TransportLimits) : (new limits).WF where
  indexed := by simp [new, clients]
  live := by simp [new]
  noEmptySet := by simp [NoEmptySet, new]
  connections_le := by simp [new]
  context := by simp [new]
  maxPerRecipient := rfl
  maxRecipients := rfl

/-- A manager whose contexts have evolved keeps the invariant. -/
theorem WF.contextsEvolve {m : ConnectionManager} (h : m.WF)
    {contexts : ConnId → Option ConnectionContext} {P : OutboundMessage → Prop}
    {closes : ConnId → Prop}
    (hevolve : ContextsEvolve P closes m { m with contexts := contexts }) :
    ({ m with contexts := contexts } : ConnectionManager).WF := by
  refine ⟨?_, ?_, h.noEmptySet, h.connections_le, ?_, h.maxPerRecipient, h.maxRecipients⟩
  · intro cid k
    refine (h.indexed cid k).trans (and_congr_right fun _ => ?_)
    constructor
    · rintro ⟨c, hc, rfl⟩
      obtain ⟨c', hc', hcc⟩ := hevolve.exists_of_some hc
      exact ⟨c', hc', hcc.toSameIdentity.routingIdentity⟩
    · rintro ⟨c', hc', rfl⟩
      obtain ⟨c, hc, hcc⟩ := hevolve.exists_of_eq_some hc'
      exact ⟨c, hc, hcc.toSameIdentity.routingIdentity.symm⟩
  · intro cid hcid
    obtain ⟨c, hc⟩ := h.live cid hcid
    obtain ⟨c', hc', -⟩ := hevolve.exists_of_some hc
    exact ⟨c', hc'⟩
  · intro cid c' hc'
    obtain ⟨c, hc, hcc⟩ := hevolve.exists_of_eq_some hc'
    exact (h.context cid c hc).of_sameIdentity hcc.toSameIdentity

/-- The offline queue is independent of the registry. -/
theorem WF.offlineQueue {m : ConnectionManager} (h : m.WF) {q : OfflineQueue OutboundMessage}
    (hper : q.maxPerRecipient = m.offlineQueue.maxPerRecipient)
    (hrec : q.maxRecipients = m.offlineQueue.maxRecipients) :
    ({ m with offlineQueue := q } : ConnectionManager).WF :=
  ⟨h.indexed, h.live, h.noEmptySet, h.connections_le, h.context, hper.trans h.maxPerRecipient,
    hrec.trans h.maxRecipients⟩

/-! ### The three operations on the registry -/

theorem WF.registered {m : ConnectionManager} (h : m.WF) {cid : ConnId}
    (hfresh : m.contexts cid = none) (hcard : m.connections.card < m.limits.maxTotalConnections)
    (k : PyStr) (now : ℚ) : (m.registered cid k now).WF := by
  have hnew : cid ∉ m.connections := by
    intro hmem
    obtain ⟨c, hc⟩ := h.live cid hmem
    rw [hfresh] at hc
    cases hc
  refine ⟨?_, ?_, ?_, ?_, ?_, h.maxPerRecipient, h.maxRecipients⟩
  · intro cid' k'
    rw [mem_clients_registered, registered_connections, registered_contexts, Finset.mem_insert]
    by_cases hcid : cid' = cid
    · subst hcid
      have hold : cid' ∉ m.clients k' := fun hmem => hnew ((h.indexed cid' k').1 hmem).1
      simp [hold, freshContext, ConnectionContext.routingIdentity, eq_comm]
    · simp only [hcid, and_false, false_or, if_false]
      exact h.indexed cid' k'
  · intro cid' hcid'
    rw [registered_contexts]
    split_ifs with hcid
    · exact ⟨_, rfl⟩
    · exact h.live cid' ((Finset.mem_insert.1 hcid').resolve_left hcid)
  · have hset : (({ m with connections := insert cid m.connections }).setContext cid
        (freshContext m.limits cid k now)).NoEmptySet := h.noEmptySet
    exact hset.addClient k cid
  · rw [registered_connections, Finset.card_insert_of_notMem hnew]
    exact hcard
  · intro cid' c hc
    rw [registered_contexts] at hc
    split_ifs at hc with hcid
    · cases hc
      exact ⟨hcid.symm, rfl, rfl, rfl, rfl⟩
    · exact h.context cid' c hc

theorem WF.bindIdentity {m : ConnectionManager} (h : m.WF) {cid : ConnId} {c : ConnectionContext}
    (hc : m.contexts cid = some c) (hcid : cid ∈ m.connections)
    (identity : AuthenticatedIdentity) : (m.bindIdentity cid c identity).WF := by
  refine ⟨?_, ?_, ?_, ?_, ?_, ?_, ?_⟩
  · intro cid' k
    rw [mem_clients_bindIdentity, bindIdentity_connections, bindIdentity_contexts]
    by_cases hne : cid' = cid
    · subst hne
      -- its only key is its routing identity, and there it is removed
      have hold : cid' ∈ m.clients k → k = c.routingIdentity := by
        intro hmem
        obtain ⟨-, c', hc', rfl⟩ := (h.indexed cid' k).1 hmem
        rw [hc] at hc'
        cases hc'
        rfl
      simp only [and_true, if_true, Option.some.injEq, exists_eq_left', hcid, true_and]
      constructor
      · rintro (rfl | ⟨hmem, hk⟩)
        · rfl
        · exact absurd (hold hmem) hk
      · exact fun hk => Or.inl hk.symm
    · simp only [hne, and_false, false_or, not_false_eq_true, and_true, if_false]
      exact h.indexed cid' k
  · intro cid' hcid'
    rw [bindIdentity_contexts]
    split_ifs with hne
    · exact ⟨_, rfl⟩
    · exact h.live cid' (by rwa [bindIdentity_connections] at hcid')
  · have hset : (m.setContext cid (c.authenticate identity)).NoEmptySet := h.noEmptySet
    exact (hset.removeClient _ cid).addClient _ cid
  · simpa [ConnectionManager.bindIdentity, setContext] using h.connections_le
  · intro cid' c' hc'
    rw [bindIdentity_contexts] at hc'
    have hlimits : (m.bindIdentity cid c identity).limits = m.limits := by
      simp [ConnectionManager.bindIdentity, setContext]
    rw [hlimits]
    split_ifs at hc' with hne
    · cases hc'
      have hold := h.context cid c hc
      exact ⟨hne ▸ hold.connectionId, hold.maxsize, rfl, rfl, rfl⟩
    · exact h.context cid' c' hc'
  · simpa [ConnectionManager.bindIdentity, setContext] using h.maxPerRecipient
  · simpa [ConnectionManager.bindIdentity, setContext] using h.maxRecipients

theorem WF.unregister {m : ConnectionManager} (h : m.WF) (cid : ConnId) :
    (m.unregister cid).WF := by
  by_cases hcid : cid ∈ m.connections
  swap
  · rw [unregister_of_notMem hcid]
    exact h
  obtain ⟨c, hc⟩ := h.live cid hcid
  have hlimits : (m.unregister cid).limits = m.limits := by
    rw [unregister_of_mem hcid hc, removeClient_limits]
    rfl
  have hoffline : (m.unregister cid).offlineQueue = m.offlineQueue := by
    rw [unregister_of_mem hcid hc, removeClient_offlineQueue]
    rfl
  refine ⟨?_, ?_, ?_, ?_, ?_, ?_, ?_⟩
  · intro cid' k
    rw [mem_clients_unregister hcid hc, unregister_connections, unregister_contexts hcid hc,
      Finset.mem_erase]
    by_cases hne : cid' = cid
    · subst hne
      have hold : cid' ∈ m.clients k → k = c.routingIdentity := by
        intro hmem
        obtain ⟨-, c', hc', rfl⟩ := (h.indexed cid' k).1 hmem
        rw [hc] at hc'
        cases hc'
        rfl
      constructor
      · rintro ⟨hmem, hk⟩
        exact absurd ⟨hold hmem, rfl⟩ hk
      · rintro ⟨⟨hmem, -⟩, -⟩
        exact absurd rfl hmem
    · simp only [hne, and_false, not_false_eq_true, and_true, if_false, ne_eq, true_and]
      exact h.indexed cid' k
  · intro cid' hcid'
    rw [unregister_contexts hcid hc]
    split_ifs with hne
    · exact ⟨_, rfl⟩
    · rw [unregister_connections] at hcid'
      exact h.live cid' (Finset.mem_of_mem_erase hcid')
  · have hset : (({ m with connections := m.connections.erase cid }).setContext cid
        c.markClosing).NoEmptySet := h.noEmptySet
    rw [unregister_of_mem hcid hc]
    exact hset.removeClient _ cid
  · rw [unregister_connections, hlimits]
    exact (Finset.card_le_card (Finset.erase_subset _ _)).trans h.connections_le
  · intro cid' c' hc'
    rw [unregister_contexts hcid hc] at hc'
    rw [hlimits]
    split_ifs at hc' with hne
    · cases hc'
      rw [hne]
      exact (h.context cid c hc).of_sameIdentity
        (c.evolves_markClosing (fun _ => True) trivial).toSameIdentity
    · exact h.context cid' c' hc'
  · rw [hoffline, hlimits]
    exact h.maxPerRecipient
  · rw [hoffline, hlimits]
    exact h.maxRecipients

/-! ### Every operation -/

/-- **Every operation preserves the invariant.** -/
theorem WF.apply {m m' : ConnectionManager} (h : m.WF) {op : ManagerOp}
    (happ : op.apply m = some m') : m'.WF := by
  cases ManagerOp.effect happ with
  | rejected => exact h
  | registered hfresh htotal => exact h.registered hfresh htotal _ _
  | bound hc hcid => exact h.bindIdentity hc hcid _
  | unregistered cid => exact h.unregister cid
  | enqueued r message =>
      have hb := m.offlineQueue.enqueue_bounds r message
      exact h.offlineQueue hb.1 hb.2
  | drained | discarded => exact h.offlineQueue rfl rfl
  | contexts hevolve => exact h.contextsEvolve hevolve

/-- Every operation preserves the memory bound of the offline queue, when a recipient may have a
queued message. -/
theorem offline_wf_apply {m m' : ConnectionManager} (h : m.offlineQueue.WF)
    (hpos : 0 < m.offlineQueue.maxPerRecipient) {op : ManagerOp} (happ : op.apply m = some m') :
    m'.offlineQueue.WF := by
  cases ManagerOp.effect happ with
  | rejected | registered | contexts => exact h
  | bound => rwa [bindIdentity_offlineQueue]
  | unregistered => rwa [unregister_offlineQueue]
  | enqueued r message => exact h.enqueue hpos r message
  | drained r => exact h.drain r
  | discarded r => exact h.discard r

/-- The limits are never changed. -/
theorem limits_apply {m m' : ConnectionManager} {op : ManagerOp} (happ : op.apply m = some m') :
    m'.limits = m.limits := by
  cases ManagerOp.effect happ with
  | rejected => rfl
  | registered => rfl
  | bound => exact m.bindIdentity_limits _ _ _
  | unregistered cid => exact m.unregister_limits cid
  | enqueued => rfl
  | drained => rfl
  | discarded => rfl
  | contexts => rfl

/-- **The invariant holds in every reachable state.** -/
theorem wf_of_reachable {limits : TransportLimits} {m : ConnectionManager}
    (h : (managerSystem limits).Reachable m) : m.WF ∧ m.limits = limits := by
  refine h.invariant (P := fun m => m.WF ∧ m.limits = limits) ?_ ?_
  · rintro m rfl
    exact ⟨wf_new limits, rfl⟩
  · rintro m op m' ⟨hwf, hlimits⟩ happ
    exact ⟨hwf.apply happ, (limits_apply happ).trans hlimits⟩

/-- The offline queue is bounded in every reachable state. -/
theorem offline_wf_of_reachable {limits : TransportLimits}
    (hpos : 0 < limits.maxQueuedPerRecipient) {m : ConnectionManager}
    (h : (managerSystem limits).Reachable m) : m.offlineQueue.WF := by
  have hinv : m.offlineQueue.WF ∧ m.WF ∧ m.limits = limits := by
    refine h.invariant (P := fun m => m.offlineQueue.WF ∧ m.WF ∧ m.limits = limits) ?_ ?_
    · rintro m rfl
      exact ⟨OfflineQueue.wf_new _ _, wf_new limits, rfl⟩
    · rintro m op m' ⟨hoffline, hwf, hlimits⟩ happ
      refine ⟨offline_wf_apply hoffline ?_ happ, hwf.apply happ,
        (limits_apply happ).trans hlimits⟩
      rwa [hwf.maxPerRecipient, hlimits]
  exact hinv.1

/-! ### What follows -/

/-- A name is connected exactly when it has a live connection. -/
theorem WF.isConnected_iff {m : ConnectionManager} (h : m.WF) (k : PyStr) :
    m.isConnected k = true ↔ m.connectionsFor k ≠ [] := by
  have hall : ∀ cid ∈ m.clients k, cid ∈ m.connections := fun cid hmem =>
    ((h.indexed cid k).1 hmem).1
  rw [isConnected, Bool.not_eq_true', ← Bool.not_eq_true, PySet.isEmpty_iff]
  rw [Ne, List.eq_nil_iff_forall_not_mem]
  refine not_congr (forall_congr' fun cid => not_congr ?_)
  rw [mem_connectionsFor]
  exact ⟨fun hmem => ⟨hmem, hall cid hmem⟩, And.left⟩

/-- The index is empty when nothing is registered. -/
theorem WF.byClient_eq_empty {m : ConnectionManager} (h : m.WF) (hnone : m.connections = ∅) :
    m.byClient = ∅ := by
  refine Finmap.ext_lookup fun k => ?_
  rw [Finmap.lookup_empty]
  cases hk : m.byClient.lookup k with
  | none => rfl
  | some s =>
      have hs := h.noEmptySet k s hk
      rw [← Bool.not_eq_true, PySet.isEmpty_iff, not_forall_not] at hs
      obtain ⟨cid, hcid⟩ := hs
      have hmem : cid ∈ m.clients k := by simpa [clients, hk] using hcid
      have := ((h.indexed cid k).1 hmem).1
      simp [hnone] at this

theorem WF.unregisterAll {m : ConnectionManager} (h : m.WF) (ids : List ConnId) :
    (ids.foldl ConnectionManager.unregister m).WF := by
  induction ids generalizing m with
  | nil => exact h
  | cons cid ids ih => exact ih (h.unregister cid)

theorem unregisterAll_connections (ids : List ConnId) (m : ConnectionManager) :
    (ids.foldl unregister m).connections = m.connections \ ids.toFinset := by
  induction ids generalizing m with
  | nil => simp
  | cons cid ids ih =>
      rw [List.foldl_cons, ih, unregister_connections]
      ext cid'
      simp only [Finset.mem_sdiff, Finset.mem_erase, List.mem_toFinset, List.mem_cons, not_or]
      tauto

/-- **The two maps agree and every bound holds**, in every state any sequence of operations
reaches. -/
theorem registry_and_memory_bounds (limits : TransportLimits) (hpos : limits.Positive)
    {m : ConnectionManager} (h : (managerSystem limits).Reachable m) :
    (∀ cid k, cid ∈ m.clients k ↔
        cid ∈ m.connections ∧ ∃ c, m.contexts cid = some c ∧ c.routingIdentity = k) ∧
      (∀ k s, m.byClient.lookup k = some s → s.isEmpty = false) ∧
      (∀ k, m.isConnected k = true ↔ m.connectionsFor k ≠ []) ∧
      m.connections.card ≤ limits.maxTotalConnections ∧
      (∀ cid c, m.contexts cid = some c →
        c.outbound.items.length ≤ limits.maxPendingOutbound) ∧
      m.offlineQueue.recipientCount ≤ limits.maxQueuedRecipients ∧
      (∀ r l, m.offlineQueue.queues.lookup r = some l →
        1 ≤ l.length ∧ l.length ≤ limits.maxQueuedPerRecipient) ∧
      (∀ cid k now reason, m.contexts cid = none → m.register cid k now = .error reason →
        (ManagerOp.register cid k now).apply m = some m) ∧
      (∀ ids : List ConnId, (∀ cid ∈ m.connections, cid ∈ ids) →
        (ids.foldl unregister m).connections = ∅ ∧ (ids.foldl unregister m).byClient = ∅) := by
  have hoffline := offline_wf_of_reachable hpos.maxQueuedPerRecipient h
  obtain ⟨hwf, rfl⟩ := wf_of_reachable h
  refine ⟨hwf.indexed, hwf.noEmptySet, hwf.isConnected_iff, hwf.connections_le, ?_, ?_, ?_, ?_, ?_⟩
  · intro cid c hc
    have hmax := (hwf.context cid c hc).maxsize
    rw [← hmax]
    exact c.outbound.bounded (hmax ▸ hpos.maxPendingOutbound)
  · rw [← hwf.maxRecipients]
    exact hoffline.recipients
  · intro r l hl
    rw [← hwf.maxPerRecipient]
    exact ⟨hoffline.nonempty r l hl, hoffline.bounded r l hl⟩
  · intro cid k now reason hfresh hrej
    simp only [ManagerOp.apply, hfresh, hrej]
  · intro ids hids
    have hnone : (ids.foldl unregister m).connections = ∅ := by
      rw [unregisterAll_connections, Finset.sdiff_eq_empty_iff_subset]
      exact fun cid hcid => List.mem_toFinset.2 (hids cid hcid)
    exact ⟨hnone, (hwf.unregisterAll ids).byClient_eq_empty hnone⟩

/-- A manager with a bound session and a queued message. -/
theorem registry_and_memory_bounds_bound_session :
    ∃ m, (managerSystem {}).exec (.new {})
        [.register (py "c1") (py "anon-1") 0,
          .bindIdentity (py "c1") ⟨py "u1", py "alice", py "s1"⟩,
          .enqueueOffline (py "bob") (.deliveryAck 0 .queued)] = some m ∧
      m.connectionsFor (py "alice") ≠ [] ∧ m.connections.card ≤ 500 := by
  have hexec : ((managerSystem {}).exec (.new {})
      [.register (py "c1") (py "anon-1") 0,
        .bindIdentity (py "c1") ⟨py "u1", py "alice", py "s1"⟩,
        .enqueueOffline (py "bob") (.deliveryAck 0 .queued)]).map
          (fun m => m.isConnected (py "alice")) = some true := by decide
  obtain ⟨m, hm, -, hp⟩ := System.exists_run_of_exec hexec
  have hbounds := registry_and_memory_bounds {} TransportLimits.positive_default
    (System.exec_reachable rfl hm)
  exact ⟨m, hm, (hbounds.2.2.1 _).1 hp, hbounds.2.2.2.1⟩

end ConnectionManager

end EncryptChat
