/-
**How many connections one identity holds.**

`register` tests the limit on connections per identity under the key it registers, which is a
throwaway id; `bind_identity` later moves the connection under the account name and tests nothing.
So the limit holds in a run exactly as long as every binding still finds room under its name.

Main definition:

* `EncryptChat.BindFits` — a binding finds room under the name it binds.

Main results:

* `EncryptChat.ConnectionManager.clients_card_apply` — a step whose binding fits keeps every set of
  the index within the limit;
* `EncryptChat.connections_per_identity_le` — **the limit, in runs whose bindings all fit**;
* `EncryptChat.four_sessions` — four sessions of one account, under a limit of three.
-/

import EncryptChat.ManagerInvariant

set_option relaxedAutoImplicit false
set_option autoImplicit false

namespace EncryptChat

open Python Transition

/-- A binding finds room under the name it binds, the connection itself not counted. -/
def BindFits (m : ConnectionManager) : ManagerOp → Prop
  | .bindIdentity cid identity =>
      ((m.clients identity.username).discard cid).card < m.limits.maxConnectionsPerClient
  | _ => True

instance (m : ConnectionManager) : DecidablePred (BindFits m)
  | .bindIdentity _ _ => inferInstanceAs (Decidable (_ < _))
  | .register _ _ _ | .markClosing _ | .enqueueOutbound _ _ | .deliverToClient _ _
  | .unregister _ | .enqueueOffline _ _ | .drainOffline _ | .discardOffline _ | .touch _ _
  | .allow _ _ | .takeOutbound _ | .taskDone _ => .isTrue trivial

namespace ConnectionManager

/-- **A step whose binding fits keeps every set of the index within the limit.** -/
theorem clients_card_apply {m m' : ConnectionManager} {op : ManagerOp}
    (h : ∀ k, (m.clients k).card ≤ m.limits.maxConnectionsPerClient) (hfits : BindFits m op)
    (happ : op.apply m = some m') (k : PyStr) :
    (m'.clients k).card ≤ m.limits.maxConnectionsPerClient := by
  cases ManagerOp.effect happ with
  | rejected | enqueued | drained | discarded | contexts => exact h k
  -- the two steps that add to a set: one was tested by the code, the other fits by hypothesis
  | @registered cid k' now _ _ hper =>
      by_cases hk : k = k'
      · subst hk
        refine (PySet.card_le_of_subset (t := (m.clients k).add cid) ?_).trans
          ((PySet.card_add_le _ _).trans hper)
        intro cid' hmem
        rw [mem_clients_registered] at hmem
        exact PySet.mem_add.2 (hmem.imp_left And.right)
      · refine (PySet.card_le_of_subset ?_).trans (h k)
        intro cid' hmem
        rw [mem_clients_registered] at hmem
        exact hmem.resolve_left fun heq => hk heq.1
  | @bound cid c identity =>
      by_cases hk : k = identity.username
      · subst hk
        refine (PySet.card_le_of_subset
          (t := ((m.clients identity.username).discard cid).add cid) ?_).trans
          ((PySet.card_add_le _ _).trans hfits)
        intro cid' hmem
        rw [mem_clients_bindIdentity] at hmem
        by_cases hcid : cid' = cid
        · exact PySet.mem_add.2 (.inl hcid)
        · refine PySet.mem_add.2 (.inr (PySet.mem_discard.2 ⟨hcid, ?_⟩))
          exact (hmem.resolve_left fun heq => hcid heq.2).1
      · refine (PySet.card_le_of_subset ?_).trans (h k)
        intro cid' hmem
        rw [mem_clients_bindIdentity] at hmem
        exact (hmem.resolve_left fun heq => hk heq.1).1
  | unregistered cid =>
      by_cases hcid : cid ∈ m.connections
      · cases hc : m.contexts cid with
        | none =>
            have hclients : (m.unregister cid).clients k = m.clients k := by
              unfold unregister
              rw [if_pos hcid, hc]
              rfl
            rw [hclients]
            exact h k
        | some c =>
            refine (PySet.card_le_of_subset ?_).trans (h k)
            intro cid' hmem
            rw [mem_clients_unregister hcid hc] at hmem
            exact hmem.1
      · rw [unregister_of_notMem hcid]
        exact h k

/-- The live connections of one identity are the set the index holds for it. -/
theorem WF.card_routingIdentity {m : ConnectionManager} (h : m.WF) (k : PyStr) :
    (m.connections.filter fun cid =>
      (m.contexts cid).map ConnectionContext.routingIdentity = some k).card =
        (m.clients k).card := by
  rw [PySet.card_eq_toFinset]
  congr 1
  ext cid
  rw [Finset.mem_filter, List.mem_toFinset, ← PySet.mem_def, h.indexed, Option.map_eq_some_iff]

end ConnectionManager

open ConnectionManager

/-- **The limit per identity, in runs whose bindings all fit.** -/
theorem connections_per_identity_le (limits : TransportLimits) {m : ConnectionManager}
    {tr : List (ConnectionManager × ManagerOp)} (h : (managerSystem limits).Run (.new limits) tr m)
    (hfits : ∀ e ∈ tr, BindFits e.1 e.2) (k : PyStr) :
    (m.connections.filter fun cid =>
      (m.contexts cid).map ConnectionContext.routingIdentity = some k).card ≤
        limits.maxConnectionsPerClient := by
  have hinv : (m.WF ∧ m.limits = limits) ∧
      ∀ k, (m.clients k).card ≤ m.limits.maxConnectionsPerClient := by
    refine h.invariant_of (C := BindFits) (P := fun m => (m.WF ∧ m.limits = limits) ∧
      ∀ k, (m.clients k).card ≤ m.limits.maxConnectionsPerClient) ?_ hfits ?_
    · rintro m op m' ⟨⟨hwf, hlimits⟩, hcard⟩ hop happ
      have hkept := limits_apply happ
      refine ⟨⟨hwf.apply happ, hkept.trans hlimits⟩, fun k => ?_⟩
      rw [hkept]
      exact clients_card_apply hcard hop happ k
    · refine ⟨⟨wf_new limits, rfl⟩, fun k => ?_⟩
      simp [new, clients, PySet.card, PySet.empty]
  obtain ⟨⟨hwf, hlimits⟩, hcard⟩ := hinv
  rw [hwf.card_routingIdentity, ← hlimits]
  exact hcard k

/-! ### Sessions of one account -/

/-- A connection arrives under its own throwaway id and authenticates as `alice`. -/
def aliceSession (n : String) : List ManagerOp :=
  [.register (py n) (py "anon-" ++ py n) 0,
    .bindIdentity (py n) ⟨py "u1", py "alice", py "s" ++ py n⟩]

/-- Two sessions are within the default limit. -/
theorem connections_per_identity_le_two_sessions :
    ∃ m, (managerSystem {}).exec (.new {}) (aliceSession "1" ++ aliceSession "2") = some m ∧
      (m.connections.filter fun cid =>
        (m.contexts cid).map ConnectionContext.routingIdentity = some (py "alice")).card ≤ 3 := by
  have hexec : ((managerSystem {}).exec (.new {}) (aliceSession "1" ++ aliceSession "2")).map
      (fun _ => ((managerSystem {}).traceOf (.new {}) (aliceSession "1" ++ aliceSession "2")).all
        fun e => decide (BindFits e.1 e.2)) = some true := by decide +kernel
  obtain ⟨m, hm, hrun, hp⟩ := System.exists_run_of_exec hexec
  rw [List.all_eq_true] at hp
  exact ⟨m, hm, connections_per_identity_le {} hrun (fun e he => by simpa using hp e he) _⟩

/-- **Four sessions of one account**, under the default limit of three. -/
theorem four_sessions :
    ∃ m, (managerSystem {}).Reachable m ∧
      (m.connections.filter fun cid =>
        (m.contexts cid).map ConnectionContext.routingIdentity = some (py "alice")).card = 4 ∧
      ({} : TransportLimits).maxConnectionsPerClient = 3 := by
  have hexec : ((managerSystem {}).exec (.new {})
      (aliceSession "1" ++ aliceSession "2" ++ aliceSession "3" ++ aliceSession "4")).map
        (fun m => (m.connections.filter fun cid =>
          (m.contexts cid).map ConnectionContext.routingIdentity = some (py "alice")).card == 4) =
      some true := by decide +kernel
  obtain ⟨m, hm, -, hp⟩ := System.exists_run_of_exec hexec
  exact ⟨m, System.exec_reachable rfl hm, by simpa using hp, rfl⟩

end EncryptChat
