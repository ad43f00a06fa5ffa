/-
**The offline queue of a live account is empty.**

A message is queued for a name only while no connection has it, and the queue of a name is emptied
when a connection is bound to it.  So as long as one session of an account is registered, in its
closing phase too, nothing waits for the account.

Main definition:

* `EncryptChat.LiveQueuesEmpty` — nothing is queued for the name of an authenticated connection.

Main results:

* `EncryptChat.ServerState.Inv.live_back` — where an authenticated connection comes from;
* `EncryptChat.ServerState.Inv.liveQueuesEmpty_step` — a step keeps the queues of live names empty;
* `EncryptChat.live_accounts_have_empty_queues` — **no message is stranded behind a live account**.
-/

import EncryptChat.ReceiptFlow

set_option relaxedAutoImplicit false
set_option autoImplicit false

namespace EncryptChat

open Python Transition ConnectionManager

/-! ### Authenticated connections -/

namespace ServerState

variable {lib : Libraries} {limits : TransportLimits} {s s' : ServerState}

/-- A step of a connection registers none. -/
theorem Inv.registered_of_act (hinv : s.Inv limits) {cid : ConnId} {a : HandlerAction}
    (h : s.step lib (.act cid a) = some s') :
    s'.manager.connections ⊆ s.manager.connections := by
  refine (hinv.reaches_act h).invariant
    (P := fun m => m.connections ⊆ s.manager.connections) ?_ (Finset.Subset.refl _)
  intro m op m' hsub hop happ
  have heffect := ManagerOp.effect happ
  rcases hop.cases with rfl | rfl | ⟨identity, -, rfl | rfl⟩ | hquiet
  · cases heffect with
    | contexts => exact hsub
  · cases heffect with
    | unregistered =>
        rw [unregister_connections]
        exact (Finset.erase_subset _ _).trans hsub
    | contexts => exact hsub
  · cases heffect with
    | bound =>
        rw [bindIdentity_connections]
        exact hsub
    | contexts => exact hsub
  · cases heffect with
    | drained => exact hsub
    | contexts => exact hsub
  · cases heffect with
    | rejected | registered | bound | unregistered => exact absurd hquiet id
    | enqueued | drained | discarded | contexts => exact hsub

/-- **Where an authenticated connection comes from**: it was one before, with the same identity, or
the step has just bound it. -/
theorem Inv.live_back (hinv : s.Inv limits) {a : ServerAction} (h : s.step lib a = some s')
    {cid : ConnId} {c' : ConnectionContext} (hcid : cid ∈ s'.manager.connections)
    (hc' : s'.manager.contexts cid = some c') (hauth : c'.authenticated = true) :
    (cid ∈ s.manager.connections ∧
        ∃ c, s.manager.contexts cid = some c ∧ c'.identity = c.identity) ∨
      ∃ identity, a = .act cid (.resolved (.ok identity)) ∧ c'.identity = identity.bound := by
  cases hc : s.manager.contexts cid with
  | none =>
      rw [(hinv.identity_of_new h hc' hc).2] at hauth
      cases hauth
  | some c =>
      obtain ⟨d, hd, hcase⟩ := hinv.identity_step h hc
      rw [hc'] at hd
      cases hd
      rcases hcase with hsame | ⟨-, identity, ha, hbound⟩
      swap
      · exact .inr ⟨identity, ha, hbound⟩
      refine .inl ⟨?_, c, rfl, hsame⟩
      cases a with
      | act cid' a' => exact hinv.registered_of_act h hcid
      | connect cid' hex origin now =>
          obtain ⟨hnone, ⟨hm, -⟩ | ⟨-, hm, -⟩⟩ := step_connect h
          · rwa [hm] at hcid
          · rw [hm, registered_connections, Finset.mem_insert] at hcid
            refine hcid.resolve_left ?_
            rintro rfl
            rw [hnone] at hc
            cases hc

end ServerState

/-! ### The queues of live names -/

/-- Nothing is queued for the name of an authenticated connection. -/
def LiveQueuesEmpty (m : ConnectionManager) : Prop :=
  ∀ cid c, cid ∈ m.connections → m.contexts cid = some c → c.authenticated = true →
    m.offlineQueue.queued c.routingIdentity = []

theorem liveQueuesEmpty_new (limits : TransportLimits) :
    LiveQueuesEmpty (ConnectionManager.new limits) := by
  intro cid c hcid
  simp [ConnectionManager.new] at hcid

/-- The name of a registered connection is connected. -/
theorem ConnectionManager.WF.isConnected_of_mem {m : ConnectionManager} (h : m.WF) {cid : ConnId}
    {c : ConnectionContext} (hcid : cid ∈ m.connections) (hc : m.contexts cid = some c) :
    m.isConnected c.routingIdentity = true := by
  have hmem : cid ∈ m.clients c.routingIdentity := (h.indexed cid _).2 ⟨hcid, c, hc, rfl⟩
  rw [h.isConnected_iff]
  exact List.ne_nil_of_mem (mem_connectionsFor.2 ⟨hmem, hcid⟩)

/-- Contexts of equal identity have the same name, when they have one at all. -/
theorem ConnectionContext.WF.routingIdentity_eq {c c' : ConnectionContext}
    {limits limits' : TransportLimits} {cid : ConnId} (h : c.WF limits cid) (h' : c'.WF limits' cid)
    (hauth : c'.authenticated = true) (hsame : c'.identity = c.identity) :
    c.authenticated = true ∧ c.routingIdentity = c'.routingIdentity := by
  have hauth₀ : c.authenticated = true := by
    rw [← hauth]
    exact (congrArg Prod.fst hsame).symm
  refine ⟨hauth₀, ?_⟩
  have hname : c'.accountUsername = c.accountUsername := congrArg (fun i => i.2.2.1) hsame
  rw [h.accountUsername_eq hauth₀, h'.accountUsername_eq hauth, Option.some.injEq] at hname
  exact hname.symm

namespace ServerState

variable {lib : Libraries} {limits : TransportLimits} {s s' : ServerState}

/-- A queue that is empty before a step is empty after it, if its name is connected. -/
theorem Inv.queued_of_connected (hinv : s.Inv limits) {a : ServerAction}
    (h : s.step lib a = some s') {k : PyStr} (hconn : s.manager.isConnected k = true)
    (hempty : s.manager.offlineQueue.queued k = []) : s'.manager.offlineQueue.queued k = [] := by
  rcases hinv.step_cases h with ⟨hstill, -⟩ | ⟨cid, rawText, now, clock, c, envelope, recipient, -,
    hroutes⟩ | ⟨cid, identity, c, -, hbinds⟩
  · rw [(still_of_reaches hstill).offlineQueue, hempty]
  · rcases hroutes.queued with hsame | ⟨hnot, hqueued⟩
    · rw [hsame, hempty]
    · -- a message is only queued for a name that is not connected
      have hne : k ≠ recipient := by
        rintro rfl
        rw [hconn] at hnot
        cases hnot
      rw [hqueued, if_neg hne, hempty]
  · rw [hbinds.queued]
    split_ifs
    · rfl
    · exact hempty

/-- **A step keeps the queues of live names empty.** -/
theorem Inv.liveQueuesEmpty_step (hinv : s.Inv limits) {a : ServerAction}
    (h : s.step lib a = some s') (hempty : LiveQueuesEmpty s.manager) :
    LiveQueuesEmpty s'.manager := by
  intro cid c' hcid hc' hauth
  have hinv' := hinv.step h
  rcases hinv.live_back h hcid hc' hauth with ⟨hcid₀, c, hc, hsame⟩ | ⟨identity, rfl, hbound⟩
  · obtain ⟨hauth₀, hname⟩ := (hinv.wf.context cid c hc).routingIdentity_eq
      (hinv'.wf.context cid c' hc') hauth hsame
    rw [← hname]
    exact hinv.queued_of_connected h (hinv.wf.isConnected_of_mem hcid₀ hc)
      (hempty cid c hcid₀ hc hauth₀)
  · -- the step has bound the connection and emptied the queue of its name
    have hname : c'.routingIdentity = identity.username := by
      have husername : c'.accountUsername = some identity.username :=
        congrArg (fun i => i.2.2.1) hbound
      simp [ConnectionContext.routingIdentity, husername]
    rcases hinv.step_cases h with ⟨-, hnot⟩ | ⟨_, _, _, _, _, _, _, ha, -⟩ |
      ⟨cid', identity', c, ha, hbinds⟩
    · exact absurd rfl (hnot cid identity)
    · cases ha
    · cases ha
      rw [hbinds.queued, hname, if_pos rfl]

end ServerState

/-- **No message is stranded behind a live account.**  In every state a run reaches, if a registered
connection is authenticated with the name `u` then the offline queue holds no message for `u`; and a
`queue.status` on that connection is answered with zero. -/
theorem live_accounts_have_empty_queues (lib : Libraries) (limits : TransportLimits)
    {s : ServerState} {tr : List (ServerState × ServerAction)}
    (h : (serverSystem lib limits).Run (.new limits) tr s) {cid : ConnId} {c : ConnectionContext}
    {u : PyStr} (hcid : cid ∈ s.manager.connections) (hc : s.manager.contexts cid = some c)
    (hauth : c.authenticated = true) (hname : c.accountUsername = some u) :
    s.manager.offlineQueue.queued u = [] ∧
      ∀ envelope now ref, envelope.type = .queueStatus →
        handlePrivileged lib (s.manager.counted cid now) c envelope ref =
          .ok (s.manager.counted cid now, [.queueStatus envelope.messageId 0]) := by
  have hinv : s.Inv limits ∧ LiveQueuesEmpty s.manager := by
    refine h.invariant (P := fun t => t.Inv limits ∧ LiveQueuesEmpty t.manager) ?_
      ⟨ServerState.inv_new limits, liveQueuesEmpty_new limits⟩
    intro t a t' ht hstep
    exact ⟨ht.1.step hstep, ht.1.liveQueuesEmpty_step hstep ht.2⟩
  have hrouting : c.routingIdentity = u := by
    simp [ConnectionContext.routingIdentity, hname]
  have hempty := hinv.2 cid c hcid hc hauth
  rw [hrouting] at hempty
  refine ⟨hempty, ?_⟩
  intro envelope now ref htype
  have hcount : (s.manager.counted cid now).offlineQueue.count c.routingIdentity = 0 := by
    rw [OfflineQueue.count_eq, hrouting]
    change (s.manager.offlineQueue.queued u).length = 0
    rw [hempty]
    rfl
  simp only [handlePrivileged, htype, hcount]

/-- A message waits for `bob` until he authenticates. -/
theorem live_accounts_have_empty_queues_bob :
    ∃ u s c, (serverSystem sampleLibraries {}).exec (.new {})
          (aliceConnects ++ bobConnects.take 4) = some u ∧
      u.manager.offlineQueue.count (py "bob") = 1 ∧
      (serverSystem sampleLibraries {}).exec u (bobConnects.drop 4) = some s ∧
      bobId ∈ s.manager.connections ∧ s.manager.contexts bobId = some c ∧
      c.accountUsername = some (py "bob") ∧ s.manager.offlineQueue.queued (py "bob") = [] := by
  have hexec : ((serverSystem sampleLibraries {}).exec (.new {})
      (aliceConnects ++ bobConnects.take 4)).map (fun u =>
        decide (u.manager.offlineQueue.count (py "bob") = 1) &&
          ((serverSystem sampleLibraries {}).exec u (bobConnects.drop 4)).any fun s =>
            decide (bobId ∈ s.manager.connections) &&
              (s.manager.contexts bobId).any fun c =>
                c.authenticated && c.accountUsername == some (py "bob")) = some true := by
    decide +kernel
  obtain ⟨u, hu, hrun, hp⟩ := System.exists_run_of_exec hexec
  simp only [Bool.and_eq_true, decide_eq_true_eq, Option.any_eq_true, beq_iff_eq] at hp
  obtain ⟨hcount, s, hs, hcid, c, hc, hauth, hname⟩ := hp
  have hrun' := hrun.trans (System.exec_run hs)
  exact ⟨u, s, c, hu, hcount, hs, hcid, hc, hname,
    (live_accounts_have_empty_queues sampleLibraries {} hrun' hcid hc hauth hname).1⟩

end EncryptChat
