/-
**The operations on the connection manager, as a transition system.**

Every piece of server code changes the manager through a handful of operations.  This module lists
them, makes them the labels of a transition system, and says once, for each operation, what it does
to the parts of the manager.  Statements about longer code are then statements about the operations
that code performs: `EncryptChat.ConnectionManager.Reaches K m m'` says that `m'` comes from `m` by
operations all in the class `K`.

Main definitions:

* `EncryptChat.ManagerOp`, `EncryptChat.ManagerOp.apply` — the operations;
* `EncryptChat.managerSystem` — the transition system they are the labels of;
* `EncryptChat.ConnectionManager.Reaches` — runs whose operations belong to a class.

Main results:

* `EncryptChat.ConnectionManager.mem_clients_addClient`, `mem_clients_removeClient` — what re-keying
  does to every set of the index;
* `EncryptChat.ConnectionManager.enqueueEach_contexts` — a fan-out reaches each of its targets once
  and nothing else.
-/

import EncryptChat.Manager
import EncryptChat.Transition

set_option relaxedAutoImplicit false
set_option autoImplicit false

namespace EncryptChat

open Python

/-! ### The operations -/

/-- The operations that change a connection manager. -/
inductive ManagerOp where
  | register (cid : ConnId) (transportClientId : PyStr) (now : ℚ)
  | bindIdentity (cid : ConnId) (identity : AuthenticatedIdentity)
  | markClosing (cid : ConnId)
  | enqueueOutbound (cid : ConnId) (message : OutboundMessage)
  | deliverToClient (k : PyStr) (message : OutboundMessage)
  | unregister (cid : ConnId)
  | enqueueOffline (recipient : PyStr) (message : OutboundMessage)
  | drainOffline (recipient : PyStr)
  | discardOffline (recipient : PyStr)
  /-- `context.touch(now)`. -/
  | touch (cid : ConnId) (now : ℚ)
  /-- `context.rate_limiter.allow(now)`. -/
  | allow (cid : ConnId) (now : ℚ)
  /-- The writer task takes the next message. -/
  | takeOutbound (cid : ConnId)
  /-- The writer task reports a message as done. -/
  | taskDone (cid : ConnId)

/-- The manager after an operation.  A registration uses a connection id never used before, and an
identity is only bound to a registered connection that has none; otherwise the operation is not
enabled.  A rejected registration leaves the manager as it is. -/
def ManagerOp.apply (m : ConnectionManager) : ManagerOp → Option ConnectionManager
  | register cid k now =>
      match m.contexts cid with
      | some _ => none
      | none =>
          match m.register cid k now with
          | .ok m' => some m'
          | .error _ => some m
  | bindIdentity cid identity =>
      match m.contexts cid with
      | some c =>
          if cid ∈ m.connections ∧ c.authenticated = false then
            some (m.bindIdentity cid c identity)
          else none
      | none => none
  | markClosing cid => some (m.modifyContext cid ConnectionContext.markClosing)
  | enqueueOutbound cid message => some (m.enqueueOutbound cid message).1
  | deliverToClient k message => some (m.deliverToClient k message).1
  | unregister cid => some (m.unregister cid)
  | enqueueOffline recipient message => some (m.enqueueOffline recipient message).1
  | drainOffline recipient => some (m.drainOffline recipient).1
  | discardOffline recipient => some (m.discardOffline recipient)
  | touch cid now => some (m.modifyContext cid fun c => c.touch now)
  | allow cid now => some (m.modifyContext cid fun c => (c.allow now).1)
  | takeOutbound cid => some (m.modifyContext cid ConnectionContext.takeOutbound)
  | taskDone cid => some (m.modifyContext cid ConnectionContext.taskDone)

/-- The transition system of the operations on a manager with given limits. -/
def managerSystem (limits : TransportLimits) : Transition.System ConnectionManager ManagerOp where
  init := fun m => m = .new limits
  step := ManagerOp.apply

namespace ConnectionManager

/-- The manager `m'` comes from `m` by operations of the class `K`. -/
inductive Reaches (K : ManagerOp → Prop) : ConnectionManager → ConnectionManager → Prop
  | refl (m : ConnectionManager) : Reaches K m m
  | tail {m m' m'' : ConnectionManager} {op : ManagerOp} :
      Reaches K m m' → K op → op.apply m' = some m'' → Reaches K m m''

namespace Reaches

variable {K K' : ManagerOp → Prop} {m m' m'' : ConnectionManager}

theorem single (op : ManagerOp) (hK : K op) (h : op.apply m = some m') : Reaches K m m' :=
  (refl m).tail hK h

theorem trans (h : Reaches K m m') (h' : Reaches K m' m'') : Reaches K m m'' := by
  induction h' with
  | refl => exact h
  | tail _ hK hop ih => exact ih.tail hK hop

theorem mono (h : Reaches K m m') (hK : ∀ op, K op → K' op) : Reaches K' m m' := by
  induction h with
  | refl => exact refl _
  | tail _ hop happ ih => exact ih.tail (hK _ hop) happ

/-- What the operations of a class preserve holds after them. -/
theorem invariant {P : ConnectionManager → Prop} (h : Reaches K m m')
    (hstep : ∀ m op m', P m → K op → op.apply m = some m' → P m') (hP : P m) : P m' := by
  induction h with
  | refl => exact hP
  | tail _ hK hop ih => exact hstep _ _ _ ih hK hop

/-- Operations are steps of the transition system. -/
theorem reachable {limits : TransportLimits} (h : Reaches K m m')
    (hm : (managerSystem limits).Reachable m) : (managerSystem limits).Reachable m' :=
  h.invariant (fun _ _ _ hr _ hop => hr.step hop) hm

end Reaches

/-! ### The index -/

theorem clients_insert (m : ConnectionManager) (k k' : PyStr) (s : PySet ConnId) :
    ({ m with byClient := m.byClient.insert k s } : ConnectionManager).clients k' =
      if k' = k then s else m.clients k' := by
  unfold clients
  by_cases h : k' = k
  · subst h; simp
  · simp [h]

theorem clients_erase (m : ConnectionManager) (k k' : PyStr) :
    ({ m with byClient := m.byClient.erase k } : ConnectionManager).clients k' =
      if k' = k then .empty else m.clients k' := by
  unfold clients
  by_cases h : k' = k
  · subst h; simp
  · simp [Finmap.lookup_erase_ne h, h]

/-- Adding an id to the set of a key. -/
theorem mem_clients_addClient (m : ConnectionManager) (k k' : PyStr) (cid cid' : ConnId) :
    cid' ∈ (m.addClient k cid).clients k' ↔ (k' = k ∧ cid' = cid) ∨ cid' ∈ m.clients k' := by
  rw [addClient, clients_insert]
  by_cases h : k' = k
  · subst h; simp
  · simp [h]

/-- Removing an id from the set of a key. -/
theorem mem_clients_removeClient (m : ConnectionManager) (k k' : PyStr) (cid cid' : ConnId) :
    cid' ∈ (m.removeClient k cid).clients k' ↔
      cid' ∈ m.clients k' ∧ ¬ (k' = k ∧ cid' = cid) := by
  unfold removeClient
  cases hk : m.byClient.lookup k with
  | none =>
      have hempty : m.clients k = .empty := by simp [clients, hk]
      constructor
      · intro h
        refine ⟨h, ?_⟩
        rintro ⟨rfl, rfl⟩
        rw [hempty] at h
        exact PySet.notMem_empty _ h
      · exact fun h => h.1
  | some ids =>
      have hids : m.clients k = ids := by simp [clients, hk]
      by_cases h : k' = k
      · subst h
        dsimp only
        split_ifs with hempty
        · rw [clients_erase, if_pos rfl, hids]
          rw [PySet.isEmpty_iff] at hempty
          have := hempty cid'
          rw [PySet.mem_discard] at this
          simp only [PySet.notMem_empty, true_and, false_iff]
          tauto
        · rw [clients_insert, if_pos rfl, hids, PySet.mem_discard]
          tauto
      · dsimp only
        split_ifs with hempty
        · rw [clients_erase, if_neg h]
          simp [h]
        · rw [clients_insert, if_neg h]
          simp [h]

/-- No set of the index is empty. -/
def NoEmptySet (m : ConnectionManager) : Prop :=
  ∀ k s, m.byClient.lookup k = some s → s.isEmpty = false

theorem NoEmptySet.addClient {m : ConnectionManager} (h : m.NoEmptySet) (k : PyStr)
    (cid : ConnId) : (m.addClient k cid).NoEmptySet := by
  intro k' s hs
  by_cases hk : k' = k
  · subst hk
    simp only [ConnectionManager.addClient, Finmap.lookup_insert, Option.some.injEq] at hs
    rw [← hs, PySet.isEmpty_add]
  · simp only [ConnectionManager.addClient, Finmap.lookup_insert_of_ne _ hk] at hs
    exact h k' s hs

theorem NoEmptySet.removeClient {m : ConnectionManager} (h : m.NoEmptySet) (k : PyStr)
    (cid : ConnId) : (m.removeClient k cid).NoEmptySet := by
  intro k' s hs
  unfold ConnectionManager.removeClient at hs
  cases hk : m.byClient.lookup k with
  | none => rw [hk] at hs; exact h k' s hs
  | some ids =>
      rw [hk] at hs
      dsimp only at hs
      split_ifs at hs with hempty
      · by_cases hkk : k' = k
        · subst hkk; simp at hs
        · exact h k' s (by simpa [Finmap.lookup_erase_ne hkk] using hs)
      · by_cases hkk : k' = k
        · subst hkk
          simp only [Finmap.lookup_insert, Option.some.injEq] at hs
          rw [← hs]
          simpa using hempty
        · exact h k' s (by simpa [Finmap.lookup_insert_of_ne _ hkk] using hs)

/-! ### The parts re-keying leaves alone -/

@[simp] theorem addClient_contexts (m : ConnectionManager) (k : PyStr) (cid : ConnId) :
    (m.addClient k cid).contexts = m.contexts := rfl

@[simp] theorem addClient_connections (m : ConnectionManager) (k : PyStr) (cid : ConnId) :
    (m.addClient k cid).connections = m.connections := rfl

@[simp] theorem addClient_limits (m : ConnectionManager) (k : PyStr) (cid : ConnId) :
    (m.addClient k cid).limits = m.limits := rfl

@[simp] theorem addClient_offlineQueue (m : ConnectionManager) (k : PyStr) (cid : ConnId) :
    (m.addClient k cid).offlineQueue = m.offlineQueue := rfl

theorem removeClient_eq (m : ConnectionManager) (k : PyStr) (cid : ConnId) :
    ∃ index, m.removeClient k cid = { m with byClient := index } := by
  unfold removeClient
  cases m.byClient.lookup k with
  | none => exact ⟨m.byClient, rfl⟩
  | some ids => dsimp only; split_ifs <;> exact ⟨_, rfl⟩

@[simp] theorem removeClient_contexts (m : ConnectionManager) (k : PyStr) (cid : ConnId) :
    (m.removeClient k cid).contexts = m.contexts := by
  obtain ⟨index, h⟩ := m.removeClient_eq k cid
  rw [h]

@[simp] theorem removeClient_connections (m : ConnectionManager) (k : PyStr) (cid : ConnId) :
    (m.removeClient k cid).connections = m.connections := by
  obtain ⟨index, h⟩ := m.removeClient_eq k cid
  rw [h]

@[simp] theorem removeClient_limits (m : ConnectionManager) (k : PyStr) (cid : ConnId) :
    (m.removeClient k cid).limits = m.limits := by
  obtain ⟨index, h⟩ := m.removeClient_eq k cid
  rw [h]

@[simp] theorem removeClient_offlineQueue (m : ConnectionManager) (k : PyStr) (cid : ConnId) :
    (m.removeClient k cid).offlineQueue = m.offlineQueue := by
  obtain ⟨index, h⟩ := m.removeClient_eq k cid
  rw [h]

/-! ### Sending -/

theorem setContext_contexts (m : ConnectionManager) (cid cid' : ConnId) (c : ConnectionContext) :
    (m.setContext cid c).contexts cid' = if cid' = cid then some c else m.contexts cid' := by
  simp [setContext, Function.update_apply]

theorem modifyContext_contexts (m : ConnectionManager) (cid cid' : ConnId)
    (f : ConnectionContext → ConnectionContext) :
    (m.modifyContext cid f).contexts cid' =
      if cid' = cid then (m.contexts cid).map f else m.contexts cid' := by
  simp [modifyContext, Function.update_apply]

/-- Sending to one connection changes that context and nothing else. -/
theorem enqueueOutbound_eq (m : ConnectionManager) (cid : ConnId) (message : OutboundMessage) :
    (m.enqueueOutbound cid message).1 =
      m.modifyContext cid fun c => (c.enqueueOutbound message).1 := by
  unfold enqueueOutbound modifyContext setContext
  cases h : m.contexts cid with
  | none =>
      have : Function.update m.contexts cid none = m.contexts := by
        rw [← h, Function.update_eq_self]
      simp [this]
  | some c => simp

theorem enqueueOutbound_contexts (m : ConnectionManager) (cid cid' : ConnId)
    (message : OutboundMessage) :
    (m.enqueueOutbound cid message).1.contexts cid' =
      if cid' = cid then (m.contexts cid).map fun c => (c.enqueueOutbound message).1
      else m.contexts cid' := by
  rw [enqueueOutbound_eq, modifyContext_contexts]

/-- **A fan-out reaches each of its targets once and nothing else.** -/
theorem enqueueEach_contexts (message : OutboundMessage) :
    ∀ (targets : List ConnId) (m : ConnectionManager), targets.Nodup → ∀ cid,
      (m.enqueueEach message targets).1.contexts cid =
        if cid ∈ targets then (m.contexts cid).map fun c => (c.enqueueOutbound message).1
        else m.contexts cid := by
  intro targets
  induction targets with
  | nil => intro m _ cid; simp [enqueueEach]
  | cons t targets ih =>
      intro m hnd cid
      obtain ⟨ht, hnd⟩ := List.nodup_cons.1 hnd
      simp only [enqueueEach]
      rw [ih _ hnd, enqueueOutbound_contexts]
      by_cases hct : cid = t
      · subst hct
        simp [ht]
      · simp [hct]

/-- A fan-out changes nothing but contexts. -/
theorem enqueueEach_eq (message : OutboundMessage) :
    ∀ (targets : List ConnId) (m : ConnectionManager), ∃ contexts,
      (m.enqueueEach message targets).1 = { m with contexts := contexts } := by
  intro targets
  induction targets with
  | nil => intro m; exact ⟨m.contexts, rfl⟩
  | cons t targets ih =>
      intro m
      obtain ⟨contexts, h⟩ := ih (m.enqueueOutbound t message).1
      refine ⟨contexts, ?_⟩
      rw [enqueueEach, h, enqueueOutbound_eq]
      rfl

/-- The targets of a delivery are distinct. -/
theorem connectionsFor_nodup (m : ConnectionManager) (k : PyStr) : (m.connectionsFor k).Nodup :=
  (m.clients k).nodup.filter _

theorem mem_connectionsFor {m : ConnectionManager} {k : PyStr} {cid : ConnId} :
    cid ∈ m.connectionsFor k ↔ cid ∈ m.clients k ∧ cid ∈ m.connections := by
  simp [connectionsFor, PySet.mem_def]

theorem deliverToClient_fst (m : ConnectionManager) (k : PyStr) (message : OutboundMessage) :
    (m.deliverToClient k message).1 = (m.enqueueEach message (m.connectionsFor k)).1 := by
  unfold deliverToClient
  cases h : m.connectionsFor k with
  | nil => simp [enqueueEach]
  | cons t ts => rfl

end ConnectionManager

end EncryptChat
