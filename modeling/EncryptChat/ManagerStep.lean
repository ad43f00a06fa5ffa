/-
**What one operation does to the connection manager.**

Thirteen operations change a manager.  Most of them change nothing but contexts, and change those in
one way only: the identity stays, and the queue may accept messages.  `EncryptChat.ManagerOp.Effect`
lists the ways a manager can change, and every later statement about operations is a case analysis
of it.

Main definitions:

* `EncryptChat.ConnectionContext.Evolves` — what every operation but a binding does to a context;
* `EncryptChat.ManagerOp.puts` — the messages an operation puts on queues;
* `EncryptChat.ManagerOp.Effect` — **the ways a manager changes**.

Main results:

* `EncryptChat.ConnectionContext.enqueueOutbound_of_hasRoom`, `enqueueOutbound_of_not_hasRoom` — a
  message put on a context's queue;
* `EncryptChat.ManagerOp.effect` — an enabled operation has one of the effects.
-/

import EncryptChat.ManagerOps

set_option relaxedAutoImplicit false
set_option autoImplicit false

namespace EncryptChat

open Python

/-! ### Contexts -/

namespace ConnectionContext

/-- The context has the same ids, the same identity and the same bound on its queue. -/
structure SameIdentity (c c' : ConnectionContext) : Prop where
  connectionId : c'.connectionId = c.connectionId
  transportClientId : c'.transportClientId = c.transportClientId
  authenticated : c'.authenticated = c.authenticated
  userId : c'.userId = c.userId
  accountUsername : c'.accountUsername = c.accountUsername
  sessionId : c'.sessionId = c.sessionId
  maxsize : c'.outbound.maxsize = c.outbound.maxsize

namespace SameIdentity

theorem refl (c : ConnectionContext) : SameIdentity c c := ⟨rfl, rfl, rfl, rfl, rfl, rfl, rfl⟩

theorem trans {c c' c'' : ConnectionContext} (h : SameIdentity c c') (h' : SameIdentity c' c'') :
    SameIdentity c c'' :=
  ⟨h'.1.trans h.1, h'.2.trans h.2, h'.3.trans h.3, h'.4.trans h.4, h'.5.trans h.5, h'.6.trans h.6,
    h'.7.trans h.7⟩

theorem routingIdentity {c c' : ConnectionContext} (h : SameIdentity c c') :
    c'.routingIdentity = c.routingIdentity := by
  unfold ConnectionContext.routingIdentity
  rw [h.accountUsername, h.transportClientId]

end SameIdentity

/-- The identity stays, the queue may have accepted messages in `P`, and the context is closing
afterwards when it was before, or when `closes` says so. -/
structure Evolves (P : OutboundMessage → Prop) (closes : Prop) (c c' : ConnectionContext) :
    Prop extends SameIdentity c c' where
  accepted : ∃ l, c'.outbound.accepted = c.outbound.accepted ++ l ∧ ∀ message ∈ l, P message
  closing : c.closing = true → c'.closing = true
  closed : c'.closing = true → c.closing = true ∨ closes

namespace Evolves

variable {P P' : OutboundMessage → Prop} {closes closes' : Prop} {c c' c'' : ConnectionContext}

theorem refl (P : OutboundMessage → Prop) (closes : Prop) (c : ConnectionContext) :
    Evolves P closes c c :=
  ⟨.refl c, ⟨[], by simp, by simp⟩, id, .inl⟩

theorem trans (h : Evolves P closes c c') (h' : Evolves P closes c' c'') :
    Evolves P closes c c'' := by
  obtain ⟨l, hl, hP⟩ := h.accepted
  obtain ⟨l', hl', hP'⟩ := h'.accepted
  refine ⟨h.toSameIdentity.trans h'.toSameIdentity, ⟨l ++ l', ?_, ?_⟩, h'.closing ∘ h.closing, ?_⟩
  · rw [hl', hl, List.append_assoc]
  · intro message hmem
    rcases List.mem_append.1 hmem with hmem | hmem
    · exact hP message hmem
    · exact hP' message hmem
  · exact fun hclosing => (h'.closed hclosing).elim h.closed .inr

theorem mono (h : Evolves P closes c c') (hPP' : ∀ message, P message → P' message)
    (hcloses : closes → closes') : Evolves P' closes' c c' := by
  obtain ⟨l, hl, hP⟩ := h.accepted
  exact ⟨h.toSameIdentity, ⟨l, hl, fun message hmem => hPP' message (hP message hmem)⟩, h.closing,
    fun hclosing => (h.closed hclosing).imp_right hcloses⟩

/-- Nothing is accepted by a step that leaves the history of the queue alone. -/
theorem of_accepted_eq (hsame : SameIdentity c c')
    (haccepted : c'.outbound.accepted = c.outbound.accepted)
    (hclosing : c'.closing = c.closing) : Evolves P closes c c' :=
  ⟨hsame, ⟨[], by simpa using haccepted, by simp⟩, hclosing.trans,
    fun h => .inl (hclosing.symm.trans h)⟩

/-- What a context has accepted stays accepted, and what is new is in `P`. -/
theorem mem_accepted (h : Evolves P closes c c') {message : OutboundMessage} :
    message ∈ c'.outbound.accepted → message ∈ c.outbound.accepted ∨ P message := by
  obtain ⟨l, hl, hP⟩ := h.accepted
  rw [hl, List.mem_append]
  exact fun hmem => hmem.imp_right (hP message)

theorem accepted_mono (h : Evolves P closes c c') {message : OutboundMessage}
    (hmem : message ∈ c.outbound.accepted) : message ∈ c'.outbound.accepted := by
  obtain ⟨l, hl, -⟩ := h.accepted
  rw [hl]
  exact List.mem_append_left l hmem

end Evolves

variable (P : OutboundMessage → Prop) (closes : Prop)

theorem evolves_touch (c : ConnectionContext) (now : ℚ) : Evolves P closes c (c.touch now) :=
  .of_accepted_eq ⟨rfl, rfl, rfl, rfl, rfl, rfl, rfl⟩ rfl rfl

theorem evolves_markClosing {closes : Prop} (h : closes) (c : ConnectionContext) :
    Evolves P closes c c.markClosing :=
  ⟨⟨rfl, rfl, rfl, rfl, rfl, rfl, rfl⟩, ⟨[], by simp [markClosing], by simp⟩, fun _ => rfl,
    fun _ => .inr h⟩

theorem evolves_allow (c : ConnectionContext) (now : ℚ) : Evolves P closes c (c.allow now).1 :=
  .of_accepted_eq ⟨rfl, rfl, rfl, rfl, rfl, rfl, rfl⟩ rfl rfl

theorem evolves_takeOutbound (c : ConnectionContext) : Evolves P closes c c.takeOutbound :=
  .of_accepted_eq ⟨rfl, rfl, rfl, rfl, rfl, rfl, rfl⟩ rfl rfl

theorem evolves_taskDone (c : ConnectionContext) : Evolves P closes c c.taskDone :=
  .of_accepted_eq ⟨rfl, rfl, rfl, rfl, rfl, rfl, rfl⟩ rfl rfl

/-- **A message put on a context with room** goes to the tail of its queue, and nothing else of the
context changes. -/
theorem enqueueOutbound_of_hasRoom {c : ConnectionContext} (h : c.HasRoom)
    (message : OutboundMessage) :
    ∃ q, c.enqueueOutbound message = ({ c with outbound := q }, true) ∧
      q.items = c.outbound.items ++ [message] ∧ q.accepted = c.outbound.accepted ++ [message] ∧
      q.maxsize = c.outbound.maxsize := by
  obtain ⟨hopen, hfull⟩ := h
  have hne : c.outbound.putNowait message ≠ none := fun hnone =>
    hfull (Queue.putNowait_eq_none_iff.1 hnone)
  obtain ⟨q, hput⟩ := Option.ne_none_iff_exists'.1 hne
  obtain ⟨-, hitems, haccepted, hmax⟩ := Queue.putNowait_eq_some hput
  refine ⟨q, ?_, hitems, haccepted, hmax⟩
  unfold enqueueOutbound
  rw [hopen, hput]
  rfl

/-- A message refused changes nothing. -/
theorem enqueueOutbound_of_not_hasRoom {c : ConnectionContext} (h : ¬ c.HasRoom)
    (message : OutboundMessage) : c.enqueueOutbound message = (c, false) := by
  unfold enqueueOutbound
  by_cases hclosing : c.closing = true
  · rw [if_pos hclosing]
  · have hfull : c.outbound.full := by_contra fun hfull => h ⟨by simpa using hclosing, hfull⟩
    rw [if_neg hclosing, Queue.putNowait_eq_none_iff.2 hfull]

theorem evolves_enqueueOutbound (closes : Prop) (c : ConnectionContext)
    (message : OutboundMessage) :
    Evolves (· = message) closes c (c.enqueueOutbound message).1 := by
  by_cases h : c.HasRoom
  · obtain ⟨q, heq, -, haccepted, hmax⟩ := enqueueOutbound_of_hasRoom h message
    rw [heq]
    exact ⟨⟨rfl, rfl, rfl, rfl, rfl, rfl, hmax⟩, ⟨[message], haccepted, by simp⟩, id, .inl⟩
  · rw [enqueueOutbound_of_not_hasRoom h]
    exact .refl _ _ c

end ConnectionContext

namespace ConnectionManager

/-- Every context of the one manager has evolved into the context of the other; `closes` holds of the
connections that may have been closed. -/
def ContextsEvolve (P : OutboundMessage → Prop) (closes : ConnId → Prop)
    (m m' : ConnectionManager) : Prop :=
  ∀ cid, Option.Rel (ConnectionContext.Evolves P (closes cid)) (m.contexts cid) (m'.contexts cid)

namespace ContextsEvolve

variable {P : OutboundMessage → Prop} {closes : ConnId → Prop} {m m' m'' : ConnectionManager}

theorem refl (P : OutboundMessage → Prop) (closes : ConnId → Prop) (m : ConnectionManager) :
    ContextsEvolve P closes m m := by
  intro cid
  cases m.contexts cid with
  | none => exact .none
  | some c => exact .some (.refl P _ c)

/-- A context has evolved from one there was before. -/
theorem exists_of_eq_some (h : ContextsEvolve P closes m m') {cid : ConnId}
    {c' : ConnectionContext} (hc' : m'.contexts cid = some c') :
    ∃ c, m.contexts cid = some c ∧ ConnectionContext.Evolves P (closes cid) c c' := by
  have hrel := h cid
  rw [hc'] at hrel
  cases hm : m.contexts cid with
  | none => rw [hm] at hrel; cases hrel
  | some c =>
      rw [hm] at hrel
      cases hrel with
      | some hcc => exact ⟨c, rfl, hcc⟩

/-- A context is not forgotten. -/
theorem exists_of_some (h : ContextsEvolve P closes m m') {cid : ConnId} {c : ConnectionContext}
    (hc : m.contexts cid = some c) :
    ∃ c', m'.contexts cid = some c' ∧ ConnectionContext.Evolves P (closes cid) c c' := by
  have hrel := h cid
  rw [hc] at hrel
  cases hm : m'.contexts cid with
  | none => rw [hm] at hrel; cases hrel
  | some c' =>
      rw [hm] at hrel
      cases hrel with
      | some hcc => exact ⟨c', rfl, hcc⟩

theorem trans (h : ContextsEvolve P closes m m') (h' : ContextsEvolve P closes m' m'') :
    ContextsEvolve P closes m m'' := by
  intro cid
  cases hm : m.contexts cid with
  | none =>
      cases hm' : m''.contexts cid with
      | none => exact .none
      | some c'' =>
          obtain ⟨c', hc', -⟩ := h'.exists_of_eq_some hm'
          obtain ⟨c, hc, -⟩ := h.exists_of_eq_some hc'
          rw [hm] at hc
          cases hc
  | some c =>
      obtain ⟨c', hc', hcc'⟩ := h.exists_of_some hm
      obtain ⟨c'', hc'', hcc''⟩ := h'.exists_of_some hc'
      rw [hc'']
      exact .some (hcc'.trans hcc'')

theorem mono {P' : OutboundMessage → Prop} {closes' : ConnId → Prop}
    (h : ContextsEvolve P closes m m') (hPP' : ∀ message, P message → P' message)
    (hcloses : ∀ cid, closes cid → closes' cid) : ContextsEvolve P' closes' m m' := by
  intro cid
  have hrel := h cid
  generalize m.contexts cid = x at hrel ⊢
  generalize m'.contexts cid = x' at hrel ⊢
  cases hrel with
  | none => exact .none
  | some hcc => exact .some (hcc.mono hPP' (hcloses cid))

end ContextsEvolve

theorem contextsEvolve_modifyContext (m : ConnectionManager) (cid : ConnId)
    {P : OutboundMessage → Prop} {closes : ConnId → Prop}
    {f : ConnectionContext → ConnectionContext}
    (hf : ∀ c, ConnectionContext.Evolves P (closes cid) c (f c)) :
    ContextsEvolve P closes m (m.modifyContext cid f) := by
  intro cid'
  rw [modifyContext_contexts]
  split_ifs with h
  · subst h
    cases m.contexts cid' with
    | none => exact .none
    | some c => exact .some (hf c)
  · exact ContextsEvolve.refl P closes m cid'

theorem contextsEvolve_enqueueOutbound (m : ConnectionManager) (cid : ConnId)
    (message : OutboundMessage) (closes : ConnId → Prop) :
    ContextsEvolve (· = message) closes m (m.enqueueOutbound cid message).1 := by
  rw [enqueueOutbound_eq]
  exact m.contextsEvolve_modifyContext cid fun c => c.evolves_enqueueOutbound (closes cid) message

theorem contextsEvolve_enqueueEach (message : OutboundMessage) (closes : ConnId → Prop) :
    ∀ (targets : List ConnId) (m : ConnectionManager),
      ContextsEvolve (· = message) closes m (m.enqueueEach message targets).1 := by
  intro targets
  induction targets with
  | nil => exact ContextsEvolve.refl _ _
  | cons t targets ih =>
      intro m
      exact (m.contextsEvolve_enqueueOutbound t message closes).trans (ih _)

/-! ### The three operations on the registry -/

/-- The manager an accepted registration leaves. -/
def registered (m : ConnectionManager) (cid : ConnId) (k : PyStr) (now : ℚ) : ConnectionManager :=
  (({ m with connections := insert cid m.connections }).setContext cid
    (freshContext m.limits cid k now)).addClient k cid

/-- When a registration is accepted, and what it does. -/
theorem register_eq_ok {m m' : ConnectionManager} {cid : ConnId} {k : PyStr} {now : ℚ}
    (h : m.register cid k now = .ok m') :
    m.connections.card < m.limits.maxTotalConnections ∧
      (m.clients k).card < m.limits.maxConnectionsPerClient ∧ m' = m.registered cid k now := by
  unfold register at h
  split_ifs at h with h₁ h₂
  · simp only [Except.ok.injEq] at h
    exact ⟨by omega, by omega, h.symm⟩

theorem registered_contexts (m : ConnectionManager) (cid cid' : ConnId) (k : PyStr) (now : ℚ) :
    (m.registered cid k now).contexts cid' =
      if cid' = cid then some (freshContext m.limits cid k now) else m.contexts cid' := by
  rw [registered, addClient_contexts, setContext_contexts]

theorem mem_clients_registered (m : ConnectionManager) (cid cid' : ConnId) (k k' : PyStr)
    (now : ℚ) : cid' ∈ (m.registered cid k now).clients k' ↔
      (k' = k ∧ cid' = cid) ∨ cid' ∈ m.clients k' := by
  rw [registered, mem_clients_addClient]
  rfl

theorem registered_connections (m : ConnectionManager) (cid : ConnId) (k : PyStr) (now : ℚ) :
    (m.registered cid k now).connections = insert cid m.connections := rfl

@[simp] theorem bindIdentity_connections (m : ConnectionManager) (cid : ConnId)
    (c : ConnectionContext) (identity : AuthenticatedIdentity) :
    (m.bindIdentity cid c identity).connections = m.connections := by
  simp [bindIdentity, setContext]

@[simp] theorem bindIdentity_limits (m : ConnectionManager) (cid : ConnId)
    (c : ConnectionContext) (identity : AuthenticatedIdentity) :
    (m.bindIdentity cid c identity).limits = m.limits := by
  simp [bindIdentity, setContext]

@[simp] theorem bindIdentity_offlineQueue (m : ConnectionManager) (cid : ConnId)
    (c : ConnectionContext) (identity : AuthenticatedIdentity) :
    (m.bindIdentity cid c identity).offlineQueue = m.offlineQueue := by
  simp [bindIdentity, setContext]

theorem bindIdentity_contexts (m : ConnectionManager) (cid cid' : ConnId) (c : ConnectionContext)
    (identity : AuthenticatedIdentity) :
    (m.bindIdentity cid c identity).contexts cid' =
      if cid' = cid then some (c.authenticate identity) else m.contexts cid' := by
  simp only [bindIdentity, addClient_contexts, removeClient_contexts, setContext_contexts]

/-- Binding moves one id from the set of one key to the set of another. -/
theorem mem_clients_bindIdentity (m : ConnectionManager) (cid cid' : ConnId)
    (c : ConnectionContext) (identity : AuthenticatedIdentity) (k : PyStr) :
    cid' ∈ (m.bindIdentity cid c identity).clients k ↔
      (k = identity.username ∧ cid' = cid) ∨
        (cid' ∈ m.clients k ∧ ¬ (k = c.routingIdentity ∧ cid' = cid)) := by
  unfold bindIdentity
  rw [mem_clients_addClient, mem_clients_removeClient]
  rfl

/-- What `unregister` does to a registered connection. -/
theorem unregister_of_mem {m : ConnectionManager} {cid : ConnId} {c : ConnectionContext}
    (hcid : cid ∈ m.connections) (hc : m.contexts cid = some c) :
    m.unregister cid =
      (({ m with connections := m.connections.erase cid }).setContext cid
        c.markClosing).removeClient c.routingIdentity cid := by
  unfold unregister
  rw [if_pos hcid, hc]

theorem unregister_of_notMem {m : ConnectionManager} {cid : ConnId} (hcid : cid ∉ m.connections) :
    m.unregister cid = m := by
  unfold unregister
  rw [if_neg hcid]

@[simp] theorem unregister_connections (m : ConnectionManager) (cid : ConnId) :
    (m.unregister cid).connections = m.connections.erase cid := by
  by_cases hcid : cid ∈ m.connections
  · unfold unregister
    rw [if_pos hcid]
    cases m.contexts cid with
    | none => rfl
    | some c => rw [removeClient_connections]; rfl
  · rw [unregister_of_notMem hcid, Finset.erase_eq_of_notMem hcid]

@[simp] theorem unregister_limits (m : ConnectionManager) (cid : ConnId) :
    (m.unregister cid).limits = m.limits := by
  unfold unregister
  split_ifs
  · cases m.contexts cid with
    | none => rfl
    | some c => rw [removeClient_limits]; rfl
  · rfl

@[simp] theorem unregister_offlineQueue (m : ConnectionManager) (cid : ConnId) :
    (m.unregister cid).offlineQueue = m.offlineQueue := by
  unfold unregister
  split_ifs
  · cases m.contexts cid with
    | none => rfl
    | some c => rw [removeClient_offlineQueue]; rfl
  · rfl

theorem unregister_contexts {m : ConnectionManager} {cid : ConnId} {c : ConnectionContext}
    (hcid : cid ∈ m.connections) (hc : m.contexts cid = some c) (cid' : ConnId) :
    (m.unregister cid).contexts cid' =
      if cid' = cid then some c.markClosing else m.contexts cid' := by
  rw [unregister_of_mem hcid hc, removeClient_contexts, setContext_contexts]

theorem mem_clients_unregister {m : ConnectionManager} {cid : ConnId} {c : ConnectionContext}
    (hcid : cid ∈ m.connections) (hc : m.contexts cid = some c) (cid' : ConnId) (k : PyStr) :
    cid' ∈ (m.unregister cid).clients k ↔
      cid' ∈ m.clients k ∧ ¬ (k = c.routingIdentity ∧ cid' = cid) := by
  rw [unregister_of_mem hcid hc, mem_clients_removeClient]
  rfl

/-- Removing a connection does to the contexts what closing it does. -/
theorem contextsEvolve_unregister (P : OutboundMessage → Prop) (m : ConnectionManager)
    (cid : ConnId) : ContextsEvolve P (· = cid) m (m.unregister cid) := by
  by_cases hcid : cid ∈ m.connections
  swap
  · rw [unregister_of_notMem hcid]
    exact .refl P _ m
  cases hc : m.contexts cid with
  | none =>
      intro cid'
      have : (m.unregister cid).contexts = m.contexts := by
        unfold unregister
        rw [if_pos hcid, hc]
      rw [this]
      exact ContextsEvolve.refl P (· = cid) m cid'
  | some c =>
      intro cid'
      rw [unregister_contexts hcid hc]
      split_ifs with hne
      · rw [hne, hc]
        exact .some (c.evolves_markClosing P rfl)
      · exact ContextsEvolve.refl P (· = cid) m cid'

end ConnectionManager

/-! ### The effects -/

namespace ManagerOp

open ConnectionManager

/-- The messages an operation puts on queues. -/
def puts : ManagerOp → List OutboundMessage
  | enqueueOutbound _ message => [message]
  | deliverToClient _ message => [message]
  | enqueueOffline _ message => [message]
  | _ => []

/-- **The ways an operation changes a manager.** -/
inductive Effect (m : ConnectionManager) : ManagerOp → ConnectionManager → Prop
  | rejected {cid : ConnId} {k : PyStr} {now : ℚ} (fresh : m.contexts cid = none) :
      Effect m (register cid k now) m
  | registered {cid : ConnId} {k : PyStr} {now : ℚ} (fresh : m.contexts cid = none)
      (total : m.connections.card < m.limits.maxTotalConnections)
      (perClient : (m.clients k).card < m.limits.maxConnectionsPerClient) :
      Effect m (register cid k now) (m.registered cid k now)
  | bound {cid : ConnId} {c : ConnectionContext} {identity : AuthenticatedIdentity}
      (context : m.contexts cid = some c) (registered : cid ∈ m.connections)
      (unauthenticated : c.authenticated = false) :
      Effect m (bindIdentity cid identity) (m.bindIdentity cid c identity)
  | unregistered (cid : ConnId) : Effect m (unregister cid) (m.unregister cid)
  | enqueued (r : PyStr) (message : OutboundMessage) :
      Effect m (enqueueOffline r message) (m.enqueueOffline r message).1
  | drained (r : PyStr) : Effect m (drainOffline r) (m.drainOffline r).1
  | discarded (r : PyStr) : Effect m (discardOffline r) (m.discardOffline r)
  /-- Nothing but contexts changes. -/
  | contexts {op : ManagerOp} {contexts : ConnId → Option ConnectionContext}
      (evolve : ContextsEvolve (· ∈ op.puts) (fun cid => op = markClosing cid) m
        { m with contexts := contexts }) :
      Effect m op { m with contexts := contexts }

/-- An update of one context that accepts what the operation puts has the last effect. -/
theorem effect_modifyContext {m : ConnectionManager} {op : ManagerOp} (cid : ConnId)
    {f : ConnectionContext → ConnectionContext}
    (hf : ∀ c, ConnectionContext.Evolves (· ∈ op.puts) (op = markClosing cid) c (f c)) :
    Effect m op (m.modifyContext cid f) :=
  .contexts (m.contextsEvolve_modifyContext cid hf)

/-- **An enabled operation has one of the effects.** -/
theorem effect {m m' : ConnectionManager} {op : ManagerOp} (h : op.apply m = some m') :
    Effect m op m' := by
  cases op with
  | register cid k now =>
      simp only [apply] at h
      cases hctx : m.contexts cid with
      | some c => simp [hctx] at h
      | none =>
          cases hreg : m.register cid k now with
          | error reason =>
              simp only [hctx, hreg, Option.some.injEq] at h
              exact h ▸ .rejected hctx
          | ok m₁ =>
              simp only [hctx, hreg, Option.some.injEq] at h
              obtain ⟨htotal, hper, rfl⟩ := register_eq_ok hreg
              exact h ▸ .registered hctx htotal hper
  | bindIdentity cid identity =>
      simp only [apply] at h
      cases hctx : m.contexts cid with
      | none => simp [hctx] at h
      | some c =>
          simp only [hctx, Option.ite_none_right_eq_some, Option.some.injEq] at h
          obtain ⟨⟨hcid, hauth⟩, rfl⟩ := h
          exact .bound hctx hcid hauth
  | unregister cid =>
      cases h
      exact .unregistered cid
  | enqueueOffline r message =>
      cases h
      exact .enqueued r message
  | drainOffline r =>
      cases h
      exact .drained r
  | discardOffline r =>
      cases h
      exact .discarded r
  | enqueueOutbound cid message =>
      cases h
      rw [enqueueOutbound_eq]
      exact effect_modifyContext cid fun c =>
        (c.evolves_enqueueOutbound _ message).mono (by simp [puts]) id
  | deliverToClient k message =>
      cases h
      rw [deliverToClient_fst]
      have hevolve := contextsEvolve_enqueueEach message
        (fun cid => deliverToClient k message = markClosing cid) (m.connectionsFor k) m
      obtain ⟨contexts, heq⟩ := enqueueEach_eq message (m.connectionsFor k) m
      rw [heq] at hevolve ⊢
      exact .contexts (hevolve.mono (by simp [puts]) fun _ => id)
  | markClosing cid =>
      cases h
      exact effect_modifyContext cid (ConnectionContext.evolves_markClosing _ rfl)
  | touch cid now =>
      cases h
      exact effect_modifyContext cid fun c => c.evolves_touch _ _ now
  | allow cid now =>
      cases h
      exact effect_modifyContext cid fun c => c.evolves_allow _ _ now
  | takeOutbound cid =>
      cases h
      exact effect_modifyContext cid (ConnectionContext.evolves_takeOutbound _ _)
  | taskDone cid =>
      cases h
      exact effect_modifyContext cid (ConnectionContext.evolves_taskDone _ _)

end ManagerOp

end EncryptChat
