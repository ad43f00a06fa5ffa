/-
**States of the transport that differ in payloads only.**

A payload enters the transport in a frame, is copied into a receipt, waits on queues and leaves on a
socket.  Two states that hold the same receipts with different payloads are related here by any
relation on the payloads themselves, and every operation on a connection or on the registry is shown
to keep two related states related and to answer the same.

Main definitions:

* `EncryptChat.MessagesAlike`, `EncryptChat.QueuesAlike`, `EncryptChat.ContextsAlike`,
  `EncryptChat.OfflineAlike`, `EncryptChat.ManagersAlike` — related but for payloads;
* `EncryptChat.BothAlike` — two operations that leave related states and answer the same.

Main results:

* `EncryptChat.ContextsAlike.enqueueOutbound`, `EncryptChat.OfflineAlike.enqueue` — a queue takes
  one of two related messages exactly when it takes the other;
* `EncryptChat.ManagersAlike.deliverToClient`, `EncryptChat.ManagersAlike.register`,
  `EncryptChat.ManagersAlike.bindIdentity`, `EncryptChat.ManagersAlike.unregister` — **the registry
  does not look into payloads**.
-/

import EncryptChat.EndpointFrame
import EncryptChat.Simulation

set_option relaxedAutoImplicit false
set_option autoImplicit false

namespace EncryptChat

open Python
open Transition.System (cases_of_rel)

/-! ### Messages and queues -/

/-- Two messages that differ in the payload of a receipt at most, the two payloads related. -/
inductive MessagesAlike (P : Dict → Dict → Prop) : OutboundMessage → OutboundMessage → Prop
  | receipt (r : MessageReceipt) {payload : Dict} (h : P r.payload payload) :
      MessagesAlike P (.messageReceipt r) (.messageReceipt { r with payload })
  | plain {message : OutboundMessage} (h : message.receipt? = none) :
      MessagesAlike P message message

/-- Two queues whose messages are related one by one. -/
structure QueuesAlike (P : Dict → Dict → Prop) (q q' : Queue OutboundMessage) : Prop where
  maxsize : q'.maxsize = q.maxsize
  unfinished : q'.unfinished = q.unfinished
  items : List.Forall₂ (MessagesAlike P) q.items q'.items
  accepted : List.Forall₂ (MessagesAlike P) q.accepted q'.accepted

/-- Two contexts that differ in their queues only. -/
structure ContextsAlike (P : Dict → Dict → Prop) (c c' : ConnectionContext) : Prop where
  outbound : QueuesAlike P c.outbound c'.outbound
  rest : c' = { c with outbound := c'.outbound }

/-- Two offline queues whose messages are related one by one. -/
structure OfflineAlike (P : Dict → Dict → Prop) (q q' : OfflineQueue OutboundMessage) :
    Prop where
  maxPerRecipient : q'.maxPerRecipient = q.maxPerRecipient
  maxRecipients : q'.maxRecipients = q.maxRecipients
  queues : ∀ r, Option.Rel (List.Forall₂ (MessagesAlike P)) (q.queues.lookup r)
    (q'.queues.lookup r)

/-- Two managers with the same registry whose queues are related. -/
structure ManagersAlike (P : Dict → Dict → Prop) (m m' : ConnectionManager) : Prop where
  limits : m'.limits = m.limits
  contexts : ∀ cid, Option.Rel (ContextsAlike P) (m.contexts cid) (m'.contexts cid)
  connections : m'.connections = m.connections
  byClient : m'.byClient = m.byClient
  offlineQueue : OfflineAlike P m.offlineQueue m'.offlineQueue

/-- Two operations that leave related states and answer the same. -/
structure BothAlike {σ : Type} {α : Type} (R : σ → σ → Prop) (x x' : σ × α) : Prop where
  state : R x.1 x'.1
  answer : x'.2 = x.2

variable {P : Dict → Dict → Prop}

namespace QueuesAlike

variable {q q' : Queue OutboundMessage}

theorem length (h : QueuesAlike P q q') : q'.items.length = q.items.length :=
  h.items.length_eq.symm

theorem full (h : QueuesAlike P q q') : q'.full = q.full := by
  simp only [Queue.full, h.maxsize, h.length]

theorem empty (n : ℕ) : QueuesAlike P (.empty n) (.empty n) := ⟨rfl, rfl, .nil, .nil⟩

/-- Related messages are accepted by both queues or by neither. -/
theorem putNowait (h : QueuesAlike P q q') {x x' : OutboundMessage} (hx : MessagesAlike P x x') :
    Option.Rel (QueuesAlike P) (q.putNowait x) (q'.putNowait x') := by
  by_cases hfull : q.full = true
  · have hfull' : q'.full = true := h.full.trans hfull
    rw [Queue.putNowait_eq_none_iff.2 hfull, Queue.putNowait_eq_none_iff.2 hfull']
    exact .none
  · have hfull' : ¬ q'.full = true := fun h' => hfull (h.full.symm.trans h')
    rw [Queue.putNowait, Queue.putNowait, dif_neg hfull, dif_neg hfull']
    refine .some ⟨h.maxsize, ?_, ?_, ?_⟩
    · exact congrArg (· + 1) h.unfinished
    · exact List.rel_append h.items (.cons hx .nil)
    · exact List.rel_append h.accepted (.cons hx .nil)

theorem tail (h : QueuesAlike P q q') : QueuesAlike P q.tail q'.tail where
  maxsize := h.maxsize
  unfinished := h.unfinished
  items := by
    rw [Queue.tail_items, Queue.tail_items, ← List.drop_one, ← List.drop_one]
    exact List.forall₂_drop 1 h.items
  accepted := h.accepted

theorem taskDone (h : QueuesAlike P q q') : QueuesAlike P q.taskDone q'.taskDone where
  maxsize := h.maxsize
  unfinished := by
    rw [Queue.taskDone_unfinished, Queue.taskDone_unfinished, h.unfinished]
  items := h.items
  accepted := h.accepted

/-- The next messages are related. -/
theorem head? (h : QueuesAlike P q q') :
    Option.Rel (MessagesAlike P) q.items.head? q'.items.head? := by
  have hitems := h.items
  revert hitems
  generalize q.items = l
  generalize q'.items = l'
  rintro (_ | ⟨hx, -⟩)
  · exact .none
  · exact .some hx

end QueuesAlike

/-! ### Contexts -/

namespace ContextsAlike

variable {c c' : ConnectionContext}

theorem authenticated (h : ContextsAlike P c c') : c'.authenticated = c.authenticated := by
  rw [h.rest]

theorem closing (h : ContextsAlike P c c') : c'.closing = c.closing := by rw [h.rest]

theorem routingIdentity (h : ContextsAlike P c c') : c'.routingIdentity = c.routingIdentity := by
  rw [h.rest]
  rfl

/-- An update of both that leaves the queues related. -/
theorem update {f : ConnectionContext → ConnectionContext} (h : ContextsAlike P c c')
    (hqueue : QueuesAlike P (f c).outbound (f c').outbound)
    (hf : ∀ q, f { c with outbound := q } =
      { f c with outbound := (f { c with outbound := q }).outbound }) :
    ContextsAlike P (f c) (f c') := by
  refine ⟨hqueue, ?_⟩
  have hc' := hf c'.outbound
  rw [← h.rest] at hc'
  exact hc'

theorem touch (h : ContextsAlike P c c') (now : ℚ) : ContextsAlike P (c.touch now) (c'.touch now) :=
  h.update (f := fun c => c.touch now) h.outbound fun _ => rfl

theorem markClosing (h : ContextsAlike P c c') : ContextsAlike P c.markClosing c'.markClosing :=
  h.update h.outbound fun _ => rfl

theorem takeOutbound (h : ContextsAlike P c c') :
    ContextsAlike P c.takeOutbound c'.takeOutbound :=
  h.update h.outbound.tail fun _ => rfl

theorem taskDone (h : ContextsAlike P c c') : ContextsAlike P c.taskDone c'.taskDone :=
  h.update h.outbound.taskDone fun _ => rfl

theorem authenticate (h : ContextsAlike P c c') (identity : AuthenticatedIdentity) :
    ContextsAlike P (c.authenticate identity) (c'.authenticate identity) :=
  h.update (f := fun c => c.authenticate identity) h.outbound fun _ => rfl

/-- The limiter has not seen a payload. -/
theorem allow (h : ContextsAlike P c c') (now : ℚ) :
    BothAlike (ContextsAlike P) (c.allow now) (c'.allow now) := by
  have hlimiter : c'.rateLimiter = c.rateLimiter := by rw [h.rest]
  refine ⟨h.update (f := fun c => (c.allow now).1) h.outbound fun _ => rfl, ?_⟩
  simp only [ConnectionContext.allow, hlimiter]

/-- **A connection takes one of two related messages exactly when it takes the other.** -/
theorem enqueueOutbound (h : ContextsAlike P c c') {x x' : OutboundMessage}
    (hx : MessagesAlike P x x') :
    BothAlike (ContextsAlike P) (c.enqueueOutbound x) (c'.enqueueOutbound x') := by
  unfold ConnectionContext.enqueueOutbound
  rw [h.closing]
  by_cases hclosing : c.closing = true
  · rw [if_pos hclosing, if_pos hclosing]
    exact ⟨h, rfl⟩
  rw [if_neg hclosing, if_neg hclosing]
  rcases cases_of_rel (h.outbound.putNowait hx) with ⟨hq, hq'⟩ | ⟨q, q', hq, hq', hqq⟩
  · rw [hq, hq']
    exact ⟨h, rfl⟩
  · rw [hq, hq']
    refine ⟨⟨hqq, ?_⟩, rfl⟩
    rw [h.rest]

end ContextsAlike

/-! ### The offline queue -/

namespace OfflineAlike

variable {q q' : OfflineQueue OutboundMessage}

theorem new (a b : ℕ) : OfflineAlike P (.new a b) (.new a b) :=
  ⟨rfl, rfl, fun _ => .none⟩

/-- The same recipients are tracked. -/
theorem recipientCount (h : OfflineAlike P q q') : q'.recipientCount = q.recipientCount := by
  have hkeys : q'.queues.keys = q.queues.keys := by
    ext r
    rw [Finmap.mem_keys, Finmap.mem_keys, ← Finmap.lookup_isSome, ← Finmap.lookup_isSome]
    rcases cases_of_rel (h.queues r) with ⟨hl, hl'⟩ | ⟨l, l', hl, hl', -⟩
    · rw [hl, hl']
    · rw [hl, hl']
      rfl
  simp only [OfflineQueue.recipientCount, hkeys]

theorem queued (h : OfflineAlike P q q') (r : PyStr) :
    List.Forall₂ (MessagesAlike P) (q.queued r) (q'.queued r) := by
  unfold OfflineQueue.queued
  rcases cases_of_rel (h.queues r) with ⟨hl, hl'⟩ | ⟨l, l', hl, hl', hll⟩
  · rw [hl, hl']
    exact .nil
  · rw [hl, hl']
    exact hll

theorem count (h : OfflineAlike P q q') (r : PyStr) : q'.count r = q.count r := by
  rw [OfflineQueue.count_eq, OfflineQueue.count_eq, (h.queued r).length_eq]

theorem insert (h : OfflineAlike P q q') (r : PyStr) {l l' : List OutboundMessage}
    (hl : List.Forall₂ (MessagesAlike P) l l') :
    OfflineAlike P { q with queues := q.queues.insert r l }
      { q' with queues := q'.queues.insert r l' } where
  maxPerRecipient := h.maxPerRecipient
  maxRecipients := h.maxRecipients
  queues := by
    intro k
    by_cases hk : k = r
    · subst hk
      rw [Finmap.lookup_insert, Finmap.lookup_insert]
      exact .some hl
    · simpa [Finmap.lookup_insert_of_ne _ hk] using h.queues k

theorem erase (h : OfflineAlike P q q') (r : PyStr) :
    OfflineAlike P { q with queues := q.queues.erase r }
      { q' with queues := q'.queues.erase r } where
  maxPerRecipient := h.maxPerRecipient
  maxRecipients := h.maxRecipients
  queues := by
    intro k
    by_cases hk : k = r
    · subst hk
      rw [Finmap.lookup_erase, Finmap.lookup_erase]
      exact .none
    · simpa [Finmap.lookup_erase_ne hk] using h.queues k

theorem push (h : OfflineAlike P q q') (r : PyStr) {l l' : List OutboundMessage}
    (hl : List.Forall₂ (MessagesAlike P) l l') {x x' : OutboundMessage}
    (hx : MessagesAlike P x x') :
    BothAlike (OfflineAlike P) (q.push r l x) (q'.push r l' x') := by
  have hbound : q'.maxPerRecipient ≤ l'.length ↔ q.maxPerRecipient ≤ l.length := by
    rw [h.maxPerRecipient, hl.length_eq]
  have happend : List.Forall₂ (MessagesAlike P) (l ++ [x]) (l' ++ [x']) :=
    List.rel_append hl (.cons hx .nil)
  unfold OfflineQueue.push
  by_cases hfull : q.maxPerRecipient ≤ l.length
  · rw [if_pos hfull, if_pos (hbound.2 hfull)]
    exact ⟨h, rfl⟩
  · rw [if_neg hfull, if_neg (mt hbound.1 hfull)]
    exact ⟨h.insert r happend, rfl⟩

/-- **The offline queue takes one of two related messages exactly when it takes the other.** -/
theorem enqueue (h : OfflineAlike P q q') (r : PyStr) {x x' : OutboundMessage}
    (hx : MessagesAlike P x x') :
    BothAlike (OfflineAlike P) (q.enqueue r x) (q'.enqueue r x') := by
  have hbound : q'.maxRecipients ≤ q'.recipientCount ↔ q.maxRecipients ≤ q.recipientCount := by
    rw [h.maxRecipients, h.recipientCount]
  unfold OfflineQueue.enqueue
  rcases cases_of_rel (h.queues r) with ⟨hl, hl'⟩ | ⟨l, l', hl, hl', hll⟩
  · rw [hl, hl']
    by_cases hfull : q.maxRecipients ≤ q.recipientCount
    · simp only [if_pos hfull, if_pos (hbound.2 hfull)]
      exact ⟨h, rfl⟩
    · simp only [if_neg hfull, if_neg (mt hbound.1 hfull)]
      exact (h.insert r .nil).push r .nil hx
  · rw [hl, hl']
    exact h.push r hll hx

end OfflineAlike

/-! ### The registry -/

namespace ManagersAlike

variable {m m' : ConnectionManager}

theorem new (limits : TransportLimits) : ManagersAlike P (.new limits) (.new limits) :=
  ⟨rfl, fun _ => .none, rfl, rfl, .new _ _⟩

theorem clients (h : ManagersAlike P m m') (k : PyStr) : m'.clients k = m.clients k := by
  simp only [ConnectionManager.clients, h.byClient]

theorem isConnected (h : ManagersAlike P m m') (k : PyStr) :
    m'.isConnected k = m.isConnected k := by
  simp only [ConnectionManager.isConnected, h.clients]

theorem connectionsFor (h : ManagersAlike P m m') (k : PyStr) :
    m'.connectionsFor k = m.connectionsFor k := by
  simp only [ConnectionManager.connectionsFor, h.clients, h.connections]

theorem setContext (h : ManagersAlike P m m') (cid : ConnId) {c c' : ConnectionContext}
    (hc : ContextsAlike P c c') : ManagersAlike P (m.setContext cid c) (m'.setContext cid c') where
  limits := h.limits
  contexts := by
    intro k
    rw [ConnectionManager.setContext_contexts, ConnectionManager.setContext_contexts]
    split_ifs
    · exact .some hc
    · exact h.contexts k
  connections := h.connections
  byClient := h.byClient
  offlineQueue := h.offlineQueue

theorem modifyContext (h : ManagersAlike P m m') (cid : ConnId)
    {f : ConnectionContext → ConnectionContext}
    (hf : ∀ c c', ContextsAlike P c c' → ContextsAlike P (f c) (f c')) :
    ManagersAlike P (m.modifyContext cid f) (m'.modifyContext cid f) where
  limits := h.limits
  contexts := by
    intro k
    rw [ConnectionManager.modifyContext_contexts, ConnectionManager.modifyContext_contexts]
    split_ifs
    · rcases cases_of_rel (h.contexts cid) with ⟨hc, hc'⟩ | ⟨c, c', hc, hc', hcc⟩
      · rw [hc, hc']
        exact .none
      · rw [hc, hc']
        exact .some (hf c c' hcc)
    · exact h.contexts k
  connections := h.connections
  byClient := h.byClient
  offlineQueue := h.offlineQueue

theorem addClient (h : ManagersAlike P m m') (k : PyStr) (cid : ConnId) :
    ManagersAlike P (m.addClient k cid) (m'.addClient k cid) :=
  { h with byClient := by simp only [ConnectionManager.addClient, h.byClient, h.clients] }

theorem removeClient (h : ManagersAlike P m m') (k : PyStr) (cid : ConnId) :
    ManagersAlike P (m.removeClient k cid) (m'.removeClient k cid) := by
  unfold ConnectionManager.removeClient
  rw [h.byClient]
  cases m.byClient.lookup k with
  | none => exact h
  | some ids =>
      dsimp only
      split_ifs
      · exact { h with byClient := rfl }
      · exact { h with byClient := rfl }

/-- **A registration is rejected in both or in neither.** -/
theorem register (h : ManagersAlike P m m') (cid : ConnId) (k : PyStr) (now : ℚ) :
    (∃ reason, m.register cid k now = .error reason ∧ m'.register cid k now = .error reason) ∨
      ∃ n n', m.register cid k now = .ok n ∧ m'.register cid k now = .ok n' ∧
        ManagersAlike P n n' := by
  have htotal : m'.limits.maxTotalConnections ≤ m'.connections.card ↔
      m.limits.maxTotalConnections ≤ m.connections.card := by
    rw [h.limits, h.connections]
  have hclient : m'.limits.maxConnectionsPerClient ≤ (m'.clients k).card ↔
      m.limits.maxConnectionsPerClient ≤ (m.clients k).card := by
    rw [h.limits, h.clients]
  have hinserted : ManagersAlike P { m with connections := insert cid m.connections }
      { m' with connections := insert cid m'.connections } :=
    { h with connections := by rw [h.connections] }
  have hfresh : ContextsAlike P (ConnectionManager.freshContext m.limits cid k now)
      (ConnectionManager.freshContext m'.limits cid k now) := by
    rw [h.limits]
    exact ⟨.empty _, rfl⟩
  unfold ConnectionManager.register
  by_cases htot : m.limits.maxTotalConnections ≤ m.connections.card
  · rw [if_pos htot, if_pos (htotal.2 htot)]
    exact .inl ⟨_, rfl, rfl⟩
  rw [if_neg htot, if_neg (mt htotal.1 htot)]
  by_cases hcli : m.limits.maxConnectionsPerClient ≤ (m.clients k).card
  · rw [if_pos hcli, if_pos (hclient.2 hcli)]
    exact .inl ⟨_, rfl, rfl⟩
  rw [if_neg hcli, if_neg (mt hclient.1 hcli)]
  exact .inr ⟨_, _, rfl, rfl, (hinserted.setContext cid hfresh).addClient k cid⟩

theorem bindIdentity (h : ManagersAlike P m m') (cid : ConnId) {c c' : ConnectionContext}
    (hc : ContextsAlike P c c') (identity : AuthenticatedIdentity) :
    ManagersAlike P (m.bindIdentity cid c identity) (m'.bindIdentity cid c' identity) := by
  unfold ConnectionManager.bindIdentity
  rw [hc.routingIdentity]
  exact ((h.setContext cid (hc.authenticate identity)).removeClient _ cid).addClient _ cid

theorem unregister (h : ManagersAlike P m m') (cid : ConnId) :
    ManagersAlike P (m.unregister cid) (m'.unregister cid) := by
  have herased : ManagersAlike P { m with connections := m.connections.erase cid }
      { m' with connections := m.connections.erase cid } := { h with connections := rfl }
  unfold ConnectionManager.unregister
  rw [h.connections]
  split_ifs
  · rcases cases_of_rel (h.contexts cid) with ⟨hc, hc'⟩ | ⟨c, c', hc, hc', hcc⟩
    · rw [hc, hc']
      exact herased
    · rw [hc, hc']
      dsimp only
      rw [hcc.routingIdentity]
      exact (herased.setContext cid hcc.markClosing).removeClient _ cid
  · exact h

theorem enqueueOutbound (h : ManagersAlike P m m') (cid : ConnId) {x x' : OutboundMessage}
    (hx : MessagesAlike P x x') :
    BothAlike (ManagersAlike P) (m.enqueueOutbound cid x) (m'.enqueueOutbound cid x') := by
  unfold ConnectionManager.enqueueOutbound
  rcases cases_of_rel (h.contexts cid) with ⟨hc, hc'⟩ | ⟨c, c', hc, hc', hcc⟩
  · rw [hc, hc']
    exact ⟨h, rfl⟩
  · rw [hc, hc']
    have hsent := hcc.enqueueOutbound hx
    exact ⟨h.setContext cid hsent.state, hsent.answer⟩

theorem enqueueEach {x x' : OutboundMessage} (hx : MessagesAlike P x x') (targets : List ConnId) :
    ∀ {m m' : ConnectionManager}, ManagersAlike P m m' →
      BothAlike (ManagersAlike P) (m.enqueueEach x targets) (m'.enqueueEach x' targets) := by
  induction targets with
  | nil => exact fun h => ⟨h, rfl⟩
  | cons cid targets ih =>
      intro m m' h
      have hhead := h.enqueueOutbound cid hx
      have hrest := ih hhead.state
      refine ⟨hrest.state, ?_⟩
      simp only [ConnectionManager.enqueueEach, hhead.answer, hrest.answer]

/-- **A delivery reaches the same connections.** -/
theorem deliverToClient (h : ManagersAlike P m m') (k : PyStr) {x x' : OutboundMessage}
    (hx : MessagesAlike P x x') :
    BothAlike (ManagersAlike P) (m.deliverToClient k x) (m'.deliverToClient k x') := by
  unfold ConnectionManager.deliverToClient
  rw [h.connectionsFor]
  cases m.connectionsFor k with
  | nil => exact ⟨h, rfl⟩
  | cons cid targets =>
      have heach := enqueueEach hx (cid :: targets) h
      refine ⟨heach.state, ?_⟩
      simp only [heach.answer]

theorem enqueueOffline (h : ManagersAlike P m m') (k : PyStr) {x x' : OutboundMessage}
    (hx : MessagesAlike P x x') :
    BothAlike (ManagersAlike P) (m.enqueueOffline k x) (m'.enqueueOffline k x') :=
  ⟨{ h with offlineQueue := (h.offlineQueue.enqueue k hx).state },
    (h.offlineQueue.enqueue k hx).answer⟩

/-- Draining yields related messages. -/
theorem drainOffline (h : ManagersAlike P m m') (k : PyStr) :
    ManagersAlike P (m.drainOffline k).1 (m'.drainOffline k).1 ∧
      List.Forall₂ (MessagesAlike P) (m.drainOffline k).2 (m'.drainOffline k).2 :=
  ⟨{ h with offlineQueue := h.offlineQueue.erase k }, h.offlineQueue.queued k⟩

end ManagersAlike

end EncryptChat
