/-
**The connection registry and the per-connection transport state.**

All live WebSocket state lives in a `ConnectionManager`.  Its contexts are objects shared by
reference between the registry and the coroutines that serve them, so the manager carries the
objects (`contexts`, addressed by connection id, never forgotten) apart from the registry
`_connections`, which is the set of ids that are registered, and from its index `_by_client`.

Main definitions:

* `EncryptChat.ConnectionContext` — one connection: its bounded outbound queue, its limiter, and
  the identity bound to it, if any;
* `EncryptChat.ConnectionContext.routingIdentity` — the name it sends and receives as;
* `EncryptChat.ConnectionManager` with `register`, `bindIdentity`, `unregister`,
  `connectionsFor`, `isConnected`, `deliverToClient`.
-/

import EncryptChat.AuthTypes
import EncryptChat.Limits
import EncryptChat.OfflineQueue
import EncryptChat.PyQueue
import EncryptChat.Schemas

set_option relaxedAutoImplicit false
set_option autoImplicit false

namespace EncryptChat

open Python

/-- A connection id, `uuid4().hex`. -/
abbrev ConnId := PyStr

/-! ### One connection -/

/-- Per-connection transport state. -/
structure ConnectionContext where
  connectionId : ConnId
  transportClientId : PyStr
  outbound : Queue OutboundMessage
  rateLimiter : RateLimiter
  lastActivityMonotonic : ℚ
  authenticated : Bool := false
  userId : Option PyStr := none
  accountUsername : Option PyStr := none
  sessionId : Option PyStr := none
  closing : Bool := false

namespace ConnectionContext

/-- `authenticate(...)`: bind a verified account identity. -/
def authenticate (c : ConnectionContext) (identity : AuthenticatedIdentity) : ConnectionContext :=
  { c with
    authenticated := true
    userId := some identity.userId
    accountUsername := some identity.username
    sessionId := some identity.sessionId }

/-- The identity this connection sends and receives as: the account name once it is bound, the
unprivileged transport id before. -/
def routingIdentity (c : ConnectionContext) : PyStr := c.accountUsername.getD c.transportClientId

/-- `touch(now)`. -/
def touch (c : ConnectionContext) (now : ℚ) : ConnectionContext :=
  { c with lastActivityMonotonic := now }

/-- `enqueue_outbound(message)`: refused while closing or when the queue is full. -/
def enqueueOutbound (c : ConnectionContext) (message : OutboundMessage) :
    ConnectionContext × Bool :=
  if c.closing then (c, false)
  else match c.outbound.putNowait message with
    | none => (c, false)
    | some q => ({ c with outbound := q }, true)

/-- `mark_closing()`. -/
def markClosing (c : ConnectionContext) : ConnectionContext := { c with closing := true }

/-- `rate_limiter.allow(now)`. -/
def allow (c : ConnectionContext) (now : ℚ) : ConnectionContext × Bool :=
  ({ c with rateLimiter := (c.rateLimiter.allow now).1 }, (c.rateLimiter.allow now).2)

/-- `outbound.get()`, where a message is waiting. -/
def takeOutbound (c : ConnectionContext) : ConnectionContext :=
  { c with outbound := c.outbound.tail }

/-- `outbound.task_done()`. -/
def taskDone (c : ConnectionContext) : ConnectionContext :=
  { c with outbound := c.outbound.taskDone }

/-- The connection takes another message. -/
def HasRoom (c : ConnectionContext) : Prop := c.closing = false ∧ ¬ c.outbound.full

instance (c : ConnectionContext) : Decidable c.HasRoom := inferInstanceAs (Decidable (_ ∧ _))

end ConnectionContext

/-! ### The manager -/

/-- The registry of live connections. -/
structure ConnectionManager where
  limits : TransportLimits
  /-- The context objects, by connection id: every one ever created. -/
  contexts : ConnId → Option ConnectionContext
  /-- The keys of `_connections`; the value at a key is the context object with that id. -/
  connections : Finset ConnId
  /-- `_by_client`. -/
  byClient : Finmap fun _ : PyStr => PySet ConnId
  offlineQueue : OfflineQueue OutboundMessage

namespace ConnectionManager

/-- `ConnectionManager(limits)`. -/
def new (limits : TransportLimits) : ConnectionManager where
  limits := limits
  contexts := fun _ => none
  connections := ∅
  byClient := ∅
  offlineQueue := .new limits.maxQueuedPerRecipient limits.maxQueuedRecipients

/-- Assign to the context object with a given id. -/
def setContext (m : ConnectionManager) (cid : ConnId) (c : ConnectionContext) :
    ConnectionManager :=
  { m with contexts := Function.update m.contexts cid (some c) }

/-- Update the context object with a given id, where there is one. -/
def modifyContext (m : ConnectionManager) (cid : ConnId)
    (f : ConnectionContext → ConnectionContext) : ConnectionManager :=
  { m with contexts := Function.update m.contexts cid ((m.contexts cid).map f) }

/-- `_by_client.get(k, set())`. -/
def clients (m : ConnectionManager) (k : PyStr) : PySet ConnId :=
  (m.byClient.lookup k).getD .empty

/-- `_by_client.setdefault(k, set()).add(cid)`. -/
def addClient (m : ConnectionManager) (k : PyStr) (cid : ConnId) : ConnectionManager :=
  { m with byClient := m.byClient.insert k ((m.clients k).add cid) }

/-- Discard an id from the set of a key, and delete the key when its set becomes empty. -/
def removeClient (m : ConnectionManager) (k : PyStr) (cid : ConnId) : ConnectionManager :=
  match m.byClient.lookup k with
  | none => m
  | some ids =>
      if (ids.discard cid).isEmpty then { m with byClient := m.byClient.erase k }
      else { m with byClient := m.byClient.insert k (ids.discard cid) }

/-- The context `register` creates. -/
def freshContext (limits : TransportLimits) (cid : ConnId) (transportClientId : PyStr) (now : ℚ) :
    ConnectionContext where
  connectionId := cid
  transportClientId := transportClientId
  outbound := .empty limits.maxPendingOutbound
  rateLimiter :=
    { maxMessages := limits.maxMessagesPerWindow, windowSeconds := limits.rateLimitWindowSeconds }
  lastActivityMonotonic := now

/-- `register(transport_client_id)`; the connection id is the fresh `uuid4().hex`, and the error is
the reason of the `ConnectionRejected` raised. -/
def register (m : ConnectionManager) (cid : ConnId) (transportClientId : PyStr) (now : ℚ) :
    Except PyStr ConnectionManager :=
  -- both limits are tested before anything is stored
  if m.limits.maxTotalConnections ≤ m.connections.card then
    .error (py "total connection limit reached")
  else if m.limits.maxConnectionsPerClient ≤ (m.clients transportClientId).card then
    .error (py "per-client connection limit reached")
  else
    .ok (({ m with connections := insert cid m.connections }).setContext cid
      (freshContext m.limits cid transportClientId now) |>.addClient transportClientId cid)

/-- `bind_identity(context, ...)`: re-key a live connection onto its account. -/
def bindIdentity (m : ConnectionManager) (cid : ConnId) (context : ConnectionContext)
    (identity : AuthenticatedIdentity) : ConnectionManager :=
  -- from the key it had before; the limit per key is not tested again
  ((m.setContext cid (context.authenticate identity)).removeClient context.routingIdentity cid)
    |>.addClient identity.username cid

/-- `unregister(connection_id)`; the second call finds nothing and changes nothing. -/
def unregister (m : ConnectionManager) (cid : ConnId) : ConnectionManager :=
  if cid ∈ m.connections then
    match m.contexts cid with
    | none => { m with connections := m.connections.erase cid }
    | some context =>
        (({ m with connections := m.connections.erase cid }).setContext cid context.markClosing)
          |>.removeClient context.routingIdentity cid
  else m

/-- `connections_for(k)`, as the ids of the contexts. -/
def connectionsFor (m : ConnectionManager) (k : PyStr) : List ConnId :=
  (m.clients k).elems.filter fun cid => cid ∈ m.connections

/-- `is_connected(k)`. -/
def isConnected (m : ConnectionManager) (k : PyStr) : Bool := !(m.clients k).isEmpty

/-- `context.enqueue_outbound(message)` on the context object with a given id. -/
def enqueueOutbound (m : ConnectionManager) (cid : ConnId) (message : OutboundMessage) :
    ConnectionManager × Bool :=
  match m.contexts cid with
  | none => (m, false)
  | some c => (m.setContext cid (c.enqueueOutbound message).1, (c.enqueueOutbound message).2)

/-- `[target.enqueue_outbound(message) for target in targets]`. -/
def enqueueEach (m : ConnectionManager) (message : OutboundMessage) :
    List ConnId → ConnectionManager × List Bool
  | [] => (m, [])
  | cid :: targets =>
      let head := m.enqueueOutbound cid message
      let rest := head.1.enqueueEach message targets
      (rest.1, head.2 :: rest.2)

/-- `deliver_to_client(k, message)`: every live connection of one identity, and no other. -/
def deliverToClient (m : ConnectionManager) (k : PyStr) (message : OutboundMessage) :
    ConnectionManager × Bool :=
  match m.connectionsFor k with
  | [] => (m, false)
  | targets =>
      -- every target is tried, and one that accepts is enough
      let accepted := m.enqueueEach message targets
      (accepted.1, accepted.2.any id)

/-- `offline_queue.enqueue(recipient, message)`. -/
def enqueueOffline (m : ConnectionManager) (recipient : PyStr) (message : OutboundMessage) :
    ConnectionManager × Bool :=
  ({ m with offlineQueue := (m.offlineQueue.enqueue recipient message).1 },
    (m.offlineQueue.enqueue recipient message).2)

/-- `offline_queue.drain(recipient)`. -/
def drainOffline (m : ConnectionManager) (recipient : PyStr) :
    ConnectionManager × List OutboundMessage :=
  ({ m with offlineQueue := (m.offlineQueue.drain recipient).1 },
    (m.offlineQueue.drain recipient).2)

/-- `offline_queue.discard(recipient)`. -/
def discardOffline (m : ConnectionManager) (recipient : PyStr) : ConnectionManager :=
  { m with offlineQueue := m.offlineQueue.discard recipient }

end ConnectionManager

end EncryptChat
