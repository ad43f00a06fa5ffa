/-
**What a step says to each connection.**

Five kinds of steps put messages on outbound queues or take them off: a connection arrives, its
upgrade is greeted, it is bound, its writer takes a message, and everything else.  The last kind
says only two things, answers to the connection whose handler runs and receipts to connections that
go by the name they are addressed to, and it says nothing to a connection that is closing.  What an
answer can be depends on whether the connection is authenticated.

Main definitions:

* `EncryptChat.OutboundMessage.IsFor`, `EncryptChat.OutboundMessage.IsReply` — receipts for a name,
  answers to a frame;
* `EncryptChat.ConnectionContext.Hears` — a context that has taken messages behind those that wait;
* `EncryptChat.ManagerOp.Speaks` — the operations that say nothing else;
* `EncryptChat.ConnectionManager.Heard` — what they say, connection by connection;
* `EncryptChat.StepSays` — **the five kinds of steps**.

Main results:

* `EncryptChat.heard_of_reaches` — operations that speak, any number of them;
* `EncryptChat.reaches_receiveFrame_speaks` — the handling of a frame speaks;
* `EncryptChat.ServerState.Inv.stepSays` — every step is of one of the five kinds.
-/

import EncryptChat.ReceiptFlow

set_option relaxedAutoImplicit false
set_option autoImplicit false

namespace EncryptChat

open Python Transition ConnectionManager

/-! ### Messages -/

/-- The message is a receipt addressed to `k`. -/
def OutboundMessage.IsFor (k : PyStr) (message : OutboundMessage) : Prop :=
  ∃ r : MessageReceipt, message = .messageReceipt r ∧ r.recipient = k

/-- The message can answer a frame of a connection that is authenticated or not. -/
def OutboundMessage.IsReply (authenticated : Bool) : OutboundMessage → Prop
  | .heartbeatPong _ _ => True
  | .protocolError _ _ _ => True
  | .deliveryAck _ _ => authenticated = true
  | .queueStatus _ _ => authenticated = true
  | _ => False

/-! ### Contexts -/

namespace ConnectionContext

/-- The context has taken `l`, behind what waits on its queue; while it is closing it takes
nothing. -/
structure Hears (c c' : ConnectionContext) (l : List OutboundMessage) : Prop
    extends SameIdentity c c' where
  accepted : c'.outbound.accepted = c.outbound.accepted ++ l
  items : c'.outbound.items = c.outbound.items ++ l
  closing : c.closing = true → c'.closing = true ∧ l = []

namespace Hears

variable {c c' c'' : ConnectionContext} {l l' : List OutboundMessage}

theorem refl (c : ConnectionContext) : Hears c c [] where
  toSameIdentity := .refl c
  accepted := (List.append_nil _).symm
  items := (List.append_nil _).symm
  closing := fun hclosing => ⟨hclosing, rfl⟩

theorem trans (h : Hears c c' l) (h' : Hears c' c'' l') : Hears c c'' (l ++ l') where
  toSameIdentity := h.toSameIdentity.trans h'.toSameIdentity
  accepted := by rw [h'.accepted, h.accepted, List.append_assoc]
  items := by rw [h'.items, h.items, List.append_assoc]
  closing := by
    intro hclosing
    obtain ⟨hclosing', rfl⟩ := h.closing hclosing
    obtain ⟨hclosing'', rfl⟩ := h'.closing hclosing'
    exact ⟨hclosing'', rfl⟩

/-- Closing a connection says nothing to it. -/
theorem markClosing (c : ConnectionContext) : Hears c c.markClosing [] where
  toSameIdentity := (c.evolves_markClosing (fun _ => True) trivial).toSameIdentity
  accepted := (List.append_nil _).symm
  items := (List.append_nil _).symm
  closing := fun _ => ⟨rfl, rfl⟩

/-- A change that leaves the identity, the queue and the flag alone says nothing. -/
theorem of_eq (hsame : SameIdentity c c') (haccepted : c'.outbound.accepted = c.outbound.accepted)
    (hitems : c'.outbound.items = c.outbound.items) (hclosing : c'.closing = c.closing) :
    Hears c c' [] where
  toSameIdentity := hsame
  accepted := haccepted.trans (List.append_nil _).symm
  items := hitems.trans (List.append_nil _).symm
  closing := fun h => ⟨hclosing.trans h, rfl⟩

end Hears

/-- A context with room takes the message. -/
theorem hears_of_hasRoom {c : ConnectionContext} (h : c.HasRoom) (message : OutboundMessage) :
    (c.enqueueOutbound message).2 = true ∧ Hears c (c.enqueueOutbound message).1 [message] := by
  obtain ⟨q, heq, hitems, haccepted, hmax⟩ := enqueueOutbound_of_hasRoom h message
  rw [heq]
  refine ⟨rfl, ⟨rfl, rfl, rfl, rfl, rfl, rfl, hmax⟩, haccepted, hitems, fun hclosing => ?_⟩
  rw [h.1] at hclosing
  cases hclosing

/-- A message offered to a context is refused or taken. -/
theorem hears_enqueueOutbound (c : ConnectionContext) (message : OutboundMessage) :
    Hears c (c.enqueueOutbound message).1 [] ∨
      Hears c (c.enqueueOutbound message).1 [message] := by
  by_cases hroom : c.HasRoom
  · exact .inr (hears_of_hasRoom hroom message).2
  · left
    rw [enqueueOutbound_of_not_hasRoom hroom]
    exact .refl c

/-- The own queue takes a prefix of the responses, behind what waits. -/
theorem hears_enqueueResponses (responses : List OutboundMessage) :
    ∀ c : ConnectionContext, ∃ n, Hears c (c.enqueueResponses responses).1 (responses.take n) ∧
      ((c.enqueueResponses responses).2 = true → n = responses.length) := by
  induction responses with
  | nil => exact fun c => ⟨0, .refl c, fun _ => rfl⟩
  | cons r responses ih =>
      intro c
      simp only [enqueueResponses]
      by_cases hroom : c.HasRoom
      · obtain ⟨htaken, hears⟩ := hears_of_hasRoom hroom r
        obtain ⟨n, hn, hall⟩ := ih (c.enqueueOutbound r).1
        rw [if_pos htaken]
        exact ⟨n + 1, hears.trans hn, fun h => by rw [hall h, List.length_cons]⟩
      · rw [enqueueOutbound_of_not_hasRoom hroom, if_neg Bool.false_ne_true]
        exact ⟨0, .refl c, fun h => absurd h Bool.false_ne_true⟩

end ConnectionContext

open ConnectionContext (Hears)

/-! ### Managers -/

/-- What the connections have heard: each has taken messages of `P`, if it is `cid`, and receipts
for its name.  What came to an offline queue is addressed to the name of the queue. -/
structure ConnectionManager.Heard (cid : ConnId) (P : OutboundMessage → Prop)
    (m m' : ConnectionManager) : Prop where
  kept : ∀ cid' c, m.contexts cid' = some c → ∃ c' l, m'.contexts cid' = some c' ∧ Hears c c' l ∧
    ∀ message ∈ l, cid' = cid ∧ P message ∨ message.IsFor c.routingIdentity
  absent : ∀ cid', m.contexts cid' = none → m'.contexts cid' = none
  queued : ∀ k, ∀ message ∈ m'.offlineQueue.queued k,
    message ∈ m.offlineQueue.queued k ∨ message.IsFor k

namespace ConnectionManager

variable {cid : ConnId} {P : OutboundMessage → Prop} {m m' m'' : ConnectionManager}

theorem Heard.refl (m : ConnectionManager) : Heard cid P m m where
  kept := fun _ c hc => ⟨c, [], hc, .refl c, by simp⟩
  absent := fun _ => id
  queued := fun _ _ => .inl

theorem Heard.trans (h : Heard cid P m m') (h' : Heard cid P m' m'') : Heard cid P m m'' where
  kept := by
    intro cid' c hc
    obtain ⟨c', l, hc', hears, hl⟩ := h.kept cid' c hc
    obtain ⟨c'', l', hc'', hears', hl'⟩ := h'.kept cid' c' hc'
    refine ⟨c'', l ++ l', hc'', hears.trans hears', fun message hmem => ?_⟩
    rcases List.mem_append.1 hmem with hmem | hmem
    · exact hl message hmem
    · rw [← hears.toSameIdentity.routingIdentity]
      exact hl' message hmem
  absent := fun cid' hnone => h'.absent cid' (h.absent cid' hnone)
  queued := by
    intro k message hmem
    rcases h'.queued k message hmem with hmem | hfor
    · exact h.queued k message hmem
    · exact .inr hfor

/-- A change of one context that says nothing. -/
theorem heard_modifyContext (m : ConnectionManager) (cid' : ConnId)
    {f : ConnectionContext → ConnectionContext} (hf : ∀ c, Hears c (f c) []) :
    Heard cid P m (m.modifyContext cid' f) where
  kept := by
    intro cid'' c hc
    rw [modifyContext_contexts]
    by_cases hne : cid'' = cid'
    · subst hne
      rw [if_pos rfl, hc]
      exact ⟨f c, [], rfl, hf c, by simp⟩
    · rw [if_neg hne]
      exact ⟨c, [], hc, .refl c, by simp⟩
  absent := by
    intro cid'' hnone
    rw [modifyContext_contexts]
    split_ifs with heq
    · rw [← heq, hnone, Option.map_none]
    · exact hnone
  queued := fun _ _ => .inl

theorem heard_unregister (hwf : m.WF) (cid' : ConnId) : Heard cid P m (m.unregister cid') := by
  by_cases hcid' : cid' ∈ m.connections
  swap
  · rw [unregister_of_notMem hcid']
    exact .refl m
  obtain ⟨c₀, hc₀⟩ := hwf.live cid' hcid'
  have hcontexts := unregister_contexts hcid' hc₀
  refine ⟨fun cid'' c hc => ?_, fun cid'' hnone => ?_, fun k message hmem => .inl ?_⟩
  · rw [hcontexts]
    by_cases hne : cid'' = cid'
    · subst hne
      rw [hc₀] at hc
      cases hc
      exact ⟨_, [], if_pos rfl, .markClosing c₀, by simp⟩
    · exact ⟨c, [], (if_neg hne).trans hc, .refl c, by simp⟩
  · rw [hcontexts, if_neg ?_, hnone]
    rintro rfl
    rw [hnone] at hc₀
    cases hc₀
  · rwa [unregister_offlineQueue] at hmem

/-- A message to one connection. -/
theorem heard_enqueueOutbound (m : ConnectionManager) {message : OutboundMessage}
    (hP : P message) : Heard cid P m (m.enqueueOutbound cid message).1 where
  kept := by
    intro cid' c hc
    rw [enqueueOutbound_contexts]
    by_cases hne : cid' = cid
    · subst hne
      rw [if_pos rfl, hc]
      rcases c.hears_enqueueOutbound message with h | h
      · exact ⟨_, [], rfl, h, by simp⟩
      · exact ⟨_, [message], rfl, h, by simpa using Or.inl hP⟩
    · rw [if_neg hne]
      exact ⟨c, [], hc, .refl c, by simp⟩
  absent := by
    intro cid' hnone
    rw [enqueueOutbound_contexts]
    split_ifs with heq
    · rw [← heq, hnone, Option.map_none]
    · exact hnone
  queued := by
    intro k message' hmem
    rw [enqueueOutbound_eq] at hmem
    exact .inl hmem

/-- **A delivery is heard by connections of the name, and by them only.** -/
theorem heard_deliverToClient (hwf : m.WF) {k : PyStr} {message : OutboundMessage}
    (hfor : message.IsFor k) : Heard cid P m (m.deliverToClient k message).1 := by
  have hdelivered := m.deliveredTo_deliverToClient k message
  refine ⟨fun cid' c hc => ?_, fun cid' hnone => ?_, fun r message' hmem => .inl ?_⟩
  · by_cases htakes : cid' ∈ m.connectionsFor k ∧ m.Takes cid'
    · obtain ⟨hmem, d, hd, hroom⟩ := htakes
      rw [hc] at hd
      cases hd
      obtain ⟨q, hq, hitems, haccepted⟩ := hdelivered.gained cid' hmem c hc hroom
      obtain ⟨-, d, hd, hname⟩ := (hwf.indexed cid' k).1 (mem_connectionsFor.1 hmem).1
      rw [hc] at hd
      cases hd
      have hmax : q.maxsize = c.outbound.maxsize := by
        have hcontext := (hwf.context cid' c hc).maxsize
        have happ : (ManagerOp.deliverToClient k message).apply m =
            some (m.deliverToClient k message).1 := rfl
        have hreach := (hwf.apply happ).context cid' _ hq
        rw [hcontext]
        exact hreach.maxsize.trans (by
          rw [hdelivered.frame])
      refine ⟨_, [message], hq, ⟨⟨rfl, rfl, rfl, rfl, rfl, rfl, hmax⟩, haccepted, hitems, ?_⟩, ?_⟩
      · intro hclosing
        rw [hroom.1] at hclosing
        cases hclosing
      · rw [hname]
        simpa using Or.inr hfor
    · rw [hdelivered.others cid' htakes]
      exact ⟨c, [], hc, .refl c, by simp⟩
  · rw [hdelivered.others cid' ?_, hnone]
    rintro ⟨-, d, hd, -⟩
    rw [hnone] at hd
    cases hd
  · rwa [hdelivered.frame] at hmem

/-- A message to an offline queue. -/
theorem heard_enqueueOffline (m : ConnectionManager) {k : PyStr} {message : OutboundMessage}
    (hfor : message.IsFor k) : Heard cid P m (m.enqueueOffline k message).1 := by
  refine ⟨fun _ c hc => ⟨c, [], hc, .refl c, by simp⟩, fun _ => id, fun r message' hmem => ?_⟩
  by_cases hroom : m.offlineQueue.HasRoom k
  · have hqueued := queuedFor_enqueueOffline hroom message
    by_cases hr : r = k
    · subst hr
      rw [hqueued.gained, List.mem_append, List.mem_singleton] at hmem
      rcases hmem with hmem | rfl
      · exact .inl hmem
      · exact .inr hfor
    · rw [hqueued.others r hr] at hmem
      exact .inl hmem
  · left
    rwa [← OfflineQueue.queued_enqueue_of_not_room message hroom r]

end ConnectionManager

/-! ### Operations that speak -/

/-- The operation says messages of `P` to `cid`, and receipts to the name they are addressed to. -/
def ManagerOp.Speaks (cid : ConnId) (P : OutboundMessage → Prop) : ManagerOp → Prop
  | enqueueOutbound cid' message => cid' = cid ∧ P message
  | deliverToClient k message => message.IsFor k
  | enqueueOffline k message => message.IsFor k
  | register _ _ _ | bindIdentity _ _ | drainOffline _ | discardOffline _ | takeOutbound _ => False
  | markClosing _ | unregister _ | touch _ _ | allow _ _ | taskDone _ => True

section Speaking

variable {cid : ConnId} {P Q : OutboundMessage → Prop} {m m' : ConnectionManager}

theorem ManagerOp.Speaks.mono {op : ManagerOp} (h : op.Speaks cid P)
    (hPQ : ∀ message, P message → Q message) : op.Speaks cid Q := by
  cases op with
  | enqueueOutbound cid' message => exact ⟨h.1, hPQ message h.2⟩
  | deliverToClient | enqueueOffline | register | bindIdentity | drainOffline | discardOffline
  | takeOutbound | markClosing | unregister | touch | allow | taskDone => exact h

theorem heard_of_speaks (hwf : m.WF) {op : ManagerOp} (hop : op.Speaks cid P)
    (happ : op.apply m = some m') : Heard cid P m m' := by
  cases op with
  | register | bindIdentity | drainOffline | discardOffline | takeOutbound => exact absurd hop id
  | markClosing cid' =>
      cases happ
      exact m.heard_modifyContext cid' Hears.markClosing
  | touch cid' now =>
      cases happ
      exact m.heard_modifyContext cid' fun c =>
        .of_eq ⟨rfl, rfl, rfl, rfl, rfl, rfl, rfl⟩ rfl rfl rfl
  | allow cid' now =>
      cases happ
      exact m.heard_modifyContext cid' fun c =>
        .of_eq ⟨rfl, rfl, rfl, rfl, rfl, rfl, rfl⟩ rfl rfl rfl
  | taskDone cid' =>
      cases happ
      exact m.heard_modifyContext cid' fun c =>
        .of_eq ⟨rfl, rfl, rfl, rfl, rfl, rfl, rfl⟩ rfl rfl rfl
  | unregister cid' =>
      cases happ
      exact heard_unregister hwf cid'
  | enqueueOutbound cid' message =>
      cases happ
      obtain ⟨rfl, hP⟩ := hop
      exact m.heard_enqueueOutbound hP
  | deliverToClient k message =>
      cases happ
      exact heard_deliverToClient hwf hop
  | enqueueOffline k message =>
      cases happ
      exact m.heard_enqueueOffline hop

/-- **Operations that speak**, any number of them. -/
theorem heard_of_reaches (hwf : m.WF) (h : Reaches (ManagerOp.Speaks cid P) m m') :
    Heard cid P m m' := by
  have hboth : m'.WF ∧ Heard cid P m m' := by
    induction h with
    | refl => exact ⟨hwf, .refl m⟩
    | tail _ hop happ ih =>
        exact ⟨ih.1.apply happ, ih.2.trans (heard_of_speaks ih.1 hop happ)⟩
  exact hboth.2

end Speaking

/-! ### The handling of a frame -/

section Frames

variable {K : ManagerOp → Prop} {P : OutboundMessage → Prop} {m : ConnectionManager} {cid : ConnId}

theorem reaches_enqueueResponses_of (responses : List OutboundMessage) :
    ∀ m : ConnectionManager, (∀ r ∈ responses, K (.enqueueOutbound cid r)) →
      Reaches K m (enqueueResponses m cid responses).1 := by
  induction responses with
  | nil => exact fun m _ => .refl m
  | cons r responses ih =>
      intro m hK
      have hfirst : Reaches K m (m.enqueueOutbound cid r).1 :=
        .single (.enqueueOutbound cid r) (hK r List.mem_cons_self) rfl
      simp only [enqueueResponses]
      split_ifs
      · exact hfirst.trans (ih _ fun r' hr' => hK r' (List.mem_cons_of_mem r hr'))
      · exact hfirst

/-- Answering a frame speaks, when the answers may be said. -/
theorem reaches_respond_speaks (m : ConnectionManager) {responses : List OutboundMessage}
    (h : ∀ r ∈ responses, P r) :
    Reaches (ManagerOp.Speaks cid P) m (respond m cid responses).1 :=
  reaches_enqueueResponses_of responses m fun r hr => ⟨rfl, h r hr⟩

theorem reaches_counted_speaks (m : ConnectionManager) (cid : ConnId) (now : ℚ) :
    Reaches (ManagerOp.Speaks cid P) m (m.counted cid now) := by
  have htouch : Reaches (ManagerOp.Speaks cid P) m (m.modifyContext cid fun c => c.touch now) :=
    .single (.touch cid now) trivial rfl
  have hallow : (ManagerOp.allow cid now).apply (m.modifyContext cid fun c => c.touch now) =
      some (m.counted cid now) := rfl
  exact htouch.tail (by trivial) hallow

/-- Routing puts a receipt on queues of its recipient. -/
theorem reaches_routeReceipt_speaks (m : ConnectionManager) (context : ConnectionContext)
    (envelope : InboundEnvelope) (recipient : PyStr) (ref : ℕ) :
    Reaches (ManagerOp.Speaks cid P) m
      (routeReceipt m context envelope recipient ref).1 := by
  have hfor : (OutboundMessage.messageReceipt (receiptOf context envelope recipient ref)).IsFor
      recipient := ⟨_, rfl, rfl⟩
  rw [fst_routeReceipt]
  by_cases hconn : m.isConnected recipient = true
  · rw [if_pos hconn]
    exact .single (.deliverToClient recipient _) hfor rfl
  · rw [if_neg hconn]
    exact .single (.enqueueOffline recipient _) hfor rfl

variable {context : ConnectionContext} {envelope : InboundEnvelope}

/-- What a privileged action answers needs an authenticated connection. -/
theorem isReply_handlePrivileged {lib : Libraries} {m : ConnectionManager} {ref : ℕ}
    {handled : ConnectionManager × List OutboundMessage}
    (h : handlePrivileged lib m context envelope ref = .ok handled) :
    ∀ r ∈ handled.2, r.IsReply true := by
  unfold handlePrivileged at h
  split at h
  · rcases handleMessageSend_cases h with ⟨-, rfl⟩ | ⟨-, -, rfl⟩ | ⟨recipient, -, -, -, rfl⟩
    · simp [OutboundMessage.IsReply, errorMessage]
    · simp [OutboundMessage.IsReply, errorMessage]
    · simp [OutboundMessage.IsReply]
  · cases h
    simp [OutboundMessage.IsReply]
  · cases h
    simp [OutboundMessage.IsReply, errorMessage]

/-- A refused authentication is answered with an error. -/
theorem isReply_beginAuthentication {responses : List OutboundMessage} {authenticated : Bool}
    (h : beginAuthentication context envelope = .error responses) :
    ∀ r ∈ responses, r.IsReply authenticated := by
  unfold beginAuthentication at h
  split_ifs at h
  · cases h
    simp [OutboundMessage.IsReply, errorMessage]
  · split at h
    · split_ifs at h
      cases h
      simp [OutboundMessage.IsReply, errorMessage]
    · cases h
      simp [OutboundMessage.IsReply, errorMessage]

/-- The dispatch of a validated envelope speaks. -/
theorem reaches_dispatch_speaks (lib : Libraries) (m : ConnectionManager)
    (hgate : context.authenticated = true ∨
      envelope.type ∈ MessageType.unauthenticatedSendable) (clock : Datetime) (ref : ℕ) :
    Reaches (ManagerOp.Speaks cid (OutboundMessage.IsReply context.authenticated)) m
      (dispatch lib m cid context envelope clock ref).1 := by
  unfold dispatch
  split
  · split
    · rename_i responses hbegin
      exact reaches_respond_speaks m (isReply_beginAuthentication hbegin)
    · exact .refl m
  · exact reaches_respond_speaks m (by simp [OutboundMessage.IsReply])
  · split_ifs with hprivileged
    · have hauth : context.authenticated = true := by
        -- no privileged type passes before authentication
        refine hgate.resolve_right fun hun => ?_
        revert hprivileged hun
        generalize envelope.type = t
        cases t <;> decide
      split
      · exact .refl m
      · rename_i handled hhandled
        rw [hauth]
        have hreply : Reaches (ManagerOp.Speaks cid (OutboundMessage.IsReply true)) handled.1
            (respond handled.1 cid handled.2).1 :=
          reaches_respond_speaks handled.1 (isReply_handlePrivileged hhandled)
        rcases fst_handlePrivileged hhandled with heq | ⟨recipient, heq⟩
        · rwa [heq] at hreply ⊢
        · rw [heq] at hreply ⊢
          exact (reaches_routeReceipt_speaks m context envelope recipient ref).trans hreply
    · exact reaches_respond_speaks m (by simp [OutboundMessage.IsReply, errorMessage])

/-- **The handling of a frame** answers the connection and routes receipts, and says nothing
else. -/
theorem reaches_receiveFrame_speaks (lib : Libraries) (m : ConnectionManager) (cid : ConnId)
    (context : ConnectionContext) (rawText : PyStr) (now : ℚ) (clock : Datetime) (ref : ℕ) :
    Reaches (ManagerOp.Speaks cid (OutboundMessage.IsReply context.authenticated)) m
      (receiveFrame lib m cid context rawText now clock ref).1 := by
  have htouch : Reaches (ManagerOp.Speaks cid (OutboundMessage.IsReply context.authenticated)) m
      (m.modifyContext cid fun c => c.touch now) := .single (.touch cid now) trivial rfl
  have hcounted := reaches_counted_speaks (P := OutboundMessage.IsReply context.authenticated) m
    cid now
  unfold receiveFrame
  dsimp only
  cases utf8Length rawText with
  | error e => exact htouch
  | ok size =>
      dsimp only
      split_ifs with hsize hrate
      · exact htouch.trans (.single (.enqueueOutbound cid (errorMessage .messageTooLarge none))
          ⟨rfl, trivial⟩ rfl)
      · exact hcounted.trans (.single (.enqueueOutbound cid (errorMessage .rateLimited none))
          ⟨rfl, trivial⟩ rfl)
      · refine hcounted.trans ?_
        change Reaches _ (m.counted cid now) (handleFrame lib (m.counted cid now) cid context
          rawText clock ref).1
        unfold handleFrame
        split
        · exact .refl _
        · rename_i errors hvalid
          obtain ⟨code, id, rfl⟩ := validateInbound_eq_none hvalid
          exact reaches_respond_speaks _ (by simp [OutboundMessage.IsReply, errorMessage])
        · rename_i envelope errors hvalid
          exact reaches_dispatch_speaks lib _ (validateInbound_eq_some hvalid).2.2 clock ref

end Frames

/-! ### The five kinds of steps -/

/-- The handler of the connection, if it has one, is past the upgrade. -/
def ServerState.Upgraded (s : ServerState) (cid : ConnId) : Prop :=
  ∀ hd, s.handlers cid = some hd → hd.phase ≠ .accepting

/-- **What a step says.** -/
inductive StepSays (s s' : ServerState) : ServerAction → Prop
  /-- A connection arrives, and is turned away or registered. -/
  | arrives {cid : ConnId} {hex : PyStr} {origin : Option PyStr} {now : ℚ}
      (fresh : s.manager.contexts cid = none)
      (manager : s'.manager = s.manager ∨
        s'.manager = s.manager.registered cid (provisionalId hex) now)
      (handlers : ∀ cid', cid' ≠ cid → s'.handlers cid' = s.handlers cid') :
      StepSays s s' (.connect cid hex origin now)
  /-- The upgrade is complete, and the greeting is queued. -/
  | greets {cid : ConnId} (before : ¬ s.Upgraded cid) (after : s'.Upgraded cid)
      (manager : s'.manager =
        (s.manager.enqueueOutbound cid (connectionReady s.manager.limits cid)).1) :
      StepSays s s' (.act cid (.accepted none))
  /-- An identity is bound. -/
  | binds {cid : ConnId} {identity : AuthenticatedIdentity} {c : ConnectionContext}
      (bound : Binds s cid identity c s') (after : s'.Upgraded cid) :
      StepSays s s' (.act cid (.resolved (.ok identity)))
  /-- The writer takes the message that waits longest. -/
  | takes {cid : ConnId} (upgraded : s.Upgraded cid → s'.Upgraded cid)
      (manager : s'.manager = s.manager.modifyContext cid ConnectionContext.takeOutbound) :
      StepSays s s' (.act cid .writerGets)
  /-- The handler speaks, and is past the upgrade if it says anything to its own connection. -/
  | speaks {cid : ConnId} {a : HandlerAction} {c : ConnectionContext}
      (present : s.manager.contexts cid = some c) (upgraded : s.Upgraded cid → s'.Upgraded cid)
      (other : a ≠ .writerGets)
      (reaches : Reaches (ManagerOp.Speaks cid fun message =>
        message.IsReply c.authenticated ∧ s'.Upgraded cid) s.manager s'.manager) :
      StepSays s s' (.act cid a)

/-- **What a binding says to the connection it binds**: a prefix of `auth.ready` and the queue of
the bound name; a connection that takes nothing of it is closing. -/
theorem Binds.hears {s s' : ServerState} {cid : ConnId} {identity : AuthenticatedIdentity}
    {c : ConnectionContext} (h : Binds s cid identity c s') :
    ∃ envelope c' n, s'.manager.contexts cid = some c' ∧ c'.identity = identity.bound ∧
      Hears (c.authenticate identity) c'
        ((bindingResponses s.manager envelope identity).take n) ∧ (n = 0 → c'.closing = true) := by
  obtain ⟨envelope, c', hs', hcase⟩ := h.manager_eq
  obtain ⟨n, hears, hall⟩ := (c.authenticate identity).hears_enqueueResponses
    (bindingResponses s.manager envelope identity)
  refine ⟨envelope, c', n, by rw [hs', setContext_contexts_self], ?_⟩
  rcases hcase with ⟨rfl, htaken⟩ | rfl
  · refine ⟨hears.toSameIdentity.identity, hears, fun hn => ?_⟩
    have hlength := hall htaken
    rw [hn] at hlength
    simp [bindingResponses] at hlength
  · refine ⟨hears.toSameIdentity.identity, ?_, fun _ => rfl⟩
    have hclosed := hears.trans (.markClosing _)
    rwa [List.append_nil] at hclosed

section Steps

theorem continueLoop_upgraded (cid : ConnId) (hd : Handler)
    (outcome : ConnectionManager × Iteration) :
    (continueLoop cid hd outcome).2.phase ≠ .accepting := by
  unfold continueLoop
  split <;> exact fun h => Phase.noConfusion h

theorem reaches_receiveRaisesStep_speaks (m : ConnectionManager) (cid : ConnId)
    (c : ConnectionContext) (hd : Handler) (e : PyError) {authenticated : Bool} :
    Reaches (ManagerOp.Speaks cid (OutboundMessage.IsReply authenticated)) m
        (receiveRaisesStep m cid c hd e).1 ∧
      (receiveRaisesStep m cid c hd e).2.phase ≠ .accepting := by
  obtain ⟨m', code, raised, heq, hm'⟩ := receiveRaisesStep_eq m cid c hd e
  rw [heq]
  refine ⟨?_, fun h => Phase.noConfusion h⟩
  rcases hm' with rfl | ⟨error, rfl⟩
  · exact Reaches.enterFinally (.refl _) trivial hd _ _
  · have hsend : Reaches (ManagerOp.Speaks cid (OutboundMessage.IsReply authenticated)) m
        (m.enqueueOutbound cid (errorMessage error none)).1 :=
      .single (.enqueueOutbound cid (errorMessage error none)) ⟨rfl, trivial⟩ rfl
    exact Reaches.enterFinally hsend trivial hd _ _

end Steps

namespace ServerState

variable {lib : Libraries} {limits : TransportLimits} {s s' : ServerState}

/-- What a handler leaves is stored. -/
theorem upgraded_put {s : ServerState} {cid : ConnId} {outcome : ConnectionManager × Handler}
    (h : outcome.2.phase ≠ .accepting) : (s.put cid outcome).Upgraded cid := by
  intro hd hhd
  simp only [put, Function.update_self, Option.some.injEq] at hhd
  exact hhd ▸ h

/-- **Every step is of one of the five kinds.** -/
theorem Inv.stepSays (hinv : s.Inv limits) {a : ServerAction} (h : s.step lib a = some s') :
    StepSays s s' a := by
  cases a with
  | connect cid hex origin now =>
      obtain ⟨hnone, ⟨hm, hh⟩ | ⟨-, hm, -, hh⟩⟩ := step_connect h
      · exact .arrives hnone (.inl hm) fun _ _ => by rw [hh]
      · exact .arrives hnone (.inr hm) fun cid' hne => by rw [hh, Function.update_of_ne hne]
  | act cid a =>
      obtain ⟨hd, outcome, hhd, heffect, rfl⟩ := step_act h
      obtain ⟨c, hc⟩ := (hinv.handler cid hd hhd).present
      -- a step that says nothing to its own connection keeps where the handler stands
      have hsilent : ∀ {b : HandlerAction}, b ≠ .writerGets →
          Reaches (ManagerOp.Speaks cid fun _ => False) s.manager outcome.1 →
          (hd.phase ≠ .accepting → outcome.2.phase ≠ .accepting) →
          StepSays s (s.put cid outcome) (.act cid b) := fun hb hreach hphase =>
        .speaks hc (fun hup => upgraded_put (hphase (hup hd hhd))) hb
          (hreach.mono fun op hop => hop.mono fun _ => False.elim)
      have hanswers : ∀ {b : HandlerAction}, b ≠ .writerGets →
          Reaches (ManagerOp.Speaks cid (OutboundMessage.IsReply c.authenticated)) s.manager
            outcome.1 → outcome.2.phase ≠ .accepting →
          StepSays s (s.put cid outcome) (.act cid b) := fun hb hreach hphase =>
        .speaks hc (fun _ => upgraded_put hphase) hb
          (hreach.mono fun op hop => hop.mono fun _ hreply => ⟨hreply, upgraded_put hphase⟩)
      cases heffect with
      | accepted hphase e =>
          cases e with
          | none =>
              refine .greets (fun hup => hup hd hhd hphase) (upgraded_put ?_) rfl
              exact fun h => Phase.noConfusion h
          | some e => exact hsilent (by simp) (.refl _) fun _ h => Phase.noConfusion h
      | @frame context hphase hctx rawText now clock =>
          rw [hc] at hctx
          cases hctx
          exact hanswers (by simp) (Reaches.continueLoop
            (reaches_receiveFrame_speaks lib s.manager cid c rawText now clock s.nextRef) trivial
            hd) (continueLoop_upgraded _ _ _)
      | frameRaises hphase now e =>
          exact hanswers (by simp) (Reaches.enterFinally
            (reaches_counted_speaks s.manager cid now) trivial hd _ _)
            fun h => Phase.noConfusion h
      | @receiveRaises context hphase hctx e =>
          obtain ⟨hreach, hup⟩ := reaches_receiveRaisesStep_speaks s.manager cid context hd e
          exact hanswers (by simp) hreach hup
      | @resolved context envelope rawToken hphase hctx result =>
          have hup := continueLoop_upgraded cid hd (respond
            (finishAuthentication s.manager cid context envelope result).1 cid
            (finishAuthentication s.manager cid context envelope result).2)
          cases result with
          | error e =>
              refine hanswers (by simp) (Reaches.continueLoop ?_ trivial hd) hup
              exact reaches_respond_speaks _
                (by simp [finishAuthentication, OutboundMessage.IsReply, errorMessage])
          | ok identity =>
              have hknown := hinv.handler cid hd hhd
              have hbinds : Binds s cid identity context (s.put cid (resolvedStep s.manager cid
                  context envelope hd (.ok identity))) :=
                ⟨hctx, hknown.registered (by rw [hphase]; trivial),
                  hknown.unauthenticated _ _ hphase context hctx, envelope, hd, rfl⟩
              exact .binds hbinds (upgraded_put hup)
      | resolveRaises hphase e =>
          exact hanswers (by simp) (Reaches.enterFinally (.refl _) trivial hd _ _)
            fun h => Phase.noConfusion h
      | flushed hphase e =>
          refine hsilent (by simp) (.refl _) fun _ => ?_
          unfold flushStep
          split <;> exact fun h => Phase.noConfusion h
      | closed hphase e =>
          obtain ⟨raised, heq⟩ := closeStep_eq hd e
          refine hsilent (by simp) (.refl _) fun _ => ?_
          rw [heq]
          exact fun h => Phase.noConfusion h
      | writerFailed hphase =>
          exact hsilent (by simp) (.refl _) fun _ h => Phase.noConfusion h
      | writerCancelled => exact hsilent (by simp) (.refl _) id
      | writerEnded hphase | writerAwaitCancelled hphase =>
          exact hsilent (by simp) (.single (.unregister cid) trivial rfl)
            fun _ h => Phase.noConfusion h
      | writerGets message => exact .takes (fun hup => upgraded_put (hup hd hhd)) rfl
      | @writerSends context hctx e =>
          obtain ⟨m', writer, heq, -⟩ := sendStep_eq s.manager cid hd context e
          refine hsilent (by simp) ((reaches_sendStep hd context e).mono ?_) ?_
          · rintro _ rfl
            trivial
          · rw [heq]
            exact id

end ServerState

end EncryptChat
