/-
**The server is a mailbox service.**

Queues that refuse, handlers at their awaits, an index by name, writers that fail: seen from the
messages, all of it is a mailbox service.  Every step of the server is one event of the service, and
which one it is can be read off the step.

Main definitions:

* `EncryptChat.ServerState.boxes` — the mailboxes of a server;
* `EncryptChat.mailboxEvent` — the event a step is;
* `EncryptChat.BoundAlone` — the steps that leave the connections of a name one after another.

Main results:

* `EncryptChat.RoutesFrame.queued_eq`, `EncryptChat.Binds.accepted` — exactly what a routed message
  and a binding change;
* `EncryptChat.ServerState.Inv.mailbox_step` — a step of the server is its event;
* `EncryptChat.server_is_a_mailbox_service` — **every run of the server is a run of the mailboxes**;
* `EncryptChat.mailbox_history` — **nothing taken over for a name is lost, repeated or reordered**,
  when its connections follow one another.
-/

import EncryptChat.Mailboxes
import EncryptChat.DeliveredMessages

set_option relaxedAutoImplicit false
set_option autoImplicit false

namespace EncryptChat

open Python Transition ConnectionManager
open Mailboxes (Boxes Standing)
open ConnectionContext (Gains)

/-! ### The mailboxes of a server -/

/-- The receipts a connection has accepted, oldest first. -/
def ConnectionManager.receiptsOf (m : ConnectionManager) (cid : ConnId) : List MessageReceipt :=
  ((m.contexts cid).map ConnectionContext.receipts).getD []

/-- The receipts that wait for a name, oldest first. -/
def ConnectionManager.heldFor (m : ConnectionManager) (k : PyStr) : List MessageReceipt :=
  (m.offlineQueue.queued k).filterMap OutboundMessage.receipt?

namespace ServerState

/-- Where a connection stands: it reads the name it routes as from its registration to its
removal. -/
def standing (s : ServerState) (cid : ConnId) : Standing PyStr :=
  match s.manager.contexts cid with
  | none => .absent
  | some c =>
      if cid ∈ s.manager.connections then
        if c.authenticated then .member c.routingIdentity else .guest c.routingIdentity
      else .gone

/-- **The mailboxes of the server.** -/
def boxes (s : ServerState) : Boxes ConnId PyStr MessageReceipt where
  standing := s.standing
  given := s.manager.receiptsOf
  waiting := s.manager.heldFor

end ServerState

/-! ### The event of a step -/

/-- How many of `n` messages the connection takes, one after the other. -/
def ConnectionContext.fits (c : ConnectionContext) (n : ℕ) : ℕ :=
  if c.closing then 0
  else if c.outbound.maxsize = 0 then n
  else min n (c.outbound.maxsize - c.outbound.items.length)

/-- How many of the receipts that wait for a name a connection bound to it takes, behind
`auth.ready`. -/
def ServerState.collected (s : ServerState) (cid : ConnId) (k : PyStr) : ℕ :=
  ((s.manager.contexts cid).map fun c => (((s.manager.offlineQueue.queued k).take
    (c.fits ((s.manager.offlineQueue.queued k).length + 1) - 1)).filterMap
      OutboundMessage.receipt?).length).getD 0

/-- **The event that a step of the server is.** -/
def mailboxEvent (lib : Libraries) (s : ServerState) :
    ServerAction → Mailboxes.Event ConnId PyStr MessageReceipt
  | .connect cid hex origin now =>
      if s.manager.limits.isOriginAllowed origin = false then .pass
      else
        match s.manager.register cid (provisionalId hex) now with
        | .error _ => .pass
        | .ok _ => .arrive cid (provisionalId hex)
  | .act cid (.frame rawText now clock) =>
      match routing? lib s (.act cid (.frame rawText now clock)) with
      | some (r, .delivered) => .deliver r (s.manager.takers r.recipient)
      | some (r, .queued) => .hold r
      | _ => .pass
  | .act cid (.resolved (.ok identity)) =>
      .collect cid identity.username (s.collected cid identity.username)
  | .act cid .writerAwaited =>
      match (s.handlers cid).map Handler.writer with
      -- the outcome of a failed writer is raised before `unregister` is reached
      | some (.failed _) => .pass
      | _ => .leave cid
  | .act cid .writerAwaitCancelled => .leave cid
  | .act _ _ => .pass

/-! ### Who reads a name -/

section Standings

variable {s s' : ServerState} {cid : ConnId} {c c' : ConnectionContext}

/-- A connection reads a name exactly when it is registered for it. -/
theorem reads_standing (hwf : s.manager.WF) (cid : ConnId) (k : PyStr) :
    (s.standing cid).reads = some k ↔ cid ∈ s.manager.connectionsFor k := by
  rw [mem_connectionsFor, hwf.indexed]
  unfold ServerState.standing
  cases hc : s.manager.contexts cid with
  | none => simp [Standing.reads]
  | some c =>
      dsimp only
      split_ifs with hmem hauth
      · simp [Standing.reads, hmem]
      · simp [Standing.reads, hmem]
      · simp [Standing.reads, hmem]

theorem unread_iff (hwf : s.manager.WF) (k : PyStr) :
    s.boxes.Unread k ↔ s.manager.connectionsFor k = [] := by
  rw [List.eq_nil_iff_forall_not_mem]
  exact forall_congr' fun cid => not_congr (reads_standing hwf cid k)

/-- A connection with the same identity, registered as before, stands where it stood. -/
theorem standing_eq (hmem : cid ∈ s'.manager.connections ↔ cid ∈ s.manager.connections)
    (hc : s.manager.contexts cid = some c) (hc' : s'.manager.contexts cid = some c')
    (hauth : c'.authenticated = c.authenticated)
    (hrouting : c'.routingIdentity = c.routingIdentity) : s'.standing cid = s.standing cid := by
  simp only [ServerState.standing, hc, hc', hauth, hrouting, hmem]

theorem receiptsOf_of_eq {m : ConnectionManager} (hc : m.contexts cid = some c) :
    m.receiptsOf cid = c.receipts := by
  rw [receiptsOf, hc]
  rfl

theorem receiptsOf_of_none {m : ConnectionManager} (hc : m.contexts cid = none) :
    m.receiptsOf cid = [] := by
  rw [receiptsOf, hc]
  rfl

end Standings

/-! ### A routed message, exactly -/

section Routing

variable {lib : Libraries} {s s' : ServerState} {cid : ConnId} {rawText : PyStr} {now : ℚ}
  {clock : Datetime} {c : ConnectionContext} {envelope : InboundEnvelope} {recipient : PyStr}

/-- **What a routed message adds to the offline queues**: itself, if its sender is told so. -/
theorem RoutesFrame.queued_eq (h : RoutesFrame lib s cid rawText now c envelope recipient s')
    (k : PyStr) :
    s'.manager.offlineQueue.queued k = s.manager.offlineQueue.queued k ++
      if k = recipient ∧
          (routeReceipt (s.manager.counted cid now) c envelope recipient s.nextRef).2 = .queued then
        [.messageReceipt (receiptOf c envelope recipient s.nextRef)]
      else [] := by
  rw [(still_of_reaches h.rest).offlineQueue]
  exact queued_routeReceipt c envelope recipient s.nextRef k

end Routing

/-! ### A binding, exactly -/

/-- What a context takes of a list of messages is what fits. -/
theorem accepted_enqueueResponses (responses : List OutboundMessage) :
    ∀ c : ConnectionContext, (c.enqueueResponses responses).1.outbound.accepted =
      c.outbound.accepted ++ responses.take (c.fits responses.length) := by
  induction responses with
  | nil => simp [ConnectionContext.enqueueResponses]
  | cons r responses ih =>
      intro c
      simp only [ConnectionContext.enqueueResponses]
      by_cases hroom : c.HasRoom
      · obtain ⟨q, heq, hitems, haccepted, hmax⟩ :=
          ConnectionContext.enqueueOutbound_of_hasRoom hroom r
        have hfits : c.fits (responses.length + 1) =
            ({ c with outbound := q } : ConnectionContext).fits responses.length + 1 := by
          obtain ⟨hopen, hfull⟩ := hroom
          simp only [Queue.full, Bool.and_eq_true, decide_eq_true_eq, not_and, not_le] at hfull
          simp only [ConnectionContext.fits, hopen, hmax, hitems, List.length_append,
            List.length_singleton]
          rw [if_neg Bool.false_ne_true, if_neg Bool.false_ne_true]
          by_cases hzero : c.outbound.maxsize = 0
          · rw [if_pos hzero, if_pos hzero]
          · have hlt := hfull (by omega)
            rw [if_neg hzero, if_neg hzero]
            omega
        rw [heq, if_pos rfl, ih, haccepted, List.length_cons, hfits, List.take_succ_cons,
          List.append_assoc, List.singleton_append]
      · have hfits : c.fits (r :: responses).length = 0 := by
          unfold ConnectionContext.fits
          split_ifs with hclosing hzero
          · rfl
          · refine absurd ⟨Bool.eq_false_iff.2 hclosing, ?_⟩ hroom
            simp [Queue.full, hzero]
          · have hfull : c.outbound.full = true := by
              by_contra hnot
              exact hroom ⟨Bool.eq_false_iff.2 hclosing, hnot⟩
            simp only [Queue.full, Bool.and_eq_true, decide_eq_true_eq] at hfull
            omega
        rw [ConnectionContext.enqueueOutbound_of_not_hasRoom hroom, if_neg (by simp), hfits]
        simp

/-- The receipts of a part of a list are a part of its receipts. -/
theorem filterMap_take {α β : Type*} (f : α → Option β) (l : List α) (i : ℕ) :
    (l.take i).filterMap f = (l.filterMap f).take ((l.take i).filterMap f).length := by
  have hprefix : (l.take i).filterMap f <+: l.filterMap f :=
    List.IsPrefix.filterMap f (List.take_prefix i l)
  exact List.prefix_iff_eq_take.1 hprefix

/-- **What a binding gives to the connection it binds**, of the receipts that wait. -/
theorem Binds.receipts_eq {s s' : ServerState} {cid : ConnId} {identity : AuthenticatedIdentity}
    {c : ConnectionContext} (h : Binds s cid identity c s') :
    ∃ c', s'.manager.contexts cid = some c' ∧ c'.identity = identity.bound ∧
      c'.receipts = c.receipts ++ (s.manager.heldFor identity.username).take
        (s.collected cid identity.username) := by
  obtain ⟨envelope, c', hs', hcase⟩ := h.manager_eq
  have hsame := ConnectionContext.enqueueResponses_sameIdentity
    (bindingResponses s.manager envelope identity) (c.authenticate identity)
  have haccepted : c'.outbound.accepted = c.outbound.accepted ++
      (bindingResponses s.manager envelope identity).take
        (c.fits (bindingResponses s.manager envelope identity).length) := by
    rcases hcase with ⟨rfl, -⟩ | rfl
    · exact accepted_enqueueResponses _ _
    · exact accepted_enqueueResponses _ _
  have hidentity : c'.identity = identity.bound := by
    rcases hcase with ⟨rfl, -⟩ | rfl
    · exact hsame.identity
    · exact hsame.identity
  refine ⟨c', by rw [hs', setContext_contexts_self], hidentity, ?_⟩
  unfold ConnectionContext.receipts
  rw [haccepted, List.filterMap_append]
  congr 1
  have hcollected : s.collected cid identity.username =
      (((s.manager.offlineQueue.queued identity.username).take
        (c.fits ((s.manager.offlineQueue.queued identity.username).length + 1) - 1)).filterMap
          OutboundMessage.receipt?).length := by
    simp only [ServerState.collected, h.present, Option.map_some, Option.getD_some]
  rw [hcollected, heldFor, ← filterMap_take]
  unfold bindingResponses
  rw [List.length_cons]
  -- the first of the responses is no receipt
  cases c.fits ((s.manager.offlineQueue.queued identity.username).length + 1) with
  | zero => rfl
  | succ n =>
      rw [List.take_succ_cons, Nat.add_sub_cancel]
      rfl

/-! ### Where a step leaves the connections -/

namespace ServerState

variable {lib : Libraries} {limits : TransportLimits} {s s' : ServerState}

/-- No step but a removal unregisters a connection. -/
theorem not_handlerOps_unregister {m : ConnectionManager} {ref : ℕ} {cid cid' : ConnId}
    {a : HandlerAction} (hawaited : a ≠ .writerAwaited) (hcancelled : a ≠ .writerAwaitCancelled) :
    ¬ HandlerOps lib m ref cid a (.unregister cid') := by
  intro hop
  cases a with
  | writerAwaited => exact hawaited rfl
  | writerAwaitCancelled => exact hcancelled rfl
  | resolved result =>
      cases result <;> simp [HandlerOps, ManagerOp.QuietPutting, ManagerOp.Quiet] at hop
  | _ => simp [HandlerOps, ManagerOp.QuietPutting, ManagerOp.Quiet] at hop

/-- No step but a removal changes which connections are registered. -/
theorem Inv.connections_of_act (hinv : s.Inv limits) {cid : ConnId} {a : HandlerAction}
    (h : s.step lib (.act cid a) = some s') (hawaited : a ≠ .writerAwaited)
    (hcancelled : a ≠ .writerAwaitCancelled) : s'.manager.connections = s.manager.connections := by
  refine (hinv.reaches_act h).invariant
    (P := fun m => m.connections = s.manager.connections) ?_ rfl
  intro m op m' hsame hop happ
  have heffect := ManagerOp.effect happ
  rcases hop.cases with rfl | rfl | ⟨identity, -, rfl | rfl⟩ | hquiet
  · cases heffect with
    | contexts => exact hsame
  · exact absurd hop (not_handlerOps_unregister hawaited hcancelled)
  · cases heffect with
    | bound => rwa [bindIdentity_connections]
    | contexts => exact hsame
  · cases heffect with
    | drained | contexts => exact hsame
  · cases heffect with
    | rejected | registered | bound | unregistered => exact absurd hquiet id
    | enqueued | drained | discarded | contexts => exact hsame

/-- A step of a connection that binds and removes nothing leaves every connection where it
stands. -/
theorem Inv.standing_of_act (hinv : s.Inv limits) {cid : ConnId} {a : HandlerAction}
    (h : s.step lib (.act cid a) = some s') (hawaited : a ≠ .writerAwaited)
    (hcancelled : a ≠ .writerAwaitCancelled) {cid' : ConnId}
    (hnot : ∀ identity, (ServerAction.act cid a) ≠ .act cid' (.resolved (.ok identity))) :
    s'.standing cid' = s.standing cid' := by
  have hconnections := hinv.connections_of_act h hawaited hcancelled
  cases hc' : s'.manager.contexts cid' with
  | none =>
      cases hc : s.manager.contexts cid' with
      | none => simp only [standing, hc, hc']
      | some c =>
          obtain ⟨d, hd, -⟩ := hinv.identity_step h hc
          rw [hc'] at hd
          cases hd
  | some c' =>
      obtain ⟨c, hc⟩ := hinv.context_of_act h hc'
      obtain ⟨d, hd, hsame | ⟨-, identity, ha, -⟩⟩ := hinv.identity_step h hc
      · rw [hc'] at hd
        cases hd
        refine standing_eq (by rw [hconnections]) hc hc' (congrArg Prod.fst hsame) ?_
        have hname : c'.accountUsername = c.accountUsername := congrArg (fun i => i.2.2.1) hsame
        unfold ConnectionContext.routingIdentity
        rw [hname, hinv.transportClientId_step h hc hc']
      · exact absurd ha (hnot identity)

end ServerState

/-! ### Every step is its event -/

section Events

variable {lib : Libraries} {limits : TransportLimits} {s s' : ServerState}

/-- A step that moves no receipt leaves what each connection was given, and what waits. -/
theorem receiptsOf_of_still {m m' : ConnectionManager} (h : Still m m') (cid : ConnId) :
    m'.receiptsOf cid = m.receiptsOf cid := by
  cases hc' : m'.contexts cid with
  | none =>
      cases hc : m.contexts cid with
      | none => rw [receiptsOf_of_none hc, receiptsOf_of_none hc']
      | some c =>
          obtain ⟨d, -, hd, -⟩ := h.kept cid c hc
          rw [hc'] at hd
          cases hd
  | some c' =>
      rw [receiptsOf_of_eq hc']
      rcases h.receipts_back hc' with ⟨c, hc, heq⟩ | ⟨hc, heq⟩
      · rw [heq, receiptsOf_of_eq hc]
      · rw [heq, receiptsOf_of_none hc]

/-- What a step that moves no receipt does to the mailboxes, it does to where connections stand. -/
theorem boxes_of_still (h : Still s.manager s'.manager) :
    s'.boxes = { s.boxes with standing := s'.standing } := by
  refine Boxes.ext rfl (funext fun cid => receiptsOf_of_still h cid) (funext fun k => ?_)
  change s'.manager.heldFor k = s.manager.heldFor k
  rw [heldFor, heldFor, h.offlineQueue]

theorem boxes_of_quiet (h : Still s.manager s'.manager)
    (hstanding : ∀ cid, s'.standing cid = s.standing cid) : s'.boxes = s.boxes := by
  rw [boxes_of_still h, funext hstanding]
  rfl

/-- One connection stands elsewhere. -/
theorem boxes_move (h : Still s.manager s'.manager) {cid : ConnId} {p : Standing PyStr}
    (hself : s'.standing cid = p)
    (hothers : ∀ cid', cid' ≠ cid → s'.standing cid' = s.standing cid') :
    s'.boxes = s.boxes.move cid p := by
  rw [boxes_of_still h]
  refine Boxes.ext (funext fun cid' => ?_) rfl rfl
  change s'.standing cid' = Function.update s.standing cid p cid'
  by_cases hne : cid' = cid
  · rw [hne, Function.update_self, hself]
  · rw [Function.update_of_ne hne, hothers cid' hne]

namespace ServerState

/-- The arrival of a connection is one, or nothing. -/
theorem mailbox_connect {cid : ConnId} {hex : PyStr} {origin : Option PyStr} {now : ℚ}
    (h : s.step lib (.connect cid hex origin now) = some s') :
    Mailboxes.Step MessageReceipt.recipient s.boxes
      (mailboxEvent lib s (.connect cid hex origin now)) s'.boxes := by
  simp only [step] at h
  split_ifs at h with hfresh
  rw [Option.some.injEq] at h
  have hnone : s.manager.contexts cid = none := Option.isNone_iff_eq_none.1 hfresh.2.2.1
  by_cases horigin : s.manager.limits.isOriginAllowed origin = false
  · simp only [connect, mailboxEvent, if_pos horigin] at h ⊢
    rw [← h]
    exact .pass
  cases hreg : s.manager.register cid (provisionalId hex) now with
  | error reason =>
      simp only [connect, mailboxEvent, if_neg horigin, hreg] at h ⊢
      rw [← h]
      exact .pass
  | ok m =>
      simp only [connect, mailboxEvent, if_neg horigin, hreg] at h ⊢
      obtain ⟨-, -, rfl⟩ := register_eq_ok hreg
      have hm : s'.manager = s.manager.registered cid (provisionalId hex) now := by rw [← h]
      have happ : (ManagerOp.register cid (provisionalId hex) now).apply s.manager =
          some s'.manager := by
        simp only [ManagerOp.apply, hnone, hreg, hm]
      have hboxes : s'.boxes = s.boxes.move cid (.guest (provisionalId hex)) := by
        refine boxes_move (still_of_effect (ManagerOp.effect happ) trivial) ?_ fun cid' hne => ?_
        · simp [standing, hm, registered_contexts, registered_connections, freshContext,
            ConnectionContext.routingIdentity]
        · simp [standing, hm, registered_contexts, registered_connections, hne]
      have habsent : s.standing cid = .absent := by simp only [standing, hnone]
      rw [hboxes]
      exact .arrive habsent

/-- A removal is a departure. -/
theorem Inv.mailbox_leave (hinv : s.Inv limits) {cid : ConnId} {hd : Handler}
    (hhd : s.handlers cid = some hd) (hphase : hd.phase = .stoppingWriter)
    (hm : s'.manager = s.manager.unregister cid) :
    Mailboxes.Step MessageReceipt.recipient s.boxes (.leave cid) s'.boxes := by
  have hknown := hinv.handler cid hd hhd
  have hmem : cid ∈ s.manager.connections := hknown.registered (by rw [hphase]; trivial)
  obtain ⟨c, hc⟩ := hknown.present
  have hstill : Still s.manager s'.manager := by
    rw [hm]
    exact still_of_effect (.unregistered cid) trivial
  have hreads : (s.standing cid).reads = some c.routingIdentity := by
    rw [reads_standing hinv.wf, mem_connectionsFor, hinv.wf.indexed]
    exact ⟨⟨hmem, c, hc, rfl⟩, hmem⟩
  have hboxes : s'.boxes = s.boxes.move cid .gone := by
    refine boxes_move hstill ?_ fun cid' hne => ?_
    · simp [standing, hm, unregister_contexts hmem hc]
    · simp [standing, hm, unregister_contexts hmem hc, hne]
  rw [hboxes]
  exact .leave hreads

/-- A binding hands a name over. -/
theorem Inv.mailbox_collect (hinv : s.Inv limits) {cid : ConnId} {identity : AuthenticatedIdentity}
    {c : ConnectionContext} (h : s.step lib (.act cid (.resolved (.ok identity))) = some s')
    (hbinds : Binds s cid identity c s') :
    Mailboxes.Step MessageReceipt.recipient s.boxes
      (.collect cid identity.username (s.collected cid identity.username)) s'.boxes := by
  obtain ⟨c', hc', hbound, hreceipts⟩ := hbinds.receipts_eq
  have hmem : cid ∈ s'.manager.connections := by
    rw [hinv.connections_of_act h (by simp) (by simp)]
    exact hbinds.registered
  have hauth : c'.authenticated = true := congrArg Prod.fst hbound
  have hname : c'.routingIdentity = identity.username := by
    have husername : c'.accountUsername = some identity.username :=
      congrArg (fun i => i.2.2.1) hbound
    simp [ConnectionContext.routingIdentity, husername]
  have hguest : s.standing cid = .guest c.routingIdentity := by
    simp [standing, hbinds.present, hbinds.registered, hbinds.unauthenticated]
  have hboxes : s'.boxes = s.boxes.handOver cid identity.username
      (s.collected cid identity.username) := by
    refine Boxes.ext (funext fun cid' => ?_) (funext fun cid' => ?_) (funext fun k => ?_)
    · change s'.standing cid' = Function.update s.standing cid (.member identity.username) cid'
      by_cases hne : cid' = cid
      · subst hne
        rw [Function.update_self]
        simp [standing, hc', hmem, hauth, hname]
      · rw [Function.update_of_ne hne]
        refine hinv.standing_of_act h (by simp) (by simp) fun identity' heq => ?_
        rw [ServerAction.act.injEq] at heq
        exact hne heq.1.symm
    · change s'.manager.receiptsOf cid' = Function.update s.manager.receiptsOf cid
        (s.manager.receiptsOf cid ++ (s.manager.heldFor identity.username).take _) cid'
      by_cases hne : cid' = cid
      · subst hne
        rw [Function.update_self, receiptsOf_of_eq hc', receiptsOf_of_eq hbinds.present, hreceipts]
      · rw [Function.update_of_ne hne, receiptsOf, receiptsOf, hbinds.others hne]
    · change s'.manager.heldFor k = Function.update s.manager.heldFor identity.username [] k
      rw [heldFor, hbinds.queued, Function.update_apply]
      split_ifs
      · rfl
      · rfl
  rw [hboxes]
  exact .collect hguest

/-- A frame whose receipt is routed delivers it, or has it wait, or is nothing. -/
theorem Inv.mailbox_routes (hinv : s.Inv limits) {cid : ConnId} {rawText : PyStr} {now : ℚ}
    {clock : Datetime} {c : ConnectionContext} {envelope : InboundEnvelope} {recipient : PyStr}
    (h : s.step lib (.act cid (.frame rawText now clock)) = some s')
    (hroutes : RoutesFrame lib s cid rawText now c envelope recipient s') :
    Mailboxes.Step MessageReceipt.recipient s.boxes
      (mailboxEvent lib s (.act cid (.frame rawText now clock))) s'.boxes := by
  have hwf := hinv.wf
  have hwf' := hwf.counted cid now
  have hstanding : s'.standing = s.standing := funext fun cid' =>
    hinv.standing_of_act h (by simp) (by simp) (by simp)
  have hdelivered := routeReceipt_delivered_iff c envelope recipient s.nextRef hwf'
  have hqueued := routeReceipt_queued_iff c envelope recipient s.nextRef hwf'
  have hgiven : ∀ cid', s'.manager.receiptsOf cid' = s.manager.receiptsOf cid' ++
      if cid' ∈ s.manager.takers recipient then [receiptOf c envelope recipient s.nextRef]
      else [] := by
    intro cid'
    cases hc' : s'.manager.contexts cid' with
    | some c' =>
        obtain ⟨c₀, hc₀⟩ := hinv.context_of_act h hc'
        obtain ⟨d, hd, hreceipts⟩ := hroutes.receipts hwf hc₀
        rw [hc'] at hd
        cases hd
        rw [receiptsOf_of_eq hc', receiptsOf_of_eq hc₀, hreceipts]
    | none =>
        have hnone : s.manager.contexts cid' = none := by
          cases hc₀ : s.manager.contexts cid' with
          | none => rfl
          | some c₀ =>
              obtain ⟨d, hd, -⟩ := hroutes.receipts hwf hc₀
              rw [hc'] at hd
              cases hd
        have hno : cid' ∉ s.manager.takers recipient := by
          rw [mem_takers]
          rintro ⟨-, d, hd, -⟩
          rw [hnone] at hd
          cases hd
        rw [receiptsOf_of_none hc', receiptsOf_of_none hnone, if_neg hno]
        rfl
  have hheld := hroutes.queued_eq
  have hno : (routeReceipt (s.manager.counted cid now) c envelope recipient s.nextRef).2 ≠
      .delivered → s.manager.takers recipient = [] := by
    intro hstatus
    rw [List.eq_nil_iff_forall_not_mem]
    intro cid' htaker
    obtain ⟨hmem, htakes⟩ := mem_takers.1 htaker
    exact hstatus (hdelivered.2 ⟨cid', hmem, (takes_counted _ _ _ _).2 htakes⟩)
  simp only [mailboxEvent, routing?_of_routesFrame hroutes clock]
  generalize hstatus :
    (routeReceipt (s.manager.counted cid now) c envelope recipient s.nextRef).2 = status at *
  cases status with
  | delivered =>
      obtain ⟨cid', hmem, htakes⟩ := hdelivered.1 rfl
      have hboxes : s'.boxes = s.boxes.give (receiptOf c envelope recipient s.nextRef)
          (s.manager.takers recipient) := by
        refine Boxes.ext hstanding (funext fun cid' => ?_) (funext fun k => ?_)
        · refine (hgiven cid').trans ?_
          simp only [Boxes.give, boxes]
          split_ifs
          · rfl
          · exact List.append_nil _
        · change s'.manager.heldFor k = s.manager.heldFor k
          rw [heldFor, hheld, if_neg (by simp), List.append_nil]
          rfl
      rw [hboxes]
      have htaker : cid' ∈ s.manager.takers recipient :=
        mem_takers.2 ⟨hmem, (takes_counted _ _ _ _).1 htakes⟩
      refine .deliver (List.ne_nil_of_mem htaker) ?_
      exact fun cid₀ htaker => (reads_standing hwf cid₀ recipient).2 (mem_takers.1 htaker).1
  | queued =>
      obtain ⟨hnone, -⟩ := hqueued.1 rfl
      have hboxes : s'.boxes =
          s.boxes.keep recipient (receiptOf c envelope recipient s.nextRef) := by
        refine Boxes.ext hstanding (funext fun cid' => ?_) (funext fun k => ?_)
        · refine (hgiven cid').trans ?_
          rw [hno (by simp), if_neg (by simp)]
          exact List.append_nil _
        · change s'.manager.heldFor k = Function.update s.manager.heldFor recipient
            (s.manager.heldFor recipient ++ [receiptOf c envelope recipient s.nextRef]) k
          rw [heldFor, hheld, List.filterMap_append, Function.update_apply]
          by_cases hk : k = recipient
          · rw [if_pos ⟨hk, rfl⟩, if_pos hk, hk]
            rfl
          · rw [if_neg fun hboth => hk hboth.1, if_neg hk]
            exact List.append_nil _
      rw [hboxes]
      exact .hold ((unread_iff hwf recipient).2 hnone)
  | recipientUnavailable | rejected =>
      have hboxes : s'.boxes = s.boxes := by
        refine Boxes.ext hstanding (funext fun cid' => ?_) (funext fun k => ?_)
        · refine (hgiven cid').trans ?_
          rw [hno (by simp), if_neg (by simp)]
          exact List.append_nil _
        · change s'.manager.heldFor k = s.manager.heldFor k
          rw [heldFor, hheld, if_neg (by simp), List.append_nil]
          rfl
      rw [hboxes]
      exact .pass

/-- **Every step of the server is its event.** -/
theorem Inv.mailbox_step (hinv : s.Inv limits) {a : ServerAction} (h : s.step lib a = some s') :
    Mailboxes.Step MessageReceipt.recipient s.boxes (mailboxEvent lib s a) s'.boxes := by
  cases a with
  | connect cid hex origin now => exact mailbox_connect h
  | act cid a =>
      rcases hinv.step_cases h with ⟨hreaches, hnot⟩ | ⟨cid', rawText, now, clock, c, envelope,
        recipient, ha, hroutes⟩ | ⟨cid', identity, c, ha, hbinds⟩
      · have hstill := still_of_reaches hreaches
        -- a step that moves no receipt, routes none, binds and removes nothing
        have hpass : a ≠ .writerAwaited → a ≠ .writerAwaitCancelled → s'.boxes = s.boxes :=
          fun hawaited hcancelled => boxes_of_quiet hstill fun cid' =>
            hinv.standing_of_act h hawaited hcancelled fun identity heq => by
              cases heq
              exact hnot cid identity rfl
        obtain ⟨hd, outcome, hhd, heffect, rfl⟩ := step_act h
        cases heffect with
        | frame hphase hc rawText now clock =>
            cases hrouting : routing? lib s (.act cid (.frame rawText now clock)) with
            | none =>
                simp only [mailboxEvent, hrouting]
                rw [hpass (by simp) (by simp)]
                exact .pass
            | some routed =>
                obtain ⟨r, status⟩ := routed
                obtain ⟨c, envelope, recipient, hroutes, -⟩ := routesFrame_of_routing? h hrouting
                exact hinv.mailbox_routes h hroutes
        | @resolved c envelope rawToken hphase hc result =>
            cases result with
            | ok identity => exact absurd rfl (hnot cid identity)
            | error e =>
                rw [hpass (by simp) (by simp)]
                exact .pass
        | writerEnded hphase hwriter =>
            have hevent : mailboxEvent lib s (.act cid .writerAwaited) = .leave cid := by
              simp only [mailboxEvent, hhd, Option.map_some]
              rcases hwriter with hw | hw <;> rw [hw]
            rw [hevent]
            exact hinv.mailbox_leave hhd hphase rfl
        | writerFailed hphase hwriter =>
            have hevent : mailboxEvent lib s (.act cid .writerAwaited) = .pass := by
              simp only [mailboxEvent, hhd, Option.map_some, hwriter]
            rw [hevent]
            exact .pass
        | writerAwaitCancelled hphase => exact hinv.mailbox_leave hhd hphase rfl
        | _ =>
            rw [hpass (by simp) (by simp)]
            exact .pass
      · cases ha
        exact hinv.mailbox_routes h hroutes
      · cases ha
        exact hinv.mailbox_collect h hbinds

end ServerState

end Events

/-! ### Every run -/

/-- The events of a run, each with the mailboxes it finds. -/
def mailboxTrace (lib : Libraries) (tr : List (ServerState × ServerAction)) :
    List (Boxes ConnId PyStr MessageReceipt × Mailboxes.Event ConnId PyStr MessageReceipt) :=
  tr.map fun e => (e.1.boxes, mailboxEvent lib e.1 e.2)

/-- From steps to runs. -/
theorem mailboxRun_of_run {lib : Libraries} {limits : TransportLimits} {s : ServerState}
    {tr : List (ServerState × ServerAction)}
    (h : (serverSystem lib limits).Run (.new limits) tr s) :
    Mailboxes.Run MessageReceipt.recipient .empty (mailboxTrace lib tr) s.boxes := by
  induction h with
  | nil => exact .nil _
  | @snoc u w tr a hrun hstep ih =>
      rw [mailboxTrace, List.map_append]
      exact ih.snoc ((inv_of_run hrun).mailbox_step hstep)

/-- **Every run of the server is a run of the mailboxes**: whatever the interleaving, each step is
the event that can be read off it.  A connection that takes a name takes as many of the messages
that wait for it as fit; the service keeps none of the others. -/
theorem server_is_a_mailbox_service {lib : Libraries} {limits : TransportLimits} {s : ServerState}
    {tr : List (ServerState × ServerAction)}
    (h : (serverSystem lib limits).Run (.new limits) tr s) :
    Mailboxes.Run MessageReceipt.recipient .empty (mailboxTrace lib tr) s.boxes :=
  mailboxRun_of_run h

/-- The message that waits for `bob` is handed over to him. -/
theorem server_is_a_mailbox_service_bob :
    ∃ tr s, (serverSystem sampleLibraries {}).Run (.new {}) tr s ∧
      Mailboxes.Run MessageReceipt.recipient .empty (mailboxTrace sampleLibraries tr) s.boxes ∧
      ∃ b, (b, .collect bobId (py "bob") 1) ∈ mailboxTrace sampleLibraries tr := by
  have hexec : ((serverSystem sampleLibraries {}).exec (.new {})
      (aliceConnects ++ bobConnects.take 4)).map (fun u =>
        decide (u.collected bobId (py "bob") = 1) &&
          ((serverSystem sampleLibraries {}).exec u (bobConnects.drop 4)).isSome) = some true := by
    decide +kernel
  obtain ⟨u, -, hrun, hp⟩ := System.exists_run_of_exec hexec
  simp only [Bool.and_eq_true, decide_eq_true_eq, Option.isSome_iff_exists] at hp
  obtain ⟨hone, s, hs⟩ := hp
  have hall := hrun.trans (System.exec_run hs)
  refine ⟨_, s, hall, server_is_a_mailbox_service hall, u.boxes, ?_⟩
  refine List.mem_map.2 ⟨_, List.mem_append_right _ List.mem_cons_self, ?_⟩
  rw [← hone]
  rfl

/-! ### The history of a name -/

/-- A step that binds the name finds no connection of that name, and room for all that waits. -/
def BoundAlone (n : PyStr) (s : ServerState) : ServerAction → Prop
  | .act cid (.resolved (.ok identity)) => identity.username = n →
      s.manager.isConnected n = false ∧ DrainFits s (.act cid (.resolved (.ok identity)))
  | _ => True

instance (n : PyStr) (s : ServerState) : ∀ a, Decidable (BoundAlone n s a)
  | .connect _ _ _ _ => inferInstanceAs (Decidable True)
  | .act _ (.resolved (.ok _)) => inferInstanceAs (Decidable (_ → _ ∧ _))
  | .act _ (.resolved (.error _)) => inferInstanceAs (Decidable True)
  | .act _ (.accepted _) | .act _ (.frame _ _ _) | .act _ (.frameRaises _ _)
  | .act _ (.receiveRaises _) | .act _ (.resolveRaises _) | .act _ (.flushed _)
  | .act _ .writerAwaited | .act _ .writerAwaitCancelled | .act _ (.closed _)
  | .act _ .writerGets | .act _ (.writerSends _) | .act _ .writerCancelled =>
      inferInstanceAs (Decidable True)

/-- The receipts a run has taken over for a name: those for which `_route_message` returns
`delivered` or `queued`, in the order in which they were routed. -/
def takenOver (lib : Libraries) (n : PyStr) (tr : List (ServerState × ServerAction)) :
    List MessageReceipt :=
  tr.filterMap fun e => (routing? lib e.1 e.2).bind fun routed =>
    if routed.1.recipient = n ∧ (routed.2 = .delivered ∨ routed.2 = .queued) then some routed.1
    else none

/-- The connections that a run has bound to a name, in order. -/
def boundTo (n : PyStr) (tr : List (ServerState × ServerAction)) : List ConnId :=
  tr.filterMap fun e =>
    match e.2 with
    | .act cid (.resolved (.ok identity)) => if identity.username = n then some cid else none
    | _ => none

section Histories

variable {lib : Libraries} {limits : TransportLimits} {s s' : ServerState} {n : PyStr}

theorem sentTo_mailboxTrace (tr : List (ServerState × ServerAction)) :
    Mailboxes.sentTo MessageReceipt.recipient n (mailboxTrace lib tr) = takenOver lib n tr := by
  unfold Mailboxes.sentTo mailboxTrace takenOver
  rw [List.filterMap_map]
  refine List.filterMap_congr fun e _ => ?_
  obtain ⟨u, a⟩ := e
  simp only [Function.comp_apply]
  cases a with
  | connect cid hex origin now =>
      simp only [mailboxEvent, routing?]
      split_ifs
      · rfl
      · cases u.manager.register cid (provisionalId hex) now <;> rfl
  | act cid a =>
      cases a with
      | frame rawText now clock =>
          simp only [mailboxEvent]
          cases routing? lib u (.act cid (.frame rawText now clock)) with
          | none => rfl
          | some routed =>
              obtain ⟨r, status⟩ := routed
              cases status <;> simp [Mailboxes.Event.sent?]
      | resolved result => cases result <;> rfl
      | writerAwaited =>
          simp only [mailboxEvent, routing?]
          split <;> rfl
      | _ => rfl

theorem sessionsOf_mailboxTrace (tr : List (ServerState × ServerAction)) :
    Mailboxes.sessionsOf n (mailboxTrace lib tr) = boundTo n tr := by
  unfold Mailboxes.sessionsOf mailboxTrace boundTo
  rw [List.filterMap_map]
  refine List.filterMap_congr fun e _ => ?_
  obtain ⟨u, a⟩ := e
  simp only [Function.comp_apply]
  cases a with
  | connect cid hex origin now =>
      simp only [mailboxEvent]
      split_ifs
      · rfl
      · cases u.manager.register cid (provisionalId hex) now <;> rfl
  | act cid a =>
      cases a with
      | frame rawText now clock =>
          simp only [mailboxEvent]
          split <;> rfl
      | resolved result => cases result <;> rfl
      | writerAwaited =>
          simp only [mailboxEvent]
          split <;> rfl
      | _ => rfl

/-- A binding with room for all that waits collects all of it. -/
theorem heldFor_le_collected (hinv : s.Inv limits) {cid : ConnId}
    {identity : AuthenticatedIdentity}
    (h : s.step lib (.act cid (.resolved (.ok identity))) = some s')
    (hfits : DrainFits s (.act cid (.resolved (.ok identity)))) :
    (s.manager.heldFor identity.username).length ≤ s.collected cid identity.username := by
  obtain ⟨hd, outcome, hhd, heffect, -⟩ := ServerState.step_act h
  cases heffect with
  | @resolved c envelope rawToken hphase hc =>
      have hopen := (hinv.handler cid hd hhd).serving (by rw [hphase]; trivial) c hc
      have hmax := (hinv.wf.context cid c hc).maxsize
      have hall : (s.manager.offlineQueue.queued identity.username).take
          (c.fits ((s.manager.offlineQueue.queued identity.username).length + 1) - 1) =
            s.manager.offlineQueue.queued identity.username := by
        refine List.take_of_length_le ?_
        rcases hfits with hnone | hroom
        · rw [OfflineQueue.count_eq] at hnone
          omega
        · have hroom := hroom c hc
          rw [OfflineQueue.count_eq] at hroom
          simp only [ConnectionContext.fits, hopen, hmax]
          rw [if_neg Bool.false_ne_true]
          split_ifs <;> omega
      simp only [ServerState.collected, hc, Option.map_some, Option.getD_some, hall]
      exact le_rfl

/-- A step that leaves the connections of a name one after another is such an event. -/
theorem alone_of_boundAlone (hinv : s.Inv limits) {a : ServerAction} (h : s.step lib a = some s')
    (hn : ∀ hex, isUuidHex hex = true → n ≠ provisionalId hex) (halone : BoundAlone n s a) :
    (mailboxEvent lib s a).Alone n s.boxes := by
  cases a with
  | connect cid hex origin now =>
      simp only [ServerState.step] at h
      split_ifs at h with hfresh
      simp only [mailboxEvent]
      split_ifs
      · trivial
      · cases s.manager.register cid (provisionalId hex) now with
        | error reason => trivial
        | ok m => exact fun heq => hn hex hfresh.2.1 heq.symm
  | act cid a =>
      cases a with
      | frame rawText now clock =>
          simp only [mailboxEvent]
          split <;> trivial
      | resolved result =>
          cases result with
          | error e => trivial
          | ok identity =>
              rintro rfl
              obtain ⟨hconn, hfits⟩ := halone rfl
              exact ⟨(unread_iff hinv.wf _).2 ((hinv.wf.isConnected_eq_false_iff _).1 hconn),
                heldFor_le_collected hinv h hfits⟩
      | writerAwaited =>
          simp only [mailboxEvent]
          split <;> trivial
      | _ => trivial

/-- **Nothing taken over for a name is lost, repeated or reordered**, when its connections follow
one another.  Let no connection arrive under the name `n`, as none can that an account has; and let
every binding of `n` in a run find no connection of that name, and room for what waits for it.  Then
the messages for which `_route_message` has returned `delivered` or `queued`, whether or not the
acknowledgement has found room on the queue of its sender, are, in the order in which they were
routed: what the connections bound to `n` have accepted for it, one connection after the other, and
then what waits in the offline queue. -/
theorem mailbox_history {tr : List (ServerState × ServerAction)}
    (h : (serverSystem lib limits).Run (.new limits) tr s)
    (hn : ∀ hex, isUuidHex hex = true → n ≠ provisionalId hex)
    (halone : ∀ e ∈ tr, BoundAlone n e.1 e.2) :
    takenOver lib n tr = (boundTo n tr).flatMap
      (fun cid => (s.manager.receiptsOf cid).filter (MessageReceipt.isFor n)) ++
        s.manager.heldFor n := by
  have hall : ∀ e ∈ mailboxTrace lib tr, e.2.Alone n e.1 := by
    intro e he
    obtain ⟨⟨u, a⟩, hmem, rfl⟩ := List.mem_map.1 he
    obtain ⟨tr₁, tr₂, u', -, hbefore, hstep, -⟩ := h.of_mem hmem
    exact alone_of_boundAlone (inv_of_run hbefore) hstep hn (halone _ hmem)
  have hsent := Mailboxes.Run.sentTo_eq (mailboxRun_of_run h) hall
  rw [sentTo_mailboxTrace, sessionsOf_mailboxTrace] at hsent
  exact hsent

end Histories

/-! ### Two connections of `bob` -/

/-- The second connection of `bob`. -/
def laterBobId : ConnId := py "0000000000000000" ++ py "000000000000001b"

/-- `alice` writes to `bob` while he is there, and after his connection is lost; then he comes
back. -/
def bobReturns : List ServerAction :=
  [.act aliceId (.frame sendText 0 (.utc 0)), .act bobId (.receiveRaises .webSocketDisconnect),
    .act bobId (.flushed (some .timeoutError)), .act bobId .writerCancelled,
    .act bobId .writerAwaited, .act aliceId (.frame sendText 0 (.utc 0)),
    .connect laterBobId laterBobId none 0, .act laterBobId (.accepted none),
    .act laterBobId (.frame authText 0 (.utc 0)),
    .act laterBobId (.resolved (.ok ⟨py "u2", py "bob", py "s3"⟩))]

/-- Of three messages, the first connection of `bob` has two and the second the last. -/
theorem mailbox_history_bob :
    ∃ tr s, (serverSystem sampleLibraries {}).Run (.new {}) tr s ∧
      boundTo (py "bob") tr = [bobId, laterBobId] ∧
      ((s.manager.receiptsOf bobId).filter (MessageReceipt.isFor (py "bob"))).length = 2 ∧
      ((s.manager.receiptsOf laterBobId).filter (MessageReceipt.isFor (py "bob"))).length = 1 ∧
      takenOver sampleLibraries (py "bob") tr =
        (s.manager.receiptsOf bobId).filter (MessageReceipt.isFor (py "bob")) ++
          (s.manager.receiptsOf laterBobId).filter (MessageReceipt.isFor (py "bob")) := by
  have hexec : ((serverSystem sampleLibraries {}).exec (.new {})
      (aliceConnects ++ bobConnects ++ bobReturns)).map (fun s =>
        ((serverSystem sampleLibraries {}).traceOf (.new {})
          (aliceConnects ++ bobConnects ++ bobReturns)).all
            (fun e => decide (BoundAlone (py "bob") e.1 e.2)) &&
        decide (boundTo (py "bob") ((serverSystem sampleLibraries {}).traceOf (.new {})
          (aliceConnects ++ bobConnects ++ bobReturns)) = [bobId, laterBobId]) &&
        decide (((s.manager.receiptsOf bobId).filter
          (MessageReceipt.isFor (py "bob"))).length = 2) &&
        decide (((s.manager.receiptsOf laterBobId).filter
          (MessageReceipt.isFor (py "bob"))).length = 1) &&
        (s.manager.heldFor (py "bob")).isEmpty) = some true := by decide +kernel
  obtain ⟨s, -, hrun, hp⟩ := System.exists_run_of_exec hexec
  simp only [Bool.and_eq_true, List.all_eq_true, decide_eq_true_eq, List.isEmpty_iff] at hp
  obtain ⟨⟨⟨⟨halone, hbound⟩, hfirst⟩, hsecond⟩, hheld⟩ := hp
  have hshort : ∀ hex, isUuidHex hex = true → py "bob" ≠ provisionalId hex := by
    intro hex hhex heq
    have hlength := congrArg List.length heq
    simp only [isUuidHex, Bool.and_eq_true, beq_iff_eq] at hhex
    simp only [provisionalId, List.length_append, hhex.1] at hlength
    exact absurd hlength (by decide)
  have hhistory := mailbox_history hrun hshort halone
  rw [hbound, hheld, List.append_nil] at hhistory
  exact ⟨_, s, hrun, hbound, hfirst, hsecond, by simpa using hhistory⟩

end EncryptChat
