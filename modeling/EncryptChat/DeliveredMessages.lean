/-
**What `delivered` promises.**

A sender that is told `delivered` is told that a connection of the recipient has taken the receipt.
That is a promise about the future as well: no step of anybody removes a message from an outbound
queue but the writer that hands it to the socket, and the writer takes messages in the order in
which they came.  So the place of the receipt in the stream of that connection is fixed when the
sender is answered, it is reached when the writer has taken what came before, and it stands there
once.

Main definitions:

* `EncryptChat.AckedDelivered` — a frame answered with the status `delivered`, and its receipt;
* `EncryptChat.StandsOnce` — a message with a fixed place in what a connection was given.

Main results:

* `EncryptChat.accepted_prefix_of_run` — what a connection has accepted is never taken back;
* `EncryptChat.taken_of_ackedDelivered` — the step that answers `delivered` gives the receipt to
  every session of the recipient with room;
* `EncryptChat.delivered_messages_reach_the_socket` — **a delivered message is on its way to the
  socket, once, for good**.
-/

import EncryptChat.Conversations
import EncryptChat.ReceiptOrder

set_option relaxedAutoImplicit false
set_option autoImplicit false

namespace EncryptChat

open Python Transition ConnectionManager
open ConnectionContext (Gains)

/-! ### Nothing accepted is taken back -/

section Prefixes

variable {lib : Libraries} {limits : TransportLimits}

/-- An operation takes nothing back that a connection has accepted. -/
theorem accepted_prefix_of_effect {m m' : ConnectionManager} {op : ManagerOp}
    (h : ManagerOp.Effect m op m') {cid : ConnId} {c : ConnectionContext}
    (hc : m.contexts cid = some c) :
    ∃ c', m'.contexts cid = some c' ∧ c.outbound.accepted <+: c'.outbound.accepted := by
  obtain ⟨c', hc', hcc | ⟨identity, -, -, rfl⟩⟩ := h.context hc
  · obtain ⟨l, hl, -⟩ := hcc.accepted
    exact ⟨c', hc', l, hl.symm⟩
  · exact ⟨_, hc', List.prefix_rfl⟩

theorem ServerState.Inv.accepted_prefix_step {s s' : ServerState} (hinv : s.Inv limits)
    {a : ServerAction} (h : s.step lib a = some s') {cid : ConnId} {c : ConnectionContext}
    (hc : s.manager.contexts cid = some c) :
    ∃ c', s'.manager.contexts cid = some c' ∧ c.outbound.accepted <+: c'.outbound.accepted := by
  cases a with
  | connect cid' hex origin now =>
      obtain ⟨-, ⟨hm, -⟩ | ⟨happ, -⟩⟩ := ServerState.step_connect h
      · exact ⟨c, by rw [hm, hc], List.prefix_rfl⟩
      · exact accepted_prefix_of_effect (ManagerOp.effect happ) hc
  | act cid' a' =>
      refine (hinv.reaches_act h).invariant (P := fun m => ∃ c', m.contexts cid = some c' ∧
        c.outbound.accepted <+: c'.outbound.accepted) ?_ ⟨c, hc, List.prefix_rfl⟩
      rintro m op m' ⟨d, hd, hprefix⟩ - happ
      obtain ⟨d', hd', hprefix'⟩ := accepted_prefix_of_effect (ManagerOp.effect happ) hd
      exact ⟨d', hd', hprefix.trans hprefix'⟩

/-- **What a connection has accepted is never taken back.** -/
theorem accepted_prefix_of_run {s s' : ServerState} {tr : List (ServerState × ServerAction)}
    (hinv : s.Inv limits) (h : (serverSystem lib limits).Run s tr s') {cid : ConnId}
    {c : ConnectionContext} (hc : s.manager.contexts cid = some c) :
    ∃ c', s'.manager.contexts cid = some c' ∧ c.outbound.accepted <+: c'.outbound.accepted := by
  have hboth : s'.Inv limits ∧ ∃ c', s'.manager.contexts cid = some c' ∧
      c.outbound.accepted <+: c'.outbound.accepted := by
    refine h.invariant (P := fun t => t.Inv limits ∧ ∃ c', t.manager.contexts cid = some c' ∧
      c.outbound.accepted <+: c'.outbound.accepted) ?_ ⟨hinv, c, hc, List.prefix_rfl⟩
    rintro u a w ⟨hu, d, hd, hprefix⟩ hstep
    change u.step lib a = some w at hstep
    obtain ⟨d', hd', hprefix'⟩ := hu.accepted_prefix_step hstep hd
    exact ⟨hu.step hstep, d', hd', hprefix.trans hprefix'⟩
  exact hboth.2

end Prefixes

/-! ### The answer `delivered` -/

/-- The frame is a `message.send` that is answered with the status `delivered`, and this is the
receipt made from it. -/
def AckedDelivered (lib : Libraries) (s : ServerState) (cid : ConnId) (rawText : PyStr) (now : ℚ)
    (c : ConnectionContext) (r : MessageReceipt) : Prop :=
  s.manager.contexts cid = some c ∧ Admitted s.manager c rawText now ∧
    ∃ envelope recipient, validateInbound lib c rawText = .ok (some envelope, []) ∧
      envelope.type = .messageSend ∧ envelope.recipient = some recipient ∧
      r = receiptOf c envelope recipient s.nextRef ∧
      ∃ handled, handleMessageSend lib (s.manager.counted cid now) c envelope s.nextRef =
          .ok handled ∧ .deliveryAck envelope.messageId .delivered ∈ handled.2

section Steps

variable {lib : Libraries} {limits : TransportLimits} {s s' : ServerState}

/-- **The step that answers `delivered`**: some session of the recipient has room, and every one
that has takes the receipt behind what it had accepted. -/
theorem taken_of_ackedDelivered (hinv : s.Inv limits) {cid : ConnId} {rawText : PyStr} {now : ℚ}
    {clock : Datetime} {c : ConnectionContext} {r : MessageReceipt}
    (h : s.step lib (.act cid (.frame rawText now clock)) = some s')
    (hacked : AckedDelivered lib s cid rawText now c r) :
    (∃ cid' ∈ s.manager.connectionsFor r.recipient, s.manager.Takes cid') ∧
      ∀ cid' ∈ s.manager.connectionsFor r.recipient, ∀ d, s.manager.contexts cid' = some d →
        d.HasRoom → ∃ d', s'.manager.contexts cid' = some d' ∧
          d.outbound.accepted ++ [.messageReceipt r] <+: d'.outbound.accepted := by
  obtain ⟨hc, hadmitted, envelope, recipient, hvalid, hsend, hrec, rfl, handled, hhandled,
    hack⟩ := hacked
  obtain ⟨hd, outcome, -, heffect, rfl⟩ := ServerState.step_act h
  cases heffect with
  | @frame c' hphase hc' =>
      rw [hc] at hc'
      cases hc'
      have hwf := hinv.wf.counted cid now
      obtain ⟨rfl, hstatus⟩ := routed_of_deliveryAck c s.nextRef hhandled hrec hack (by decide)
      have hresponds := (receiveFrame_of_admitted lib hadmitted clock s.nextRef).trans
        (handleFrame_of_handled hvalid hsend hhandled cid clock)
      -- what follows the delivery moves no receipt
      have hstill : Reaches ManagerOp.MovesNoReceipt
          (routeReceipt (s.manager.counted cid now) c envelope recipient s.nextRef).1
          (continueLoop cid hd (receiveFrame lib s.manager cid c rawText now clock
            s.nextRef)).1 := by
        rw [hresponds]
        exact Reaches.continueLoop (reaches_respond_plain _ cid
          (by simp [Plain, OutboundMessage.receipt?])) (by trivial) hd
      have hdelivered := deliveredTo_routeReceipt c envelope recipient s.nextRef hwf hstatus
      obtain ⟨cid₀, hcid₀, htakes⟩ :=
        (routeReceipt_delivered_iff c envelope recipient s.nextRef hwf).1 hstatus
      refine ⟨⟨cid₀, hcid₀, (takes_counted _ _ _ _).1 htakes⟩, fun cid' hmem d hd' hroom => ?_⟩
      obtain ⟨d₁, hd₁, hout, hclosing⟩ := counted_context s.manager cid now hd'
      have hroom₁ : d₁.HasRoom := by
        unfold ConnectionContext.HasRoom at hroom ⊢
        rwa [hout, hclosing]
      obtain ⟨q, hq, -, haccepted⟩ := hdelivered.gained cid' hmem d₁ hd₁ hroom₁
      obtain ⟨d', l, hd'', hgains, -⟩ := (still_of_reaches hstill).kept cid' _ hq
      refine ⟨d', hd'', l, ?_⟩
      rw [hgains.accepted, ← hout]
      exact congrArg (· ++ l) haccepted.symm

end Steps

/-! ### Every run -/

/-- The message stands in the stream once, behind `before`. -/
def StandsOnce (stream before : List OutboundMessage) (message : OutboundMessage) : Prop :=
  ∃ after, stream = before ++ message :: after ∧ message ∉ before ∧ message ∉ after

/-- What stands behind `before` has been taken when more than that has. -/
theorem StandsOnce.mem_of_lt {taken items before : List OutboundMessage} {message : OutboundMessage}
    (h : StandsOnce (taken ++ items) before message) (hlt : before.length < taken.length) :
    message ∈ taken := by
  obtain ⟨after, heq, -, -⟩ := h
  have hget : (taken ++ items)[before.length]? = some message := by
    rw [heq, List.getElem?_append_right le_rfl, Nat.sub_self]
    rfl
  rw [List.getElem?_append_left hlt] at hget
  exact List.mem_of_getElem? hget

/-- Receipts for one name in the order of their identities are different ones. -/
theorem standsOnce_of_pairwise {c : ConnectionContext} {r : MessageReceipt}
    {before after : List OutboundMessage}
    (hpairwise : (c.receipts.filter (MessageReceipt.isFor r.recipient)).Pairwise
      MessageReceipt.Before)
    (heq : c.outbound.accepted = before ++ .messageReceipt r :: after) :
    StandsOnce c.outbound.accepted before (.messageReceipt r) := by
  have hfor : MessageReceipt.isFor r.recipient r = true := decide_eq_true rfl
  have hmem : ∀ l : List OutboundMessage, .messageReceipt r ∈ l →
      r ∈ (l.filterMap OutboundMessage.receipt?).filter (MessageReceipt.isFor r.recipient) :=
    fun l hl => List.mem_filter.2 ⟨List.mem_filterMap.2 ⟨_, hl, rfl⟩, hfor⟩
  have hreceipts : c.receipts.filter (MessageReceipt.isFor r.recipient) =
      (before.filterMap OutboundMessage.receipt?).filter (MessageReceipt.isFor r.recipient) ++
        r :: (after.filterMap OutboundMessage.receipt?).filter
          (MessageReceipt.isFor r.recipient) := by
    have hcons : (OutboundMessage.messageReceipt r :: after).filterMap OutboundMessage.receipt? =
        r :: after.filterMap OutboundMessage.receipt? := rfl
    unfold ConnectionContext.receipts
    rw [heq, List.filterMap_append, List.filter_append, hcons, List.filter_cons_of_pos hfor]
  have hnodup := hpairwise.imp MessageReceipt.Before.ne
  rw [hreceipts] at hnodup
  obtain ⟨-, hafter, hbefore⟩ := List.pairwise_append.1 hnodup
  refine ⟨after, heq, fun hin => ?_, fun hin => ?_⟩
  · exact hbefore r (hmem before hin) r List.mem_cons_self rfl
  · exact (List.pairwise_cons.1 hafter).1 r (hmem after hin) rfl

section Runs

variable {lib : Libraries} {env : AuthEnv} {limits : TransportLimits}

/-- **A delivered message is on its way to the socket, once, for good.**  In every run of the
application, whenever a sender is answered `delivered`, a session of the recipient had room; and for
every session that had, in every later state of the run: in what its writer has handed to the socket
and what still waits, the receipt stands once, right behind what the session had accepted before;
and when the writer has taken more than that, the receipt has been handed to the socket. -/
theorem delivered_messages_reach_the_socket (huni : env.unicode.Lawful) {t : Application}
    {tr : List (Application × ApplicationAction)}
    (h : (applicationSystem lib env limits).Run (.new env limits) tr t) {u : ServerState}
    {cid : ConnId} {rawText : PyStr} {now : ℚ} {clock : Datetime} {c : ConnectionContext}
    {r : MessageReceipt}
    (hmem : (u, ServerAction.act cid (.frame rawText now clock)) ∈
      (serverPart lib env limits).trace tr)
    (hacked : AckedDelivered lib u cid rawText now c r) :
    (∃ cid' ∈ u.manager.connectionsFor r.recipient, u.manager.Takes cid') ∧
      ∀ cid' ∈ u.manager.connectionsFor r.recipient, ∀ d, u.manager.contexts cid' = some d →
        d.HasRoom → ∃ c', t.server.manager.contexts cid' = some c' ∧
          StandsOnce (wire ((serverPart lib env limits).trace tr) cid' ++ c'.outbound.items)
            d.outbound.accepted (.messageReceipt r) ∧
          (d.outbound.accepted.length <
              (wire ((serverPart lib env limits).trace tr) cid').length →
            .messageReceipt r ∈ wire ((serverPart lib env limits).trace tr) cid') := by
  have hrun := serverRun_of_run h
  obtain ⟨-, horder, -⟩ := inOrder_of_run hrun (namesApart_of_run huni h)
  obtain ⟨tr₁, tr₂, u', htr, hbefore, hstep, hafter⟩ := hrun.of_mem hmem
  have hinv := inv_of_run hbefore
  change u.step lib (.act cid (.frame rawText now clock)) = some u' at hstep
  obtain ⟨hsome, htaken⟩ := taken_of_ackedDelivered hinv hstep hacked
  refine ⟨hsome, fun cid' hcid' d hd hroom => ?_⟩
  obtain ⟨d', hd', hprefix⟩ := htaken cid' hcid' d hd hroom
  obtain ⟨c', hc', hprefix'⟩ := accepted_prefix_of_run (hinv.step hstep) hafter hd'
  obtain ⟨after, hlater⟩ := hprefix.trans hprefix'
  have haccepted : c'.outbound.accepted =
      d.outbound.accepted ++ .messageReceipt r :: after := by
    rw [← hlater, List.append_assoc]
    rfl
  have hstands := standsOnce_of_pairwise (horder.held cid' c' hc' r.recipient) haccepted
  rw [accepted_eq_wire hrun hc'] at hstands
  exact ⟨c', hc', hstands, hstands.mem_of_lt⟩

end Runs

/-! ### A message to `bob` -/

/-- The receipt of a frame that is answered with the status `delivered`, computed. -/
def ackedDelivered? (lib : Libraries) (s : ServerState) (cid : ConnId) (rawText : PyStr) (now : ℚ)
    (c : ConnectionContext) : Option MessageReceipt :=
  match validateInbound lib c rawText with
  | .ok (some envelope, []) =>
      match handleMessageSend lib (s.manager.counted cid now) c envelope s.nextRef with
      | .ok handled =>
          if Admitted s.manager c rawText now ∧ envelope.type = .messageSend ∧
              handled.2.any
                (fun | .deliveryAck id .delivered => id == envelope.messageId | _ => false) =
                  true then
            envelope.recipient.map fun recipient => receiptOf c envelope recipient s.nextRef
          else none
      | .error _ => none
  | _ => none

theorem ackedDelivered_of_eq_some {lib : Libraries} {s : ServerState} {cid : ConnId}
    {rawText : PyStr} {now : ℚ} {c : ConnectionContext} {r : MessageReceipt}
    (hc : s.manager.contexts cid = some c) (h : ackedDelivered? lib s cid rawText now c = some r) :
    AckedDelivered lib s cid rawText now c r := by
  unfold ackedDelivered? at h
  split at h
  · rename_i envelope hvalid
    split at h
    · rename_i handled hhandled
      split_ifs at h with hif
      obtain ⟨recipient, hrec, rfl⟩ := Option.map_eq_some_iff.1 h
      obtain ⟨message, hmem, hack⟩ := List.any_eq_true.1 hif.2.2
      refine ⟨hc, hif.1, envelope, recipient, hvalid, hif.2.1, hrec, rfl, handled, hhandled, ?_⟩
      split at hack
      · rw [← eq_of_beq hack]
        exact hmem
      · cases hack
    · cases h
  · cases h

/-- Both accounts are connected. -/
def bothConnected : List ApplicationAction :=
  twoAccounts ++ arrives aliceId ++ presents aliceId 4 (sessionToken 0 1) ++ arrives bobId ++
    presents bobId 5 (sessionToken 2 3)

/-- The message of `alice` is delivered to a session of `bob`, where it stands once. -/
theorem delivered_messages_reach_the_socket_bob :
    ∃ tr t cid c' before r, (applicationSystem accountLibraries (sampleEnv .instants) {}).Run
        (.new (sampleEnv .instants) {}) tr t ∧ r.recipient = py "bob" ∧
      t.server.manager.contexts cid = some c' ∧
      StandsOnce (wire ((serverPart accountLibraries (sampleEnv .instants) {}).trace tr) cid ++
        c'.outbound.items) before (.messageReceipt r) := by
  have hexec : (((applicationSystem accountLibraries (sampleEnv .instants) {}).exec
      (.new (sampleEnv .instants) {}) bothConnected).bind fun v =>
        ((applicationSystem accountLibraries (sampleEnv .instants) {}).exec v aliceWrites).map
          fun _ => (v.server.manager.contexts aliceId).any fun c =>
            (ackedDelivered? accountLibraries v.server aliceId sendText 0 c).any fun r =>
              decide (r.recipient = py "bob")) = some true := by
    decide +kernel
  obtain ⟨v, t, hrun, hrun', hp⟩ := System.exists_runs_of_exec hexec
  simp only [Option.any_eq_true, decide_eq_true_eq] at hp
  obtain ⟨c, hc, r, hacked, hbob⟩ := hp
  have hall := hrun.trans hrun'
  obtain ⟨⟨cid, hcid, d, hd, hroom⟩, hstands⟩ := delivered_messages_reach_the_socket
    (lawful_sampleEnv .instants) hall
    ((serverPart accountLibraries (sampleEnv .instants) {}).mem_trace.2
      ⟨v, .server (.act aliceId (.frame sendText 0 (.utc 0))),
        List.mem_append_right _ List.mem_cons_self, rfl, rfl⟩)
    (ackedDelivered_of_eq_some hc hacked)
  obtain ⟨c', hc', honce, -⟩ := hstands cid hcid d hd hroom
  exact ⟨_, t, cid, c', _, r, hall, hbob, hc', honce⟩

end EncryptChat
