/-
**Sender authenticity over whole runs.**

The identity of a connection is bound in one step, checked in another and stamped into receipts in a
third, and a receipt outlives the connection in the offline queue.  This module follows both through
every run: where the identity of a context comes from, and where a receipt on any queue comes from.

Main definitions:

* `EncryptChat.ConnectionContext.identity` — `(authenticated, user_id, account_username,
  session_id)`;
* `EncryptChat.Routes` — the frame is a `message.send` of an authenticated connection under its own
  name, and this is its receipt.

Main results:

* `EncryptChat.ServerState.Inv.held_step` — a step that puts a receipt on a queue routes it;
* `EncryptChat.ServerState.Inv.identity_step` — a step changes an identity only by binding the one
  `resolve_access_token` returned to a connection that has none;
* `EncryptChat.receipts_are_authentic` — **sender authenticity**.
-/

import EncryptChat.ServerFrame

set_option relaxedAutoImplicit false
set_option autoImplicit false

namespace EncryptChat

open Python Transition ConnectionManager

/-! ### Identities -/

/-- `(authenticated, user_id, account_username, session_id)`. -/
def ConnectionContext.identity (c : ConnectionContext) :
    Bool × Option PyStr × Option PyStr × Option PyStr :=
  (c.authenticated, c.userId, c.accountUsername, c.sessionId)

/-- The identity `bind_identity` leaves. -/
def AuthenticatedIdentity.bound (i : AuthenticatedIdentity) :
    Bool × Option PyStr × Option PyStr × Option PyStr :=
  (true, some i.userId, some i.username, some i.sessionId)

namespace ConnectionContext

theorem SameIdentity.identity {c c' : ConnectionContext} (h : SameIdentity c c') :
    c'.identity = c.identity := by
  unfold ConnectionContext.identity
  rw [h.authenticated, h.userId, h.accountUsername, h.sessionId]

/-- A context without an identity has none of its parts. -/
theorem WF.identity_of_unauthenticated {c : ConnectionContext} {limits : TransportLimits}
    {cid : ConnId} (h : c.WF limits cid) (hauth : c.authenticated = false) :
    c.identity = (false, none, none, none) := by
  obtain ⟨hname, huser, hsession⟩ := h.bound
  rw [hauth, eq_comm, Option.isSome_eq_false_iff, Option.isNone_iff_eq_none] at hname huser hsession
  unfold ConnectionContext.identity
  rw [hauth, hname, huser, hsession]

/-- The name of an authenticated context is the name it sends as. -/
theorem WF.accountUsername_eq {c : ConnectionContext} {limits : TransportLimits} {cid : ConnId}
    (h : c.WF limits cid) (hauth : c.authenticated = true) :
    c.accountUsername = some c.routingIdentity := by
  have hname := h.bound.1
  rw [hauth, eq_comm, Option.isSome_iff_exists] at hname
  obtain ⟨name, hname⟩ := hname
  simp [routingIdentity, hname]

/-- A context that is not authenticated sends and receives as what it arrived as. -/
theorem WF.routingIdentity_of_unauthenticated {c : ConnectionContext} {limits : TransportLimits}
    {cid : ConnId} (h : c.WF limits cid) (hun : c.authenticated = false) :
    c.routingIdentity = c.transportClientId := by
  have hname := h.bound.1
  rw [hun, eq_comm, Option.isSome_eq_false_iff, Option.isNone_iff_eq_none] at hname
  simp [routingIdentity, hname]

end ConnectionContext

namespace ServerState

variable {lib : Libraries} {limits : TransportLimits} {s s' : ServerState}

/-- The class of a step allows no binding but that of the identity the step resolved. -/
theorem eq_of_handlerOps_bindIdentity {m : ConnectionManager} {ref : ℕ} {cid cid' : ConnId}
    {a : HandlerAction} {identity : AuthenticatedIdentity}
    (h : HandlerOps lib m ref cid a (.bindIdentity cid' identity)) :
    cid' = cid ∧ a = .resolved (.ok identity) := by
  rcases h.cases with h | h | ⟨identity', rfl, h | h⟩ | hquiet
  · cases h
  · cases h
  · cases h
    exact ⟨rfl, rfl⟩
  · cases h
  · exact absurd hquiet id

/-- **A step changes the identity of a context only by binding** the identity it resolved to a
context that has none. -/
theorem Inv.identity_step (hinv : s.Inv limits) {a : ServerAction}
    (h : s.step lib a = some s') {cid : ConnId} {c : ConnectionContext}
    (hc : s.manager.contexts cid = some c) :
    ∃ c', s'.manager.contexts cid = some c' ∧
      (c'.identity = c.identity ∨
        c.identity = (false, none, none, none) ∧
          ∃ identity, a = .act cid (.resolved (.ok identity)) ∧ c'.identity = identity.bound) := by
  cases a with
  | connect cid' hex origin now =>
      obtain ⟨hnone, ⟨hm, -⟩ | ⟨happ, -⟩⟩ := step_connect h
      · exact ⟨c, by rw [hm]; exact hc, .inl rfl⟩
      · have hne : cid' ≠ cid := by
          rintro rfl
          rw [hnone] at hc
          cases hc
        obtain ⟨c', hc', hsame, -⟩ := (untouched_of_effect (ManagerOp.effect happ) hne).present c hc
        exact ⟨c', hc', .inl hsame.identity⟩
  | act cid' a' =>
      have hreach := hinv.reaches_act h
      by_cases hbinds : cid' = cid ∧ ∃ identity, a' = .resolved (.ok identity)
      · obtain ⟨rfl, identity, rfl⟩ := hbinds
        obtain ⟨c', hc', hsame | ⟨hauth, hsame⟩⟩ := hreach.identity (fun identity' hK => by
          cases (eq_of_handlerOps_bindIdentity hK).2
          rfl) hc
        · exact ⟨c', hc', .inl hsame.identity⟩
        · refine ⟨c', hc', .inr ⟨?_, identity, rfl, hsame.identity⟩⟩
          exact (hinv.wf.context cid' c hc).identity_of_unauthenticated hauth
      · obtain ⟨c', hc', hsame⟩ := hreach.sameIdentity (fun identity hK => by
          obtain ⟨rfl, rfl⟩ := eq_of_handlerOps_bindIdentity hK
          exact hbinds ⟨rfl, identity, rfl⟩) hc
        exact ⟨c', hc', .inl hsame.identity⟩

/-- A context there was not before is that of a connection that has just arrived, and has no
identity. -/
theorem Inv.identity_of_new (hinv : s.Inv limits) {a : ServerAction}
    (h : s.step lib a = some s') {cid : ConnId} {c' : ConnectionContext}
    (hc' : s'.manager.contexts cid = some c') (hnone : s.manager.contexts cid = none) :
    (∃ hex origin now, a = .connect cid hex origin now) ∧ c'.authenticated = false := by
  cases a with
  | connect cid' hex origin now =>
      obtain ⟨-, ⟨hm, -⟩ | ⟨happ, -⟩⟩ := step_connect h
      · rw [hm, hnone] at hc'
        cases hc'
      · rcases (ManagerOp.effect happ).context_back hc' with ⟨c, hc⟩ | ⟨k, now', hop, rfl⟩
        · rw [hnone] at hc
          cases hc
        · cases hop
          exact ⟨⟨hex, origin, now, rfl⟩, rfl⟩
  | act cid' a' =>
      have hne : cid ≠ cid' := by
        rintro rfl
        obtain ⟨hd, -, hhd, -⟩ := step_act h
        obtain ⟨c, hc⟩ := (hinv.handler cid hd hhd).present
        rw [hnone] at hc
        cases hc
      have hmoved := (hinv.reaches_act h).untouched fun op hop htarget => hne (hop.targets htarget)
      rw [hmoved.absent hnone] at hc'
      cases hc'

end ServerState

open ServerState

/-- Every context belongs to a connection that arrived in the run. -/
theorem exists_connect_of_context {lib : Libraries} {limits : TransportLimits} {s : ServerState}
    {tr : List (ServerState × ServerAction)}
    (h : (serverSystem lib limits).Run (.new limits) tr s) {cid : ConnId} {c : ConnectionContext}
    (hc : s.manager.contexts cid = some c) :
    ∃ u hex origin now, (u, ServerAction.connect cid hex origin now) ∈ tr := by
  have hnone : ¬ ∃ c, (ServerState.new limits).manager.contexts cid = some c := by
    simp [ServerState.new, ConnectionManager.new]
  obtain ⟨tr₁, tr₂, u, a, u', rfl, hrun, hstep, -, hbefore, c', hc'⟩ :=
    h.exists_creator (P := fun u => ∃ c, u.manager.contexts cid = some c) hnone ⟨c, hc⟩
  have habsent : u.manager.contexts cid = none :=
    Option.eq_none_iff_forall_ne_some.2 fun c hc => hbefore ⟨c, hc⟩
  obtain ⟨⟨hex, origin, now, rfl⟩, -⟩ := (inv_of_run hrun).identity_of_new hstep hc' habsent
  exact ⟨u, hex, origin, now, by simp⟩

/-- **Where an identity comes from**: an earlier step of the very connection, in which
`resolve_access_token` returned it. -/
theorem exists_resolved_of_authenticated {lib : Libraries} {limits : TransportLimits}
    {s : ServerState} {tr : List (ServerState × ServerAction)}
    (h : (serverSystem lib limits).Run (.new limits) tr s) {cid : ConnId} {c : ConnectionContext}
    (hc : s.manager.contexts cid = some c) (hauth : c.authenticated = true) :
    ∃ v identity, (v, ServerAction.act cid (.resolved (.ok identity))) ∈ tr ∧
      c.identity = identity.bound := by
  induction h generalizing c with
  | nil => simp [ServerState.new, ConnectionManager.new] at hc
  | @snoc v w tr a hrun hstep ih =>
      have hinv := inv_of_run hrun
      cases hv : v.manager.contexts cid with
      | none =>
          rw [(hinv.identity_of_new hstep hc hv).2] at hauth
          cases hauth
      | some c₀ =>
          obtain ⟨c', hc', hcase⟩ := hinv.identity_step hstep hv
          rw [hc] at hc'
          cases hc'
          rcases hcase with hsame | ⟨-, identity, rfl, hbound⟩
          · have hauth₀ : c₀.authenticated = true := by
              rw [← hauth]
              exact (congrArg Prod.fst hsame).symm
            obtain ⟨u, identity, hmem, hbound⟩ := ih hv hauth₀
            exact ⟨u, identity, List.mem_append_left _ hmem, hsame.trans hbound⟩
          · exact ⟨v, identity, by simp, hbound⟩

/-- An authenticated connection keeps its identity for the rest of the run. -/
theorem identity_eq_of_run {lib : Libraries} {limits : TransportLimits} {s t : ServerState}
    {tr : List (ServerState × ServerAction)} (hinv : s.Inv limits)
    (h : (serverSystem lib limits).Run s tr t) {cid : ConnId} {c : ConnectionContext}
    (hc : s.manager.contexts cid = some c) (hauth : c.authenticated = true) :
    ∃ c', t.manager.contexts cid = some c' ∧ c'.identity = c.identity := by
  have hkept : t.Inv limits ∧ ∃ c', t.manager.contexts cid = some c' ∧ c'.identity = c.identity := by
    refine h.invariant (P := fun u => u.Inv limits ∧
      ∃ c', u.manager.contexts cid = some c' ∧ c'.identity = c.identity) ?_ ⟨hinv, c, hc, rfl⟩
    rintro u a u' ⟨hu, c₁, hc₁, hsame⟩ hstep
    refine ⟨hu.step hstep, ?_⟩
    obtain ⟨c', hc', hsame' | ⟨hnone, -⟩⟩ := hu.identity_step hstep hc₁
    · exact ⟨c', hc', hsame'.trans hsame⟩
    · -- the connection has an identity by now
      rw [hsame] at hnone
      have := congrArg Prod.fst hnone
      rw [ConnectionContext.identity, hauth] at this
      cases this
  exact hkept.2

/-! ### Receipts -/

/-- The connection is authenticated, the frame is a `message.send` that names the account the
connection is bound to, and this is the receipt made from it, which can be serialized. -/
def Routes (lib : Libraries) (s : ServerState) (cid : ConnId) (rawText : PyStr)
    (c : ConnectionContext) (r : MessageReceipt) : Prop :=
  s.manager.contexts cid = some c ∧ c.authenticated = true ∧ c.accountUsername = some r.sender ∧
    ∃ envelope recipient, validateInbound lib c rawText = .ok (some envelope, []) ∧
      envelope.type = .messageSend ∧ envelope.sender = r.sender ∧
      envelope.recipient = some recipient ∧ lib.Dumps envelope.payload ∧
      r = receiptOf c envelope recipient s.nextRef

/-- **A step that puts a receipt on a queue routes it.** -/
theorem ServerState.Inv.held_step {lib : Libraries} {limits : TransportLimits}
    {s s' : ServerState} (hinv : s.Inv limits) {a : ServerAction} (h : s.step lib a = some s')
    {r : MessageReceipt} (hheld : s'.manager.Held (.messageReceipt r)) :
    s.manager.Held (.messageReceipt r) ∨
      ∃ cid rawText now clock c, a = .act cid (.frame rawText now clock) ∧
        Routes lib s cid rawText c r := by
  cases a with
  | connect cid hex origin now =>
      left
      obtain ⟨-, ⟨hm, -⟩ | ⟨happ, -⟩⟩ := step_connect h
      · rwa [hm] at hheld
      · exact (hheld.of_effect (ManagerOp.effect happ)).resolve_right (by simp [ManagerOp.puts])
  | act cid a' =>
      rcases (hinv.reaches_act h).held hheld with hold | ⟨op, hop, hputs⟩
      · exact .inl hold
      have hclose : op ≠ .markClosing cid := by
        rintro rfl
        simp [ManagerOp.puts] at hputs
      have hplain : ¬ op.QuietPutting fun message => message.receipt? = none := by
        intro hquiet
        have := hquiet.2 _ hputs
        simp [OutboundMessage.receipt?] at this
      cases a' with
      | frame rawText now clock =>
          right
          rcases hop.resolve_left hclose |>.2 _ hputs with hnone | ⟨c, envelope, hc, hvalid, hsent⟩
          · simp [OutboundMessage.receipt?] at hnone
          obtain ⟨hsend, hsender, hdumps, recipient, hrec, hr⟩ := hsent
          have hauth := authenticated_of_messageSend hvalid hsend
          cases hr
          exact ⟨cid, rawText, now, clock, c, rfl, hc, hauth,
            (hinv.wf.context cid c hc).accountUsername_eq hauth, envelope, recipient, hvalid, hsend,
            hsender, hrec, hdumps, rfl⟩
      | resolved result =>
          cases result with
          | error e => exact absurd (hop.resolve_left hclose) hplain
          | ok identity =>
              rcases hop with rfl | rfl | hop | hop
              · simp [ManagerOp.puts] at hputs
              · simp [ManagerOp.puts] at hputs
              · exact absurd hop hclose
              -- a drained receipt was on a queue before
              · rcases hop.2 _ hputs with hnone | hqueued
                · simp [OutboundMessage.receipt?] at hnone
                · exact .inl (.inr ⟨_, hqueued⟩)
      | writerAwaited | writerAwaitCancelled =>
          rw [show op = .unregister cid from hop] at hputs
          simp [ManagerOp.puts] at hputs
      | accepted | frameRaises | receiveRaises | resolveRaises | flushed | closed | writerGets
      | writerSends | writerCancelled => exact absurd (hop.resolve_left hclose) hplain

/-- Every receipt on a queue was routed by a step of the run. -/
theorem exists_routes_of_held {lib : Libraries} {limits : TransportLimits} {s : ServerState}
    {tr : List (ServerState × ServerAction)}
    (h : (serverSystem lib limits).Run (.new limits) tr s) {r : MessageReceipt}
    (hheld : s.manager.Held (.messageReceipt r)) :
    ∃ tr₁ tr₂ u cid rawText now clock c,
      tr = tr₁ ++ (u, .act cid (.frame rawText now clock)) :: tr₂ ∧
      (serverSystem lib limits).Run (.new limits) tr₁ u ∧ Routes lib u cid rawText c r := by
  have hnone : ¬ (ServerState.new limits).manager.Held (.messageReceipt r) := by
    rintro (⟨cid, c, hc, -⟩ | ⟨k, hmem⟩)
    · simp [ServerState.new, ConnectionManager.new] at hc
    · simp [ServerState.new, ConnectionManager.new, OfflineQueue.new, OfflineQueue.queued] at hmem
  obtain ⟨tr₁, tr₂, u, a, u', htr, hrun, hstep, -, hbefore, hafter⟩ :=
    h.exists_creator (P := fun u => u.manager.Held (.messageReceipt r)) hnone hheld
  obtain ⟨cid, rawText, now, clock, c, rfl, hroutes⟩ :=
    ((inv_of_run hrun).held_step hstep hafter).resolve_left hbefore
  exact ⟨tr₁, tr₂, u, cid, rawText, now, clock, c, htr, hrun, hroutes⟩

/-- **Sender authenticity.**  In every state a run reaches, every receipt on a queue was routed by
an authenticated connection from a frame that named the account bound to it, and that account was
bound to it by an earlier token resolution of its own; a step creates a receipt in no other way, and
changes the identity of a connection only from none to the one its token resolved to, once. -/
theorem receipts_are_authentic (lib : Libraries) (limits : TransportLimits) {s : ServerState}
    {tr : List (ServerState × ServerAction)}
    (h : (serverSystem lib limits).Run (.new limits) tr s) :
    (∀ r, s.manager.Held (.messageReceipt r) →
        ∃ tr₁ tr₂ u cid rawText now clock c,
          tr = tr₁ ++ (u, .act cid (.frame rawText now clock)) :: tr₂ ∧
          Routes lib u cid rawText c r ∧
          ∃ v identity, (v, ServerAction.act cid (.resolved (.ok identity))) ∈ tr₁ ∧
            identity.username = r.sender ∧ c.identity = identity.bound) ∧
      (∀ a s', s.step lib a = some s' →
        (∀ r, s'.manager.Held (.messageReceipt r) → ¬ s.manager.Held (.messageReceipt r) →
          ∃ cid rawText now clock c, a = .act cid (.frame rawText now clock) ∧
            Routes lib s cid rawText c r) ∧
        ∀ cid c, s.manager.contexts cid = some c → ∃ c', s'.manager.contexts cid = some c' ∧
          (c'.identity = c.identity ∨ c.identity = (false, none, none, none) ∧
            ∃ identity, a = .act cid (.resolved (.ok identity)) ∧
              c'.identity = identity.bound)) ∧
      ∀ tr' t cid c, (serverSystem lib limits).Run s tr' t → s.manager.contexts cid = some c →
        c.authenticated = true →
        ∃ c', t.manager.contexts cid = some c' ∧ c'.identity = c.identity := by
  have hinv := inv_of_run h
  refine ⟨?_, ?_, ?_⟩
  · intro r hheld
    obtain ⟨tr₁, tr₂, u, cid, rawText, now, clock, c, htr, hrun, hroutes⟩ :=
      exists_routes_of_held h hheld
    obtain ⟨v, identity, hmem, hbound⟩ :=
      exists_resolved_of_authenticated hrun hroutes.1 hroutes.2.1
    refine ⟨tr₁, tr₂, u, cid, rawText, now, clock, c, htr, hroutes, v, identity, hmem, ?_, hbound⟩
    have hname : c.accountUsername = some identity.username :=
      congrArg (fun i => i.2.2.1) hbound
    rw [hroutes.2.2.1, Option.some.injEq] at hname
    exact hname.symm
  · intro a s' hstep
    refine ⟨?_, ?_⟩
    · exact fun r hheld hnot => (hinv.held_step hstep hheld).resolve_left hnot
    · exact fun cid c hc => hinv.identity_step hstep hc
  · exact fun tr' t cid c hrun hc hauth => identity_eq_of_run hinv hrun hc hauth

/-! ### A message for somebody who is not connected -/

/-- A message id on the wire. -/
def sampleId : PyStr := py "00000000-0000-0000-" ++ py "0000-000000000001"

/-- A timestamp on the wire. -/
def sampleTime : PyStr := py "2026-01-01T00:00:00Z"

/-- The text of a frame, up to its last field. -/
def frameText (type sender rest : PyStr) : PyStr :=
  py "\x7b\"version\":\"1\",\"message_id\":\"" ++ sampleId ++ py "\",\"type\":\"" ++ type ++
    py "\",\"sender\":\"" ++ sender ++ py "\",\"timestamp\":\"" ++ sampleTime ++ rest

/-- The object that text denotes. -/
def frameDict (type sender : PyStr) (rest : Dict) : Dict :=
  [(py "version", .str (py "1")), (py "message_id", .str sampleId), (py "type", .str type),
    (py "sender", .str sender), (py "timestamp", .str sampleTime)] ++ rest

/-- `auth.authenticate` with the token `token`. -/
def authText : PyStr :=
  frameText (py "auth.authenticate") (py "me")
    (py "\",\"payload\":\x7b" ++ py "\"access_token\":\"token\"\x7d\x7d")

/-- `message.send` from `alice` to `bob`. -/
def sendText : PyStr :=
  frameText (py "message.send") (py "alice") (py "\",\"recipient\":\"bob\"\x7d")

/-- The parsers on these texts. -/
def sampleLibraries : Libraries where
  loads raw :=
    if raw = authText then
      .value (.dict (frameDict (py "auth.authenticate") (py "me")
        [(py "payload", .dict [(py "access_token", .str (py "token"))])]))
    else if raw = sendText then
      .value (.dict (frameDict (py "message.send") (py "alice") [(py "recipient", .str (py "bob"))]))
    else .jsonDecodeError
  uuid s := if s = sampleId then some 1 else none
  uuidField
    | .str s => if s = sampleId then some 1 else none
    | _ => none
  datetimeField
    | .str s => if s = sampleTime then some (.utc 1767225600000000) else none
    | _ => none
  dumpPayload := jsonModePayload

/-- Limits under which a connection that is not read holds one message. -/
def onePending : TransportLimits := { maxPendingOutbound := 1 }

/-- The connection of `alice`. -/
def aliceId : ConnId := py "0000000000000000" ++ py "000000000000000a"

/-- `alice` connects, authenticates and sends a message to `bob`. -/
def aliceSends : List ServerAction :=
  [.connect aliceId aliceId none 0, .act aliceId (.accepted none), .act aliceId .writerGets,
    .act aliceId (.frame authText 0 (.utc 0)),
    .act aliceId (.resolved (.ok ⟨py "u1", py "alice", py "s1"⟩)),
    .act aliceId (.writerSends none), .act aliceId .writerGets,
    .act aliceId (.frame sendText 0 (.utc 0))]

/-- The receipt of the message of `alice` waits for `bob`, and is authentic. -/
theorem receipts_are_authentic_alice :
    ∃ tr s, (serverSystem sampleLibraries onePending).Run (.new onePending) tr s ∧
      ∃ r, .messageReceipt r ∈ s.manager.offlineQueue.queued (py "bob") ∧
        ∃ u cid rawText c, Routes sampleLibraries u cid rawText c r := by
  have hexec : ((serverSystem sampleLibraries onePending).exec (.new onePending) aliceSends).map
      (fun s => (s.manager.offlineQueue.queued (py "bob")).any fun m => m.receipt?.isSome) =
        some true := by decide +kernel
  obtain ⟨s, -, hrun, hp⟩ := System.exists_run_of_exec hexec
  rw [List.any_eq_true] at hp
  obtain ⟨m, hmem, hr⟩ := hp
  cases m with
  | messageReceipt r =>
      obtain ⟨tr₁, tr₂, u, cid, rawText, now, clock, c, -, hroutes, -⟩ :=
        (receipts_are_authentic sampleLibraries onePending hrun).1 r (.inr ⟨_, hmem⟩)
      exact ⟨_, s, hrun, r, hmem, u, cid, rawText, c, hroutes⟩
  | connectionReady | authReady | deliveryAck | heartbeatPong | queueStatus | protocolError =>
      simp [OutboundMessage.receipt?] at hr

end EncryptChat
