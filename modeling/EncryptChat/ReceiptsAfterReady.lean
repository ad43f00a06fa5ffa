/-
**Receipts and unauthenticated connections.**

Before it is bound to an account a connection is registered under a generated name, and the registry
does not tell that name from the name of an account: delivery looks at the index and at nothing else.
The generated name is an acceptable recipient, so a message addressed to it is delivered.  Where no
message is routed to such a name, every receipt on a connection comes after its `auth.ready`.

Main definitions:

* `EncryptChat.ReadyFirst` — every receipt of a stream comes after an `auth.ready`;
* `EncryptChat.SparesProvisional` — whoever takes a message that the step routes is authenticated.

Main results:

* `EncryptChat.ServerState.Inv.awaitsReady_step`, `EncryptChat.awaitsReady_of_run` — steps that
  spare the generated names keep receipts behind `auth.ready`;
* `EncryptChat.ServerState.Inv.receipt_of_not_spares` — and other steps do not;
* `EncryptChat.receipts_follow_ready` — **unauthenticated connections receive no messages**, in runs
  whose steps all spare them;
* `EncryptChat.receipt_before_ready` — a message to a generated name.
-/

import EncryptChat.LiveQueues

set_option relaxedAutoImplicit false
set_option autoImplicit false

namespace EncryptChat

open Python Transition ConnectionManager
open ConnectionContext (Gains)

/-! ### Streams -/

/-- The message is an `auth.ready`. -/
def OutboundMessage.IsReady (message : OutboundMessage) : Prop :=
  ∃ messageId userId username sessionId, message = .authReady messageId userId username sessionId

/-- Every receipt of the stream comes after an `auth.ready`. -/
def ReadyFirst (stream : List OutboundMessage) : Prop :=
  ∀ before r after, stream = before ++ .messageReceipt r :: after →
    ∃ message ∈ before, message.IsReady

theorem Plain.readyFirst {stream : List OutboundMessage} (h : Plain stream) :
    ReadyFirst stream := by
  rintro before r after rfl
  have := h (.messageReceipt r) (by simp)
  simp [OutboundMessage.receipt?] at this

/-- What is appended to a stream has to wait for `auth.ready` unless the stream has it already. -/
theorem ReadyFirst.append {stream l : List OutboundMessage} (h : ReadyFirst stream)
    (hl : (∃ message ∈ stream, message.IsReady) ∨ ReadyFirst l) : ReadyFirst (stream ++ l) := by
  intro before r after heq
  rcases List.append_eq_append_iff.1 heq with ⟨mid, hbefore, hrest⟩ | ⟨mid, hstream, hrest⟩
  · -- the receipt stands in what is appended
    subst hbefore
    rcases hl with ⟨message, hmem, hready⟩ | hl
    · exact ⟨message, List.mem_append_left _ hmem, hready⟩
    · obtain ⟨message, hmem, hready⟩ := hl mid r after hrest
      exact ⟨message, List.mem_append_right _ hmem, hready⟩
  · cases mid with
    | nil =>
        rw [List.append_nil] at hstream
        rcases hl with hready | hl
        · rwa [← hstream]
        · obtain ⟨message, hmem, -⟩ := hl [] r after hrest.symm
          cases hmem
    | cons x mid =>
        rw [List.cons_append, List.cons.injEq] at hrest
        obtain ⟨rfl, -⟩ := hrest
        exact h before r mid hstream

/-- A stream that opens with `auth.ready`. -/
theorem readyFirst_cons {message : OutboundMessage} (h : message.IsReady)
    (l : List OutboundMessage) : ReadyFirst (message :: l) := by
  intro before r after heq
  cases before with
  | nil =>
      rw [List.nil_append, List.cons.injEq] at heq
      obtain ⟨rfl, -⟩ := heq
      obtain ⟨_, _, _, _, hready⟩ := h
      cases hready
  | cons x before =>
      rw [List.cons_append, List.cons.injEq] at heq
      obtain ⟨rfl, -⟩ := heq
      exact ⟨_, List.mem_cons_self, h⟩

/-! ### Connections -/

/-- What holds of a connection's receipts: it has none before it is bound; once it is bound it has
its `auth.ready` or takes nothing more; and receipts come after `auth.ready`. -/
structure AwaitsReady (c : ConnectionContext) : Prop where
  unauthenticated : c.authenticated = false → c.receipts = []
  bound : c.authenticated = true → c.closing = true ∨ ∃ message ∈ c.outbound.accepted,
    message.IsReady
  readyFirst : ReadyFirst c.outbound.accepted

/-- A connection without receipts has accepted none. -/
theorem plain_of_receipts_eq_nil {c : ConnectionContext} (h : c.receipts = []) :
    Plain c.outbound.accepted :=
  List.filterMap_eq_nil_iff.1 h

/-- Messages that are no receipts may come at any time. -/
theorem AwaitsReady.gains {c c' : ConnectionContext} (h : AwaitsReady c)
    {l : List OutboundMessage} (hgains : Gains c c' l)
    (hauth : c'.authenticated = c.authenticated) (hplain : Plain l) : AwaitsReady c' where
  unauthenticated := by
    intro hun
    rw [hgains.receipts, hplain.filterMap, List.append_nil]
    exact h.unauthenticated (hauth.symm.trans hun)
  bound := by
    intro hbound
    rcases h.bound (hauth.symm.trans hbound) with hclosing | ⟨message, hmem, hready⟩
    · exact .inl (hgains.closing hclosing)
    · refine .inr ⟨message, ?_, hready⟩
      rw [hgains.accepted]
      exact List.mem_append_left _ hmem
  readyFirst := by
    rw [hgains.accepted]
    exact h.readyFirst.append (.inr hplain.readyFirst)

/-- Any messages may come to an open connection that is bound. -/
theorem AwaitsReady.gains_of_bound {c c' : ConnectionContext} (h : AwaitsReady c)
    {l : List OutboundMessage} (hgains : Gains c c' l)
    (hauth : c'.authenticated = c.authenticated) (hbound : c.authenticated = true)
    (hopen : c.closing = false) : AwaitsReady c' := by
  have hready : ∃ message ∈ c.outbound.accepted, message.IsReady := by
    refine (h.bound hbound).resolve_left ?_
    rw [hopen]
    exact Bool.noConfusion
  refine ⟨?_, fun _ => .inr ?_, ?_⟩
  · intro hun
    rw [hauth, hbound] at hun
    cases hun
  · obtain ⟨message, hmem, hmessage⟩ := hready
    refine ⟨message, ?_, hmessage⟩
    rw [hgains.accepted]
    exact List.mem_append_left _ hmem
  · rw [hgains.accepted]
    exact h.readyFirst.append (.inl hready)

/-- A binding puts `auth.ready` first, or leaves the connection closing. -/
theorem AwaitsReady.binding {c c' : ConnectionContext} (h : AwaitsReady c)
    (hun : c.authenticated = false) {identity : AuthenticatedIdentity}
    (hbound : c'.identity = identity.bound) {m : ConnectionManager} {envelope : InboundEnvelope}
    {n : ℕ} (hgains : Gains c c' ((bindingResponses m envelope identity).take n))
    (hn : n = 0 → c'.closing = true) : AwaitsReady c' := by
  have hauth : c'.authenticated = true := congrArg Prod.fst hbound
  have hplain := plain_of_receipts_eq_nil (h.unauthenticated hun)
  refine ⟨?_, ?_, ?_⟩
  · intro hun'
    rw [hauth] at hun'
    cases hun'
  · intro _
    cases n with
    | zero => exact .inl (hn rfl)
    | succ n =>
        refine .inr ⟨.authReady envelope.messageId identity.userId identity.username
          identity.sessionId, ?_, _, _, _, _, rfl⟩
        rw [hgains.accepted]
        exact List.mem_append_right _ List.mem_cons_self
  · rw [hgains.accepted]
    refine h.readyFirst.append (.inr ?_)
    cases n with
    | zero => exact plain_nil.readyFirst
    | succ n => exact readyFirst_cons ⟨_, _, _, _, rfl⟩ _

/-! ### Steps -/

/-- Whoever takes a message that the step routes is authenticated: none is addressed to the
generated name of a connection that is neither closing nor saturated. -/
def SparesProvisional (lib : Libraries) (s : ServerState) (a : ServerAction) : Prop :=
  ∀ routed ∈ routing? lib s a, ∀ cid ∈ s.manager.takers routed.1.recipient,
    ∀ c ∈ s.manager.contexts cid, c.authenticated = true

instance (lib : Libraries) (s : ServerState) (a : ServerAction) :
    Decidable (SparesProvisional lib s a) :=
  inferInstanceAs (Decidable (∀ routed ∈ routing? lib s a, _))

namespace ServerState

variable {lib : Libraries} {limits : TransportLimits} {s s' : ServerState}

/-- **A step that spares the generated names keeps receipts behind `auth.ready`.** -/
theorem Inv.awaitsReady_step (hinv : s.Inv limits) {a : ServerAction}
    (h : s.step lib a = some s') (hspares : SparesProvisional lib s a)
    (hready : ∀ cid c, s.manager.contexts cid = some c → AwaitsReady c) :
    ∀ cid c, s'.manager.contexts cid = some c → AwaitsReady c := by
  intro cid c' hc'
  rcases hinv.step_cases h with ⟨hstill, hnot⟩ | ⟨cid₀, rawText, now, clock, c₀, envelope,
    recipient, rfl, hroutes⟩ | ⟨cid₀, identity, c₀, rfl, hbinds⟩
  · rcases (still_of_reaches hstill).back hc' with ⟨c, l, hc, hgains, hplain⟩ | ⟨hnone, hplain⟩
    · exact (hready cid c hc).gains hgains (hinv.authenticated_step h (hnot cid) hc hc') hplain
    · -- a connection that has just arrived
      obtain ⟨-, hun⟩ := hinv.identity_of_new h hc' hnone
      refine ⟨fun _ => hplain.filterMap, fun hauth => ?_, hplain.readyFirst⟩
      rw [hun] at hauth
      cases hauth
  · obtain ⟨c, hc⟩ := hinv.context_of_act h hc'
    have hsame := hinv.authenticated_step h (by simp) hc hc'
    obtain ⟨d, l, hd, hgains, hl⟩ := hroutes.gains hinv.wf hc
    rw [hc'] at hd
    cases hd
    by_cases htaker : cid ∈ s.manager.takers recipient
    · obtain ⟨-, c₁, hc₁, hroom⟩ := mem_takers.1 htaker
      rw [hc, Option.some.injEq] at hc₁
      subst hc₁
      have hauth := hspares _ (routing?_of_routesFrame hroutes clock) cid htaker c hc
      exact (hready cid c hc).gains_of_bound hgains hsame hauth hroom.1
    · rw [if_neg htaker] at hl
      exact (hready cid c hc).gains hgains hsame (List.filterMap_eq_nil_iff.1 hl)
  · by_cases hne : cid = cid₀
    · subst hne
      obtain ⟨envelope, d, n, hd, hbound, hgains, hn⟩ := hbinds.gains
      rw [hc'] at hd
      cases hd
      exact (hready cid c₀ hbinds.present).binding hbinds.unauthenticated hbound hgains hn
    · rw [hbinds.others hne] at hc'
      exact hready cid c' hc'

/-- **A step that does not spare them** puts a receipt on a connection that is not authenticated. -/
theorem Inv.receipt_of_not_spares (hinv : s.Inv limits) {a : ServerAction}
    (h : s.step lib a = some s') (hnot : ¬ SparesProvisional lib s a) :
    ∃ cid c, s'.manager.contexts cid = some c ∧ c.authenticated = false ∧ c.receipts ≠ [] := by
  simp only [SparesProvisional, not_forall, Bool.not_eq_true] at hnot
  obtain ⟨routed, hrouted, cid, htaker, c, hc, hun⟩ := hnot
  cases a with
  | connect => cases hrouted
  | act cid₀ a =>
      cases a with
      | frame rawText now clock =>
          obtain ⟨c₀, envelope, recipient, hroutes, hr, -⟩ := routesFrame_of_routing? h hrouted
          obtain ⟨c', hc', hreceipts⟩ := hroutes.receipts hinv.wf hc
          have hsame := hinv.authenticated_step h (by simp) hc hc'
          rw [hr, receiptOf] at htaker
          rw [if_pos htaker] at hreceipts
          exact ⟨cid, c', hc', hsame.trans hun, by simp [hreceipts]⟩
      | _ => cases hrouted

end ServerState

/-- **Runs that spare the generated names keep receipts behind `auth.ready`.** -/
theorem awaitsReady_of_run {lib : Libraries} {limits : TransportLimits} {s : ServerState}
    {tr : List (ServerState × ServerAction)}
    (h : (serverSystem lib limits).Run (.new limits) tr s)
    (hspares : ∀ e ∈ tr, SparesProvisional lib e.1 e.2) {cid : ConnId} {c : ConnectionContext}
    (hc : s.manager.contexts cid = some c) : AwaitsReady c := by
  have hready : s.Inv limits ∧ ∀ cid c, s.manager.contexts cid = some c → AwaitsReady c := by
    refine h.invariant_of (C := SparesProvisional lib)
      (P := fun t => t.Inv limits ∧ ∀ cid c, t.manager.contexts cid = some c → AwaitsReady c) ?_
      hspares ⟨ServerState.inv_new limits, ?_⟩
    · rintro t a t' ⟨ht, hready⟩ hspare hstep
      exact ⟨ht.step hstep, ht.awaitsReady_step hstep hspare hready⟩
    · simp [ServerState.new, ConnectionManager.new]
  exact hready.2 cid c hc

/-- **Unauthenticated connections receive no messages**, in runs that route none to the generated
name of a connection that is not authenticated and would take it: in every state of the run a
connection that is not authenticated has been given no receipt, and on every connection each receipt
comes after `auth.ready`. -/
theorem receipts_follow_ready (lib : Libraries) (limits : TransportLimits) {s : ServerState}
    {tr : List (ServerState × ServerAction)}
    (h : (serverSystem lib limits).Run (.new limits) tr s)
    (hspares : ∀ e ∈ tr, SparesProvisional lib e.1 e.2) {cid : ConnId} {c : ConnectionContext}
    (hc : s.manager.contexts cid = some c) :
    (c.authenticated = false → c.receipts = []) ∧ ReadyFirst c.outbound.accepted :=
  have hready := awaitsReady_of_run h hspares hc
  ⟨hready.unauthenticated, hready.readyFirst⟩

/-! ### A message to a generated name -/

/-- The message of `alice` reaches `bob` after his `auth.ready`. -/
theorem receipts_follow_ready_bob :
    ∃ tr s c, (serverSystem sampleLibraries {}).Run (.new {}) tr s ∧
      s.manager.contexts bobId = some c ∧ c.receipts ≠ [] ∧ ReadyFirst c.outbound.accepted := by
  have hexec : ((serverSystem sampleLibraries {}).exec (.new {})
      (aliceConnects ++ bobConnects)).map (fun s =>
        (s.manager.contexts bobId).any (fun c => !c.receipts.isEmpty) &&
          ((serverSystem sampleLibraries {}).traceOf (.new {}) (aliceConnects ++ bobConnects)).all
            fun e => decide (SparesProvisional sampleLibraries e.1 e.2)) = some true := by
    decide +kernel
  obtain ⟨s, -, hrun, hp⟩ := System.exists_run_of_exec hexec
  simp only [Bool.and_eq_true, Option.any_eq_true, List.all_eq_true, decide_eq_true_eq] at hp
  obtain ⟨⟨c, hc, hreceipts⟩, hspares⟩ := hp
  exact ⟨_, s, c, hrun, hc, by simpa using hreceipts,
    (receipts_follow_ready sampleLibraries {} hrun hspares hc).2⟩

/-- `message.send` from `alice` to the generated name of a connection. -/
def provisionalText : PyStr :=
  frameText (py "message.send") (py "alice")
    (py "\",\"recipient\":\"" ++ provisionalId bobId ++ py "\"\x7d")

/-- The sample parsers, on this text too. -/
def provisionalLibraries : Libraries :=
  { sampleLibraries with
    loads := fun raw =>
      if raw = provisionalText then
        .value (.dict (frameDict (py "message.send") (py "alice")
          [(py "recipient", .str (provisionalId bobId))]))
      else sampleLibraries.loads raw }

/-- **A receipt on a connection that is not authenticated**: `alice` addresses a message to the
generated name of a connection that has just arrived. -/
theorem receipt_before_ready :
    ∃ tr s c, (serverSystem provisionalLibraries {}).Run (.new {}) tr s ∧
      s.manager.contexts bobId = some c ∧ c.authenticated = false ∧ c.receipts ≠ [] := by
  have hexec : ((serverSystem provisionalLibraries {}).exec (.new {}) (aliceConnects ++
      [.connect bobId bobId none 0, .act bobId (.accepted none),
        .act aliceId (.frame provisionalText 0 (.utc 0))])).map (fun s =>
      (s.manager.contexts bobId).any fun c => !c.authenticated && !c.receipts.isEmpty) =
        some true := by
    decide +kernel
  obtain ⟨s, -, hrun, hp⟩ := System.exists_run_of_exec hexec
  simp only [Option.any_eq_true, Bool.and_eq_true, Bool.not_eq_true'] at hp
  obtain ⟨c, hc, hun, hreceipts⟩ := hp
  exact ⟨_, s, c, hrun, hc, hun, by simpa using hreceipts⟩

end EncryptChat
