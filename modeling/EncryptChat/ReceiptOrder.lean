/-
**Receipts arrive in the order in which they were routed.**

A receipt reaches a connection live, or waits in the offline queue of its recipient until a
connection is bound to that name.  Messages are queued for a name only while no connection has it, and
a binding moves the whole queue before anything else can be routed; so the two ways cannot overtake
each other.  The one thing that could go wrong is a connection bound to the very name under which it
had arrived, and no account has such a name.

Main definitions:

* `EncryptChat.MessageReceipt.Before` — the order in which receipts are routed;
* `EncryptChat.routedReceipts` — the receipts a run has routed, in that order;
* `EncryptChat.InOrder` — what is on every queue is in that order;
* `EncryptChat.InOnePlace` — a receipt that waits, or is on one connection at most.

Main results:

* `EncryptChat.InOrder.step` — a step keeps the order;
* `EncryptChat.receipts_in_order` — **order without duplication, in every run of the application**.
-/

import EncryptChat.BoundAccounts
import Mathlib.Data.List.Sort

set_option relaxedAutoImplicit false
set_option autoImplicit false

namespace EncryptChat

open Python Transition ConnectionManager
open ConnectionContext (Gains)

/-! ### The order -/

/-- One receipt was routed before another. -/
def MessageReceipt.Before (r r' : MessageReceipt) : Prop := r.ref < r'.ref

instance antisymmBefore : Std.Antisymm MessageReceipt.Before :=
  ⟨fun _ _ h h' => absurd h (Nat.lt_asymm h')⟩

theorem MessageReceipt.Before.ne {r r' : MessageReceipt} (h : r.Before r') : r ≠ r' := by
  rintro rfl
  exact absurd h (Nat.lt_irrefl _)

/-- A receipt for the name `k`. -/
def MessageReceipt.isFor (k : PyStr) (r : MessageReceipt) : Bool := decide (r.recipient = k)

/-- A receipt routed after all of a list goes to its end. -/
theorem pairwise_before_snoc {l : List MessageReceipt} (h : l.Pairwise MessageReceipt.Before)
    {r : MessageReceipt} (hlt : ∀ r' ∈ l, r'.ref < r.ref) :
    (l ++ [r]).Pairwise MessageReceipt.Before := by
  rw [List.pairwise_append]
  refine ⟨h, List.pairwise_singleton _ _, fun r' hr' x hx => ?_⟩
  rw [List.mem_singleton] at hx
  subst hx
  exact hlt r' hr'

/-- Receipts in order, all among others in order, are a part of these in the same order. -/
theorem sublist_of_before {l l' : List MessageReceipt} (h : l.Pairwise MessageReceipt.Before)
    (h' : l'.Pairwise MessageReceipt.Before) (hsub : ∀ r ∈ l, r ∈ l') : l.Sublist l' := by
  have hnodup : l.Nodup := h.imp MessageReceipt.Before.ne
  exact List.sublist_of_subperm_of_pairwise (List.subperm_of_subset hnodup hsub) h h'

/-! ### What a run routes -/

/-- The receipt that `_route_message` builds in a step; one that cannot be serialized is placed
nowhere. -/
def routedReceipt? (lib : Libraries) (s : ServerState) : ServerAction → Option MessageReceipt
  | .act cid (.frame rawText now _) =>
      (s.manager.contexts cid).bind fun c =>
        match validateInbound lib c rawText with
        | .ok (some envelope, _) =>
            if Admitted s.manager c rawText now ∧ envelope.type = .messageSend ∧
                envelope.sender = c.routingIdentity then
              envelope.recipient.map fun recipient => receiptOf c envelope recipient s.nextRef
            else none
        | _ => none
  | _ => none

/-- The receipts a run has routed, in the order in which it did. -/
def routedReceipts (lib : Libraries) (tr : List (ServerState × ServerAction)) :
    List MessageReceipt :=
  tr.filterMap fun e => routedReceipt? lib e.1 e.2

section Routed

variable {lib : Libraries} {limits : TransportLimits} {s s' : ServerState} {a : ServerAction}

theorem routedReceipt?_of_routesFrame {cid : ConnId} {rawText : PyStr} {now : ℚ}
    {c : ConnectionContext} {envelope : InboundEnvelope} {recipient : PyStr}
    (h : RoutesFrame lib s cid rawText now c envelope recipient s') (clock : Datetime) :
    routedReceipt? lib s (.act cid (.frame rawText now clock)) =
      some (receiptOf c envelope recipient s.nextRef) := by
  simp only [routedReceipt?, h.present, Option.bind_some, h.valid, h.recipient_eq, Option.map_some]
  rw [if_pos ⟨h.admitted, h.type_eq, h.sender_eq⟩]

/-- The receipt of a step has the identity of the step. -/
theorem ref_of_routedReceipt? {r : MessageReceipt} (h : routedReceipt? lib s a = some r) :
    r.ref = s.nextRef ∧ ∃ cid a', a = .act cid a' := by
  cases a with
  | connect => cases h
  | act cid a' =>
      cases a' with
      | frame rawText now clock =>
          obtain ⟨c, -, h⟩ := Option.bind_eq_some_iff.1 h
          refine ⟨?_, cid, _, rfl⟩
          split at h
          · split_ifs at h
            obtain ⟨recipient, -, rfl⟩ := Option.map_eq_some_iff.1 h
            rfl
          · cases h
      | _ => cases h

/-- **Receipts are routed in the order of their identities.** -/
theorem routedReceipts_pairwise {tr : List (ServerState × ServerAction)}
    (h : (serverSystem lib limits).Run (.new limits) tr s) :
    (routedReceipts lib tr).Pairwise MessageReceipt.Before ∧
      ∀ r ∈ routedReceipts lib tr, r.ref < s.nextRef := by
  induction h with
  | nil => exact ⟨List.Pairwise.nil, by simp [routedReceipts]⟩
  | @snoc u w tr a _ hstep ih =>
      obtain ⟨hpairwise, hlt⟩ := ih
      have hstep' : u.step lib a = some w := hstep
      obtain ⟨hle, hact⟩ := ServerState.nextRef_step hstep'
      have happend : routedReceipts lib (tr ++ [(u, a)]) =
          routedReceipts lib tr ++ (routedReceipt? lib u a).toList := by
        unfold routedReceipts
        rw [List.filterMap_append]
        cases hr : routedReceipt? lib u a <;> simp [hr]
      rw [happend]
      cases hr : routedReceipt? lib u a with
      | none =>
          simp only [Option.toList_none, List.append_nil]
          exact ⟨hpairwise, fun r hmem => (hlt r hmem).trans_le hle⟩
      | some r =>
          obtain ⟨href, cid, a', rfl⟩ := ref_of_routedReceipt? hr
          refine ⟨pairwise_before_snoc hpairwise fun r' hr' => href ▸ hlt r' hr', fun x hx => ?_⟩
          rcases List.mem_append.1 hx with hx | hx
          · exact (hlt x hx).trans_le hle
          · rw [Option.toList_some, List.mem_singleton] at hx
            subst hx
            rw [href, hact cid a' rfl]
            omega

/-- What a receipt that a step routes says of the connection it came from. -/
theorem sender_of_routedReceipt? (hinv : s.Inv limits) {cid : ConnId} {a' : HandlerAction}
    (h : s.step lib (.act cid a') = some s') {r : MessageReceipt}
    (hr : routedReceipt? lib s (.act cid a') = some r) :
    cid ∈ s.manager.connections ∧ ∃ c, s.manager.contexts cid = some c ∧
      c.authenticated = true ∧ c.accountUsername = some r.sender := by
  obtain ⟨hd, outcome, hhd, heffect, -⟩ := ServerState.step_act h
  cases heffect with
  | @frame c hphase hc rawText now clock =>
      refine ⟨(hinv.handler cid hd hhd).registered (by rw [hphase]; trivial), c, hc, ?_⟩
      simp only [routedReceipt?, hc, Option.bind_some] at hr
      split at hr
      · rename_i envelope errors hvalid
        split_ifs at hr with hchecks
        obtain ⟨recipient, -, rfl⟩ := Option.map_eq_some_iff.1 hr
        have hauth := authenticated_of_messageSend hvalid hchecks.2.1
        exact ⟨hauth, (hinv.wf.context cid c hc).accountUsername_eq hauth⟩
      · cases hr
  | _ => cases hr

/-- A receipt that has come to be on a queue was routed by the step. -/
theorem routedReceipt?_of_held (hinv : s.Inv limits) (h : s.step lib a = some s')
    {r : MessageReceipt} (hheld : s'.manager.Held (.messageReceipt r)) :
    s.manager.Held (.messageReceipt r) ∨ routedReceipt? lib s a = some r := by
  rcases hinv.step_cases h with ⟨hstill, -⟩ | ⟨cid, rawText, now, clock, c, envelope, recipient,
    rfl, hroutes⟩ | ⟨cid, identity, c, rfl, -⟩
  · left
    have hstill := still_of_reaches hstill
    rcases hheld with ⟨cid, c', hc', hr⟩ | ⟨k, hk⟩
    · rw [← ConnectionContext.mem_receipts] at hr
      rcases hstill.receipts_back hc' with ⟨c, hc, heq⟩ | ⟨-, heq⟩
      · rw [heq, ConnectionContext.mem_receipts] at hr
        exact .inl ⟨cid, c, hc, hr⟩
      · rw [heq] at hr
        cases hr
    · rw [hstill.offlineQueue] at hk
      exact .inr ⟨k, hk⟩
  · refine (hinv.held_step h hheld).imp_right ?_
    rintro ⟨cid', rawText', now', clock', c', ha, hc', -, -, envelope', recipient', hvalid, -, -,
      hrec, -, rfl⟩
    cases ha
    rw [hroutes.present] at hc'
    cases hc'
    rw [hroutes.valid] at hvalid
    cases hvalid
    rw [hroutes.recipient_eq] at hrec
    cases hrec
    exact routedReceipt?_of_routesFrame hroutes clock
  · refine .inl ((hinv.held_step h hheld).resolve_right ?_)
    rintro ⟨_, _, _, _, _, ha, -⟩
    cases ha

/-- **What is on a queue, the run has routed.** -/
theorem mem_routedReceipts_of_held {tr : List (ServerState × ServerAction)}
    (h : (serverSystem lib limits).Run (.new limits) tr s) {r : MessageReceipt}
    (hheld : s.manager.Held (.messageReceipt r)) : r ∈ routedReceipts lib tr := by
  have hnone : ¬ (ServerState.new limits).manager.Held (.messageReceipt r) := by
    rintro (⟨cid, c, hc, -⟩ | ⟨k, hmem⟩)
    · simp [ServerState.new, ConnectionManager.new] at hc
    · simp [ServerState.new, ConnectionManager.new, OfflineQueue.new, OfflineQueue.queued] at hmem
  obtain ⟨tr₁, tr₂, u, a, u', rfl, hrun, hstep, -, hbefore, hafter⟩ :=
    h.exists_creator (P := fun u => u.manager.Held (.messageReceipt r)) hnone hheld
  have hrouted := (routedReceipt?_of_held (inv_of_run hrun) hstep hafter).resolve_left hbefore
  unfold routedReceipts
  exact List.mem_filterMap.2 ⟨(u, a), by simp, hrouted⟩

end Routed

/-! ### What is on the queues -/

/-- What is on the queues is in order: of what a connection has accepted, the receipts for every
name; and what waits for every name.  A connection that is not authenticated has accepted receipts
for the name under which it arrived only. -/
structure InOrder (s : ServerState) : Prop where
  held_lt : ∀ cid c, s.manager.contexts cid = some c → ∀ r ∈ c.receipts, r.ref < s.nextRef
  held : ∀ cid c, s.manager.contexts cid = some c → ∀ k,
    (c.receipts.filter (MessageReceipt.isFor k)).Pairwise MessageReceipt.Before
  provisional : ∀ cid c, s.manager.contexts cid = some c → c.authenticated = false →
    ∀ r ∈ c.receipts, r.recipient = c.transportClientId
  waiting : ∀ k, ∃ l : List MessageReceipt,
    s.manager.offlineQueue.queued k = l.map OutboundMessage.messageReceipt ∧
      l.Pairwise MessageReceipt.Before ∧ ∀ r ∈ l, r.recipient = k ∧ r.ref < s.nextRef

theorem inOrder_new (limits : TransportLimits) : InOrder (.new limits) where
  held_lt := by simp [ServerState.new, ConnectionManager.new]
  held := by simp [ServerState.new, ConnectionManager.new]
  provisional := by simp [ServerState.new, ConnectionManager.new]
  waiting := fun k => ⟨[], by
    simp [ServerState.new, ConnectionManager.new, OfflineQueue.new, OfflineQueue.queued]⟩

namespace InOrder

variable {lib : Libraries} {limits : TransportLimits} {s s' : ServerState}

/-- What is on a queue was routed before. -/
theorem ref_lt_of_held (h : InOrder s) {r : MessageReceipt}
    (hheld : s.manager.Held (.messageReceipt r)) : r.ref < s.nextRef := by
  rcases hheld with ⟨cid, c, hc, hr⟩ | ⟨k, hk⟩
  · exact h.held_lt cid c hc r (ConnectionContext.mem_receipts.2 hr)
  · obtain ⟨l, hl, -, hmem⟩ := h.waiting k
    rw [hl] at hk
    obtain ⟨x, hx, heq⟩ := List.mem_map.1 hk
    cases heq
    exact (hmem r hx).2

/-- What waits goes on to wait in order, when the queue of a name is as it was. -/
theorem waiting_of_eq (h : InOrder s) (hle : s.nextRef ≤ s'.nextRef) {k : PyStr}
    (hk : s'.manager.offlineQueue.queued k = s.manager.offlineQueue.queued k) :
    ∃ l : List MessageReceipt,
      s'.manager.offlineQueue.queued k = l.map OutboundMessage.messageReceipt ∧
        l.Pairwise MessageReceipt.Before ∧ ∀ r ∈ l, r.recipient = k ∧ r.ref < s'.nextRef := by
  obtain ⟨l, hl, hpairwise, hmem⟩ := h.waiting k
  refine ⟨l, hk.trans hl, hpairwise, fun r hr => ?_⟩
  exact ⟨(hmem r hr).1, (hmem r hr).2.trans_le hle⟩

/-- A step that moves no receipt keeps the order. -/
theorem step_still (h : InOrder s) (hinv : s.Inv limits) {a : ServerAction}
    (hstep : s.step lib a = some s') (hstill : Still s.manager s'.manager)
    (hnot : ∀ cid identity, a ≠ .act cid (.resolved (.ok identity))) : InOrder s' := by
  have hle := (ServerState.nextRef_step hstep).1
  refine ⟨?_, ?_, ?_, fun k => h.waiting_of_eq hle (by rw [hstill.offlineQueue])⟩
  · intro cid c' hc' r hr
    rcases hstill.receipts_back hc' with ⟨c, hc, heq⟩ | ⟨-, heq⟩
    · rw [heq] at hr
      exact (h.held_lt cid c hc r hr).trans_le hle
    · rw [heq] at hr
      cases hr
  · intro cid c' hc' k
    rcases hstill.receipts_back hc' with ⟨c, hc, heq⟩ | ⟨-, heq⟩
    · rw [heq]
      exact h.held cid c hc k
    · rw [heq]
      exact List.Pairwise.nil
  · intro cid c' hc' hun r hr
    rcases hstill.receipts_back hc' with ⟨c, hc, heq⟩ | ⟨-, heq⟩
    · have hun₀ : c.authenticated = false :=
        (hinv.authenticated_step hstep (hnot cid) hc hc').symm.trans hun
      rw [heq] at hr
      rw [hinv.transportClientId_step hstep hc hc']
      exact h.provisional cid c hc hun₀ r hr
    · rw [heq] at hr
      cases hr

/-- A step that routes a receipt keeps the order: the receipt is later than everything before. -/
theorem step_routes (h : InOrder s) (hinv : s.Inv limits) {cid : ConnId} {rawText : PyStr} {now : ℚ}
    {clock : Datetime} {c : ConnectionContext} {envelope : InboundEnvelope} {recipient : PyStr}
    (hstep : s.step lib (.act cid (.frame rawText now clock)) = some s')
    (hroutes : RoutesFrame lib s cid rawText now c envelope recipient s') : InOrder s' := by
  have hnext : s'.nextRef = s.nextRef + 1 := (ServerState.nextRef_step hstep).2 cid _ rfl
  have hle : s.nextRef ≤ s'.nextRef := by omega
  refine ⟨?_, ?_, ?_, ?_⟩
  · intro cid' c' hc' r hr
    obtain ⟨c₀, hc₀, heq | ⟨-, heq⟩⟩ := hroutes.receipts_back hinv hstep hc'
    · rw [heq] at hr
      exact (h.held_lt cid' c₀ hc₀ r hr).trans_le hle
    · rw [heq, List.mem_append, List.mem_singleton] at hr
      rcases hr with hr | rfl
      · exact (h.held_lt cid' c₀ hc₀ r hr).trans_le hle
      · simp only [receiptOf, hnext]
        omega
  · intro cid' c' hc' k
    obtain ⟨c₀, hc₀, heq | ⟨-, heq⟩⟩ := hroutes.receipts_back hinv hstep hc'
    · rw [heq]
      exact h.held cid' c₀ hc₀ k
    · rw [heq, List.filter_append]
      by_cases hk : (receiptOf c envelope recipient s.nextRef).isFor k = true
      · rw [List.filter_cons_of_pos hk, List.filter_nil]
        refine pairwise_before_snoc (h.held cid' c₀ hc₀ k) fun r hr => ?_
        exact h.held_lt cid' c₀ hc₀ r (List.mem_of_mem_filter hr)
      · rw [List.filter_cons_of_neg hk, List.filter_nil, List.append_nil]
        exact h.held cid' c₀ hc₀ k
  · intro cid' c' hc' hun r hr
    obtain ⟨c₀, hc₀, hcase⟩ := hroutes.receipts_back hinv hstep hc'
    have hun₀ : c₀.authenticated = false :=
      (hinv.authenticated_step hstep (by simp) hc₀ hc').symm.trans hun
    rw [hinv.transportClientId_step hstep hc₀ hc']
    rcases hcase with heq | ⟨htarget, heq⟩
    · rw [heq] at hr
      exact h.provisional cid' c₀ hc₀ hun₀ r hr
    · rw [heq, List.mem_append, List.mem_singleton] at hr
      rcases hr with hr | rfl
      · exact h.provisional cid' c₀ hc₀ hun₀ r hr
      · -- an unauthenticated connection is indexed under the name it arrived with
        have hindexed := (hinv.wf.indexed cid' recipient).1 (mem_connectionsFor.1 htarget).1
        obtain ⟨-, d, hd, hname⟩ := hindexed
        rw [hc₀] at hd
        cases hd
        rw [(hinv.wf.context cid' c₀ hc₀).routingIdentity_of_unauthenticated hun₀] at hname
        exact hname.symm
  · intro k
    rcases hroutes.queued with hsame | ⟨-, hqueued⟩
    · exact h.waiting_of_eq hle (hsame k)
    · by_cases hk : k = recipient
      swap
      · exact h.waiting_of_eq hle (by rw [hqueued, if_neg hk])
      subst hk
      obtain ⟨l, hl, hpairwise, hmem⟩ := h.waiting k
      refine ⟨l ++ [receiptOf c envelope k s.nextRef], ?_, ?_, ?_⟩
      · rw [hqueued, if_pos rfl, hl, List.map_append]
        rfl
      · exact pairwise_before_snoc hpairwise fun r hr => (hmem r hr).2
      · intro r hr
        rcases List.mem_append.1 hr with hr | hr
        · exact ⟨(hmem r hr).1, (hmem r hr).2.trans_le hle⟩
        · rw [List.mem_singleton] at hr
          subst hr
          refine ⟨rfl, ?_⟩
          simp only [receiptOf, hnext]
          omega

/-- A binding keeps the order: what it moves are receipts for the bound name, and the connection has
accepted none for that name before. -/
theorem step_binds (h : InOrder s) {cid : ConnId} {identity : AuthenticatedIdentity}
    {c : ConnectionContext} (hle : s.nextRef ≤ s'.nextRef) (hbinds : Binds s cid identity c s')
    (hname : identity.username ≠ c.transportClientId) : InOrder s' := by
  obtain ⟨l, hl, hpairwise, hmem⟩ := h.waiting identity.username
  obtain ⟨d, n, hd, hbound, hreceipts⟩ := hbinds.receipts hl
  have hprovisional := h.provisional cid c hbinds.present hbinds.unauthenticated
  refine ⟨?_, ?_, ?_, ?_⟩
  · intro cid' c' hc' r hr
    by_cases hne : cid' = cid
    · subst hne
      rw [hd] at hc'
      cases hc'
      rw [hreceipts] at hr
      rcases List.mem_append.1 hr with hr | hr
      · exact (h.held_lt cid' c hbinds.present r hr).trans_le hle
      · exact (hmem r (List.mem_of_mem_take hr)).2.trans_le hle
    · rw [hbinds.others hne] at hc'
      exact (h.held_lt cid' c' hc' r hr).trans_le hle
  · intro cid' c' hc' k
    by_cases hne : cid' = cid
    · subst hne
      rw [hd] at hc'
      cases hc'
      rw [hreceipts, List.filter_append]
      by_cases hk : k = identity.username
      -- what it already holds was for its provisional name
      · have hnone : c.receipts.filter (MessageReceipt.isFor k) = [] := by
          refine List.filter_eq_nil_iff.2 fun r hr hfor => hname ?_
          rw [← hk, ← of_decide_eq_true hfor]
          exact hprovisional r hr
        rw [hnone, List.nil_append]
        exact hpairwise.sublist (List.filter_sublist.trans (List.take_sublist n l))
      · have hnone : (l.take n).filter (MessageReceipt.isFor k) = [] := by
          refine List.filter_eq_nil_iff.2 fun r hr hfor => hk ?_
          rw [← (hmem r (List.mem_of_mem_take hr)).1]
          exact (of_decide_eq_true hfor).symm
        rw [hnone, List.append_nil]
        exact h.held cid' c hbinds.present k
    · rw [hbinds.others hne] at hc'
      exact h.held cid' c' hc' k
  · intro cid' c' hc' hun r hr
    by_cases hne : cid' = cid
    · subst hne
      rw [hd] at hc'
      cases hc'
      have hauth : d.authenticated = true := congrArg Prod.fst hbound
      rw [hun] at hauth
      cases hauth
    · rw [hbinds.others hne] at hc'
      exact h.provisional cid' c' hc' hun r hr
  · intro k
    by_cases hk : k = identity.username
    · exact ⟨[], by rw [hbinds.queued, if_pos hk]; rfl, List.Pairwise.nil, by simp⟩
    · exact h.waiting_of_eq hle (by rw [hbinds.queued, if_neg hk])

/-- No connection is bound to the name under which it arrived. -/
def NamesApart (s : ServerState) (a : ServerAction) : Prop :=
  ∀ cid identity c, a = .act cid (.resolved (.ok identity)) → s.manager.contexts cid = some c →
    identity.username ≠ c.transportClientId

/-- **A step keeps the order.** -/
theorem step (h : InOrder s) (hinv : s.Inv limits) {a : ServerAction}
    (hstep : s.step lib a = some s') (hname : NamesApart s a) : InOrder s' := by
  rcases hinv.step_cases hstep with ⟨hstill, hnot⟩ | ⟨cid, rawText, now, clock, c, envelope,
    recipient, rfl, hroutes⟩ | ⟨cid, identity, c, rfl, hbinds⟩
  · exact h.step_still hinv hstep (still_of_reaches hstill) hnot
  · exact h.step_routes hinv hstep hroutes
  · exact h.step_binds (ServerState.nextRef_step hstep).1 hbinds
      (hname cid identity c rfl hbinds.present)

end InOrder

/-! ### One place -/

/-- No two connections have accepted the receipt, and none has while it waits. -/
def InOnePlace (m : ConnectionManager) (r : MessageReceipt) : Prop :=
  (∀ k, .messageReceipt r ∈ m.offlineQueue.queued k →
      ∀ cid c, m.contexts cid = some c → r ∉ c.receipts) ∧
    ∀ cid₁ c₁ cid₂ c₂, m.contexts cid₁ = some c₁ → m.contexts cid₂ = some c₂ →
      r ∈ c₁.receipts → r ∈ c₂.receipts → cid₁ = cid₂

/-- A receipt that no connection has accepted is in one place. -/
theorem inOnePlace_of_not_held {m : ConnectionManager} {r : MessageReceipt}
    (h : ∀ cid c, m.contexts cid = some c → r ∉ c.receipts) : InOnePlace m r :=
  ⟨fun _ _ => h, fun cid₁ c₁ _ _ hc₁ _ hr₁ _ => absurd hr₁ (h cid₁ c₁ hc₁)⟩

namespace InOnePlace

variable {lib : Libraries} {limits : TransportLimits} {s s' : ServerState} {r : MessageReceipt}

/-- Nothing that has not come to be somewhere else leaves its one place. -/
theorem of_back (h : InOnePlace s.manager r)
    (hheld : ∀ cid c', s'.manager.contexts cid = some c' → r ∈ c'.receipts →
      ∃ c, s.manager.contexts cid = some c ∧ r ∈ c.receipts)
    (hwaits : ∀ k, .messageReceipt r ∈ s'.manager.offlineQueue.queued k →
      ∃ k', .messageReceipt r ∈ s.manager.offlineQueue.queued k') : InOnePlace s'.manager r := by
  refine ⟨fun k hk cid c' hc' hr => ?_, fun cid₁ c₁ cid₂ c₂ hc₁ hc₂ hr₁ hr₂ => ?_⟩
  · obtain ⟨k', hk'⟩ := hwaits k hk
    obtain ⟨c, hc, hr₀⟩ := hheld cid c' hc' hr
    exact h.1 k' hk' cid c hc hr₀
  · obtain ⟨d₁, hd₁, hr₁⟩ := hheld cid₁ c₁ hc₁ hr₁
    obtain ⟨d₂, hd₂, hr₂⟩ := hheld cid₂ c₂ hc₂ hr₂
    exact h.2 cid₁ d₁ cid₂ d₂ hd₁ hd₂ hr₁ hr₂

/-- A binding takes a receipt from its queue to one connection. -/
theorem step_binds (h : InOnePlace s.manager r) (horder : InOrder s) {cid : ConnId}
    {identity : AuthenticatedIdentity} {c : ConnectionContext}
    (hbinds : Binds s cid identity c s') : InOnePlace s'.manager r := by
  obtain ⟨l, hl, -, hmem⟩ := horder.waiting identity.username
  obtain ⟨d, n, hd, -, hreceipts⟩ := hbinds.receipts hl
  have hwaits : ∀ k, .messageReceipt r ∈ s'.manager.offlineQueue.queued k →
      k ≠ identity.username ∧ .messageReceipt r ∈ s.manager.offlineQueue.queued k := by
    intro k hk
    rw [hbinds.queued] at hk
    split_ifs at hk with hname
    · cases hk
    · exact ⟨hname, hk⟩
  by_cases hr : r ∈ l
  swap
  · refine h.of_back (fun cid' c' hc' hr' => ?_) fun k hk => ⟨k, (hwaits k hk).2⟩
    by_cases hne : cid' = cid
    · subst hne
      rw [hd] at hc'
      cases hc'
      rw [hreceipts] at hr'
      refine ⟨c, hbinds.present, (List.mem_append.1 hr').resolve_right fun htake => ?_⟩
      exact hr (List.mem_of_mem_take htake)
    · rw [hbinds.others hne] at hc'
      exact ⟨c', hc', hr'⟩
  · -- it has waited for the bound name, so no connection has accepted it
    have hqueued : .messageReceipt r ∈ s.manager.offlineQueue.queued identity.username := by
      rw [hl]
      exact List.mem_map_of_mem hr
    have hnone := h.1 _ hqueued
    have honly : ∀ cid' c', s'.manager.contexts cid' = some c' → r ∈ c'.receipts → cid' = cid := by
      intro cid' c' hc' hr'
      by_contra hne
      rw [hbinds.others hne] at hc'
      exact hnone cid' c' hc' hr'
    refine ⟨fun k hk => ?_, fun cid₁ c₁ cid₂ c₂ hc₁ hc₂ hr₁ hr₂ => ?_⟩
    · obtain ⟨hk', hwait⟩ := hwaits k hk
      obtain ⟨l', hl', -, hmem'⟩ := horder.waiting k
      rw [hl'] at hwait
      obtain ⟨x, hx, heq⟩ := List.mem_map.1 hwait
      cases heq
      exact absurd ((hmem' r hx).1.symm.trans (hmem r hr).1) hk'
    · exact (honly cid₁ c₁ hc₁ hr₁).trans (honly cid₂ c₂ hc₂ hr₂).symm

/-- **A step keeps a receipt that has been routed in one place.** -/
theorem step (h : InOnePlace s.manager r) (horder : InOrder s) (hinv : s.Inv limits)
    (hr : r.ref < s.nextRef) {a : ServerAction} (hstep : s.step lib a = some s') :
    InOnePlace s'.manager r := by
  rcases hinv.step_cases hstep with ⟨hstill, -⟩ | ⟨cid, rawText, now, clock, c, envelope,
    recipient, rfl, hroutes⟩ | ⟨cid, identity, c, rfl, hbinds⟩
  · have hstill := still_of_reaches hstill
    refine h.of_back (fun cid c' hc' hr' => ?_) fun k hk => ⟨k, by rwa [hstill.offlineQueue] at hk⟩
    rcases hstill.receipts_back hc' with ⟨c, hc, heq⟩ | ⟨-, heq⟩
    · exact ⟨c, hc, heq ▸ hr'⟩
    · rw [heq] at hr'
      cases hr'
  · -- the receipt that is routed is another one
    have hne : r ≠ receiptOf c envelope recipient s.nextRef := by
      rintro rfl
      exact absurd hr (Nat.lt_irrefl _)
    refine h.of_back (fun cid' c' hc' hr' => ?_) fun k hk => ⟨k, hroutes.queued_back hne hk⟩
    obtain ⟨c₀, hc₀, heq | ⟨-, heq⟩⟩ := hroutes.receipts_back hinv hstep hc'
    · exact ⟨c₀, hc₀, heq ▸ hr'⟩
    · rw [heq, List.mem_append, List.mem_singleton] at hr'
      exact ⟨c₀, hc₀, hr'.resolve_right hne⟩
  · exact h.step_binds horder hbinds

/-- **A message that is acknowledged as queued** is on no connection. -/
theorem of_ackedQueued (horder : InOrder s) (hinv : s.Inv limits) {cid : ConnId} {rawText : PyStr}
    {now : ℚ} {clock : Datetime} {c : ConnectionContext}
    (hstep : s.step lib (.act cid (.frame rawText now clock)) = some s')
    (hacked : AckedQueued lib s cid rawText now c r) : InOnePlace s'.manager r := by
  obtain ⟨hc, -, envelope, recipient, hvalid, hsend, hrec, rfl, handled, hhandled, hack⟩ := hacked
  -- the receipt is new in this step
  have hnew : ∀ cid' c', s.manager.contexts cid' = some c' →
      receiptOf c envelope recipient s.nextRef ∉ c'.receipts :=
    fun cid' c' hc' hr => absurd (horder.held_lt cid' c' hc' _ hr) (Nat.lt_irrefl _)
  refine inOnePlace_of_not_held fun cid' c' hc' hr => ?_
  rcases hinv.step_cases hstep with ⟨hstill, -⟩ | ⟨cid₀, rawText₀, now₀, clock₀, c₀, envelope₀,
    recipient₀, ha, hroutes⟩ | ⟨cid₀, identity, c₀, ha, -⟩
  · rcases (still_of_reaches hstill).receipts_back hc' with ⟨c₀, hc₀, heq⟩ | ⟨-, heq⟩
    · exact hnew cid' c₀ hc₀ (heq ▸ hr)
    · rw [heq] at hr
      cases hr
  · cases ha
    have hsame := hroutes.present
    rw [hc] at hsame
    cases hsame
    have hsame := hroutes.valid
    rw [hvalid] at hsame
    cases hsame
    have hrec₀ := hroutes.recipient_eq
    rw [hrec] at hrec₀
    cases hrec₀
    -- it was queued because nobody had the name
    have hnone : s.manager.connectionsFor recipient = [] := by
      obtain ⟨-, hstatus⟩ := routed_of_deliveryAck c s.nextRef hhandled hrec hack (by decide)
      exact ((routeReceipt_queued_iff c envelope recipient s.nextRef
        (hinv.wf.counted cid now)).1 hstatus).1
    obtain ⟨d, hd, heq | ⟨htarget, -⟩⟩ := hroutes.receipts_back hinv hstep hc'
    · exact hnew cid' d hd (heq ▸ hr)
    · rw [hnone] at htarget
      cases htarget
  · cases ha

end InOnePlace

/-! ### Every run -/

section Runs

variable {lib : Libraries} {env : AuthEnv} {limits : TransportLimits}

/-- Every connection has arrived under a generated name. -/
theorem provisional_of_run {s : ServerState} {tr : List (ServerState × ServerAction)}
    (h : (serverSystem lib limits).Run (.new limits) tr s) :
    s.Inv limits ∧ ∀ cid c, s.manager.contexts cid = some c →
      ∃ hex, isUuidHex hex = true ∧ c.transportClientId = provisionalId hex := by
  refine h.invariant (P := fun t => t.Inv limits ∧ ∀ cid c, t.manager.contexts cid = some c →
    ∃ hex, isUuidHex hex = true ∧ c.transportClientId = provisionalId hex) ?_
    ⟨ServerState.inv_new limits, by simp [ServerState.new, ConnectionManager.new]⟩
  rintro u a w ⟨hinv, hnames⟩ hstep
  change u.step lib a = some w at hstep
  refine ⟨hinv.step hstep, fun cid c' hc' => ?_⟩
  cases hc : u.manager.contexts cid with
  | some c =>
      rw [hinv.transportClientId_step hstep hc hc']
      exact hnames cid c hc
  | none =>
      obtain ⟨⟨hex, origin, now, rfl⟩, -⟩ := hinv.identity_of_new hstep hc' hc
      obtain ⟨-, ⟨hm, -⟩ | ⟨happ, -⟩⟩ := ServerState.step_connect hstep
      · rw [hm, hc] at hc'
        cases hc'
      · rcases (ManagerOp.effect happ).context_back hc' with ⟨c, hc₀⟩ | ⟨k, now', hop, rfl⟩
        · rw [hc] at hc₀
          cases hc₀
        · cases hop
          simp only [ServerState.step] at hstep
          split_ifs at hstep with hfresh
          exact ⟨hex, hfresh.2.1, rfl⟩

/-- **No connection is bound to the name under which it arrived**: no account has that name. -/
theorem namesApart_of_run (huni : env.unicode.Lawful) {t : Application}
    {tr : List (Application × ApplicationAction)}
    (h : (applicationSystem lib env limits).Run (.new env limits) tr t) :
    ∀ e ∈ (serverPart lib env limits).trace tr, InOrder.NamesApart e.1 e.2 := by
  intro e he cid identity c ha hc hname
  obtain ⟨s, a, hmem, hs, hlabel⟩ := (serverPart lib env limits).mem_trace.1 he
  obtain ⟨tr₁, tr₂, s', -, hrun, hstep, -⟩ := h.of_mem hmem
  change s.server = e.1 at hs
  change s.serverAction a = some e.2 at hlabel
  rw [ha] at hlabel
  obtain ⟨i, th, hth, hrest⟩ := Application.exists_resolved_of_binding hstep hlabel
  have haccount := account_of_resolved (authRun_of_run hrun) hth hrest
  have hregistered := registeredName_of_account (authRun_of_run hrun) _ (.inl haccount)
  rw [← hs] at hc
  obtain ⟨hex, hhex, hprovisional⟩ := (provisional_of_run (serverRun_of_run hrun)).2 cid c hc
  exact hregistered.ne_provisionalId huni hhex (hname.trans hprovisional)

/-- What is on the queues at the end of a run is in order, and the run has routed it. -/
theorem inOrder_of_run {s : ServerState} {tr : List (ServerState × ServerAction)}
    (h : (serverSystem lib limits).Run (.new limits) tr s)
    (hnames : ∀ e ∈ tr, InOrder.NamesApart e.1 e.2) :
    s.Inv limits ∧ InOrder s ∧ ∀ cid c, s.manager.contexts cid = some c → ∀ r ∈ c.receipts,
      r ∈ routedReceipts lib tr := by
  have hboth : s.Inv limits ∧ InOrder s := by
    refine h.invariant_of (C := InOrder.NamesApart) (P := fun t => t.Inv limits ∧ InOrder t)
      ?_ hnames ⟨ServerState.inv_new limits, inOrder_new limits⟩
    rintro u a w ⟨hinv, horder⟩ hname hstep
    exact ⟨hinv.step hstep, horder.step hinv hstep hname⟩
  refine ⟨hboth.1, hboth.2, fun cid c hc r hr => ?_⟩
  have hheld : s.manager.Held (.messageReceipt r) :=
    .inl ⟨cid, c, hc, ConnectionContext.mem_receipts.1 hr⟩
  exact mem_routedReceipts_of_held h hheld

/-- **Order without duplication.**  In every run of the application, for every connection and every
name, the receipts for that name which the connection has accepted are some of those the run has
routed, in the order in which it routed them, and no two of these are the same; and no message that
was acknowledged as queued has been accepted by two connections. -/
theorem receipts_in_order (huni : env.unicode.Lawful) {t : Application}
    {tr : List (Application × ApplicationAction)}
    (h : (applicationSystem lib env limits).Run (.new env limits) tr t) :
    (∀ cid c recipient, t.server.manager.contexts cid = some c →
      (c.receipts.filter (MessageReceipt.isFor recipient)).Sublist
        (routedReceipts lib ((serverPart lib env limits).trace tr))) ∧
    (routedReceipts lib ((serverPart lib env limits).trace tr)).Nodup ∧
    ∀ u cid rawText now clock c r,
      (u, .act cid (.frame rawText now clock)) ∈ (serverPart lib env limits).trace tr →
      AckedQueued lib u cid rawText now c r →
      ∀ cid₁ c₁ cid₂ c₂, t.server.manager.contexts cid₁ = some c₁ →
        t.server.manager.contexts cid₂ = some c₂ → r ∈ c₁.receipts → r ∈ c₂.receipts →
          cid₁ = cid₂ := by
  have hrun := serverRun_of_run h
  have hnames := namesApart_of_run huni h
  obtain ⟨hpairwise, -⟩ := routedReceipts_pairwise hrun
  refine ⟨?_, hpairwise.imp MessageReceipt.Before.ne, ?_⟩
  · intro cid c recipient hc
    obtain ⟨-, horder, hrouted⟩ := inOrder_of_run hrun hnames
    refine sublist_of_before (horder.held cid c hc recipient) hpairwise fun r hr => ?_
    exact hrouted cid c hc r (List.mem_of_mem_filter hr)
  · intro u cid rawText now clock c r hmem hacked
    obtain ⟨tr₁, tr₂, u', htr, hbefore, hstep, hafter⟩ := hrun.of_mem hmem
    change u.step lib (.act cid (.frame rawText now clock)) = some u' at hstep
    have hnames₁ : ∀ e ∈ tr₁, InOrder.NamesApart e.1 e.2 := fun e he => hnames e (by simp [htr, he])
    have hnames₂ : ∀ e ∈ tr₂, InOrder.NamesApart e.1 e.2 := fun e he => hnames e (by simp [htr, he])
    obtain ⟨hinv, horder, -⟩ := inOrder_of_run hbefore hnames₁
    have hname := hnames _ hmem
    have hnext := (ServerState.nextRef_step hstep).2 cid _ rfl
    have href : r.ref = u.nextRef := by
      obtain ⟨-, -, envelope, recipient, -, -, -, rfl, -⟩ := hacked
      rfl
    -- from its acknowledgement on the receipt is in one place only
    have hplace : (t.server.Inv limits ∧ InOrder t.server) ∧ r.ref < t.server.nextRef ∧
        InOnePlace t.server.manager r := by
      refine hafter.invariant_of (C := InOrder.NamesApart)
        (P := fun v => (v.Inv limits ∧ InOrder v) ∧ r.ref < v.nextRef ∧ InOnePlace v.manager r)
        ?_ hnames₂ ⟨⟨hinv.step hstep, horder.step hinv hstep hname⟩, by omega,
          InOnePlace.of_ackedQueued horder hinv hstep hacked⟩
      rintro v a w ⟨⟨hv, hvorder⟩, hlt, hone⟩ hvname hvstep
      have hvstep' : v.step lib a = some w := hvstep
      have hle := (ServerState.nextRef_step hvstep').1
      exact ⟨⟨hv.step hvstep, hvorder.step hv hvstep hvname⟩, hlt.trans_le hle,
        hone.step hvorder hv hlt hvstep⟩
    exact hplace.2.2.2

end Runs

/-! ### Two messages to one recipient -/

/-- `alice` writes to `bob` before and after he authenticates. -/
def writesTwice : List ApplicationAction :=
  twoAccounts ++ arrives aliceId ++ presents aliceId 4 (sessionToken 0 1) ++ aliceWrites ++
    arrives bobId ++ presents bobId 5 (sessionToken 2 3) ++ aliceWrites

/-- The message that waited for `bob` comes before the one that found him there. -/
theorem receipts_in_order_bob :
    ∃ t c r₁ r₂ tr, (applicationSystem accountLibraries (sampleEnv .instants) {}).Run
        (.new (sampleEnv .instants) {}) tr t ∧ t.server.manager.contexts bobId = some c ∧
      c.receipts.filter (MessageReceipt.isFor (py "bob")) = [r₁, r₂] ∧
      [r₁, r₂].Sublist (routedReceipts accountLibraries
        ((serverPart accountLibraries (sampleEnv .instants) {}).trace tr)) := by
  have hexec : ((applicationSystem accountLibraries (sampleEnv .instants) {}).exec
      (.new (sampleEnv .instants) {}) writesTwice).map (fun t =>
        (t.server.manager.contexts bobId).any fun c =>
          (c.receipts.filter (MessageReceipt.isFor (py "bob"))).length == 2) = some true := by
    decide +kernel
  obtain ⟨t, -, hrun, hp⟩ := System.exists_run_of_exec hexec
  simp only [Option.any_eq_true, beq_iff_eq] at hp
  obtain ⟨c, hc, hlength⟩ := hp
  obtain ⟨r₁, r₂, hr⟩ := List.length_eq_two.1 hlength
  have hsub := (receipts_in_order (lawful_sampleEnv .instants) hrun).1 bobId c (py "bob") hc
  exact ⟨t, c, r₁, r₂, _, hrun, hc, hr, hr ▸ hsub⟩

end EncryptChat
