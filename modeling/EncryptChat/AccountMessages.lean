/-
**Messages and accounts that held the same name.**

The registry and the offline queue go by name; an account goes by its id, and its name is free again
when it is deleted.  Neither the registry nor the queue is told of a deletion.  So a connection of
the deleted account goes on under the name, what was queued for it waits under the name, and a token
that was resolved just before is bound just after.

Main definitions:

* `EncryptChat.KeepsToAccounts` — **messages do not cross accounts that held the same name**;
* `EncryptChat.Undisturbed` — a step that deletes, creates or binds finds nothing left under the
  name;
* `EncryptChat.NamesCurrent` — a live connection is bound to the account that has its name now;
* `EncryptChat.StaysWith` — where a message for an account may be.

Main results:

* `EncryptChat.NamesCurrent.step`, `EncryptChat.StaysWith.step` — such steps keep both;
* `EncryptChat.messages_keep_to_accounts` — **messages do not cross accounts**, in runs of such
  steps;
* `EncryptChat.message_crosses_accounts` — an old connection under a new account's name.
-/

import EncryptChat.LiveQueues
import EncryptChat.ReceiptOrder

set_option relaxedAutoImplicit false
set_option autoImplicit false

namespace EncryptChat

open Python Concurrent Transition ConnectionManager

/-! ### What a step may find under a name -/

/-- The request stands at its commit. -/
def AuthPool.commits (p : AuthPool) (i : ℕ) : Bool :=
  match p.threads i with
  | some ⟨_, .step .commit _, _⟩ => true
  | _ => false

namespace Application

/-- The accounts there are now. -/
def users (s : Application) : List User := s.auth.shared.committed.users

/-- An account with this id. -/
def hasAccount (l : List User) (id : PyStr) : Prop := ∃ u ∈ l, u.id = id

instance decidableHasAccount (l : List User) (id : PyStr) : Decidable (hasAccount l id) :=
  inferInstanceAs (Decidable (∃ u ∈ l, u.id = id))

/-- An account the commit deletes has nothing queued under its name. -/
def DeletesQuietly (s : Application) (i : ℕ) : Prop :=
  ∀ u ∈ s.users, ¬ hasAccount (s.auth.shared.visible i).users u.id →
    s.server.manager.offlineQueue.count u.username = 0

/-- An account the commit creates finds no live connection under its name. -/
def CreatesQuietly (s : Application) (i : ℕ) : Prop :=
  ∀ u ∈ (s.auth.shared.visible i).users, ¬ hasAccount s.users u.id →
    ∀ cid ∈ s.server.manager.connections, ∀ c ∈ s.server.manager.contexts cid,
      c.accountUsername ≠ some u.username

/-- Whoever has the name now is the account that is bound. -/
def BindsCurrent (s : Application) (identity : AuthenticatedIdentity) : Prop :=
  ∀ u ∈ s.users, u.username = identity.username → u.id = identity.userId

instance decidableDeletesQuietly (s : Application) (i : ℕ) : Decidable (s.DeletesQuietly i) :=
  inferInstanceAs (Decidable (∀ u ∈ s.users, _ → _))

instance decidableCreatesQuietly (s : Application) (i : ℕ) : Decidable (s.CreatesQuietly i) :=
  inferInstanceAs (Decidable (∀ u ∈ (s.auth.shared.visible i).users, _ → ∀ cid ∈ _, ∀ c ∈ _, _))

instance decidableBindsCurrent (s : Application) (identity : AuthenticatedIdentity) :
    Decidable (s.BindsCurrent identity) :=
  inferInstanceAs (Decidable (∀ u ∈ s.users, _ → _))

end Application

/-- The identity a connection that waits for its resolution is about to be bound to. -/
def Application.awaitedIdentity (s : Application) (cid : ConnId) : Option AuthenticatedIdentity :=
  match (s.resolving cid).bind s.auth.resolution with
  | some (.resolved (.ok identity)) => some identity
  | _ => none

/-- The step finds nothing left under a name by another account: a commit that deletes an account
finds nothing queued for it, a commit that creates one finds no live connection bound to its name,
and a binding finds no other account with the name. -/
def Undisturbed (s : Application) : ApplicationAction → Prop
  | .auth (.step i _) => s.auth.commits i = true → s.DeletesQuietly i ∧ s.CreatesQuietly i
  | .resolved cid => ∀ identity ∈ s.awaitedIdentity cid, s.BindsCurrent identity
  | _ => True

instance decidableUndisturbed (s : Application) : ∀ a, Decidable (Undisturbed s a)
  | .auth (.step i _) =>
      inferInstanceAs (Decidable (s.auth.commits i = true → s.DeletesQuietly i ∧ s.CreatesQuietly i))
  | .resolved cid =>
      inferInstanceAs (Decidable (∀ identity ∈ s.awaitedIdentity cid, s.BindsCurrent identity))
  | .auth (.start _ _) | .server _ | .resolve _ _ => inferInstanceAs (Decidable True)

/-- **Messages do not cross accounts that held the same name**, of those the run has routed: where
an account had the name of the recipient, the receipt is on connections of that account only, and
where one had the name of the sender, the connection that sent it was bound to it. -/
def KeepsToAccounts (lib : Libraries) (tr : List (Application × ApplicationAction))
    (t : Application) : Prop :=
  ∀ s cid a r, (s, .server (.act cid a)) ∈ tr → routedReceipt? lib s.server (.act cid a) = some r →
    (∀ u ∈ s.users, u.username = r.recipient → ∀ cid' c', t.server.manager.contexts cid' = some c' →
      r ∈ c'.receipts → c'.userId = some u.id) ∧
    ∀ u ∈ s.users, u.username = r.sender →
      ∃ c, s.server.manager.contexts cid = some c ∧ c.userId = some u.id

/-! ### Commits -/

section Commits

variable {env : AuthEnv} {p p' : AuthPool} {label : AuthLabel}

/-- **The committed accounts change by commits only.** -/
theorem AuthPool.committed_step (h : p.step (authExec env) (authCode env) label = some p') :
    p'.shared.committed = p.shared.committed ∨ ∃ i c, label = .step i c ∧ p.commits i = true ∧
      p'.shared.committed = p.shared.visible i := by
  cases label with
  | start i request =>
      obtain ⟨-, hshared, -⟩ := Pool.step_start (authExec env) (authCode env) h
      exact .inl (by rw [hshared])
  | step i c =>
      obtain ⟨request, op, next, seen, s, answer, hth, hexec, hshared, -⟩ :=
        Pool.step_step (authExec env) (authCode env) h
      rw [hshared]
      cases authEffect hexec with
      | kept _ hsame => exact .inl hsame.committed
      | issued | wrote => exact .inl rfl
      | committed =>
          refine .inr ⟨i, c, rfl, ?_, AuthState.committed_commit _ i⟩
          simp [AuthPool.commits, hth]
      | rolledBack =>
          left
          unfold AuthState.rollback
          split
          · split_ifs <;> rfl
          · rfl

/-- An account keeps its name. -/
theorem AuthState.username_eq_of_id {s : AuthState} (h : s.WF env) {i : ℕ} {u v : User}
    (hu : u ∈ s.committed.users) (hv : v ∈ (s.visible i).users) (hid : u.id = v.id) :
    u.username = v.username := by
  obtain ⟨hwf, hlater⟩ := h.visible i
  have hold := hlater.accounts (h.committed.account u hu)
  exact congrArg Prod.snd (List.inj_on_of_nodup_map hwf.accounts_nodup hold (hwf.account v hv) hid)

end Commits

/-- Only requests take steps of requests. -/
theorem Application.eq_auth_of_authLabel {s : Application} {a : ApplicationAction} {i : ℕ}
    {c : AuthChoice} (h : s.authLabel a = some (.step i c)) : a = .auth (.step i c) := by
  cases a with
  | auth label =>
      cases h
      rfl
  | resolve cid j =>
      obtain ⟨token, -, hstart⟩ := Option.map_eq_some_iff.1 h
      cases hstart
  | server | resolved => cases h

/-- A step of a connection is one of the server, and leaves the accounts alone. -/
theorem Application.server_of_act {lib : Libraries} {env : AuthEnv} {s s' : Application}
    {cid : ConnId} {a : HandlerAction} (h : s.step lib env (.server (.act cid a)) = some s') :
    s.server.step lib (.act cid a) = some s'.server ∧ s'.auth = s.auth := by
  rcases Application.step_cases h with ⟨-, -, hnone, -⟩ | ⟨_, -, haction, hserver, hauth⟩
  · cases hnone
  · cases haction
    exact ⟨hserver, hauth⟩

/-! ### The account that has the name -/

section Names

variable {lib : Libraries} {env : AuthEnv} {limits : TransportLimits} {s s' : Application}
  {a : ApplicationAction} {tr : List (Application × ApplicationAction)}

/-- **A live connection is bound to the account that has its name now**, if there is one. -/
def NamesCurrent (s : Application) : Prop :=
  ∀ cid c, cid ∈ s.server.manager.connections → s.server.manager.contexts cid = some c →
    c.authenticated = true → ∀ u ∈ s.users, c.accountUsername = some u.username →
      c.userId = some u.id

theorem namesCurrent_new (env : AuthEnv) (limits : TransportLimits) :
    NamesCurrent (.new env limits) := by
  intro cid c hcid
  simp [Application.new, ServerState.new, ConnectionManager.new] at hcid

/-- What an undisturbed binding binds. -/
theorem Undisturbed.bindsCurrent (hund : Undisturbed s a) {cid : ConnId}
    {identity : AuthenticatedIdentity} (hstep : s.step lib env a = some s')
    (ha : s.serverAction a = some (.act cid (.resolved (.ok identity)))) :
    s.BindsCurrent identity := by
  cases a with
  | auth | resolve => cases ha
  | server action =>
      cases ha
      simp [Application.step, ServerAction.isResolved] at hstep
  | resolved cid' =>
      obtain ⟨action, hresolution, haction⟩ := Option.map_eq_some_iff.1 ha
      cases haction
      exact hund identity (by simp [Application.awaitedIdentity, hresolution])

/-- **An undisturbed step keeps the names current.** -/
theorem NamesCurrent.step (h : NamesCurrent s)
    (hrun : (applicationSystem lib env limits).Run (.new env limits) tr s)
    (hstep : s.step lib env a = some s') (hund : Undisturbed s a) : NamesCurrent s' := by
  intro cid c' hcid hc' hauth' u hu hname
  rcases Application.step_cases hstep with ⟨label, hlabel, -, hauth, hserver⟩ |
    ⟨action, -, haction, hserver, hauth⟩
  · rw [hserver] at hcid hc'
    rcases AuthPool.committed_step hauth with hsame | ⟨i, c, rfl, hcommits, hvisible⟩
    · exact h cid c' hcid hc' hauth' u (by rwa [Application.users, hsame] at hu) hname
    · have ha := Application.eq_auth_of_authLabel hlabel
      subst ha
      rw [Application.users, hvisible] at hu
      by_cases hold : Application.hasAccount s.users u.id
      · obtain ⟨v, hv, hid⟩ := hold
        have hwf := wf_of_run (authRun_of_run hrun)
        rw [← AuthState.username_eq_of_id hwf hv hu hid] at hname
        exact hid ▸ h cid c' hcid hc' hauth' v hv hname
      · -- an account that is new finds no connection under its name
        exact absurd hname ((hund hcommits).2 u hu hold cid hcid c' hc')
  · rw [Application.users, hauth] at hu
    have hinv := inv_of_run (serverRun_of_run hrun)
    rcases hinv.live_back hserver hcid hc' hauth' with ⟨hlive, c, hc, hsame⟩ |
      ⟨identity, rfl, hbound⟩
    · have huser : c'.userId = c.userId := congrArg (fun i => i.2.1) hsame
      have hname' : c'.accountUsername = c.accountUsername := congrArg (fun i => i.2.2.1) hsame
      have hauth₀ : c'.authenticated = c.authenticated := congrArg Prod.fst hsame
      rw [huser]
      exact h cid c hlive hc (hauth₀ ▸ hauth') u hu (hname' ▸ hname)
    · have huser : c'.userId = some identity.userId := congrArg (fun i => i.2.1) hbound
      have hname' : c'.accountUsername = some identity.username :=
        congrArg (fun i => i.2.2.1) hbound
      rw [hname', Option.some.injEq] at hname
      rw [huser, hund.bindsCurrent hstep haction u hu hname.symm]

end Names

/-! ### Where a message may be -/

/-- A message for the account `u` is on its connections, or waits under its name while it exists. -/
structure StaysWith (r : MessageReceipt) (u : User) (s : Application) : Prop where
  placed : ∀ cid c, s.server.manager.contexts cid = some c → r ∈ c.receipts → c.userId = some u.id
  waits : ∀ k, .messageReceipt r ∈ s.server.manager.offlineQueue.queued k →
    k = u.username ∧ ∃ v ∈ s.users, v.id = u.id ∧ v.username = u.username

namespace StaysWith

variable {lib : Libraries} {env : AuthEnv} {limits : TransportLimits} {s s' : Application}
  {a : ApplicationAction} {tr : List (Application × ApplicationAction)} {r : MessageReceipt}
  {u : User}

/-- An undisturbed step of the accounts leaves a message with its account. -/
theorem step_auth (h : StaysWith r u s) (hwf : s.auth.shared.WF env) {label : AuthLabel}
    (hlabel : s.authLabel a = some label)
    (hauth : s.auth.step (authExec env) (authCode env) label = some s'.auth)
    (hserver : s'.server = s.server) (hund : Undisturbed s a) : StaysWith r u s' := by
  refine ⟨by rw [hserver]; exact h.placed, fun k hk => ?_⟩
  rw [hserver] at hk
  obtain ⟨rfl, v, hv, hid, hname⟩ := h.waits k hk
  refine ⟨rfl, ?_⟩
  rcases AuthPool.committed_step hauth with hsame | ⟨i, c, rfl, hcommits, hvisible⟩
  · exact ⟨v, by rwa [Application.users, hsame], hid, hname⟩
  · have ha := Application.eq_auth_of_authLabel hlabel
    subst ha
    by_cases hkept : Application.hasAccount (s.auth.shared.visible i).users v.id
    · obtain ⟨w, hw, hwid⟩ := hkept
      refine ⟨w, by rwa [Application.users, hvisible], hwid.trans hid, ?_⟩
      rw [← AuthState.username_eq_of_id hwf hv hw hwid.symm, hname]
    · -- an account that is deleted leaves nothing queued
      have hnone := (hund hcommits).1 v hv hkept
      rw [hname, OfflineQueue.count_eq, List.length_eq_zero_iff] at hnone
      rw [hnone] at hk
      cases hk

/-- A connection keeps the account it is bound to. -/
theorem userId_step {s s' : ServerState} (hinv : s.Inv limits) {a : ServerAction}
    (hstep : s.step lib a = some s') {cid : ConnId} {c c' : ConnectionContext}
    (hc : s.manager.contexts cid = some c) (hc' : s'.manager.contexts cid = some c')
    (huser : c.userId = some u.id) : c'.userId = some u.id := by
  obtain ⟨d, hd, hsame | ⟨hnone, -⟩⟩ := hinv.identity_step hstep hc
  · rw [hc'] at hd
    cases hd
    exact (congrArg (fun i => i.2.1) hsame).trans huser
  · have hnone' : c.userId = none := congrArg (fun i => i.2.1) hnone
    rw [huser] at hnone'
    cases hnone'

/-- An undisturbed step of the server leaves a message with its account. -/
theorem step_server (h : StaysWith r u s)
    (hrun : (applicationSystem lib env limits).Run (.new env limits) tr s)
    (horder : InOrder s.server) (hr : r.ref < s.server.nextRef) {action : ServerAction}
    (hstep : s.step lib env a = some s') (haction : s.serverAction a = some action)
    (hserver : s.server.step lib action = some s'.server) (hauth : s'.auth = s.auth)
    (hund : Undisturbed s a) : StaysWith r u s' := by
  have hinv := inv_of_run (serverRun_of_run hrun)
  have husers : s'.users = s.users := by rw [Application.users, hauth, Application.users]
  rcases hinv.step_cases hserver with ⟨hstill, -⟩ | ⟨cid, rawText, now, clock, c, envelope,
    recipient, rfl, hroutes⟩ | ⟨cid, identity, c, rfl, hbinds⟩
  · have hstill := still_of_reaches hstill
    refine ⟨fun cid c' hc' hmem => ?_, fun k hk => ?_⟩
    · rcases hstill.receipts_back hc' with ⟨c, hc, heq⟩ | ⟨-, heq⟩
      · exact userId_step hinv hserver hc hc' (h.placed cid c hc (heq ▸ hmem))
      · rw [heq] at hmem
        cases hmem
    · rw [hstill.offlineQueue] at hk
      rw [husers]
      exact h.waits k hk
  · -- the receipt that is routed is another one
    have hne : r ≠ receiptOf c envelope recipient s.server.nextRef := by
      rintro rfl
      exact absurd hr (Nat.lt_irrefl _)
    refine ⟨fun cid' c' hc' hmem => ?_, fun k hk => ?_⟩
    · obtain ⟨c₀, hc₀, heq | ⟨-, heq⟩⟩ := hroutes.receipts_back hinv hserver hc'
      · exact userId_step hinv hserver hc₀ hc' (h.placed cid' c₀ hc₀ (heq ▸ hmem))
      · rw [heq, List.mem_append, List.mem_singleton] at hmem
        exact userId_step hinv hserver hc₀ hc' (h.placed cid' c₀ hc₀ (hmem.resolve_right hne))
    · rw [husers]
      refine h.waits k (hroutes.queued_back hne hk)
  · obtain ⟨l, hl, -, hmem⟩ := horder.waiting identity.username
    obtain ⟨d, n, hd, hbound, hreceipts⟩ := hbinds.receipts hl
    refine ⟨fun cid' c' hc' hr' => ?_, fun k hk => ?_⟩
    · by_cases hne : cid' = cid
      · subst hne
        rw [hd] at hc'
        cases hc'
        rw [hreceipts] at hr'
        rcases List.mem_append.1 hr' with hold | htaken
        · exact userId_step hinv hserver hbinds.present hd (h.placed cid' c hbinds.present hold)
        · -- it has waited for the account that is bound
          have hqueued : .messageReceipt r ∈ s.server.manager.offlineQueue.queued
              identity.username := by
            rw [hl]
            exact List.mem_map_of_mem (List.mem_of_mem_take htaken)
          obtain ⟨hname, v, hv, hid, hvname⟩ := h.waits _ hqueued
          have hcurrent := hund.bindsCurrent hstep haction v hv (hvname.trans hname.symm)
          have huser : d.userId = some identity.userId := congrArg (fun i => i.2.1) hbound
          rw [huser, ← hcurrent, hid]
      · rw [hbinds.others hne] at hc'
        exact h.placed cid' c' hc' hr'
    · rw [hbinds.queued] at hk
      split_ifs at hk with hname
      · cases hk
      · rw [husers]
        exact h.waits k hk

/-- **A message that is routed goes to the account that has its name now.** -/
theorem of_routed (huni : env.unicode.Lawful)
    (hrun : (applicationSystem lib env limits).Run (.new env limits) tr s)
    (hnames : NamesCurrent s) (horder : InOrder s.server) {cid : ConnId} {a' : HandlerAction}
    (hserver : s.server.step lib (.act cid a') = some s'.server) (hauth : s'.auth = s.auth)
    (hrouted : routedReceipt? lib s.server (.act cid a') = some r) (hu : u ∈ s.users)
    (hname : u.username = r.recipient) : StaysWith r u s' := by
  have hinv := inv_of_run (serverRun_of_run hrun)
  have href := (ref_of_routedReceipt? hrouted).1
  -- the receipt is new in this step
  have hnew : ¬ s.server.manager.Held (.messageReceipt r) := by
    intro hheld
    have hlt := horder.ref_lt_of_held hheld
    omega
  have hheld : ∀ cid c, s.server.manager.contexts cid = some c → r ∉ c.receipts :=
    fun cid c hc hmem => hnew (.inl ⟨cid, c, hc, ConnectionContext.mem_receipts.1 hmem⟩)
  have hwaits : ∀ k, .messageReceipt r ∉ s.server.manager.offlineQueue.queued k :=
    fun k hk => hnew (.inr ⟨k, hk⟩)
  rcases hinv.step_cases hserver with ⟨hstill, -⟩ | ⟨cid₀, rawText, now, clock, c, envelope,
    recipient, ha, hroutes⟩ | ⟨cid₀, identity, c, ha, -⟩
  · have hstill := still_of_reaches hstill
    refine ⟨fun cid c' hc' hmem => ?_, fun k hk => ?_⟩
    · rcases hstill.receipts_back hc' with ⟨c, hc, heq⟩ | ⟨-, heq⟩
      · exact absurd (heq ▸ hmem) (hheld cid c hc)
      · rw [heq] at hmem
        cases hmem
    · rw [hstill.offlineQueue] at hk
      exact absurd hk (hwaits k)
  · cases ha
    rw [routedReceipt?_of_routesFrame hroutes clock, Option.some.injEq] at hrouted
    subst hrouted
    refine ⟨fun cid' c' hc' hmem => ?_, fun k hk => ?_⟩
    · obtain ⟨c₀, hc₀, heq | ⟨htarget, -⟩⟩ := hroutes.receipts_back hinv hserver hc'
      · exact absurd (heq ▸ hmem) (hheld cid' c₀ hc₀)
      obtain ⟨hclient, hlive⟩ := mem_connectionsFor.1 htarget
      obtain ⟨-, d, hd, hroute⟩ := (hinv.wf.indexed cid' recipient).1 hclient
      rw [hc₀] at hd
      cases hd
      have hroute : c₀.routingIdentity = u.username := hroute.trans hname.symm
      have hwf := hinv.wf.context cid' c₀ hc₀
      by_cases hauth₀ : c₀.authenticated = true
      · refine userId_step hinv hserver hc₀ hc' (hnames cid' c₀ hlive hc₀ hauth₀ u hu ?_)
        rw [hwf.accountUsername_eq hauth₀, hroute]
      · -- no account has the name of a connection that is not authenticated
        rw [hwf.routingIdentity_of_unauthenticated (by simpa using hauth₀)] at hroute
        obtain ⟨hex, hhex, hprovisional⟩ :=
          (provisional_of_run (serverRun_of_run hrun)).2 cid' c₀ hc₀
        have haccount := (wf_of_run (authRun_of_run hrun)).committed.account u hu
        have hregistered := registeredName_of_account (authRun_of_run hrun) _ (.inl haccount)
        exact absurd (hroute.symm.trans hprovisional) (hregistered.ne_provisionalId huni hhex)
    · rcases hroutes.queued with hsame | ⟨-, hqueued⟩
      · rw [hsame] at hk
        exact absurd hk (hwaits k)
      · rw [hqueued] at hk
        split_ifs at hk with hkeep
        · refine ⟨hkeep.trans hname.symm, u, ?_, rfl, rfl⟩
          rwa [Application.users, hauth]
        · exact absurd hk (hwaits k)
  · cases ha
    exact absurd hrouted (by simp [routedReceipt?])

end StaysWith

/-! ### Every run -/

section Runs

variable {lib : Libraries} {env : AuthEnv} {limits : TransportLimits} {t : Application}
  {tr : List (Application × ApplicationAction)}

/-- What holds between the steps of an undisturbed run. -/
theorem namesCurrent_of_run (h : (applicationSystem lib env limits).Run (.new env limits) tr t)
    (hund : ∀ e ∈ tr, Undisturbed e.1 e.2) : NamesCurrent t := by
  induction h with
  | nil => exact namesCurrent_new env limits
  | @snoc s s' tr a hrun hstep ih =>
      have hbefore := ih fun e he => hund e (List.mem_append_left _ he)
      exact hbefore.step hrun hstep (hund (s, a) (by simp))

/-- The queues are in order at the end of every run. -/
theorem inOrder_of_applicationRun (huni : env.unicode.Lawful)
    (h : (applicationSystem lib env limits).Run (.new env limits) tr t) : InOrder t.server :=
  (inOrder_of_run (serverRun_of_run h) (namesApart_of_run huni h)).2.1

/-- **An undisturbed step leaves a message with its account.** -/
theorem StaysWith.step {s s' : Application} {a : ApplicationAction} {r : MessageReceipt} {u : User}
    (huni : env.unicode.Lawful)
    (hrun : (applicationSystem lib env limits).Run (.new env limits) tr s)
    (h : StaysWith r u s ∧ r.ref < s.server.nextRef) (hstep : s.step lib env a = some s')
    (hund : Undisturbed s a) : StaysWith r u s' ∧ r.ref < s'.server.nextRef := by
  rcases Application.step_cases hstep with ⟨label, hlabel, -, hauth, hserver⟩ |
    ⟨action, -, haction, hserver, hauth⟩
  · refine ⟨h.1.step_auth (wf_of_run (authRun_of_run hrun)) hlabel hauth hserver hund, ?_⟩
    rw [hserver]
    exact h.2
  · have horder := inOrder_of_applicationRun huni hrun
    refine ⟨h.1.step_server hrun horder h.2 hstep haction hserver hauth hund, ?_⟩
    exact h.2.trans_le (ServerState.nextRef_step hserver).1

/-- **Messages do not cross accounts that held the same name**, in every run of the application in
which every commit that deletes an account finds nothing queued under its name, every commit that
creates one finds no live connection under its name, and every binding finds no other account with
the name that is bound. -/
theorem messages_keep_to_accounts (huni : env.unicode.Lawful)
    (h : (applicationSystem lib env limits).Run (.new env limits) tr t)
    (hund : ∀ e ∈ tr, Undisturbed e.1 e.2) : KeepsToAccounts lib tr t := by
  intro s cid a r hmem hrouted
  obtain ⟨tr₁, tr₂, s', rfl, hbefore, hstep, hafter⟩ := h.of_mem hmem
  have hund₁ : ∀ e ∈ tr₁, Undisturbed e.1 e.2 := fun e he => hund e (by simp [he])
  have hund₂ : ∀ e ∈ tr₂, Undisturbed e.1 e.2 := fun e he => hund e (by simp [he])
  have hnames := namesCurrent_of_run hbefore hund₁
  have happlied : s.step lib env (.server (.act cid a)) = some s' := hstep
  obtain ⟨hserver, hauth⟩ := Application.server_of_act happlied
  refine ⟨fun u hu hname => ?_, fun u hu hname => ?_⟩
  · have horder := inOrder_of_applicationRun huni hbefore
    obtain ⟨href, -⟩ := ref_of_routedReceipt? hrouted
    have hnext := (ServerState.nextRef_step hserver).2 cid a rfl
    have hfirst := StaysWith.of_routed huni hbefore hnames horder hserver hauth hrouted hu hname
    -- the runs up to each state carry what the step lemma needs
    have hstays : (∃ tr', (applicationSystem lib env limits).Run (.new env limits) tr' t) ∧
        StaysWith r u t ∧ r.ref < t.server.nextRef := by
      refine hafter.invariant_of (C := Undisturbed) (P := fun v =>
        (∃ tr', (applicationSystem lib env limits).Run (.new env limits) tr' v) ∧
          StaysWith r u v ∧ r.ref < v.server.nextRef) ?_ hund₂
        ⟨⟨_, hbefore.snoc hstep⟩, hfirst, by omega⟩
      rintro v b w ⟨⟨tr', hrun⟩, hv⟩ hb hvstep
      exact ⟨⟨_, hrun.snoc hvstep⟩, StaysWith.step huni hrun hv hvstep hb⟩
    exact hstays.2.1.placed
  · obtain ⟨hlive, c, hc, hauth₀, hsender⟩ :=
      sender_of_routedReceipt? (inv_of_run (serverRun_of_run hbefore)) hserver hrouted
    exact ⟨c, hc, hnames cid c hlive hc hauth₀ u hu (by rw [hsender, hname])⟩

end Runs

/-! ### A name that is registered again -/

/-- `bob` deletes his account. -/
def deletesBob : List AuthLabel :=
  requestOf 6 9 0 (.deleteAccount (sessionToken 2 3) samplePassword) ++
    List.replicate 2 (.step 6 { id := hexId 8, token := urlsafeToken 8 })

/-- `alice` and `bob` are connected, `bob` deletes his account, and somebody else registers under his
name. -/
def bobAgain : List ApplicationAction :=
  twoAccounts ++ arrives aliceId ++ presents aliceId 4 (sessionToken 0 1) ++ arrives bobId ++
    presents bobId 5 (sessionToken 2 3) ++
    (deletesBob ++ requestOf 7 4 0 (.register (py "bob") samplePassword)).map .auth

/-- `alice` sends the sample message to `bob`. -/
def aliceWritesNow : ApplicationAction := .server (.act aliceId (.frame sendText 0 (.utc 0)))

/-- A message of `alice` waits for `bob`, who gets it. -/
theorem messages_keep_to_accounts_bob :
    ∃ tr t c, (applicationSystem accountLibraries (sampleEnv .instants) {}).Run
        (.new (sampleEnv .instants) {}) tr t ∧ KeepsToAccounts accountLibraries tr t ∧
      t.server.manager.contexts bobId = some c ∧ c.receipts ≠ [] := by
  have hexec : ((applicationSystem accountLibraries (sampleEnv .instants) {}).exec
      (.new (sampleEnv .instants) {}) writesTwice).map (fun t =>
        ((t.server.manager.contexts bobId).any fun c => !c.receipts.isEmpty) &&
          ((applicationSystem accountLibraries (sampleEnv .instants) {}).traceOf
            (.new (sampleEnv .instants) {}) writesTwice).all fun e =>
              decide (Undisturbed e.1 e.2)) = some true := by
    decide +kernel
  obtain ⟨t, -, hrun, hp⟩ := System.exists_run_of_exec hexec
  simp only [Bool.and_eq_true, Option.any_eq_true, List.all_eq_true, decide_eq_true_eq,
    Bool.not_eq_true', List.isEmpty_eq_false_iff] at hp
  obtain ⟨⟨c, hc, hreceipts⟩, hund⟩ := hp
  exact ⟨_, t, c, hrun, messages_keep_to_accounts (lawful_sampleEnv .instants) hrun hund, hc,
    hreceipts⟩

/-- **A message crosses accounts**: `bob` has deleted his account and somebody else has registered
as `bob`; a message of `alice` to `bob` is placed on the connection of the one who has left. -/
theorem message_crosses_accounts :
    ∃ tr t, (applicationSystem accountLibraries (sampleEnv .instants) {}).Run
        (.new (sampleEnv .instants) {}) tr t ∧ ¬ KeepsToAccounts accountLibraries tr t := by
  have hexec : ((applicationSystem accountLibraries (sampleEnv .instants) {}).exec
      (.new (sampleEnv .instants) {}) bobAgain).map (fun v =>
        (v.step accountLibraries (sampleEnv .instants) aliceWritesNow).any fun t =>
          (t.server.manager.contexts bobId).any fun c => c.receipts.any fun r =>
            r.ref == v.server.nextRef &&
              v.users.any fun u => u.username == r.recipient && c.userId != some u.id) =
        some true := by
    decide +kernel
  obtain ⟨v, -, hrun, hp⟩ := System.exists_run_of_exec hexec
  simp only [Option.any_eq_true, List.any_eq_true, Bool.and_eq_true, beq_iff_eq, bne_iff_ne] at hp
  obtain ⟨t, hstep, c, hc, r, hr, href, u, hu, hname, huser⟩ := hp
  have hlast : (applicationSystem accountLibraries (sampleEnv .instants) {}).step v
      aliceWritesNow = some t := hstep
  refine ⟨_, t, hrun.snoc hlast, fun hkeeps => huser ?_⟩
  obtain ⟨hserver, -⟩ := Application.server_of_act hstep
  have hrouted := (routedReceipt?_of_held (inv_of_run (serverRun_of_run hrun)) hserver
    (.inl ⟨bobId, c, hc, ConnectionContext.mem_receipts.1 hr⟩)).resolve_left fun hheld => by
      have hlt := (inOrder_of_applicationRun (lawful_sampleEnv .instants) hrun).ref_lt_of_held hheld
      omega
  exact (hkeeps v aliceId _ r (by simp [aliceWritesNow]) hrouted).1 u hu hname bobId c hc hr

end EncryptChat
