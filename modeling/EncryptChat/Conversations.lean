/-
**The conversation the server holds with one connection.**

A client that connects is owed an order: it is greeted at most once, and before any answer; before
it is bound it hears answers that need no account; `auth.ready` comes at most once and names the
account; from then on it hears the messages of that account, acknowledgements and counts.  Messages
to its generated name may come earlier, where somebody sends them.  The order is a small automaton,
whose labels are the messages of the server and whose states say how far the conversation has come.
However the steps of all connections interleave, what is handed to the socket of each is a run of
its automaton, what waits on its queue continues that run, and the state it ends in is the identity
the server has bound.

Main definitions:

* `EncryptChat.Stage`, `EncryptChat.conversation` — **the automaton**;
* `EncryptChat.ConnectionContext.Follows` — what a context has accepted leads to a stage that agrees
  with its identity;
* `EncryptChat.wire` — what the writer of a connection has taken in a run, to hand it to
  `send_json`.

Main results:

* `EncryptChat.ConnectionContext.Follows.hears` — speaking keeps to the automaton;
* `EncryptChat.ConnectionContext.Follows.binding` — binding does;
* `EncryptChat.accepted_eq_wire` — what was accepted was taken or still waits;
* `EncryptChat.conversations_conform` — **every connection is spoken to in order**.
-/

import EncryptChat.ReceiptsAfterReady
import EncryptChat.SpokenMessages

set_option relaxedAutoImplicit false
set_option autoImplicit false

namespace EncryptChat

open Python Transition ConnectionManager
open ConnectionContext (Hears)

/-! ### The automaton -/

/-- How far the conversation with a connection has come. -/
inductive Stage where
  /-- Nothing was said but messages to the generated name. -/
  | arriving
  /-- The connection is served, and has no account yet. -/
  | greeted
  /-- `auth.ready` was said, for this identity. -/
  | bound (identity : AuthenticatedIdentity)

namespace Stage

/-- The identity the client was told, if it was told one. -/
def identity : Stage → Option AuthenticatedIdentity
  | bound identity => some identity
  | _ => none

/-- The name whose messages belong in the conversation. -/
def addressee (name : PyStr) : Stage → PyStr
  | bound identity => identity.username
  | _ => name

/-- The stage after a message, `none` where the message is out of place.  `cid` is the id of the
connection and `name` the generated name it arrived under. -/
def after (cid : ConnId) (name : PyStr) (stage : Stage) : OutboundMessage → Option Stage
  | .connectionReady connectionId _ _ _ _ =>
      match stage with
      | arriving => if connectionId = cid then some greeted else none
      | _ => none
  | .authReady _ userId username sessionId =>
      match stage with
      | bound _ => none
      | _ => some (bound ⟨userId, username, sessionId⟩)
  | .messageReceipt receipt =>
      if receipt.recipient = stage.addressee name then some stage else none
  -- also the first word to a connection whose greeting found the queue full
  | .heartbeatPong _ _ | .protocolError _ _ _ =>
      match stage with
      | arriving => some greeted
      | _ => some stage
  | .deliveryAck _ _ | .queueStatus _ _ =>
      match stage with
      | bound _ => some stage
      | _ => none

variable {cid : ConnId} {name : PyStr}

/-- A receipt for the addressee is in place and changes nothing. -/
theorem after_of_isFor {stage : Stage} {message : OutboundMessage}
    (h : message.IsFor (stage.addressee name)) : stage.after cid name message = some stage := by
  obtain ⟨r, rfl, hr⟩ := h
  exact if_pos hr

/-- An answer is in place, and tells no identity. -/
theorem after_of_isReply {stage : Stage} {message : OutboundMessage}
    (h : message.IsReply stage.identity.isSome) :
    ∃ stage', stage.after cid name message = some stage' ∧ stage'.identity = stage.identity := by
  cases message with
  | heartbeatPong | protocolError =>
      cases stage with
      | arriving | greeted => exact ⟨.greeted, rfl, rfl⟩
      | bound identity => exact ⟨.bound identity, rfl, rfl⟩
  | deliveryAck | queueStatus =>
      cases stage with
      | arriving | greeted => exact absurd h (Bool.noConfusion)
      | bound identity => exact ⟨.bound identity, rfl, rfl⟩
  | connectionReady | authReady | messageReceipt => exact absurd h id

theorem addressee_of_identity {stage stage' : Stage} (h : stage'.identity = stage.identity) :
    stage'.addressee name = stage.addressee name := by
  cases stage <;> cases stage' <;> simp_all [identity, addressee]

end Stage

/-- **The conversation with one connection**: the stages, and the messages between them. -/
def conversation (cid : ConnId) (name : PyStr) : System Stage OutboundMessage where
  init := fun stage => stage = .arriving
  step := Stage.after cid name

section Words

variable {cid : ConnId} {name : PyStr}

/-- Receipts for the addressee change nothing, however many there are. -/
theorem exec_of_isFor {stage : Stage} {l : List OutboundMessage}
    (h : ∀ message ∈ l, message.IsFor (stage.addressee name)) :
    (conversation cid name).exec stage l = some stage := by
  induction l with
  | nil => rfl
  | cons message l ih =>
      have hstep : (conversation cid name).step stage message = some stage :=
        Stage.after_of_isFor (h message List.mem_cons_self)
      rw [System.exec, hstep]
      exact ih fun message' hmem => h message' (List.mem_cons_of_mem message hmem)

/-- Answers and receipts, in any order, tell no identity. -/
theorem exec_of_isReply {l : List OutboundMessage} :
    ∀ {stage : Stage}, (∀ message ∈ l, message.IsReply stage.identity.isSome ∨
        message.IsFor (stage.addressee name)) →
      ∃ stage', (conversation cid name).exec stage l = some stage' ∧
        stage'.identity = stage.identity := by
  induction l with
  | nil => exact fun {stage} _ => ⟨stage, rfl, rfl⟩
  | cons message l ih =>
      intro stage h
      obtain ⟨mid, hmid, hsame⟩ : ∃ mid, (conversation cid name).step stage message = some mid ∧
          mid.identity = stage.identity := by
        rcases h message List.mem_cons_self with hreply | hfor
        · exact Stage.after_of_isReply hreply
        · exact ⟨stage, Stage.after_of_isFor hfor, rfl⟩
      obtain ⟨stage', hstage', hidentity⟩ := @ih mid fun message' hmem => by
        rw [hsame, Stage.addressee_of_identity hsame]
        exact h message' (List.mem_cons_of_mem message hmem)
      refine ⟨stage', ?_, hidentity.trans hsame⟩
      rw [System.exec, hmid]
      exact hstage'

end Words

/-! ### Contexts -/

namespace ConnectionContext

/-- The stage agrees with the identity of the context: the identity it names is bound, and a context
whose client was told no identity has none, or takes nothing any more. -/
def Agrees (c : ConnectionContext) (stage : Stage) : Prop :=
  match stage.identity with
  | some identity => c.identity = identity.bound
  | none => c.authenticated = false ∨ c.closing = true

/-- What the context has accepted leads to a stage that agrees with its identity. -/
structure Follows (c : ConnectionContext) (stage : Stage) : Prop where
  exec : (conversation c.connectionId c.transportClientId).exec .arriving c.outbound.accepted =
    some stage
  agrees : c.Agrees stage

variable {c c' : ConnectionContext} {stage : Stage} {l : List OutboundMessage}
  {limits : TransportLimits} {cid : ConnId}

/-- An open context is authenticated as far as its client was told. -/
theorem Agrees.authenticated (h : c.Agrees stage) (hopen : c.closing = false) :
    c.authenticated = stage.identity.isSome := by
  unfold Agrees at h
  cases hidentity : stage.identity with
  | some identity =>
      rw [hidentity] at h
      exact congrArg Prod.fst h
  | none =>
      rw [hidentity] at h
      refine h.resolve_right ?_
      rw [hopen]
      exact Bool.false_ne_true

/-- An open context goes by the name its client was told. -/
theorem Agrees.routingIdentity (h : c.Agrees stage) (hwf : c.WF limits cid)
    (hopen : c.closing = false) :
    c.routingIdentity = stage.addressee c.transportClientId := by
  have hauth := h.authenticated hopen
  unfold ConnectionContext.routingIdentity
  cases stage with
  | arriving | greeted =>
      have hnone : c.accountUsername = none := by
        rw [← Option.not_isSome_iff_eq_none, ← hwf.bound.1, hauth]
        exact Bool.false_ne_true
      rw [hnone]
      rfl
  | bound identity =>
      have hidentity : c.identity = identity.bound := h
      have hname : c.accountUsername = some identity.username :=
        congrArg (fun i => i.2.2.1) hidentity
      rw [hname]
      rfl

theorem Agrees.of_sameIdentity (h : c.Agrees stage) (hsame : SameIdentity c c')
    (hclosing : c.closing = true → c'.closing = true) {stage' : Stage}
    (hstage : stage'.identity = stage.identity) : c'.Agrees stage' := by
  unfold Agrees at h ⊢
  rw [hstage]
  cases hidentity : stage.identity with
  | some identity =>
      rw [hidentity] at h
      exact hsame.identity.trans h
  | none =>
      rw [hidentity] at h
      exact h.imp hsame.authenticated.trans hclosing

/-- A word that is heard is appended to what was accepted. -/
theorem Follows.append (h : c.Follows stage) (hid : c'.connectionId = c.connectionId)
    (hname : c'.transportClientId = c.transportClientId)
    (haccepted : c'.outbound.accepted = c.outbound.accepted ++ l) :
    (conversation c'.connectionId c'.transportClientId).exec .arriving c'.outbound.accepted =
      (conversation c.connectionId c.transportClientId).exec stage l := by
  rw [hid, hname, haccepted, System.exec_append, h.exec]
  rfl

/-- **Messages to its name leave the conversation where it is.** -/
theorem Follows.hears_isFor (h : c.Follows stage) (hwf : c.WF limits cid) (hears : Hears c c' l)
    (hl : ∀ message ∈ l, message.IsFor c.routingIdentity) : c'.Follows stage where
  exec := by
    rw [h.append hears.connectionId hears.transportClientId hears.accepted]
    refine exec_of_isFor fun message hmem => ?_
    have hopen : c.closing = false := by
      refine Bool.eq_false_iff.2 fun hclosing => ?_
      rw [(hears.closing hclosing).2] at hmem
      cases hmem
    rw [← h.agrees.routingIdentity hwf hopen]
    exact hl message hmem
  agrees := h.agrees.of_sameIdentity hears.toSameIdentity (fun hc => (hears.closing hc).1) rfl

/-- **Answers and messages to its name continue the conversation.** -/
theorem Follows.hears (h : c.Follows stage) (hwf : c.WF limits cid) (hears : Hears c c' l)
    (hl : ∀ message ∈ l, message.IsReply c.authenticated ∨ message.IsFor c.routingIdentity) :
    ∃ stage', c'.Follows stage' := by
  obtain ⟨stage', hexec, hidentity⟩ : ∃ stage',
      (conversation c.connectionId c.transportClientId).exec stage l = some stage' ∧
        stage'.identity = stage.identity := by
    by_cases hclosing : c.closing = true
    · rw [(hears.closing hclosing).2]
      exact ⟨stage, rfl, rfl⟩
    · have hopen := Bool.eq_false_iff.2 hclosing
      refine exec_of_isReply fun message hmem => ?_
      rw [← h.agrees.authenticated hopen, ← h.agrees.routingIdentity hwf hopen]
      exact hl message hmem
  refine ⟨stage', ?_, h.agrees.of_sameIdentity hears.toSameIdentity
    (fun hc => (hears.closing hc).1) hidentity⟩
  rw [h.append hears.connectionId hears.transportClientId hears.accepted, hexec]

/-- The greeting of a connection that has heard nothing but messages to its name. -/
theorem Follows.greeting (h : c.Follows .arriving) (hwf : c.WF limits cid)
    (hears : Hears c c' [connectionReady limits cid]) : c'.Follows .greeted where
  exec := by
    rw [h.append hears.connectionId hears.transportClientId hears.accepted]
    have hready : (conversation c.connectionId c.transportClientId).step .arriving
        (connectionReady limits cid) = some .greeted := if_pos hwf.connectionId.symm
    rw [System.exec, hready]
    rfl
  agrees := h.agrees.of_sameIdentity hears.toSameIdentity (fun hc => (hears.closing hc).1) rfl

/-- **A binding tells the identity it binds**, and then the messages of that name. -/
theorem Follows.binding (h : c.Follows stage) (hun : c.authenticated = false)
    {identity : AuthenticatedIdentity} {m : ConnectionManager} {envelope : InboundEnvelope} {n : ℕ}
    (hqueue : ∀ message ∈ m.offlineQueue.queued identity.username,
      message.IsFor identity.username)
    (hbound : c'.identity = identity.bound)
    (hears : Hears (c.authenticate identity) c' ((bindingResponses m envelope identity).take n))
    (hn : n = 0 → c'.closing = true) : ∃ stage', c'.Follows stage' := by
  -- the client was told no identity before
  have hnone : stage.identity = none := by
    cases hidentity : stage.identity with
    | none => rfl
    | some identity' =>
        have hagrees := h.agrees
        unfold Agrees at hagrees
        rw [hidentity] at hagrees
        have : c.authenticated = true := congrArg Prod.fst hagrees
        rw [hun] at this
        cases this
  have hword := h.append hears.connectionId hears.transportClientId hears.accepted
  cases n with
  | zero =>
      refine ⟨stage, hword, ?_⟩
      unfold Agrees
      rw [hnone]
      exact .inr (hn rfl)
  | succ n =>
      refine ⟨.bound identity, ?_, hbound⟩
      have hready : (conversation c.connectionId c.transportClientId).step stage
          (.authReady envelope.messageId identity.userId identity.username identity.sessionId) =
            some (.bound identity) := by
        cases stage with
        | arriving | greeted => rfl
        | bound => cases hnone
      rw [hword, bindingResponses, List.take_succ_cons, System.exec, hready]
      exact exec_of_isFor fun message hmem => hqueue message (List.mem_of_mem_take hmem)

end ConnectionContext

/-! ### Steps -/

/-- Every message on an offline queue is a receipt for the name of the queue. -/
def QueuesAddressed (m : ConnectionManager) : Prop :=
  ∀ k, ∀ message ∈ m.offlineQueue.queued k, message.IsFor k

/-- Every context is in its conversation, and at its beginning until the upgrade is complete. -/
def Conversing (s : ServerState) : Prop :=
  ∀ cid c, s.manager.contexts cid = some c →
    ∃ stage, c.Follows stage ∧ (¬ s.Upgraded cid → stage = .arriving)

theorem follows_freshContext (limits : TransportLimits) (cid : ConnId) (k : PyStr) (now : ℚ) :
    (freshContext limits cid k now).Follows .arriving := ⟨rfl, .inl rfl⟩

theorem follows_takeOutbound {c : ConnectionContext} {stage : Stage} (h : c.Follows stage) :
    c.takeOutbound.Follows stage := ⟨h.exec, h.agrees⟩

namespace ServerState

variable {lib : Libraries} {limits : TransportLimits} {s s' : ServerState}

/-- A step of a connection leaves the handlers of the others alone. -/
theorem handlers_of_ne {cid cid' : ConnId} {a : HandlerAction}
    (h : s.step lib (.act cid a) = some s') (hne : cid' ≠ cid) :
    s'.handlers cid' = s.handlers cid' := by
  obtain ⟨hd, outcome, -, -, rfl⟩ := step_act h
  exact Function.update_of_ne hne _ _

theorem upgraded_of_ne {cid cid' : ConnId} {a : HandlerAction}
    (h : s.step lib (.act cid a) = some s') (hne : cid' ≠ cid) (hup : s.Upgraded cid') :
    s'.Upgraded cid' := by
  intro hd hhd
  rw [handlers_of_ne h hne] at hhd
  exact hup hd hhd

/-- **A step keeps the offline queues addressed.** -/
theorem Inv.queuesAddressed_step (hinv : s.Inv limits) {a : ServerAction}
    (h : s.step lib a = some s') (hqueues : QueuesAddressed s.manager) :
    QueuesAddressed s'.manager := by
  intro k message hmem
  cases hinv.stepSays h with
  | arrives fresh manager =>
      rcases manager with heq | heq
      · rw [heq] at hmem
        exact hqueues k message hmem
      · rw [heq] at hmem
        exact hqueues k message hmem
  | greets _ _ manager =>
      rw [manager, enqueueOutbound_eq] at hmem
      exact hqueues k message hmem
  | takes _ manager =>
      rw [manager] at hmem
      exact hqueues k message hmem
  | binds bound =>
      rw [bound.queued] at hmem
      split_ifs at hmem
      · cases hmem
      · exact hqueues k message hmem
  | speaks _ _ _ reaches =>
      rcases (heard_of_reaches hinv.wf reaches).queued k message hmem with hmem | hfor
      · exact hqueues k message hmem
      · exact hfor

/-- **A step keeps every connection in its conversation.** -/
theorem Inv.conversing_step (hinv : s.Inv limits) {a : ServerAction} (h : s.step lib a = some s')
    (hqueues : QueuesAddressed s.manager) (hconv : Conversing s) : Conversing s' := by
  intro cid c' hc'
  cases hinv.stepSays h with
  | @arrives cid₀ hex origin now fresh manager handlers =>
      by_cases hne : cid = cid₀
      · -- the connection that arrives has heard nothing
        subst hne
        rcases manager with heq | heq
        · rw [heq, fresh] at hc'
          cases hc'
        · rw [heq, registered_contexts, if_pos rfl] at hc'
          cases hc'
          exact ⟨.arriving, follows_freshContext _ _ _ _, fun _ => rfl⟩
      · have hsame : s'.manager.contexts cid = s.manager.contexts cid := by
          rcases manager with heq | heq
          · rw [heq]
          · rw [heq, registered_contexts, if_neg hne]
        obtain ⟨stage, hfollows, hbefore⟩ := hconv cid c' (hsame ▸ hc')
        refine ⟨stage, hfollows, fun hnot => hbefore fun hup => hnot fun hd hhd => ?_⟩
        exact hup hd (handlers cid hne ▸ hhd)
  | @greets cid₀ before after manager =>
      rw [manager, enqueueOutbound_contexts] at hc'
      by_cases hne : cid = cid₀
      · subst hne
        rw [if_pos rfl, Option.map_eq_some_iff] at hc'
        obtain ⟨c, hc, rfl⟩ := hc'
        obtain ⟨stage, hfollows, hbefore⟩ := hconv cid c hc
        have hwf := hinv.wf.context cid c hc
        obtain rfl := hbefore before
        rcases c.hears_enqueueOutbound (connectionReady s.manager.limits cid) with hears | hears
        · exact ⟨.arriving, hfollows.hears_isFor hwf hears (by simp), fun _ => rfl⟩
        · exact ⟨.greeted, hfollows.greeting hwf hears, fun hnot => absurd after hnot⟩
      · rw [if_neg hne] at hc'
        obtain ⟨stage, hfollows, hbefore⟩ := hconv cid c' hc'
        exact ⟨stage, hfollows, fun hnot => hbefore fun hup => hnot (upgraded_of_ne h hne hup)⟩
  | @takes cid₀ upgraded manager =>
      rw [manager, modifyContext_contexts] at hc'
      by_cases hne : cid = cid₀
      · subst hne
        rw [if_pos rfl, Option.map_eq_some_iff] at hc'
        obtain ⟨c, hc, rfl⟩ := hc'
        obtain ⟨stage, hfollows, hbefore⟩ := hconv cid c hc
        exact ⟨stage, follows_takeOutbound hfollows, fun hnot => hbefore (mt upgraded hnot)⟩
      · rw [if_neg hne] at hc'
        obtain ⟨stage, hfollows, hbefore⟩ := hconv cid c' hc'
        exact ⟨stage, hfollows, fun hnot => hbefore fun hup => hnot (upgraded_of_ne h hne hup)⟩
  | @binds cid₀ identity c₀ bound after =>
      by_cases hne : cid = cid₀
      · subst hne
        obtain ⟨envelope, d, n, hd, hbound, hears, hn⟩ := bound.hears
        rw [hc'] at hd
        cases hd
        obtain ⟨stage, hfollows, -⟩ := hconv cid c₀ bound.present
        obtain ⟨stage', hstage'⟩ := hfollows.binding bound.unauthenticated
          (hqueues identity.username) hbound hears hn
        exact ⟨stage', hstage', fun hnot => absurd after hnot⟩
      · rw [bound.others hne] at hc'
        obtain ⟨stage, hfollows, hbefore⟩ := hconv cid c' hc'
        exact ⟨stage, hfollows, fun hnot => hbefore fun hup => hnot (upgraded_of_ne h hne hup)⟩
  | @speaks cid₀ a c₀ present upgraded other reaches =>
      have hheard := heard_of_reaches hinv.wf reaches
      obtain ⟨c, hc⟩ : ∃ c, s.manager.contexts cid = some c := by
        rw [← Option.ne_none_iff_exists']
        intro hnone
        rw [hheard.absent cid hnone] at hc'
        cases hc'
      obtain ⟨d, l, hd, hears, hl⟩ := hheard.kept cid c hc
      rw [hc'] at hd
      cases hd
      obtain ⟨stage, hfollows, hbefore⟩ := hconv cid c hc
      have hwf := hinv.wf.context cid c hc
      by_cases hown : cid = cid₀ ∧ s'.Upgraded cid
      · obtain ⟨rfl, hup⟩ := hown
        rw [hc] at present
        cases present
        obtain ⟨stage', hstage'⟩ := hfollows.hears hwf hears fun message hmem =>
          (hl message hmem).imp_left fun hreply => hreply.2.1
        exact ⟨stage', hstage', fun hnot => absurd hup hnot⟩
      · -- nothing but messages to its name
        have hfor : ∀ message ∈ l, message.IsFor c.routingIdentity := fun message hmem =>
          (hl message hmem).resolve_left fun hreply => hown ⟨hreply.1, hreply.1 ▸ hreply.2.2⟩
        refine ⟨stage, hfollows.hears_isFor hwf hears hfor, fun hnot => hbefore fun hup => ?_⟩
        by_cases hne : cid = cid₀
        · subst hne
          exact hnot (upgraded hup)
        · exact hnot (upgraded_of_ne h hne hup)

end ServerState

/-! ### The wire -/

/-- The message the writer of the connection takes in the step, to hand it to `send_json`. -/
def takenMessage? (s : ServerState) (cid : ConnId) : ServerAction → Option OutboundMessage
  | .act cid' .writerGets =>
      if cid' = cid then (s.manager.contexts cid).bind fun c => c.outbound.items.head? else none
  | _ => none

/-- What the writer of the connection has taken in a run, oldest first. -/
def wire (tr : List (ServerState × ServerAction)) (cid : ConnId) : List OutboundMessage :=
  tr.filterMap fun e => takenMessage? e.1 cid e.2

theorem wire_snoc (tr : List (ServerState × ServerAction)) (s : ServerState) (a : ServerAction)
    (cid : ConnId) : wire (tr ++ [(s, a)]) cid = wire tr cid ++ (takenMessage? s cid a).toList := by
  unfold wire
  rw [List.filterMap_append]
  cases h : takenMessage? s cid a <;> simp [h]

/-- Only the writer takes messages. -/
theorem takenMessage?_of_ne {s : ServerState} {cid : ConnId} {a : ServerAction}
    (h : a ≠ .act cid .writerGets) : takenMessage? s cid a = none := by
  cases a with
  | connect => rfl
  | act cid' b =>
      cases b with
      | writerGets => exact if_neg fun heq => h (by rw [heq])
      | accepted | frame | frameRaises | receiveRaises | resolved | resolveRaises | flushed
      | writerAwaited | writerAwaitCancelled | closed | writerSends | writerCancelled => rfl

/-- What a context hears waits behind what was taken and what waits. -/
theorem ConnectionContext.Hears.waits {c c' : ConnectionContext} {l taken : List OutboundMessage}
    (h : Hears c c' l) (htaken : c.outbound.accepted = taken ++ c.outbound.items) :
    c'.outbound.accepted = taken ++ c'.outbound.items := by
  rw [h.accepted, h.items, htaken, List.append_assoc]

/-- What was taken from a queue, and what waits on it, is what it has accepted. -/
def Accounted (m : ConnectionManager) (cid : ConnId) (taken : List OutboundMessage) : Prop :=
  match m.contexts cid with
  | some c => c.outbound.accepted = taken ++ c.outbound.items
  | none => taken = []

theorem accounted_iff_of_eq_some {m : ConnectionManager} {cid : ConnId} {c : ConnectionContext}
    (hc : m.contexts cid = some c) {taken : List OutboundMessage} :
    Accounted m cid taken ↔ c.outbound.accepted = taken ++ c.outbound.items := by
  unfold Accounted
  rw [hc]

theorem Accounted.of_eq {m m' : ConnectionManager} {cid : ConnId} {taken : List OutboundMessage}
    (h : Accounted m cid taken) (heq : m'.contexts cid = m.contexts cid) :
    Accounted m' cid taken := by
  unfold Accounted at h ⊢
  rwa [heq]

/-- A message is taken from the head of the queue. -/
theorem Accounted.take {s : ServerState} {cid : ConnId} {taken : List OutboundMessage}
    (h : Accounted s.manager cid taken) :
    Accounted (s.manager.modifyContext cid ConnectionContext.takeOutbound) cid
      (taken ++ (takenMessage? s cid (.act cid .writerGets)).toList) := by
  unfold Accounted at h ⊢
  rw [modifyContext_contexts, if_pos rfl]
  cases hc : s.manager.contexts cid with
  | none =>
      rw [hc] at h
      simpa [takenMessage?, hc] using h
  | some c =>
      rw [hc] at h
      have hhead : takenMessage? s cid (.act cid .writerGets) = c.outbound.items.head? := by
        simp [takenMessage?, hc]
      rw [hhead]
      change c.outbound.accepted = taken ++ c.outbound.items.head?.toList ++ c.outbound.items.tail
      rw [h, List.append_assoc]
      cases c.outbound.items <;> rfl

namespace ServerState

variable {lib : Libraries} {limits : TransportLimits} {s s' : ServerState}

/-- **A step takes at most what waits longest**, and what it adds waits behind the rest. -/
theorem Inv.accounted_step (hinv : s.Inv limits) {a : ServerAction} (h : s.step lib a = some s')
    {cid : ConnId} {taken : List OutboundMessage} (hacc : Accounted s.manager cid taken) :
    Accounted s'.manager cid (taken ++ (takenMessage? s cid a).toList) := by
  by_cases htakes : a = .act cid .writerGets
  · subst htakes
    cases hinv.stepSays h with
    | takes upgraded manager =>
        rw [manager]
        exact hacc.take
    | speaks _ _ other => exact absurd rfl other
  rw [takenMessage?_of_ne htakes, Option.toList_none, List.append_nil]
  cases hinv.stepSays h with
  | @arrives cid₀ hex origin now fresh manager handlers =>
      rcases manager with heq | heq
      · exact hacc.of_eq (by rw [heq])
      · by_cases hne : cid = cid₀
        · subst hne
          unfold Accounted at hacc ⊢
          rw [fresh] at hacc
          rw [heq, registered_contexts, if_pos rfl, hacc]
          rfl
        · exact hacc.of_eq (by rw [heq, registered_contexts, if_neg hne])
  | @greets cid₀ before after manager =>
      by_cases hne : cid = cid₀
      · subst hne
        cases hc : s.manager.contexts cid with
        | none => exact hacc.of_eq (by rw [manager, enqueueOutbound_contexts, if_pos rfl, hc]; rfl)
        | some c =>
            rw [accounted_iff_of_eq_some hc] at hacc
            rw [accounted_iff_of_eq_some (by
              rw [manager, enqueueOutbound_contexts, if_pos rfl, hc, Option.map_some])]
            rcases c.hears_enqueueOutbound (connectionReady s.manager.limits cid) with hears | hears
            · exact hears.waits hacc
            · exact hears.waits hacc
      · exact hacc.of_eq (by rw [manager, enqueueOutbound_contexts, if_neg hne])
  | @takes cid₀ upgraded manager =>
      have hne : cid ≠ cid₀ := fun heq => htakes (by rw [heq])
      exact hacc.of_eq (by rw [manager, modifyContext_contexts, if_neg hne])
  | @binds cid₀ identity c₀ bound after =>
      by_cases hne : cid = cid₀
      · subst hne
        obtain ⟨envelope, c', n, hc', -, hears, -⟩ := bound.hears
        rw [accounted_iff_of_eq_some bound.present] at hacc
        rw [accounted_iff_of_eq_some hc']
        exact hears.waits hacc
      · exact hacc.of_eq (bound.others hne)
  | @speaks cid₀ b c₀ present upgraded other reaches =>
      have hheard := heard_of_reaches hinv.wf reaches
      cases hc : s.manager.contexts cid with
      | none => exact hacc.of_eq (by rw [hheard.absent cid hc, hc])
      | some c =>
          obtain ⟨c', l, hc', hears, -⟩ := hheard.kept cid c hc
          rw [accounted_iff_of_eq_some hc] at hacc
          rw [accounted_iff_of_eq_some hc']
          exact hears.waits hacc

end ServerState

section Runs

variable {lib : Libraries} {limits : TransportLimits} {s : ServerState}
  {tr : List (ServerState × ServerAction)}

/-- **What was accepted was taken or still waits**, along every run. -/
theorem accepted_eq_wire (h : (serverSystem lib limits).Run (.new limits) tr s) {cid : ConnId}
    {c : ConnectionContext} (hc : s.manager.contexts cid = some c) :
    c.outbound.accepted = wire tr cid ++ c.outbound.items := by
  rw [← accounted_iff_of_eq_some hc]
  clear hc
  induction h with
  | nil => rfl
  | @snoc u v tr a hrun hstep ih =>
      rw [wire_snoc]
      exact (inv_of_run hrun).accounted_step hstep ih

theorem conversing_of_run (h : (serverSystem lib limits).Run (.new limits) tr s) :
    Conversing s := by
  have hall : s.Inv limits ∧ QueuesAddressed s.manager ∧ Conversing s := by
    refine h.invariant (P := fun t => t.Inv limits ∧ QueuesAddressed t.manager ∧ Conversing t) ?_
      ⟨ServerState.inv_new limits, ?_, ?_⟩
    · rintro t a t' ⟨ht, hqueues, hconv⟩ hstep
      exact ⟨ht.step hstep, ht.queuesAddressed_step hstep hqueues,
        ht.conversing_step hstep hqueues hconv⟩
    · simp [QueuesAddressed, ServerState.new, ConnectionManager.new, OfflineQueue.queued,
        OfflineQueue.new]
    · simp [Conversing, ServerState.new, ConnectionManager.new]
  exact hall.2.2

end Runs

/-- **Every connection is spoken to in order**, however the steps of all connections interleave:
what its writer has handed to the socket is a run of the conversation automaton from its start; what
still waits on its queue continues that run; and the stage it ends in is the identity the server has
bound to the connection, unless no identity was told and the connection takes nothing any more.
Where no routed message is taken under a generated name, all receipts come after `auth.ready`. -/
theorem conversations_conform (lib : Libraries) (limits : TransportLimits) {s : ServerState}
    {tr : List (ServerState × ServerAction)}
    (h : (serverSystem lib limits).Run (.new limits) tr s) {cid : ConnId} {c : ConnectionContext}
    (hc : s.manager.contexts cid = some c) :
    (∃ told owed,
      (conversation cid c.transportClientId).exec .arriving (wire tr cid) = some told ∧
      (conversation cid c.transportClientId).exec told c.outbound.items = some owed ∧
      c.Agrees owed) ∧
    ((∀ e ∈ tr, SparesProvisional lib e.1 e.2) → ReadyFirst (wire tr cid ++ c.outbound.items)) := by
  have haccepted := accepted_eq_wire h hc
  refine ⟨?_, fun hspares => haccepted ▸ (awaitsReady_of_run h hspares hc).readyFirst⟩
  obtain ⟨owed, hfollows, -⟩ := conversing_of_run h cid c hc
  have hid := ((inv_of_run h).wf.context cid c hc).connectionId
  have hexec := hfollows.exec
  rw [hid, haccepted, System.exec_append, Option.bind_eq_some_iff] at hexec
  obtain ⟨told, htold, howed⟩ := hexec
  exact ⟨told, owed, htold, howed, hfollows.agrees⟩

/-- The conversation with `bob`, who was written to while he was away. -/
theorem conversations_conform_bob :
    ∃ tr s c told owed, (serverSystem sampleLibraries {}).Run (.new {}) tr s ∧
      s.manager.contexts bobId = some c ∧ c.authenticated = true ∧ c.receipts ≠ [] ∧
      (conversation bobId c.transportClientId).exec .arriving (wire tr bobId) = some told ∧
      (conversation bobId c.transportClientId).exec told c.outbound.items = some owed ∧
      c.Agrees owed ∧ ReadyFirst (wire tr bobId ++ c.outbound.items) := by
  have hexec : ((serverSystem sampleLibraries {}).exec (.new {})
      (aliceConnects ++ bobConnects)).map (fun s =>
        (s.manager.contexts bobId).any (fun c => c.authenticated && !c.receipts.isEmpty) &&
          ((serverSystem sampleLibraries {}).traceOf (.new {}) (aliceConnects ++ bobConnects)).all
            fun e => decide (SparesProvisional sampleLibraries e.1 e.2)) = some true := by
    decide +kernel
  obtain ⟨s, -, hrun, hp⟩ := System.exists_run_of_exec hexec
  simp only [Option.any_eq_true, Bool.and_eq_true, List.all_eq_true, decide_eq_true_eq] at hp
  obtain ⟨⟨c, hc, hauth, hreceipts⟩, hspares⟩ := hp
  obtain ⟨⟨told, owed, htold, howed, hagrees⟩, hready⟩ :=
    conversations_conform sampleLibraries {} hrun hc
  exact ⟨_, s, c, told, owed, hrun, hc, hauth, by simpa using hreceipts, htold, howed, hagrees,
    hready hspares⟩

end EncryptChat
