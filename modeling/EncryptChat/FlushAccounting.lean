/-
**The count a flush waits on.**

Before it closes the socket, the endpoint waits for `outbound.join()`, that is, until the count of
unfinished tasks of the queue is zero: every message accepted adds one, and the writer takes one off
when a send has ended.  A send that finds the client gone is taken off twice, once in the `except`
clause and once in the `finally` clause, and the second time it is a message still queued that is
counted as done.

Main definitions:

* `EncryptChat.Outbox` — a context, its writer, and what was handed to `send_json`;
* `EncryptChat.outboxSystem` — calls of `enqueue_outbound` and steps of one `_writer_loop`, in any
  order;
* `EncryptChat.Outbox.Balanced` — the count is what is queued and what is being sent;
* `EncryptChat.FlushAccounted` — a run in which the count is right and `join` waits for all;
* `EncryptChat.Outbox.Clean` — steps that do not find the client gone with messages queued.

Main results:

* `EncryptChat.Outbox.balanced_step`, `not_balanced_step` — what a step does to the count;
* `EncryptChat.outbox_of_handlerStep` — the steps of the server are such steps;
* `EncryptChat.flush_accounted_iff` — **the count is right exactly in the runs of clean steps**.
-/

import EncryptChat.ManagerOps
import EncryptChat.SenderAuthenticity

set_option relaxedAutoImplicit false
set_option autoImplicit false

namespace EncryptChat

open Python Transition ConnectionManager

/-! ### The writer and its queue -/

/-- A context and its writer. -/
structure Outbox where
  context : ConnectionContext
  writer : Writer
  /-- What was handed to `send_json`, oldest first: a history variable. -/
  handed : List OutboundMessage

/-- A call, or a step of the writer. -/
inductive OutboxAction where
  | enqueueOutbound (message : OutboundMessage)
  /-- Anything else that happens to the context: none of it touches the queue. -/
  | otherwise (f : ConnectionContext → ConnectionContext) (keeps : ∀ c, (f c).outbound = c.outbound)
  | writerGets
  | writerSends (outcome : Option PyError)
  /-- The writer is cancelled while it waits for a message. -/
  | writerCancelled
  /-- `outbound.join()` returns. -/
  | joined

namespace Outbox

/-- `send_json` ends: the `except` clause and the `finally` clause of the loop. -/
def afterSend (o : Outbox) : Option PyError → Outbox
  | none => { o with context := o.context.taskDone, writer := .waiting }
  | some .cancelledError => { o with context := o.context.taskDone, writer := .cancelled }
  | some e =>
      if e = .webSocketDisconnect ∨ e.IsRuntimeError then
        -- the first `task_done` is not suppressed, and raises at zero
        { o with
          context := o.context.taskDone.taskDone
          writer := if o.context.outbound.unfinished = 0 then .failed .valueError else .returned }
      else { o with context := o.context.taskDone, writer := .failed e }

/-- One step, `none` where the writer is not at that await. -/
def step (o : Outbox) : OutboxAction → Option Outbox
  | .enqueueOutbound message =>
      some { o with context := (o.context.enqueueOutbound message).1 }
  | .otherwise f _ => some { o with context := f o.context }
  | .writerGets =>
      match o.writer, o.context.outbound.items.head? with
      | .waiting, some message =>
          -- nothing is awaited between `get` and `send_json`
          some { context := o.context.takeOutbound, writer := .sending message,
                 handed := o.handed ++ [message] }
      | _, _ => none
  | .writerSends outcome =>
      match o.writer with
      | .sending _ => some (o.afterSend outcome)
      | _ => none
  | .writerCancelled =>
      match o.writer with
      | .waiting => some { o with writer := .cancelled }
      | _ => none
  | .joined => if o.context.outbound.unfinished = 0 then some o else none

end Outbox

/-- A queue that nothing was put on, and a writer that waits. -/
def outboxSystem : System Outbox OutboxAction where
  init := fun o => (∃ n, o.context.outbound = .empty n) ∧ o.writer = .waiting ∧ o.handed = []
  step := Outbox.step

/-! ### The count -/

/-- The messages being sent: one or none. -/
def Writer.inFlight : Writer → ℕ
  | .sending _ => 1
  | _ => 0

/-- `send_json` finds the client gone. -/
def OutboxAction.FindsGone : OutboxAction → Prop
  | .writerSends (some e) => e = .webSocketDisconnect ∨ e.IsRuntimeError
  | _ => False

namespace Outbox

/-- **The count is what is queued and what is being sent.** -/
def Balanced (o : Outbox) : Prop :=
  o.context.outbound.unfinished = o.context.outbound.items.length + o.writer.inFlight

/-- Everything accepted was handed to `send_json` or is still queued. -/
def Whole (o : Outbox) : Prop :=
  o.context.outbound.accepted = o.handed ++ o.context.outbound.items

/-- The step does not find the client gone with messages queued behind the one it sends. -/
def Clean (o : Outbox) (a : OutboxAction) : Prop :=
  a.FindsGone → o.context.outbound.items = []

end Outbox

/-- A run in which the count is right in every state, and `join` returns only when every accepted
message was handed to `send_json`. -/
structure FlushAccounted (tr : List (Outbox × OutboxAction)) (o : Outbox) : Prop where
  balanced : ∀ e ∈ tr, e.1.Balanced
  final : o.Balanced
  joined : ∀ u, (u, OutboxAction.joined) ∈ tr → u.handed = u.context.outbound.accepted

namespace Outbox

variable {o o' : Outbox} {a : OutboxAction}

/-! ### What a step does -/

/-- What `enqueue_outbound` does to the queue: nothing, or one message more. -/
theorem outbound_enqueueOutbound (c : ConnectionContext) (message : OutboundMessage) :
    (c.enqueueOutbound message).1.outbound = c.outbound ∨
      ∃ q, c.outbound.putNowait message = some q ∧ (c.enqueueOutbound message).1.outbound = q := by
  unfold ConnectionContext.enqueueOutbound
  split_ifs with hclosing
  · exact .inl rfl
  · cases hput : c.outbound.putNowait message with
    | none => exact .inl rfl
    | some q => exact .inr ⟨q, rfl, rfl⟩

/-- What a step does to the queue, to the messages being sent and to those handed over. -/
inductive Effect (o : Outbox) (a : OutboxAction) (o' : Outbox) : Prop
  | kept (gone : ¬ a.FindsGone) (outbound : o'.context.outbound = o.context.outbound)
      (inFlight : o'.writer.inFlight = o.writer.inFlight) (handed : o'.handed = o.handed)
  | put {message : OutboundMessage} (gone : ¬ a.FindsGone)
      (puts : o.context.outbound.putNowait message = some o'.context.outbound)
      (inFlight : o'.writer.inFlight = o.writer.inFlight) (handed : o'.handed = o.handed)
  | got {message : OutboundMessage} (gone : ¬ a.FindsGone) (idle : o.writer.inFlight = 0)
      (head : o.context.outbound.items.head? = some message)
      (outbound : o'.context.outbound = o.context.outbound.tail)
      (inFlight : o'.writer.inFlight = 1) (handed : o'.handed = o.handed ++ [message])
  | sent (gone : ¬ a.FindsGone) (busy : o.writer.inFlight = 1)
      (outbound : o'.context.outbound = o.context.outbound.taskDone)
      (inFlight : o'.writer.inFlight = 0) (handed : o'.handed = o.handed)
  | lost (gone : a.FindsGone) (busy : o.writer.inFlight = 1)
      (outbound : o'.context.outbound = o.context.outbound.taskDone.taskDone)
      (inFlight : o'.writer.inFlight = 0) (handed : o'.handed = o.handed)

theorem effect_afterSend (hbusy : o.writer.inFlight = 1) (outcome : Option PyError) :
    Effect o (.writerSends outcome) (o.afterSend outcome) := by
  unfold afterSend
  split
  · exact .sent id hbusy rfl rfl rfl
  · refine .sent ?_ hbusy rfl rfl rfl
    rintro (h | h | h) <;> cases h
  · rename_i e hcancelled
    by_cases hgone : e = .webSocketDisconnect ∨ e.IsRuntimeError
    · rw [if_pos hgone]
      refine .lost hgone hbusy rfl ?_ rfl
      -- the writer has ended, one way or the other
      dsimp only
      split_ifs <;> rfl
    · rw [if_neg hgone]
      exact .sent hgone hbusy rfl rfl rfl

/-- **An enabled step has one of the effects.** -/
theorem effect (h : o.step a = some o') : Effect o a o' := by
  cases a with
  | enqueueOutbound message =>
      cases h
      rcases outbound_enqueueOutbound o.context message with hkept | ⟨q, hput, hq⟩
      · exact .kept id hkept rfl rfl
      · exact .put id (hput.trans (congrArg some hq.symm)) rfl rfl
  | otherwise f keeps =>
      cases h
      exact .kept id (keeps o.context) rfl rfl
  | writerGets =>
      simp only [step] at h
      split at h
      · rename_i hwaiting hhead
        cases h
        exact .got id (by rw [hwaiting]; rfl) hhead rfl rfl rfl
      · cases h
  | writerSends outcome =>
      simp only [step] at h
      split at h
      · rename_i hsending
        cases h
        exact effect_afterSend (by rw [hsending]; rfl) outcome
      · cases h
  | writerCancelled =>
      simp only [step] at h
      split at h
      · rename_i hwaiting
        cases h
        exact .kept id rfl (by rw [hwaiting]; rfl) rfl
      · cases h
  | joined =>
      simp only [step] at h
      split_ifs at h
      cases h
      exact .kept id rfl rfl rfl

/-- **No message is lost from sight**: what is accepted is handed over in order. -/
theorem whole_step (hwhole : o.Whole) (h : o.step a = some o') : o'.Whole := by
  unfold Whole at hwhole ⊢
  cases effect h with
  | kept _ houtbound _ hhanded => rw [houtbound, hhanded, hwhole]
  | put _ hputs _ hhanded =>
      obtain ⟨-, hitems, haccepted, -⟩ := Queue.putNowait_eq_some hputs
      rw [haccepted, hitems, hhanded, hwhole, List.append_assoc]
  | got _ _ hhead houtbound _ hhanded =>
      rw [houtbound, hhanded, Queue.tail_accepted, Queue.tail_items, hwhole, List.append_assoc,
        List.singleton_append, List.cons_head?_tail hhead]
  | sent _ _ houtbound _ hhanded =>
      rw [houtbound, hhanded, Queue.taskDone_accepted, Queue.taskDone_items, hwhole]
  | lost _ _ houtbound _ hhanded =>
      rw [houtbound, hhanded, Queue.taskDone_accepted, Queue.taskDone_accepted,
        Queue.taskDone_items, Queue.taskDone_items, hwhole]

/-- **A clean step keeps the count.** -/
theorem balanced_step (hbalanced : o.Balanced) (hclean : o.Clean a) (h : o.step a = some o') :
    o'.Balanced := by
  unfold Balanced at hbalanced ⊢
  cases effect h with
  | kept _ houtbound hinFlight _ => rw [houtbound, hinFlight, hbalanced]
  | put _ hputs hinFlight _ =>
      obtain ⟨-, hitems, -, -⟩ := Queue.putNowait_eq_some hputs
      rw [Queue.putNowait_unfinished hputs, hitems, hinFlight, hbalanced, List.length_append,
        List.length_singleton]
      omega
  | got _ hidle hhead houtbound hinFlight _ =>
      -- the message moves from the queue to the writer
      have hlength := congrArg List.length (List.cons_head?_tail hhead)
      rw [List.length_cons] at hlength
      rw [houtbound, hinFlight, Queue.tail_unfinished, Queue.tail_items, hbalanced, hidle]
      omega
  | sent _ hbusy houtbound hinFlight _ =>
      rw [houtbound, hinFlight, Queue.taskDone_unfinished, Queue.taskDone_items, hbalanced, hbusy]
      rfl
  | lost hgone hbusy houtbound hinFlight _ =>
      -- the second `task_done` raises, because nothing is queued
      rw [houtbound, hinFlight, Queue.taskDone_unfinished, Queue.taskDone_unfinished,
        Queue.taskDone_items, Queue.taskDone_items, hbalanced, hbusy, hclean hgone]
      rfl

/-- **A step that is not clean counts a queued message as done.** -/
theorem not_balanced_step (hbalanced : o.Balanced) (hclean : ¬ o.Clean a)
    (h : o.step a = some o') : ¬ o'.Balanced := by
  have hgone : a.FindsGone := by_contra fun hnot => hclean fun hg => absurd hg hnot
  have hitems : o.context.outbound.items ≠ [] := fun hnil => hclean fun _ => hnil
  have hpos := List.length_pos_of_ne_nil hitems
  unfold Balanced at hbalanced ⊢
  cases effect h with
  | kept hnot | put hnot | got hnot | sent hnot => exact absurd hgone hnot
  | lost _ hbusy houtbound hinFlight _ =>
      rw [houtbound, hinFlight, Queue.taskDone_unfinished, Queue.taskDone_unfinished,
        Queue.taskDone_items, Queue.taskDone_items, hbalanced, hbusy]
      omega

/-- At zero everything was handed over. -/
theorem handed_eq_accepted (hwhole : o.Whole) (hbalanced : o.Balanced)
    (hzero : o.context.outbound.unfinished = 0) : o.handed = o.context.outbound.accepted := by
  unfold Balanced at hbalanced
  have hnone : o.context.outbound.items = [] := List.length_eq_zero_iff.1 (by omega)
  rw [hwhole, hnone, List.append_nil]

end Outbox

/-! ### Along a run -/

variable {o o' : Outbox} {tr : List (Outbox × OutboxAction)}

theorem whole_of_run (hinit : outboxSystem.init o) (hrun : outboxSystem.Run o tr o') :
    o'.Whole := by
  refine hrun.invariant (fun _ _ _ => Outbox.whole_step) ?_
  obtain ⟨⟨n, hempty⟩, -, hhanded⟩ := hinit
  rw [Outbox.Whole, hempty, hhanded]
  rfl

/-- **The count along a run**: it is right in every state exactly when every step is clean. -/
theorem balanced_run_iff (hinit : outboxSystem.init o) (hrun : outboxSystem.Run o tr o') :
    ((∀ e ∈ tr, e.1.Balanced) ∧ o'.Balanced) ↔ ∀ e ∈ tr, e.1.Clean e.2 := by
  induction hrun with
  | nil =>
      obtain ⟨⟨n, hempty⟩, hwaiting, -⟩ := hinit
      have hbalanced : o.Balanced := by
        rw [Outbox.Balanced, hempty, hwaiting]
        rfl
      simp [hbalanced]
  | @snoc u v tr a hprev hstep ih =>
      simp only [List.forall_mem_append, List.forall_mem_singleton]
      rw [ih]
      refine and_congr_right fun hbefore => ?_
      obtain ⟨-, hu⟩ := ih.2 hbefore
      constructor
      · intro hv
        by_contra hnot
        exact Outbox.not_balanced_step hu hnot hstep hv
      · exact fun hclean => Outbox.balanced_step hu hclean hstep

/-- **The count is right, and a flush waits for every message, exactly in the runs of clean
steps.** -/
theorem flush_accounted_iff (hinit : outboxSystem.init o) (hrun : outboxSystem.Run o tr o') :
    FlushAccounted tr o' ↔ ∀ e ∈ tr, e.1.Clean e.2 := by
  rw [← balanced_run_iff hinit hrun]
  constructor
  · exact fun h => ⟨h.balanced, h.final⟩
  · rintro ⟨hbalanced, hfinal⟩
    refine ⟨hbalanced, hfinal, fun u hmem => ?_⟩
    obtain ⟨tr₁, tr₂, u', -, hbefore, hstep, -⟩ := hrun.of_mem hmem
    have hzero : u.context.outbound.unfinished = 0 := by
      by_contra hnot
      have hnone : outboxSystem.step u .joined = none := if_neg hnot
      rw [hnone] at hstep
      cases hstep
    exact Outbox.handed_eq_accepted (whole_of_run hinit hbefore) (hbalanced _ hmem) hzero

/-! ### The writer of the server -/

/-- The steps of a handler that its writer takes. -/
def HandlerAction.toOutbox : HandlerAction → Option OutboxAction
  | .writerGets => some .writerGets
  | .writerSends outcome => some (.writerSends outcome)
  | .writerCancelled => some .writerCancelled
  | _ => none

section Server

variable {m m' : ConnectionManager} {cid : ConnId} {c : ConnectionContext}

/-- The end of a send is the same step in both. -/
theorem afterSend_sendStep (hc : m.contexts cid = some c) (hd : Handler)
    (outcome : Option PyError) (handed : List OutboundMessage) :
    ∃ c', (sendStep m cid hd c outcome).1.contexts cid = some c' ∧
      Outbox.afterSend ⟨c, hd.writer, handed⟩ outcome =
        ⟨c', (sendStep m cid hd c outcome).2.writer, handed⟩ := by
  have hdone : (m.modifyContext cid ConnectionContext.taskDone).contexts cid =
      some c.taskDone := by
    rw [modifyContext_contexts, if_pos rfl, hc, Option.map_some]
  unfold sendStep Outbox.afterSend
  split
  · exact ⟨_, hdone, rfl⟩
  · exact ⟨_, hdone, rfl⟩
  · rename_i e hcancelled
    by_cases hgone : e = .webSocketDisconnect ∨ e.IsRuntimeError
    · simp only [if_pos hgone]
      refine ⟨c.taskDone.taskDone, ?_, rfl⟩
      rw [modifyContext_contexts, if_pos rfl, hdone, Option.map_some]
    · simp only [if_neg hgone]
      exact ⟨_, hdone, rfl⟩

/-- **The writer of the server takes these steps**, on the context of its connection. -/
theorem outbox_of_handlerStep {lib : Libraries} {ref : ℕ} {hd hd' : Handler}
    {a : HandlerAction} {b : OutboxAction} (hc : m.contexts cid = some c)
    (h : handlerStep lib m ref cid hd a = some (m', hd')) (hb : a.toOutbox = some b)
    (handed : List OutboundMessage) :
    ∃ c' handed', m'.contexts cid = some c' ∧
      Outbox.step ⟨c, hd.writer, handed⟩ b = some ⟨c', hd'.writer, handed'⟩ := by
  cases a with
  | writerGets =>
      cases hb
      simp only [handlerStep, hc, Option.bind_some] at h
      split at h
      · rename_i message hwriter hhead
        split_ifs at h
        cases h
        refine ⟨c.takeOutbound, handed ++ [message], ?_, ?_⟩
        · rw [modifyContext_contexts, if_pos rfl, hc, Option.map_some]
        · simp only [Outbox.step, hwriter, hhead]
      · cases h
  | writerSends outcome =>
      cases hb
      simp only [handlerStep, hc] at h
      split at h
      · rename_i message _ context hwriter hcontext
        cases hcontext
        obtain ⟨c', hc', hafter⟩ := afterSend_sendStep hc hd outcome handed
        rw [Option.some.inj h, hwriter] at hafter
        rw [Option.some.inj h] at hc'
        refine ⟨c', handed, hc', ?_⟩
        simp only [Outbox.step, hwriter, hafter]
      · cases h
  | writerCancelled =>
      cases hb
      simp only [handlerStep] at h
      split at h
      · rename_i hwriter
        cases h
        refine ⟨c, handed, hc, ?_⟩
        simp only [Outbox.step, hwriter]
      · cases h
  | accepted | frame | frameRaises | receiveRaises | resolved | resolveRaises | flushed
  | writerAwaited | writerAwaitCancelled | closed => cases hb

end Server

/-! ### A client that is gone -/

/-- A connection of `alice` before anything was sent. -/
def quietOutbox : Outbox := ⟨freshContext {} aliceId aliceId 0, .waiting, []⟩

/-- A message was stored for its recipient. -/
def queuedAck : OutboundMessage := .deliveryAck 1 .queued

/-- Two messages are sent, and the client is gone after the second. -/
def lostAtTheEnd : List OutboxAction :=
  [.enqueueOutbound queuedAck, .enqueueOutbound queuedAck, .writerGets, .writerSends none,
    .writerGets, .writerSends (some .webSocketDisconnect), .joined]

/-- The client is gone while a second message is queued. -/
def lostOnTheWay : List OutboxAction :=
  [.enqueueOutbound queuedAck, .enqueueOutbound queuedAck, .writerGets,
    .writerSends (some .webSocketDisconnect), .joined]

theorem init_quietOutbox : outboxSystem.init quietOutbox := ⟨⟨_, rfl⟩, rfl, rfl⟩

/-- A client that is gone after the last message leaves the count right. -/
theorem flush_accounted_at_the_end :
    ∃ tr o, outboxSystem.Run quietOutbox tr o ∧ o.handed.length = 2 ∧ FlushAccounted tr o := by
  have hexec : (outboxSystem.exec quietOutbox lostAtTheEnd).map (fun o =>
      decide (o.handed.length = 2) && (outboxSystem.traceOf quietOutbox lostAtTheEnd).all fun e =>
        match e.2 with
        | .writerSends (some _) => e.1.context.outbound.items.isEmpty
        | _ => true) = some true := by
    decide +kernel
  obtain ⟨o, -, hrun, hp⟩ := System.exists_run_of_exec hexec
  rw [Bool.and_eq_true, decide_eq_true_eq, List.all_eq_true] at hp
  refine ⟨_, o, hrun, hp.1, (flush_accounted_iff init_quietOutbox hrun).2 fun e he hgone => ?_⟩
  have hempty := hp.2 e he
  obtain ⟨u, a⟩ := e
  cases a with
  | writerSends outcome =>
      cases outcome with
      | none => exact absurd hgone id
      | some error => exact List.isEmpty_iff.1 hempty
  | enqueueOutbound | otherwise | writerGets | writerCancelled | joined => exact absurd hgone id

/-- **A flush that forgets a message**: the client is gone while a message is queued, the count is
zero, and `join` returns although the message was never handed to `send_json`. -/
theorem flush_forgets_a_message :
    outboxSystem.init quietOutbox ∧
      ∃ tr o, outboxSystem.Run quietOutbox tr o ∧ (o, OutboxAction.joined) ∈ tr ∧
        o.context.outbound.unfinished = 0 ∧ o.context.outbound.items.length = 1 ∧
        o.context.outbound.accepted.length = 2 ∧ o.handed.length = 1 ∧ ¬ FlushAccounted tr o := by
  have hexec : (outboxSystem.exec quietOutbox lostOnTheWay.dropLast).map (fun o =>
      decide (o.context.outbound.unfinished = 0) &&
        decide (o.context.outbound.items.length = 1) &&
        decide (o.context.outbound.accepted.length = 2) && decide (o.handed.length = 1)) =
      some true := by
    decide +kernel
  obtain ⟨o, -, hrun, hp⟩ := System.exists_run_of_exec hexec
  simp only [Bool.and_eq_true, decide_eq_true_eq] at hp
  obtain ⟨⟨⟨hzero, hitems⟩, haccepted⟩, hhanded⟩ := hp
  have hjoined : outboxSystem.step o .joined = some o := if_pos hzero
  refine ⟨init_quietOutbox, _, o, hrun.snoc hjoined, by simp, hzero, hitems, haccepted, hhanded, ?_⟩
  intro haccounted
  have hsame := haccounted.joined o (by simp)
  rw [hsame, haccepted] at hhanded
  cases hhanded

end EncryptChat
