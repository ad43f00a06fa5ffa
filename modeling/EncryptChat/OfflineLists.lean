/-
**The offline queue as a family of bounded first-in first-out lists.**

The queue is a dictionary that gets an entry at the first message to a recipient and loses it when
the recipient is drained.  Seen from outside it is one list for each recipient: what has been
accepted for it and not been removed since.  An entry is there exactly when its list is not empty, so
nothing left behind takes up room.

Main definitions:

* `EncryptChat.OfflineQueue.clear`, `totalQueued` — the operations no handler calls;
* `EncryptChat.OfflineOp` — a call on the queue;
* `EncryptChat.OfflineQueue.Represents` — the queue holds a family of lists, and the entries are
  those of the lists that are not empty;
* `EncryptChat.pending` — what a run has accepted for a recipient and not removed;
* `EncryptChat.OfflineQueue.AnswersAs` — every operation answers as it does on the lists.

Main results:

* `EncryptChat.OfflineQueue.Represents.apply` — a call on the queue is one on the lists;
* `EncryptChat.represents_of_run` — after every run the queue holds what is pending;
* `EncryptChat.offline_queue_is_fifo` — **the queue answers as the lists do**, after every run.
-/

import EncryptChat.OfflineQueue
import EncryptChat.Transition
import Mathlib.Algebra.BigOperators.Finprod
import Mathlib.Data.Set.Card

set_option relaxedAutoImplicit false
set_option autoImplicit false

namespace EncryptChat

open Python Transition

variable {μ : Type*}

namespace OfflineQueue

/-- `clear()`. -/
def clear (q : OfflineQueue μ) : OfflineQueue μ := { q with queues := ∅ }

/-- The total number of envelopes queued across all recipients. -/
def totalQueued (q : OfflineQueue μ) : ℕ := (q.queues.entries.map fun e => e.2.length).sum

end OfflineQueue

/-! ### Calls -/

/-- A call on the queue. -/
inductive OfflineOp (μ : Type*) where
  | enqueue (recipient : PyStr) (envelope : μ)
  | drain (recipient : PyStr)
  | discard (recipient : PyStr)
  | count (recipient : PyStr)
  | clear

namespace OfflineOp

/-- What a call leaves of the queue. -/
def apply : OfflineOp μ → OfflineQueue μ → OfflineQueue μ
  | .enqueue r m, q => (q.enqueue r m).1
  | .drain r, q => (q.drain r).1
  | .discard r, q => q.discard r
  | .count _, q => q
  | .clear, q => q.clear

/-- The recipient a call is about, when it is about one. -/
def recipient? : OfflineOp μ → Option PyStr
  | .enqueue r _ | .drain r | .discard r | .count r => some r
  | .clear => none

/-- What a call does to the list of a recipient; whether an envelope is accepted is the answer of
the queue. -/
def onList (r : PyStr) (q : OfflineQueue μ) (l : List μ) : OfflineOp μ → List μ
  | .enqueue r' m => if r' = r then if (q.enqueue r' m).2 then l ++ [m] else l else l
  | .drain r' | .discard r' => if r' = r then [] else l
  | .count _ => l
  | .clear => []

end OfflineOp

/-- An offline queue under any sequence of calls. -/
def offlineSystem (maxPerRecipient maxRecipients : ℕ) :
    System (OfflineQueue μ) (OfflineOp μ) where
  init q := q = .new maxPerRecipient maxRecipients
  step q op := some (op.apply q)

/-- **What is pending for a recipient**: the envelopes whose enqueue was accepted since the last
call that removed them, in that order. -/
def pending (r : PyStr) (tr : List (OfflineQueue μ × OfflineOp μ)) : List μ :=
  tr.foldl (fun l e => e.2.onList r e.1 l) []

theorem pending_snoc (r : PyStr) (tr : List (OfflineQueue μ × OfflineOp μ)) (q : OfflineQueue μ)
    (op : OfflineOp μ) : pending r (tr ++ [(q, op)]) = op.onList r q (pending r tr) := by
  unfold pending
  rw [List.foldl_append]
  rfl

namespace OfflineQueue

variable {q : OfflineQueue μ} {lists : PyStr → List μ} {a b : ℕ}

/-! ### The lists a queue holds -/

/-- **The queue holds a family of lists** under the two bounds, and its entries are those of the
lists that are not empty. -/
structure Represents (a b : ℕ) (q : OfflineQueue μ) (lists : PyStr → List μ) : Prop where
  wf : q.WF
  perRecipient : q.maxPerRecipient = a
  recipients : q.maxRecipients = b
  queued : ∀ r, q.queued r = lists r

theorem represents_new : Represents a b (new a b : OfflineQueue μ) fun _ => [] :=
  ⟨wf_new a b, rfl, rfl, fun _ => rfl⟩

/-- Only lists that are not empty have an entry. -/
theorem WF.mem_iff (h : q.WF) (r : PyStr) : r ∈ q.queues ↔ q.queued r ≠ [] := by
  unfold OfflineQueue.queued
  cases hl : q.queues.lookup r with
  | none =>
      have hnot : r ∉ q.queues := Finmap.lookup_eq_none.1 hl
      simp [hnot]
  | some l =>
      have hmem : r ∈ q.queues := Finmap.mem_of_lookup_eq_some hl
      have hne : l ≠ [] := List.ne_nil_of_length_pos (h.nonempty r l hl)
      simp [hmem, hne]

/-- The recipients with an entry are those whose list is not empty. -/
theorem Represents.coe_keys (h : Represents a b q lists) :
    (q.queues.keys : Set PyStr) = {r | lists r ≠ []} := by
  ext r
  rw [Finset.mem_coe, Finmap.mem_keys, h.wf.mem_iff, h.queued]
  rfl

/-- The total is the sum over the entries. -/
theorem totalQueued_eq (q : OfflineQueue μ) :
    q.totalQueued = ∑ r ∈ q.queues.keys, (q.queued r).length := by
  have hsum : ∑ r ∈ q.queues.keys, (q.queued r).length =
      ((q.queues.entries.map Sigma.fst).map fun r => (q.queued r).length).sum := rfl
  rw [hsum, totalQueued, Multiset.map_map]
  congr 1
  refine Multiset.map_congr rfl fun e he => ?_
  have hl : q.queues.lookup e.1 = some e.2 := Finmap.mem_lookup_iff.2 he
  simp [queued, hl]

/-- Whether the lists have room for a message to a recipient. -/
theorem Represents.hasRoom_iff (h : Represents a b q lists) (ha : 0 < a) (r : PyStr) :
    q.HasRoom r ↔ lists r ≠ [] ∧ (lists r).length < a ∨
      lists r = [] ∧ {k | lists k ≠ []}.ncard < b := by
  have hcard : {k | lists k ≠ []}.ncard = q.recipientCount := by
    rw [← h.coe_keys, Set.ncard_coe_finset]
    rfl
  have hqueued := h.queued r
  rw [hcard, ← h.perRecipient, ← h.recipients]
  rw [← h.perRecipient] at ha
  unfold HasRoom
  unfold OfflineQueue.queued at hqueued
  cases hl : q.queues.lookup r with
  | none =>
      rw [hl, Option.getD_none] at hqueued
      simp [← hqueued, ha]
  | some l =>
      have hpos := h.wf.nonempty r l hl
      rw [hl, Option.getD_some] at hqueued
      simp [← hqueued, List.ne_nil_of_length_pos hpos]

/-- **A call on the queue is one on the lists.** -/
theorem Represents.apply (h : Represents a b q lists) (ha : 0 < a) (op : OfflineOp μ) :
    Represents a b (op.apply q) fun r => op.onList r q (lists r) := by
  have hpos : 0 < q.maxPerRecipient := by rw [h.perRecipient]; exact ha
  cases op with
  | enqueue r m =>
      obtain ⟨hper, hrec⟩ := enqueue_bounds q r m
      refine ⟨h.wf.enqueue hpos r m, hper.trans h.perRecipient, hrec.trans h.recipients, ?_⟩
      intro k
      by_cases hroom : q.HasRoom r
      -- accepted: the message is appended; refused: nothing moves
      · have haccepted := (enqueue_iff q r m).2 hroom
        have hqueued := queued_enqueue_of_room m hroom k
        simp only [OfflineOp.apply, OfflineOp.onList, haccepted, if_true]
        rw [hqueued, h.queued r, h.queued k]
        by_cases hk : k = r
        · subst hk
          simp
        · simp [hk, Ne.symm hk]
      · simp only [OfflineOp.apply, OfflineOp.onList, enqueue_of_refused hpos hroom,
          Bool.false_eq_true, if_false, ite_self]
        exact h.queued k
  | drain r =>
      refine ⟨h.wf.drain r, h.perRecipient, h.recipients, fun k => ?_⟩
      simp only [OfflineOp.apply, OfflineOp.onList, queued_drain, h.queued k, eq_comm]
  | discard r =>
      refine ⟨h.wf.discard r, h.perRecipient, h.recipients, fun k => ?_⟩
      have hqueued : (q.discard r).queued k = _ := queued_erase q r k
      simp only [OfflineOp.apply, OfflineOp.onList, hqueued, h.queued k, eq_comm]
  | count r => exact h
  | clear =>
      refine ⟨⟨?_, ?_, ?_⟩, h.perRecipient, h.recipients, fun k => ?_⟩
      · simp [OfflineOp.apply, clear, recipientCount]
      · simp [OfflineOp.apply, clear]
      · simp [OfflineOp.apply, clear]
      · simp [OfflineOp.apply, clear, OfflineOp.onList, OfflineQueue.queued]

/-- A call about a recipient leaves the list of every other one as it is. -/
theorem lookup_apply_of_ne (q : OfflineQueue μ) {op : OfflineOp μ} {r k : PyStr}
    (hop : op.recipient? = some r) (hk : k ≠ r) :
    (op.apply q).queues.lookup k = q.queues.lookup k := by
  cases op with
  | enqueue r' m =>
      cases hop
      simp only [OfflineOp.apply, OfflineQueue.enqueue, push]
      cases q.queues.lookup r with
      | none => dsimp only; split_ifs <;> simp [hk]
      | some l => dsimp only; split_ifs <;> simp [hk]
  | drain | discard =>
      cases hop
      exact Finmap.lookup_erase_ne hk
  | count => rfl
  | clear => cases hop

/-! ### What the queue answers -/

/-- **Every operation on the queue answers as it does on a family of lists** of at most `a`
messages, at most `b` of which are not empty. -/
structure AnswersAs (a b : ℕ) (q : OfflineQueue μ) (lists : PyStr → List μ) : Prop where
  drain : ∀ r, (q.drain r).2 = lists r
  untracked : ∀ r, r ∉ (q.drain r).1.queues
  tracked : ∀ r, r ∈ q.queues ↔ lists r ≠ []
  count : ∀ r, q.count r = (lists r).length
  finite : {r | lists r ≠ []}.Finite
  recipientCount : q.recipientCount = {r | lists r ≠ []}.ncard
  totalQueued : q.totalQueued = ∑ᶠ r, (lists r).length
  /-- A recipient that is tracked needs room in its list, another one needs room for a list. -/
  enqueue : ∀ r m, (q.enqueue r m).2 = true ↔
    r ∈ q.queues ∧ (lists r).length < a ∨ r ∉ q.queues ∧ {k | lists k ≠ []}.ncard < b
  refused : ∀ r m, (q.enqueue r m).2 = false → (q.enqueue r m).1 = q
  others : ∀ (op : OfflineOp μ) r, op.recipient? = some r →
    ∀ k, k ≠ r → (op.apply q).queues.lookup k = q.queues.lookup k

theorem Represents.answersAs (h : Represents a b q lists) (ha : 0 < a) : AnswersAs a b q lists where
  drain r := by rw [drain_snd, h.queued]
  untracked r := Finmap.lookup_eq_none.1 (lookup_drain q r)
  tracked r := by rw [h.wf.mem_iff, h.queued]
  count r := by rw [count_eq, h.queued]
  finite := by
    rw [← h.coe_keys]
    exact q.queues.keys.finite_toSet
  recipientCount := by
    rw [← h.coe_keys, Set.ncard_coe_finset]
    rfl
  totalQueued := by
    have hsupport : Function.support (fun r => (lists r).length) ⊆ q.queues.keys := by
      intro r hr
      rw [h.coe_keys]
      exact List.length_pos_iff.1 (Nat.pos_of_ne_zero hr)
    rw [finsum_eq_sum_of_support_subset _ hsupport, totalQueued_eq]
    exact Finset.sum_congr rfl fun r _ => by rw [h.queued]
  enqueue r m := by
    rw [enqueue_iff, h.hasRoom_iff ha, h.wf.mem_iff, h.queued, not_not]
  refused r m hrefused := by
    have hroom : ¬ q.HasRoom r := by
      rw [← enqueue_iff q r m, hrefused]
      exact Bool.false_ne_true
    rw [enqueue_of_refused (by rw [h.perRecipient]; exact ha) hroom]
  others op r hop k hk := q.lookup_apply_of_ne hop hk

end OfflineQueue

/-! ### Runs -/

variable {a b : ℕ} {q : OfflineQueue μ} {tr : List (OfflineQueue μ × OfflineOp μ)}

/-- After every run the queue holds what is pending. -/
theorem represents_of_run (ha : 0 < a) (h : (offlineSystem a b).Run (.new a b) tr q) :
    q.Represents a b fun r => pending r tr := by
  induction h with
  | nil => exact OfflineQueue.represents_new
  | @snoc v w tr op _ hstep ih =>
      cases hstep
      simp only [pending_snoc]
      exact ih.apply ha op

/-- **The offline queue is a family of bounded first-in first-out lists**: after every sequence of
calls it answers as the lists of what is pending do. -/
theorem offline_queue_is_fifo (ha : 0 < a) (h : (offlineSystem a b).Run (.new a b) tr q) :
    q.AnswersAs a b fun r => pending r tr :=
  (represents_of_run ha h).answersAs ha

/-- Calls that fill a queue for two messages to one recipient. -/
def fillingCalls : List (OfflineOp ℕ) :=
  [.enqueue (py "alice") 0, .drain (py "alice"), .enqueue (py "alice") 1, .enqueue (py "bob") 2,
    .enqueue (py "alice") 3, .enqueue (py "alice") 4, .discard (py "bob")]

/-- After them two messages to alice are pending: of the first one she has been drained, and the
message to bob and the last one were refused. -/
theorem offline_queue_is_fifo_full : ∃ (q : OfflineQueue ℕ) (tr : _),
    (offlineSystem 2 1).Run (.new 2 1) tr q ∧ tr.map Prod.snd = fillingCalls ∧
      pending (py "alice") tr = [1, 3] ∧ q.AnswersAs 2 1 fun r => pending r tr := by
  have hexec : ((offlineSystem 2 1).exec (.new 2 1) fillingCalls).map (fun _ => true) = some true :=
    by decide +kernel
  obtain ⟨q, -, hrun, -⟩ := System.exists_run_of_exec hexec
  exact ⟨q, _, hrun, rfl, by decide +kernel, offline_queue_is_fifo (by decide) hrun⟩

end EncryptChat
