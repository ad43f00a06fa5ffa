/-
**The bounded offline queue.**

A dictionary from recipients to first-in first-out lists, bounded in both dimensions: how many
messages one recipient may have, and how many recipients may have any.  A refused message leaves
the queue as it was, so the refusal is visible to the sender and nothing queued is evicted.

* `EncryptChat.OfflineQueue.enqueue`, `drain`, `count`, `discard` — the operations;
* `EncryptChat.OfflineQueue.queued` — the list of one recipient, empty when it is not tracked;
* `EncryptChat.OfflineQueue.WF` — **the memory bound**: at most the maximal number of recipients,
  each with at least one and at most the maximal number of messages;
* `EncryptChat.OfflineQueue.enqueue_of_room`, `enqueue_of_refused` — what an enqueue does;
* `EncryptChat.OfflineQueue.enqueue_iff` — when an enqueue is accepted.
-/

import EncryptChat.PyText
import Mathlib.Data.Finmap

set_option relaxedAutoImplicit false
set_option autoImplicit false

namespace EncryptChat

open Python

/-- Per-recipient bounded queues held in memory; the queue never looks into a message. -/
structure OfflineQueue (μ : Type*) where
  maxPerRecipient : ℕ
  maxRecipients : ℕ
  queues : Finmap fun _ : PyStr => List μ

namespace OfflineQueue

variable {μ : Type*}

/-- `OfflineQueue(max_per_recipient, max_recipients)`. -/
def new (maxPerRecipient maxRecipients : ℕ) : OfflineQueue μ :=
  ⟨maxPerRecipient, maxRecipients, ∅⟩

/-- The number of recipients currently holding a queue. -/
def recipientCount (q : OfflineQueue μ) : ℕ := q.queues.keys.card

/-- The second half of `enqueue`: append to the deque of a tracked recipient unless it is full. -/
def push (q : OfflineQueue μ) (recipient : PyStr) (queued : List μ) (envelope : μ) :
    OfflineQueue μ × Bool :=
  if q.maxPerRecipient ≤ queued.length then (q, false)
  else ({ q with queues := q.queues.insert recipient (queued ++ [envelope]) }, true)

/-- `enqueue(recipient, envelope)`: a recipient that is not tracked gets a fresh deque first,
unless the maximal number of recipients is tracked already. -/
def enqueue (q : OfflineQueue μ) (recipient : PyStr) (envelope : μ) : OfflineQueue μ × Bool :=
  match q.queues.lookup recipient with
  | none =>
      if q.maxRecipients ≤ q.recipientCount then (q, false)
      -- tracked from here on, also when the push is refused
      else ({ q with queues := q.queues.insert recipient [] } : OfflineQueue μ).push
        recipient [] envelope
  | some queued => q.push recipient queued envelope

/-- `drain(recipient)`: remove and return every queued envelope. -/
def drain (q : OfflineQueue μ) (recipient : PyStr) : OfflineQueue μ × List μ :=
  ({ q with queues := q.queues.erase recipient }, (q.queues.lookup recipient).getD [])

/-- `count(recipient)`. -/
def count (q : OfflineQueue μ) (recipient : PyStr) : ℕ :=
  ((q.queues.lookup recipient).map List.length).getD 0

/-- `discard(recipient)`. -/
def discard (q : OfflineQueue μ) (recipient : PyStr) : OfflineQueue μ :=
  { q with queues := q.queues.erase recipient }

/-- The messages queued for a recipient. -/
def queued (q : OfflineQueue μ) (recipient : PyStr) : List μ := (q.queues.lookup recipient).getD []

/-- **The memory bound** of the offline queue. -/
structure WF (q : OfflineQueue μ) : Prop where
  recipients : q.recipientCount ≤ q.maxRecipients
  nonempty : ∀ r l, q.queues.lookup r = some l → 0 < l.length
  bounded : ∀ r l, q.queues.lookup r = some l → l.length ≤ q.maxPerRecipient

@[simp] theorem drain_snd (q : OfflineQueue μ) (r : PyStr) : (q.drain r).2 = q.queued r := rfl

theorem count_eq (q : OfflineQueue μ) (r : PyStr) : q.count r = (q.queued r).length := by
  unfold count queued
  cases q.queues.lookup r <;> rfl

/-! ### What the operations do to every recipient -/

theorem queued_insert (q : OfflineQueue μ) (r k : PyStr) (l : List μ) :
    ({ q with queues := q.queues.insert r l } : OfflineQueue μ).queued k =
      if k = r then l else q.queued k := by
  unfold queued
  by_cases h : k = r
  · subst h; simp
  · simp [h]

theorem queued_erase (q : OfflineQueue μ) (r k : PyStr) :
    ({ q with queues := q.queues.erase r } : OfflineQueue μ).queued k =
      if k = r then [] else q.queued k := by
  unfold queued
  by_cases h : k = r
  · subst h; simp
  · simp [Finmap.lookup_erase_ne h, h]

/-- Draining empties the list of the recipient and no other. -/
theorem queued_drain (q : OfflineQueue μ) (r k : PyStr) :
    (q.drain r).1.queued k = if k = r then [] else q.queued k := queued_erase q r k

/-- Draining leaves the recipient untracked. -/
theorem lookup_drain (q : OfflineQueue μ) (r : PyStr) : (q.drain r).1.queues.lookup r = none := by
  simp [drain]

/-- The queue has room for a message to a recipient. -/
def HasRoom (q : OfflineQueue μ) (r : PyStr) : Prop :=
  match q.queues.lookup r with
  | none => q.recipientCount < q.maxRecipients ∧ 0 < q.maxPerRecipient
  | some l => l.length < q.maxPerRecipient

instance (q : OfflineQueue μ) (r : PyStr) : Decidable (q.HasRoom r) := by
  unfold HasRoom
  cases q.queues.lookup r <;> infer_instance

/-- **What an accepted enqueue does**: the message goes to the tail of the recipient's list. -/
theorem enqueue_of_room {q : OfflineQueue μ} {r : PyStr} (m : μ) (h : q.HasRoom r) :
    q.enqueue r m = ({ q with queues := q.queues.insert r (q.queued r ++ [m]) }, true) := by
  unfold HasRoom at h
  unfold enqueue push queued
  cases hl : q.queues.lookup r with
  | none =>
      simp only [hl] at h
      have hr : ¬ q.maxRecipients ≤ q.recipientCount := by omega
      have hp : q.maxPerRecipient ≠ 0 := by omega
      simp [hr, hp]
  | some l =>
      simp only [hl] at h
      simp [h]

/-- An enqueue without room is refused. -/
theorem enqueue_of_not_room {q : OfflineQueue μ} {r : PyStr} (m : μ) (h : ¬ q.HasRoom r) :
    (q.enqueue r m).2 = false := by
  unfold HasRoom at h
  unfold enqueue push
  cases hl : q.queues.lookup r with
  | none =>
      simp only [hl, not_and, not_lt] at h ⊢
      split_ifs with hr hp
      · rfl
      · rfl
      · exact absurd (h (by omega)) hp
  | some l =>
      simp only [hl, not_lt] at h ⊢
      rw [if_pos h]

/-- **An enqueue is accepted exactly when the queue has room.** -/
theorem enqueue_iff (q : OfflineQueue μ) (r : PyStr) (m : μ) :
    (q.enqueue r m).2 = true ↔ q.HasRoom r := by
  by_cases h : q.HasRoom r
  · simp [enqueue_of_room m h, h]
  · simp [enqueue_of_not_room m h, h]

/-- **A refused enqueue changes nothing**, when a recipient may have at least one message. -/
theorem enqueue_of_refused {q : OfflineQueue μ} (hpos : 0 < q.maxPerRecipient) {r : PyStr} {m : μ}
    (h : ¬ q.HasRoom r) : q.enqueue r m = (q, false) := by
  unfold HasRoom at h
  unfold enqueue push
  cases hl : q.queues.lookup r with
  | none =>
      simp only [hl, not_and, not_lt] at h ⊢
      rw [if_pos (by by_contra hr; have := h (by omega); omega)]
  | some l =>
      simp only [hl, not_lt] at h ⊢
      rw [if_pos h]

/-- The lists after an accepted enqueue. -/
theorem queued_enqueue_of_room {q : OfflineQueue μ} {r : PyStr} (m : μ) (h : q.HasRoom r)
    (k : PyStr) :
    (q.enqueue r m).1.queued k = if k = r then q.queued r ++ [m] else q.queued k := by
  rw [enqueue_of_room m h]
  exact queued_insert q r k _

/-- A refused enqueue may leave a deque behind, but an empty one. -/
theorem queued_enqueue_of_not_room {q : OfflineQueue μ} {r : PyStr} (m : μ) (h : ¬ q.HasRoom r)
    (k : PyStr) : (q.enqueue r m).1.queued k = q.queued k := by
  unfold HasRoom at h
  unfold enqueue push
  cases hl : q.queues.lookup r with
  | none =>
      simp only [hl, not_and, not_lt] at h ⊢
      split_ifs with hr hp
      · rfl
      · rw [queued_insert]
        split_ifs with hk
        · rw [hk, queued, hl]
          rfl
        · rfl
      · exact absurd (h (by omega)) hp
  | some l =>
      simp only [hl, not_lt] at h ⊢
      rw [if_pos h]

/-- The bounds of the queue are never changed. -/
theorem enqueue_bounds (q : OfflineQueue μ) (r : PyStr) (m : μ) :
    (q.enqueue r m).1.maxPerRecipient = q.maxPerRecipient ∧
      (q.enqueue r m).1.maxRecipients = q.maxRecipients := by
  unfold enqueue push
  cases q.queues.lookup r with
  | none => dsimp only; split_ifs <;> exact ⟨rfl, rfl⟩
  | some l => dsimp only; split_ifs <;> exact ⟨rfl, rfl⟩

/-! ### The memory bound is kept -/

theorem wf_new (a b : ℕ) : (new a b : OfflineQueue μ).WF where
  recipients := by simp [new, recipientCount]
  nonempty := by simp [new]
  bounded := by simp [new]

theorem WF.erase {q : OfflineQueue μ} (h : q.WF) (r : PyStr) :
    ({ q with queues := q.queues.erase r } : OfflineQueue μ).WF where
  recipients := by
    have hcard : (q.queues.keys.erase r).card ≤ q.queues.keys.card :=
      Finset.card_le_card (Finset.erase_subset _ _)
    simpa [recipientCount, Finmap.keys_erase] using hcard.trans h.recipients
  nonempty := by
    intro k l hl
    by_cases hk : k = r
    · subst hk; simp at hl
    · exact h.nonempty k l (by simpa [Finmap.lookup_erase_ne hk] using hl)
  bounded := by
    intro k l hl
    by_cases hk : k = r
    · subst hk; simp at hl
    · exact h.bounded k l (by simpa [Finmap.lookup_erase_ne hk] using hl)

theorem WF.enqueue {q : OfflineQueue μ} (hq : q.WF) (hpos : 0 < q.maxPerRecipient) (r : PyStr)
    (m : μ) : (q.enqueue r m).1.WF := by
  by_cases h : q.HasRoom r
  swap
  · rw [enqueue_of_refused hpos h]
    exact hq
  rw [enqueue_of_room m h]
  have hkeys : (q.queues.insert r (q.queued r ++ [m])).keys = insert r q.queues.keys := by
    ext k
    simp [Finmap.mem_keys, Finmap.mem_insert]
  unfold HasRoom at h
  refine ⟨?_, ?_, ?_⟩
  · -- a recipient not tracked yet is only added below the maximal number
    simp only [recipientCount, hkeys]
    cases hl : q.queues.lookup r with
    | none =>
        have hnew : r ∉ q.queues.keys := by
          rw [Finmap.mem_keys, ← Finmap.lookup_eq_none]
          exact hl
        rw [hl] at h
        rw [Finset.card_insert_of_notMem hnew]
        exact h.1
    | some l =>
        have hold : r ∈ q.queues.keys := Finmap.mem_keys.2 (Finmap.mem_of_lookup_eq_some hl)
        rw [Finset.insert_eq_of_mem hold]
        exact hq.recipients
  · intro k l hl
    by_cases hk : k = r
    · subst hk
      simp only [Finmap.lookup_insert, Option.some.injEq] at hl
      simp [← hl]
    · rw [Finmap.lookup_insert_of_ne _ hk] at hl
      exact hq.nonempty k l hl
  · intro k l hl
    by_cases hk : k = r
    · subst hk
      simp only [Finmap.lookup_insert, Option.some.injEq] at hl
      subst hl
      unfold queued
      cases hr : q.queues.lookup k with
      | none =>
          simp only [Option.getD_none, List.nil_append, List.length_singleton]
          omega
      | some l' =>
          rw [hr] at h
          simp only [Option.getD_some, List.length_append, List.length_singleton]
          omega
    · rw [Finmap.lookup_insert_of_ne _ hk] at hl
      exact hq.bounded k l hl

theorem WF.drain {q : OfflineQueue μ} (h : q.WF) (r : PyStr) : (q.drain r).1.WF := h.erase r

theorem WF.discard {q : OfflineQueue μ} (h : q.WF) (r : PyStr) : (q.discard r).WF := h.erase r

end OfflineQueue

end EncryptChat
