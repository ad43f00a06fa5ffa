/-
**Bounded queues and duplicate-free sets, as Python programs use them.**

`Python.Queue` is `asyncio.Queue` seen from one event loop: `put_nowait` on a bounded list, the
taking of its head, and the count of unfinished tasks that `join` waits on.  Two facts are built
into the type, so that no queue can break them: the queue never holds more than its bound, and what
it holds is the tail of everything it ever accepted.  The list of everything accepted is a history
variable: no operation reads it.

`Python.PySet` is a `set` as a duplicate-free list, so that a loop over it is a loop over a list.
-/

import EncryptChat.PyText
import Mathlib.Data.List.Nodup
import Mathlib.Data.List.Infix
import Mathlib.Data.Finset.Card

set_option relaxedAutoImplicit false
set_option autoImplicit false

namespace Python

/-! ### Queues -/

/-- An `asyncio.Queue`. -/
structure Queue (α : Type*) where
  /-- The bound, `0` for none. -/
  maxsize : ℕ
  /-- What is waiting, oldest first. -/
  items : List α
  /-- The count `task_done` decreases and `join` waits on. -/
  unfinished : ℕ
  /-- Everything ever accepted, oldest first: a history variable, read by no operation. -/
  accepted : List α
  bounded : 0 < maxsize → items.length ≤ maxsize
  suffix : items <:+ accepted

namespace Queue

variable {α : Type*}

/-- `asyncio.Queue(maxsize)`. -/
def empty (maxsize : ℕ) : Queue α := ⟨maxsize, [], 0, [], fun _ => Nat.zero_le _, List.suffix_rfl⟩

/-- `full()`: an unbounded queue is never full. -/
def full (q : Queue α) : Bool := decide (0 < q.maxsize) && decide (q.maxsize ≤ q.items.length)

/-- Appending to the tail of a queue that is not full. -/
def push (q : Queue α) (x : α) (h : ¬ q.full) : Queue α where
  maxsize := q.maxsize
  items := q.items ++ [x]
  unfinished := q.unfinished + 1
  accepted := q.accepted ++ [x]
  bounded := by
    intro hpos
    simp only [full, hpos, decide_true, Bool.true_and, decide_eq_true_eq, not_le] at h
    rw [List.length_append, List.length_singleton]
    omega
  suffix := by
    obtain ⟨r, hr⟩ := q.suffix
    exact ⟨r, by rw [← hr, List.append_assoc]⟩

/-- `put_nowait(x)`; `none` is `QueueFull`. -/
def putNowait (q : Queue α) (x : α) : Option (Queue α) :=
  if h : q.full then none else some (q.push x h)

/-- What `get()` leaves. -/
def tail (q : Queue α) : Queue α where
  maxsize := q.maxsize
  items := q.items.tail
  unfinished := q.unfinished
  accepted := q.accepted
  bounded := by
    intro hpos
    have := q.bounded hpos
    rw [List.length_tail]
    omega
  suffix := (List.tail_suffix _).trans q.suffix

/-- `task_done()` under `suppress(ValueError)`: at zero it raises and changes nothing. -/
def taskDone (q : Queue α) : Queue α := { q with unfinished := q.unfinished - 1 }

@[simp] theorem empty_items (n : ℕ) : (empty n : Queue α).items = [] := rfl

@[simp] theorem empty_accepted (n : ℕ) : (empty n : Queue α).accepted = [] := rfl

@[simp] theorem empty_maxsize (n : ℕ) : (empty n : Queue α).maxsize = n := rfl

@[simp] theorem tail_accepted (q : Queue α) : q.tail.accepted = q.accepted := rfl

@[simp] theorem tail_maxsize (q : Queue α) : q.tail.maxsize = q.maxsize := rfl

@[simp] theorem taskDone_accepted (q : Queue α) : q.taskDone.accepted = q.accepted := rfl

@[simp] theorem taskDone_items (q : Queue α) : q.taskDone.items = q.items := rfl

@[simp] theorem taskDone_maxsize (q : Queue α) : q.taskDone.maxsize = q.maxsize := rfl

@[simp] theorem empty_unfinished (n : ℕ) : (empty n : Queue α).unfinished = 0 := rfl

@[simp] theorem tail_items (q : Queue α) : q.tail.items = q.items.tail := rfl

@[simp] theorem tail_unfinished (q : Queue α) : q.tail.unfinished = q.unfinished := rfl

@[simp] theorem taskDone_unfinished (q : Queue α) :
    q.taskDone.unfinished = q.unfinished - 1 := rfl

/-- A bounded queue is full exactly when it holds `maxsize` elements. -/
theorem full_iff {q : Queue α} (h : 0 < q.maxsize) : q.full ↔ q.items.length = q.maxsize := by
  have := q.bounded h
  simp only [full, h, decide_true, Bool.true_and, decide_eq_true_eq]
  omega

/-- What an accepted `put_nowait` does. -/
theorem putNowait_eq_some {q q' : Queue α} {x : α} (h : q.putNowait x = some q') :
    ¬ q.full ∧ q'.items = q.items ++ [x] ∧ q'.accepted = q.accepted ++ [x] ∧
      q'.maxsize = q.maxsize := by
  unfold putNowait at h
  split at h
  · simp at h
  · rename_i hfull
    simp only [Option.some.injEq] at h
    subst h
    exact ⟨hfull, rfl, rfl, rfl⟩

/-- An accepted message is one more unfinished task. -/
theorem putNowait_unfinished {q q' : Queue α} {x : α} (h : q.putNowait x = some q') :
    q'.unfinished = q.unfinished + 1 := by
  unfold putNowait at h
  split at h
  · cases h
  · cases h
    rfl

theorem putNowait_eq_none_iff {q : Queue α} {x : α} : q.putNowait x = none ↔ q.full := by
  unfold putNowait
  split <;> simp_all

end Queue

/-! ### Sets -/

/-- A Python `set` as a duplicate-free list. -/
structure PySet (α : Type*) where
  elems : List α
  nodup : elems.Nodup
  deriving DecidableEq

namespace PySet

variable {α : Type*}

instance : Membership α (PySet α) := ⟨fun s a => a ∈ s.elems⟩

theorem mem_def {s : PySet α} {a : α} : a ∈ s ↔ a ∈ s.elems := Iff.rfl

/-- `set()`. -/
def empty : PySet α := ⟨[], List.nodup_nil⟩

/-- `not s`. -/
def isEmpty (s : PySet α) : Bool := s.elems.isEmpty

/-- `len(s)`. -/
def card (s : PySet α) : ℕ := s.elems.length

@[simp] theorem notMem_empty (a : α) : a ∉ (empty : PySet α) := List.not_mem_nil

theorem isEmpty_iff {s : PySet α} : s.isEmpty = true ↔ ∀ a, a ∉ s := by
  simp [isEmpty, mem_def, List.eq_nil_iff_forall_not_mem]

/-- A set is not larger than one that contains it. -/
theorem card_le_of_subset {s t : PySet α} (h : ∀ a ∈ s, a ∈ t) : s.card ≤ t.card :=
  (List.subperm_of_subset s.nodup h).length_le

variable [DecidableEq α]

/-- `s.add(a)`. -/
def add (s : PySet α) (a : α) : PySet α := ⟨s.elems.insert a, List.Nodup.insert s.nodup⟩

/-- `s.discard(a)`. -/
def discard (s : PySet α) (a : α) : PySet α := ⟨s.elems.erase a, List.Nodup.erase a s.nodup⟩

@[simp] theorem mem_add {s : PySet α} {a b : α} : b ∈ s.add a ↔ b = a ∨ b ∈ s :=
  List.mem_insert_iff

@[simp] theorem mem_discard {s : PySet α} {a b : α} : b ∈ s.discard a ↔ b ≠ a ∧ b ∈ s :=
  List.Nodup.mem_erase_iff s.nodup

instance (a : α) (s : PySet α) : Decidable (a ∈ s) :=
  inferInstanceAs (Decidable (a ∈ s.elems))

theorem card_add_le (s : PySet α) (a : α) : (s.add a).card ≤ s.card + 1 := by
  change (s.elems.insert a).length ≤ s.elems.length + 1
  by_cases h : a ∈ s.elems
  · rw [List.insert_of_mem h]
    omega
  · rw [List.insert_of_not_mem h, List.length_cons]

theorem card_eq_toFinset (s : PySet α) : s.card = s.elems.toFinset.card :=
  (List.toFinset_card_of_nodup s.nodup).symm

@[simp] theorem isEmpty_add (s : PySet α) (a : α) : (s.add a).isEmpty = false := by
  rw [Bool.eq_false_iff, Ne, isEmpty_iff]
  exact fun h => h a (mem_add.2 (Or.inl rfl))

end PySet

end Python
