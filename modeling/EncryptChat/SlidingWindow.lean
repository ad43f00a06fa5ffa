/-
**Sliding windows.**

Something is counted, and the count is cleared now and then.  Whoever lets a hit pass only while
fewer than `max` of the hits since the last clearing are younger than `w` has bounded the hits of
every half-open interval of length `w` in which nothing is cleared: the last hit of the interval has
seen all the others.

Main definitions:

* `SlidingWindow.halfOpen` — the half-open intervals, closed on the left or on the right;
* `SlidingWindow.Event`, `SlidingWindow.hits`, `SlidingWindow.since` — what is logged, all its hits,
  and those since the last clearing;
* `SlidingWindow.live` — how many of them are young at a time;
* `SlidingWindow.Throttled` — every hit has found fewer than `max` young ones;
* `SlidingWindow.Behind` — whatever is young in the one list of times has a match in the other.

Main results:

* `SlidingWindow.dropWhile_eq_filter` — dropping old times off the front of a sorted window;
* `SlidingWindow.Throttled.bounded` — **the bound on every interval**.
-/

import Mathlib.Algebra.Order.Group.Basic
import Mathlib.Data.List.Induction

set_option relaxedAutoImplicit false
set_option autoImplicit false

namespace SlidingWindow

/-! ### Intervals and ages -/

section Intervals

variable {T : Type} [AddCommGroup T] [LinearOrder T] {left : Bool} {a w x y z now now' : T}
  {l : List T}

/-- A half-open interval of length `w` from `a`, closed on the left or on the right. -/
def halfOpen (left : Bool) (a w x : T) : Bool :=
  if left then decide (a ≤ x) && decide (x < a + w) else decide (a < x) && decide (x ≤ a + w)

/-- The hits that are younger than `w` at the time `now`. -/
def live (w now : T) (l : List T) : ℕ := l.countP fun x => decide (now - w < x)

/-- An interval has everything between two of its times. -/
theorem halfOpen_of_between (hx : halfOpen left a w x = true) (hz : halfOpen left a w z = true)
    (hxy : x ≤ y) (hyz : y ≤ z) : halfOpen left a w y = true := by
  cases left with
  | true =>
      simp only [halfOpen, if_true, Bool.and_eq_true, decide_eq_true_eq] at hx hz ⊢
      exact ⟨hx.1.trans hxy, hyz.trans_lt hz.2⟩
  | false =>
      simp only [halfOpen, Bool.false_eq_true, if_false, Bool.and_eq_true, decide_eq_true_eq]
        at hx hz ⊢
      exact ⟨hx.1.trans_le hxy, hyz.trans hz.2⟩

variable [IsOrderedAddMonoid T]

/-- Two times of one interval are less than `w` apart. -/
theorem sub_lt_of_halfOpen (hx : halfOpen left a w x = true) (hy : halfOpen left a w y = true) :
    y - w < x := by
  rw [sub_lt_iff_lt_add]
  cases left with
  | true =>
      simp only [halfOpen, if_true, Bool.and_eq_true, decide_eq_true_eq] at hx hy
      exact hy.2.trans_le (add_le_add_left hx.1 w)
  | false =>
      simp only [halfOpen, Bool.false_eq_true, if_false, Bool.and_eq_true, decide_eq_true_eq]
        at hx hy
      exact hy.2.trans_lt (add_lt_add_left hx.1 w)

/-- Hits grow old. -/
theorem live_anti (h : now ≤ now') : live w now' l ≤ live w now l := by
  refine List.countP_mono_left fun x _ hx => ?_
  rw [decide_eq_true_eq] at hx ⊢
  exact (sub_le_sub_right h w).trans_lt hx

end Intervals

/-! ### Two lists of times -/

/-- The one list has, after any time, at most as many hits as the other. -/
def Behind {T : Type} [LinearOrder T] (l l' : List T) : Prop :=
  ∀ b, (l.countP fun x => decide (b < x)) ≤ l'.countP fun x => decide (b < x)

namespace Behind

variable {T : Type} [LinearOrder T] {l l' : List T} {x y : T}

theorem refl (l : List T) : Behind l l := fun _ => le_rfl

/-- The other list has one more. -/
theorem snoc_right (h : Behind l l') (x : T) : Behind l (l' ++ [x]) := by
  intro b
  rw [List.countP_append]
  exact (h b).trans (Nat.le_add_right _ _)

/-- Both have one more. -/
theorem snoc (h : Behind l l') (x : T) : Behind (l ++ [x]) (l' ++ [x]) := by
  intro b
  rw [List.countP_append, List.countP_append]
  exact Nat.add_le_add_right (h b) _

/-- The last hit of the other list happens later. -/
theorem later (h : Behind l (l' ++ [x])) (hle : x ≤ y) : Behind l (l' ++ [y]) := by
  intro b
  refine (h b).trans ?_
  rw [List.countP_append, List.countP_append, List.countP_singleton, List.countP_singleton]
  refine Nat.add_le_add_left ?_ _
  by_cases hb : b < x
  · rw [if_pos (by simpa using hb), if_pos (by simpa using hb.trans_le hle)]
  · rw [if_neg (by simpa using hb)]
    exact Nat.zero_le _

theorem live_le {T : Type} [AddCommGroup T] [LinearOrder T] {l l' : List T} (h : Behind l l')
    (w now : T) : live w now l ≤ live w now l' := h (now - w)

end Behind

/-- **Dropping old times off the front** of a sorted window drops all of them. -/
theorem dropWhile_eq_filter {T : Type} [LinearOrder T] {l : List T} (h : l.Pairwise (· ≤ ·))
    (b : T) :
    (l.dropWhile fun x => decide (x ≤ b)) = l.filter fun x => decide (b < x) := by
  induction l with
  | nil => rfl
  | cons x l ih =>
      rw [List.pairwise_cons] at h
      by_cases hx : x ≤ b
      · rw [List.dropWhile_cons_of_pos (by simpa using hx), ih h.2,
          List.filter_cons_of_neg (by simpa using hx)]
      · -- the first young time is followed by young ones
        have hall : ∀ y ∈ x :: l, decide (b < y) = true := by
          intro y hy
          rw [decide_eq_true_eq]
          rcases List.mem_cons.1 hy with rfl | hy
          · exact not_le.1 hx
          · exact (not_le.1 hx).trans_le (h.1 y hy)
        rw [List.dropWhile_cons_of_neg (by simpa using hx), List.filter_eq_self.2 hall]

/-! ### Logs -/

section Logs

variable {T : Type}

/-- What is logged: a hit, or that the count is cleared. -/
inductive Event (T : Type) where
  | hit (time : T)
  | clear (time : T)

/-- When it happened. -/
def Event.time : Event T → T
  | hit t => t
  | clear t => t

/-- The times of all hits. -/
def hits (log : List (Event T)) : List T :=
  log.filterMap fun
    | .hit t => some t
    | .clear _ => none

/-- The times of the hits since the last clearing. -/
def since (log : List (Event T)) : List T :=
  log.foldl (fun l e =>
    match e with
    | .hit t => l ++ [t]
    | .clear _ => []) []

@[simp] theorem since_hit (log : List (Event T)) (t : T) :
    since (log ++ [.hit t]) = since log ++ [t] := by
  simp [since, List.foldl_append]

@[simp] theorem since_clear (log : List (Event T)) (t : T) : since (log ++ [.clear t]) = [] := by
  simp [since, List.foldl_append]

@[simp] theorem hits_hit (log : List (Event T)) (t : T) :
    hits (log ++ [.hit t]) = hits log ++ [t] := by
  simp [hits, List.filterMap_append]

@[simp] theorem hits_clear (log : List (Event T)) (t : T) :
    hits (log ++ [.clear t]) = hits log := by
  simp [hits, List.filterMap_append]

/-- The hits since the last clearing have been logged. -/
theorem hit_mem_of_mem_since {log : List (Event T)} {t : T} (h : t ∈ since log) :
    Event.hit t ∈ log := by
  induction log using List.reverseRecOn with
  | nil => cases h
  | append_singleton log e ih =>
      cases e with
      | hit t' =>
          rw [since_hit, List.mem_append, List.mem_singleton] at h
          rcases h with h | rfl
          · exact List.mem_append_left _ (ih h)
          · exact List.mem_append_right _ List.mem_cons_self
      | clear t' =>
          rw [since_clear] at h
          cases h

end Logs

section Order

variable {T : Type} [LinearOrder T]

/-- The log is in the order of time. -/
def Sorted (log : List (Event T)) : Prop := (log.map Event.time).Pairwise (· ≤ ·)

theorem Sorted.snoc {log : List (Event T)} {e : Event T} (h : Sorted (log ++ [e])) :
    Sorted log ∧ ∀ e' ∈ log, e'.time ≤ e.time := by
  unfold Sorted at h
  rw [List.map_append, List.pairwise_append] at h
  exact ⟨h.1, fun e' he' => h.2.2 _ (List.mem_map_of_mem he') _ (by simp)⟩

end Order

section Throttled

variable {T : Type} [AddCommGroup T] [LinearOrder T]

/-- **Every hit has found fewer than `max` young ones** since the last clearing. -/
def Throttled (max : ℕ) (w : T) (log : List (Event T)) : Prop :=
  ∀ log₁ t log₂, log = log₁ ++ .hit t :: log₂ → live w t (since log₁) < max

theorem throttled_nil (max : ℕ) (w : T) : Throttled max w [] := by
  intro log₁ t log₂ h
  cases log₁ <;> cases h

/-- One more event. -/
theorem Throttled.snoc {max : ℕ} {w : T} {log : List (Event T)} (h : Throttled max w log)
    {e : Event T} (he : ∀ t, e = .hit t → live w t (SlidingWindow.since log) < max) :
    Throttled max w (log ++ [e]) := by
  intro log₁ t log₂ heq
  rcases List.eq_nil_or_concat log₂ with rfl | ⟨log₂, e', rfl⟩
  · obtain ⟨rfl, hlast⟩ := List.append_inj' heq rfl
    exact he t (List.cons.inj hlast).1
  · rw [List.concat_eq_append, ← List.cons_append, ← List.append_assoc] at heq
    obtain ⟨rfl, -⟩ := List.append_inj' heq rfl
    exact h log₁ t log₂ rfl

theorem Throttled.init {max : ℕ} {w : T} {log : List (Event T)} {e : Event T}
    (h : Throttled max w (log ++ [e])) : Throttled max w log := by
  rintro log₁ t log₂ rfl
  exact h log₁ t (log₂ ++ [e]) (by simp)

end Throttled

/-! ### The bound -/

section Bound

variable {T : Type} [AddCommGroup T] [LinearOrder T] [IsOrderedAddMonoid T] {left : Bool}
  {a w : T} {max : ℕ} {log : List (Event T)}

/-- What the last hit of an interval has seen of it: everything. -/
theorem countP_hits_le_live (hsorted : Sorted log)
    (hclear : ∀ t, .clear t ∈ log → halfOpen left a w t = false) {t : T}
    (ht : halfOpen left a w t = true) (hle : ∀ e ∈ log, e.time ≤ t) :
    (hits log).countP (halfOpen left a w) ≤ live w t (since log) := by
  induction log using List.reverseRecOn with
  | nil => exact Nat.zero_le _
  | append_singleton log e ih =>
      obtain ⟨hlog, hbefore⟩ := hsorted.snoc
      have hrest := ih hlog (fun t' h => hclear t' (List.mem_append_left _ h))
        fun e' h => hle e' (List.mem_append_left _ h)
      cases e with
      | hit x =>
          rw [hits_hit, since_hit, live, List.countP_append, List.countP_append]
          refine Nat.add_le_add hrest (List.countP_mono_left fun y hy hin => ?_)
          rw [decide_eq_true_eq]
          exact sub_lt_of_halfOpen hin ht
      | clear x =>
          -- the interval lies after the clearing
          have hout := hclear x (by simp)
          have hx : x ≤ t := hle (.clear x) (by simp)
          rw [hits_clear, since_clear]
          refine (List.countP_eq_zero.2 fun y hy hin => ?_).le
          have hyx : y ≤ x := by
            obtain ⟨e, he, hey⟩ := List.mem_filterMap.1 hy
            cases e with
            | hit y' =>
                cases hey
                exact hbefore _ he
            | clear => cases hey
          rw [halfOpen_of_between hin ht hyx hx] at hout
          cases hout

/-- **The bound on every interval** in which nothing is cleared. -/
theorem Throttled.bounded (h : Throttled max w log) (hsorted : Sorted log)
    (hclear : ∀ t, .clear t ∈ log → halfOpen left a w t = false) :
    (hits log).countP (halfOpen left a w) ≤ max := by
  induction log using List.reverseRecOn with
  | nil => exact Nat.zero_le _
  | append_singleton log e ih =>
      obtain ⟨hlog, hbefore⟩ := hsorted.snoc
      have hclear' : ∀ t, .clear t ∈ log → halfOpen left a w t = false :=
        fun t ht => hclear t (List.mem_append_left _ ht)
      have hrest := ih h.init hlog hclear'
      cases e with
      | clear t => rwa [hits_clear]
      | hit t =>
          rw [hits_hit, List.countP_append]
          by_cases ht : halfOpen left a w t = true
          · have hseen := countP_hits_le_live hlog hclear' ht hbefore
            have hroom := h log t [] rfl
            rw [List.countP_singleton, if_pos ht]
            omega
          · rw [List.countP_singleton, if_neg ht]
            exact hrest

end Bound

end SlidingWindow
