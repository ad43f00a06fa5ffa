/-
**Threads come to an end.**

A thread whose program is bounded performs so many operations and no more, whatever the others do;
so a pool that starts no new thread takes only so many steps.  That each of its threads *can* be
brought to its end is another matter: an operation may wait for another thread.  It is enough that
some unfinished thread can always take a step, for then the pool runs down by itself.

Main definitions:

* `Concurrent.Pool.Remaining` — how many steps the threads of a pool have left at most;
* `Concurrent.starts` — how many threads a run has started.

Main results:

* `Concurrent.length_le_of_run` — **a run is no longer than its threads make it**;
* `Concurrent.Pool.runs_down` — **a pool in which some thread can always go on runs down**.
-/

import EncryptChat.ThreadPool
import Mathlib.Algebra.BigOperators.Group.Finset.Basic
import Mathlib.Algebra.Order.BigOperators.Group.Finset

set_option relaxedAutoImplicit false
set_option autoImplicit false

namespace Concurrent

open Transition

variable {ι σ χ : Type} {Op : Type} {Ans : Op → Type} {ρ ε α : Type}

/-- The threads have `n` steps left at most. -/
def Pool.Remaining (p : Pool ι σ Ans ρ ε α) (n : ℕ) : Prop :=
  ∃ (S : Finset ι) (left : ι → ℕ),
    (∀ i th, p.threads i = some th → i ∈ S ∧ th.rest.Within (left i)) ∧ ∑ i ∈ S, left i ≤ n

/-- The thread has not ended. -/
def Thread.Unfinished (th : Thread Ans ρ ε α) : Prop := ∀ r, th.rest ≠ .done r

/-- The label starts a thread. -/
def PoolLabel.isStart : PoolLabel ι ρ χ → Bool
  | .start _ _ => true
  | .step _ _ => false

/-- How many threads a run has started. -/
def starts (tr : List (Pool ι σ Ans ρ ε α × PoolLabel ι ρ χ)) : ℕ :=
  tr.countP fun e => e.2.isStart

variable [DecidableEq ι] {exec : ι → (op : Op) → χ → σ → Option (σ × Ans op)}
  {code : ρ → Program Ans ε α} {p p' : Pool ι σ Ans ρ ε α}

/-- A new thread has all of its code to perform. -/
theorem Pool.Remaining.start {n N : ℕ} (h : p.Remaining n) {i : ι} {request : ρ}
    (hcode : (code request).Within N) (hstep : p.step exec code (.start i request) = some p') :
    p'.Remaining (n + N) := by
  obtain ⟨S, left, hleft, hsum⟩ := h
  obtain ⟨hnone, -, hupdate⟩ := Pool.step_start exec code hstep
  refine ⟨insert i S, Function.update left i N, fun j th hth => ?_, ?_⟩
  · rw [hupdate, Function.update_apply] at hth
    split_ifs at hth with hij
    · cases hth
      subst hij
      exact ⟨Finset.mem_insert_self .., by rwa [Function.update_self]⟩
    · rw [Function.update_of_ne hij]
      exact ⟨Finset.mem_insert_of_mem (hleft j th hth).1, (hleft j th hth).2⟩
  · have hothers : ∑ j ∈ S.erase i, Function.update left i N j = ∑ j ∈ S.erase i, left j :=
      Finset.sum_congr rfl fun j hj => Function.update_of_ne (Finset.ne_of_mem_erase hj) ..
    have hle : ∑ j ∈ S.erase i, left j ≤ ∑ j ∈ S, left j :=
      Finset.sum_le_sum_of_subset (Finset.erase_subset i S)
    rw [← Finset.insert_erase (Finset.mem_insert_self i S), Finset.erase_insert_eq_erase,
      Finset.sum_insert (Finset.notMem_erase i S), Function.update_self, hothers]
    omega

/-- **A step is one step less.** -/
theorem Pool.Remaining.step {n : ℕ} (h : p.Remaining n) {i : ι} {c : χ}
    (hstep : p.step exec code (.step i c) = some p') : ∃ m, n = m + 1 ∧ p'.Remaining m := by
  obtain ⟨S, left, hleft, hsum⟩ := h
  obtain ⟨request, op, next, seen, s, a, hth, -, -, hupdate⟩ := Pool.step_step exec code hstep
  obtain ⟨hi, hwithin⟩ := hleft i _ hth
  obtain ⟨k, hk⟩ : ∃ k, left i = k + 1 := by
    cases hl : left i with
    | zero =>
        rw [hl] at hwithin
        exact hwithin.elim
    | succ k => exact ⟨k, rfl⟩
  rw [hk] at hwithin
  have hsplit : ∑ j ∈ S, left j = left i + ∑ j ∈ S.erase i, left j :=
    (Finset.add_sum_erase S left hi).symm
  have hothers : ∑ j ∈ S.erase i, Function.update left i k j = ∑ j ∈ S.erase i, left j :=
    Finset.sum_congr rfl fun j hj => Function.update_of_ne (Finset.ne_of_mem_erase hj) ..
  refine ⟨n - 1, by omega, S, Function.update left i k, fun j th hthread => ?_, ?_⟩
  · rw [hupdate, Function.update_apply] at hthread
    split_ifs at hthread with hij
    · cases hthread
      subst hij
      exact ⟨hi, by rw [Function.update_self]; exact hwithin a⟩
    · rw [Function.update_of_ne hij]
      exact hleft j th hthread
  · rw [← Finset.add_sum_erase S _ hi, Function.update_self, hothers]
    omega

/-- What is left of a run that started with no thread. -/
theorem remaining_of_run {init : σ} {N : ℕ} (hcode : ∀ request, (code request).Within N)
    {t : Pool ι σ Ans ρ ε α} {tr : List (Pool ι σ Ans ρ ε α × PoolLabel ι ρ χ)}
    (h : (poolSystem exec code init).Run ⟨init, fun _ => none⟩ tr t) :
    ∃ n, t.Remaining n ∧ tr.length + n ≤ (N + 1) * starts tr := by
  induction h with
  | nil => exact ⟨0, ⟨∅, fun _ => 0, by rintro _ _ ⟨⟩, by simp⟩, by simp⟩
  | @snoc u w tr label _ hstep ih =>
      obtain ⟨n, hn, hlength⟩ := ih
      cases label with
      | start i request =>
          have hstart : u.step exec code (.start i request) = some w := hstep
          refine ⟨n + N, hn.start (hcode request) hstart, ?_⟩
          have hstarts : starts (tr ++ [(u, .start i request)]) = starts tr + 1 := by
            simp [starts, PoolLabel.isStart]
          rw [hstarts, List.length_append, List.length_singleton, Nat.mul_add]
          omega
      | step i c =>
          have hone : u.step exec code (.step i c) = some w := hstep
          obtain ⟨m, rfl, hm⟩ := hn.step hone
          refine ⟨m, hm, ?_⟩
          have hstarts : starts (tr ++ [(u, .step i c)]) = starts tr := by
            simp [starts, PoolLabel.isStart]
          rw [hstarts, List.length_append, List.length_singleton]
          omega

/-- **A run is no longer than its threads make it**, whatever the schedule. -/
theorem length_le_of_run {init : σ} {N : ℕ} (hcode : ∀ request, (code request).Within N)
    {t : Pool ι σ Ans ρ ε α} {tr : List (Pool ι σ Ans ρ ε α × PoolLabel ι ρ χ)}
    (h : (poolSystem exec code init).Run ⟨init, fun _ => none⟩ tr t) :
    tr.length ≤ (N + 1) * starts tr := by
  obtain ⟨n, -, hlength⟩ := remaining_of_run hcode h
  omega

/-- **A pool in which some thread can always go on runs down**: `I n` is what is known of the pool
while it has `n` steps left. -/
theorem Pool.runs_down {init : σ} {C : χ → Prop} {I : ℕ → Pool ι σ Ans ρ ε α → Prop}
    (hgoes : ∀ n p, I (n + 1) p → (∃ i th, p.threads i = some th ∧ th.Unfinished) →
      ∃ i c p', C c ∧ p.step exec code (.step i c) = some p' ∧ I n p')
    {n : ℕ} (hI : I n p) (hn : p.Remaining n) :
    ∃ tr t, (poolSystem exec code init).Run p tr t ∧
      (∀ e ∈ tr, ∃ i c, e.2 = .step i c ∧ C c) ∧
        ∀ i th, t.threads i = some th → ∃ r, th.rest = .done r := by
  induction n generalizing p with
  | zero =>
      refine ⟨[], p, System.Run.nil p, by simp, fun i th hth => ?_⟩
      obtain ⟨S, left, hleft, hsum⟩ := hn
      obtain ⟨hi, hwithin⟩ := hleft i th hth
      have hzero : left i = 0 := by
        have hle := Finset.single_le_sum (f := left) (fun _ _ => Nat.zero_le _) hi
        omega
      rw [hzero] at hwithin
      obtain ⟨request, rest, seen⟩ := th
      cases rest with
      | done r => exact ⟨r, rfl⟩
      | step op next => exact hwithin.elim
  | succ n ih =>
      by_cases hunfinished : ∃ i th, p.threads i = some th ∧ th.Unfinished
      · obtain ⟨i, c, p', hc, hstep, hI'⟩ := hgoes n p hI hunfinished
        obtain ⟨m, hm, hrem⟩ := hn.step hstep
        obtain rfl : m = n := by omega
        obtain ⟨tr, t, hrun, hlabels, hdone⟩ := ih hI' hrem
        have hfirst : (poolSystem exec code init).step p (.step i c) = some p' := hstep
        refine ⟨_, t, System.Run.head hfirst hrun, ?_, hdone⟩
        intro e he
        rcases List.mem_cons.1 he with rfl | he
        · exact ⟨i, c, rfl, hc⟩
        · exact hlabels e he
      · refine ⟨[], p, System.Run.nil p, by simp, fun i th hth => ?_⟩
        by_contra hne
        exact hunfinished ⟨i, th, hth, fun r hr => hne ⟨r, hr⟩⟩

end Concurrent
