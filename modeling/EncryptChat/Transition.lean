/-
**Runs of labelled transition systems with a partial step function.**

A system is a set of initial states and a step that, given a state and a label, either yields the
next state or is not enabled.  A run carries the list of the steps it took, each with the state it
was taken in, so that a statement about a run can speak of *earlier* steps without a history
variable in the state.

Main definitions:

* `Transition.System` — initial states and a partial step;
* `Transition.System.Run` — `S.Run s tr t`: the steps of `tr` lead from `s` to `t`;
* `Transition.System.Reachable` — the end of a run that starts initially;
* `Transition.System.exec` — the run of a list of labels, computed;
* `Transition.System.Projection` — one system seen as a component of another.

Main results:

* `Transition.System.Run.invariant`, `Transition.System.Reachable.invariant` — the induction rule,
  packaged once;
* `Transition.System.Run.invariant_of` — the same rule for runs whose steps all meet a condition;
* `Transition.System.Run.exists_creator` — what holds at the end of a run and did not hold at its
  start was made true by one of its steps;
* `Transition.System.exec_run` — the computed run is a run;
* `Transition.System.Projection.run` — what a component does in a run is a run of the component.
-/

import Mathlib.Data.List.Basic
import Mathlib.Tactic.Common

set_option relaxedAutoImplicit false
set_option autoImplicit false

namespace Transition

/-- A labelled transition system: initial states, and a step that may be disabled. -/
structure System (σ α : Type*) where
  /-- The states a run may start in. -/
  init : σ → Prop
  /-- The step under a label, `none` where it is not enabled. -/
  step : σ → α → Option σ

namespace System

variable {σ α : Type*} {S : System σ α}

/-- `S.Run s tr t`: the steps of `tr` lead from `s` to `t`.  An entry of `tr` is the state a step
was taken in together with its label. -/
inductive Run (S : System σ α) : σ → List (σ × α) → σ → Prop
  | nil (s : σ) : Run S s [] s
  | snoc {s t u : σ} {tr : List (σ × α)} {a : α} :
      Run S s tr t → S.step t a = some u → Run S s (tr ++ [(t, a)]) u

/-- The end of a run that starts in an initial state. -/
def Reachable (S : System σ α) (s : σ) : Prop := ∃ s₀ tr, S.init s₀ ∧ S.Run s₀ tr s

namespace Run

theorem trans {s t u : σ} {tr tr' : List (σ × α)} (h : S.Run s tr t) (h' : S.Run t tr' u) :
    S.Run s (tr ++ tr') u := by
  induction h' with
  | nil => simpa using h
  | snoc _ hstep ih => rw [← List.append_assoc]; exact ih.snoc hstep

theorem single {s t : σ} {a : α} (h : S.step s a = some t) : S.Run s [(s, a)] t := by
  simpa using (Run.nil s).snoc h

/-- A step followed by a run. -/
theorem head {s t u : σ} {a : α} {tr : List (σ × α)} (h : S.step s a = some t)
    (h' : S.Run t tr u) : S.Run s ((s, a) :: tr) u := by
  simpa using (single h).trans h'

/-- A run can be cut at each of its steps. -/
theorem split {s u : σ} {tr : List (σ × α)} (h : S.Run s tr u) :
    ∀ {tr₁ tr₂ : List (σ × α)} {t : σ} {a : α}, tr = tr₁ ++ (t, a) :: tr₂ →
      ∃ t', S.Run s tr₁ t ∧ S.step t a = some t' ∧ S.Run t' tr₂ u := by
  induction h with
  | nil => intro tr₁ tr₂ t a htr; simp at htr
  | @snoc v w tr b hrun hstep ih =>
      intro tr₁ tr₂ t a htr
      rcases List.eq_nil_or_concat tr₂ with rfl | ⟨tr₃, e, rfl⟩
      · -- the cut is at the last step
        obtain ⟨rfl, hlast⟩ := List.append_inj' htr rfl
        simp only [List.cons.injEq, Prod.mk.injEq, and_true] at hlast
        obtain ⟨rfl, rfl⟩ := hlast
        exact ⟨w, hrun, hstep, Run.nil w⟩
      · have hassoc : tr ++ [(v, b)] = (tr₁ ++ (t, a) :: tr₃) ++ [e] := by
          rw [htr]; simp
        obtain ⟨htr', hlast⟩ := List.append_inj' hassoc rfl
        simp only [List.cons.injEq, and_true] at hlast
        subst hlast
        obtain ⟨t', h₁, h₂, h₃⟩ := ih htr'
        exact ⟨t', h₁, h₂, by simpa using h₃.snoc hstep⟩

/-- The state a step of a run was taken in is reached by the steps before it. -/
theorem of_mem {s u : σ} {tr : List (σ × α)} (h : S.Run s tr u) {t : σ} {a : α}
    (hmem : (t, a) ∈ tr) :
    ∃ tr₁ tr₂ t', tr = tr₁ ++ (t, a) :: tr₂ ∧ S.Run s tr₁ t ∧ S.step t a = some t' ∧
      S.Run t' tr₂ u := by
  obtain ⟨tr₁, tr₂, htr⟩ := List.append_of_mem hmem
  obtain ⟨t', h₁, h₂, h₃⟩ := h.split htr
  exact ⟨tr₁, tr₂, t', htr, h₁, h₂, h₃⟩

/-- **The invariant rule for runs whose steps all meet a condition.** -/
theorem invariant_of {P : σ → Prop} {C : σ → α → Prop}
    (hstep : ∀ s a s', P s → C s a → S.step s a = some s' → P s') {s t : σ}
    {tr : List (σ × α)} (h : S.Run s tr t) (hC : ∀ e ∈ tr, C e.1 e.2) (hP : P s) : P t := by
  induction h with
  | nil => exact hP
  | @snoc v w tr a _ hs ih =>
      have hv : P v := ih fun e he => hC e (List.mem_append_left _ he)
      exact hstep v a w hv (hC (v, a) (by simp)) hs

/-- **The invariant rule**: what every step preserves holds at the end of a run. -/
theorem invariant {P : σ → Prop} (hstep : ∀ s a s', P s → S.step s a = some s' → P s')
    {s t : σ} {tr : List (σ × α)} (h : S.Run s tr t) (hP : P s) : P t :=
  h.invariant_of (C := fun _ _ => True) (fun s a s' hs _ => hstep s a s' hs) (fun _ _ => trivial) hP

/-- What holds at the end of a run and not at its start was made true by one of its steps. -/
theorem exists_creator {P : σ → Prop} {s t : σ} {tr : List (σ × α)} (h : S.Run s tr t)
    (hs : ¬ P s) (ht : P t) :
    ∃ tr₁ tr₂ u a u', tr = tr₁ ++ (u, a) :: tr₂ ∧ S.Run s tr₁ u ∧ S.step u a = some u' ∧
      S.Run u' tr₂ t ∧ ¬ P u ∧ P u' := by
  induction h with
  | nil => exact absurd ht hs
  | @snoc v w tr a hrun hstep ih =>
      by_cases hv : P v
      · obtain ⟨tr₁, tr₂, u, b, u', rfl, h₁, h₂, h₃, h₄, h₅⟩ := ih hv
        exact ⟨tr₁, tr₂ ++ [(v, a)], u, b, u', by simp, h₁, h₂, h₃.snoc hstep, h₄, h₅⟩
      · exact ⟨tr, [], v, a, w, rfl, hrun, hstep, Run.nil w, hv, ht⟩

end Run

namespace Reachable

/-- An initial state is reachable. -/
theorem init {s : σ} (h : S.init s) : S.Reachable s := ⟨s, [], h, Run.nil s⟩

theorem step {s s' : σ} {a : α} (h : S.Reachable s) (hs : S.step s a = some s') :
    S.Reachable s' := by
  obtain ⟨s₀, tr, h₀, hrun⟩ := h
  exact ⟨s₀, _, h₀, hrun.snoc hs⟩

/-- **The invariant rule**: what holds initially and is preserved by every step holds in every
reachable state. -/
theorem invariant {P : σ → Prop} (hinit : ∀ s, S.init s → P s)
    (hstep : ∀ s a s', P s → S.step s a = some s' → P s') {s : σ} (h : S.Reachable s) : P s := by
  obtain ⟨s₀, tr, h₀, hrun⟩ := h
  exact hrun.invariant hstep (hinit s₀ h₀)

end Reachable

/-- The run of a list of labels, computed: `none` as soon as a step is not enabled. -/
def exec (S : System σ α) : σ → List α → Option σ
  | s, [] => some s
  | s, a :: as => (S.step s a).bind fun s' => S.exec s' as

/-- The trace of the computed run. -/
def traceOf (S : System σ α) : σ → List α → List (σ × α)
  | _, [] => []
  | s, a :: as => (s, a) :: ((S.step s a).map fun s' => S.traceOf s' as).getD []

/-- The trace of the computed run has no other labels. -/
theorem mem_of_mem_traceOf {t : σ} {a : α} :
    ∀ {as : List α} {s : σ}, (t, a) ∈ S.traceOf s as → a ∈ as
  | [], _, h => by simp [traceOf] at h
  | b :: as, s, h => by
      rw [traceOf, List.mem_cons] at h
      rcases h with h | h
      · simp only [Prod.mk.injEq] at h
        exact h.2 ▸ List.mem_cons_self
      · cases hs : S.step s b with
        | none => simp [hs] at h
        | some s' => exact List.mem_cons_of_mem _ (mem_of_mem_traceOf (by simpa [hs] using h))

/-- **The computed run is a run.** -/
theorem exec_run : ∀ {as : List α} {s t : σ}, S.exec s as = some t → S.Run s (S.traceOf s as) t
  | [], s, t, h => by
      simp only [exec, Option.some.injEq] at h
      subst h
      exact Run.nil s
  | a :: as, s, t, h => by
      simp only [exec, Option.bind_eq_some_iff] at h
      obtain ⟨s', hs, ht⟩ := h
      have hrun := Run.head hs (exec_run ht)
      simpa [traceOf, hs] using hrun

/-- A list of labels is run part by part. -/
theorem exec_append : ∀ (as bs : List α) (s : σ),
    S.exec s (as ++ bs) = (S.exec s as).bind fun t => S.exec t bs
  | [], _, _ => rfl
  | a :: as, bs, s => by
      simp only [List.cons_append, exec]
      cases S.step s a with
      | none => rfl
      | some s' => exact exec_append as bs s'

/-- The state a computed run ends in is reachable. -/
theorem exec_reachable {as : List α} {s t : σ} (hs : S.init s) (h : S.exec s as = some t) :
    S.Reachable t :=
  ⟨s, _, hs, exec_run h⟩

/-- A computed run whose last state passes a test ends in a state that does. -/
theorem exists_run_of_exec {as : List α} {s : σ} {p : σ → Bool}
    (h : (S.exec s as).map p = some true) :
    ∃ t, S.exec s as = some t ∧ S.Run s (S.traceOf s as) t ∧ p t = true := by
  cases ht : S.exec s as with
  | none => simp [ht] at h
  | some t => exact ⟨t, rfl, exec_run ht, by simpa [ht] using h⟩

/-- Two computed runs, one after the other, whose last states pass a test. -/
theorem exists_runs_of_exec {as bs : List α} {s : σ} {p : σ → σ → Bool}
    (h : ((S.exec s as).bind fun v => (S.exec v bs).map (p v)) = some true) :
    ∃ v t, S.Run s (S.traceOf s as) v ∧ S.Run v (S.traceOf v bs) t ∧ p v t = true := by
  obtain ⟨v, hv, hp⟩ := Option.bind_eq_some_iff.1 h
  obtain ⟨t, -, hrun, hp⟩ := exists_run_of_exec hp
  exact ⟨v, t, exec_run hv, hrun, hp⟩

/-! ### Components -/

/-- A system `T` as a component of a system `S`: its state is a part of the state of `S`, and a step
of `S` takes one step of it, or none and leaves it as it is. -/
structure Projection {τ β : Type*} (S : System σ α) (T : System τ β) where
  /-- The state of the component. -/
  state : σ → τ
  /-- The step the component takes, if it takes one. -/
  label : σ → α → Option β
  step_of_label : ∀ {s a s' b}, S.step s a = some s' → label s a = some b →
    T.step (state s) b = some (state s')
  state_of_none : ∀ {s a s'}, S.step s a = some s' → label s a = none → state s' = state s

namespace Projection

variable {τ β : Type*} {T : System τ β} (P : Projection S T)

/-- The steps of the component. -/
def trace (tr : List (σ × α)) : List (τ × β) :=
  tr.filterMap fun e => (P.label e.1 e.2).map fun b => (P.state e.1, b)

theorem trace_append (tr tr' : List (σ × α)) : P.trace (tr ++ tr') = P.trace tr ++ P.trace tr' :=
  List.filterMap_append

/-- A step of the component is one of the whole system. -/
theorem mem_trace {tr : List (σ × α)} {e : τ × β} :
    e ∈ P.trace tr ↔ ∃ s a, (s, a) ∈ tr ∧ P.state s = e.1 ∧ P.label s a = some e.2 := by
  simp only [trace, List.mem_filterMap, Option.map_eq_some_iff]
  constructor
  · rintro ⟨⟨s, a⟩, hmem, b, hb, rfl⟩
    exact ⟨s, a, hmem, rfl, hb⟩
  · rintro ⟨s, a, hmem, hs, hb⟩
    exact ⟨(s, a), hmem, e.2, hb, Prod.ext hs rfl⟩

/-- **What a component does in a run is a run of the component.** -/
theorem run {s t : σ} {tr : List (σ × α)} (h : S.Run s tr t) :
    T.Run (P.state s) (P.trace tr) (P.state t) := by
  induction h with
  | nil => exact Run.nil _
  | @snoc u w tr a _ hstep ih =>
      rw [trace_append]
      cases hlabel : P.label u a with
      | none =>
          have hnone : P.trace [(u, a)] = [] := by simp [trace, hlabel]
          rw [hnone, List.append_nil, P.state_of_none hstep hlabel]
          exact ih
      | some b =>
          have hone : P.trace [(u, a)] = [(P.state u, b)] := by simp [trace, hlabel]
          rw [hone]
          exact ih.snoc (P.step_of_label hstep hlabel)

end Projection

end System

end Transition
