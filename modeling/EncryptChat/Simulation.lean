/-
**Lockstep simulations.**

Two transition systems are compared label by label: a relation on states and a relation on labels,
such that whatever step one system takes, the other takes one too under every related label, to a
related state.  A run of the first is then followed by a run of the second under any related
labels, and whatever the steps put out, as far as related states and labels determine it, is put
out by both.

Main definitions:

* `Transition.System.Lockstep` — the two relations, and the step that keeps them;
* `Transition.System.Lockstep.Entries` — two entries of traces that are related.

Main results:

* `Transition.System.Lockstep.run` — **runs are followed**, entry by entry;
* `Transition.System.Lockstep.output` — what related traces put out is the same.
-/

import EncryptChat.Transition
import Mathlib.Data.List.Forall2

set_option relaxedAutoImplicit false
set_option autoImplicit false

namespace Transition

namespace System

variable {σ τ α β : Type*}

/-- A relation on states and one on labels, kept by steps taken together. -/
structure Lockstep (S : System σ α) (T : System τ β) where
  States : σ → τ → Prop
  Labels : α → β → Prop
  /-- A step is followed under every related label. -/
  step : ∀ {s s' a t b}, States s t → Labels a b → S.step s a = some s' →
    ∃ t', T.step t b = some t' ∧ States s' t'

/-- Two related options are both empty, or hold related values. -/
theorem cases_of_rel {R : α → β → Prop} {o : Option α} {o' : Option β} (h : Option.Rel R o o') :
    (o = none ∧ o' = none) ∨ ∃ a b, o = some a ∧ o' = some b ∧ R a b := by
  cases h with
  | none => exact .inl ⟨rfl, rfl⟩
  | some hab => exact .inr ⟨_, _, rfl, rfl, hab⟩

/-- A list related to one with a last element has a last element. -/
theorem exists_of_forall₂_concat {R : α → β → Prop} {as : List α} {a : α} {bs : List β}
    (h : List.Forall₂ R (as ++ [a]) bs) :
    ∃ bs' b, bs = bs' ++ [b] ∧ List.Forall₂ R as bs' ∧ R a b := by
  have hreverse := List.forall₂_reverse_iff.2 h
  rw [List.reverse_append, List.reverse_singleton, List.singleton_append,
    List.forall₂_cons_left_iff] at hreverse
  obtain ⟨b, cs, hab, hcs, hbs⟩ := hreverse
  refine ⟨cs.reverse, b, ?_, ?_, hab⟩
  · rw [← List.reverse_reverse bs, hbs, List.reverse_cons]
  · rw [← List.forall₂_reverse_iff, List.reverse_reverse]
    exact hcs

/-- A member of a list is related to a member of any list related to it. -/
theorem exists_mem_of_forall₂ {R : α → β → Prop} {as : List α} {bs : List β}
    (h : List.Forall₂ R as bs) {a : α} (ha : a ∈ as) : ∃ b ∈ bs, R a b := by
  induction h with
  | nil => cases ha
  | @cons x y _ _ hxy _ ih =>
      rcases List.mem_cons.1 ha with rfl | ha
      · exact ⟨y, List.mem_cons_self, hxy⟩
      · obtain ⟨b, hb, hab⟩ := ih ha
        exact ⟨b, List.mem_cons_of_mem _ hb, hab⟩

/-- The computed run takes the steps it was given. -/
theorem map_snd_traceOf {S : System σ α} :
    ∀ {as : List α} {s t : σ}, S.exec s as = some t → (S.traceOf s as).map Prod.snd = as
  | [], _, _, _ => rfl
  | a :: as, s, t, h => by
      simp only [exec, Option.bind_eq_some_iff] at h
      obtain ⟨s', hs, ht⟩ := h
      simp only [traceOf, hs, Option.map_some, Option.getD_some, List.map_cons,
        map_snd_traceOf ht]

namespace Lockstep

variable {S : System σ α} {T : System τ β} (R : Lockstep S T)

/-- Two steps taken together. -/
def Entries (e : σ × α) (e' : τ × β) : Prop := R.States e.1 e'.1 ∧ R.Labels e.2 e'.2

/-- **A run is followed** under any related labels. -/
theorem run {s s' : σ} {tr : List (σ × α)} (h : S.Run s tr s') {t : τ} (hst : R.States s t) :
    ∀ {bs : List β}, List.Forall₂ R.Labels (tr.map Prod.snd) bs →
      ∃ tr' t', T.Run t tr' t' ∧ tr'.map Prod.snd = bs ∧ List.Forall₂ R.Entries tr tr' ∧
        R.States s' t' := by
  induction h with
  | nil =>
      intro bs hbs
      cases hbs
      exact ⟨[], t, .nil t, rfl, .nil, hst⟩
  | @snoc u v tr a _ hstep ih =>
      intro bs hbs
      rw [List.map_append, List.map_singleton] at hbs
      obtain ⟨cs, b, rfl, hcs, hab⟩ := exists_of_forall₂_concat hbs
      obtain ⟨tr', u', hrun', hlabels, hentries, hu⟩ := ih hcs
      obtain ⟨v', hstep', hv⟩ := R.step hu hab hstep
      refine ⟨tr' ++ [(u', b)], v', hrun'.snoc hstep', ?_, ?_, hv⟩
      · rw [List.map_append, hlabels, List.map_singleton]
      · exact List.rel_append hentries (.cons ⟨hu, hab⟩ .nil)

/-- **What two runs put out is the same**, where it is for steps taken together. -/
theorem output {γ : Type*} {out : σ × α → List γ} {out' : τ × β → List γ}
    (hout : ∀ e e', R.Entries e e' → out' e' = out e) {tr : List (σ × α)} {tr' : List (τ × β)}
    (h : List.Forall₂ R.Entries tr tr') : tr'.flatMap out' = tr.flatMap out := by
  induction h with
  | nil => rfl
  | cons hentry _ ih => rw [List.flatMap_cons, List.flatMap_cons, ih, hout _ _ hentry]

end Lockstep

end System

end Transition
