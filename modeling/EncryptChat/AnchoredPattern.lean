/-
**Patterns with anchors.**

A pattern of characters, runs of characters and the two anchors, over any alphabet in which some
characters are newlines.  Whether a string is *matched* is asked from its beginning; whether it is
*fully matched* is asked for all of it.  The anchor at the end of a pattern does not make the two
questions one: it also holds just before a newline that ends the string.

Main definitions:

* `Anchored.Pattern` — patterns;
* `Anchored.Pattern.Runs` — what a pattern consumes of a string;
* `Anchored.Pattern.Matches`, `FullMatches` — the two questions;
* `Anchored.Pattern.Plain` — patterns without the anchor at the end.

Main results:

* `Anchored.Pattern.runs_append` — a plain pattern looks at what it consumes and no further;
* `Anchored.Pattern.fullMatches_finish` — at the end of a full match the anchor is void;
* `Anchored.Pattern.matches_finish_iff` — **what it admits of a match**: a newline that is left over.
-/

import Mathlib.Data.List.Basic
import Mathlib.Order.Nat
import Mathlib.Tactic.Common

set_option relaxedAutoImplicit false
set_option autoImplicit false

namespace Anchored

variable {α : Type*}

/-- A pattern. -/
inductive Pattern (α : Type*) where
  /-- `^`. -/
  | start
  /-- `$`. -/
  | finish
  /-- One character of a class. -/
  | char (p : α → Bool)
  /-- At most `n` characters of a class. -/
  | upTo (p : α → Bool) (n : ℕ)
  | seq (r r' : Pattern α)

namespace Pattern

/-- The pattern leads from position `i` of the string to position `j`. -/
def Runs (newline : α → Bool) (s : List α) : Pattern α → ℕ → ℕ → Prop
  | start, i, j => j = i ∧ i = 0
  | finish, i, j => j = i ∧ (i = s.length ∨ i + 1 = s.length ∧ (s[i]?).any newline = true)
  | char p, i, j => j = i + 1 ∧ (s[i]?).any p = true
  | upTo p n, i, j => i ≤ j ∧ j ≤ i + n ∧ ∀ k, i ≤ k → k < j → (s[k]?).any p = true
  | seq r r', i, j => ∃ k, Runs newline s r i k ∧ Runs newline s r' k j

/-- The pattern matches at the beginning of the string. -/
def Matches (newline : α → Bool) (r : Pattern α) (s : List α) : Prop :=
  ∃ j, r.Runs newline s 0 j

/-- The pattern matches the whole string. -/
def FullMatches (newline : α → Bool) (r : Pattern α) (s : List α) : Prop :=
  r.Runs newline s 0 s.length

/-- The pattern does not ask where the string ends. -/
def Plain : Pattern α → Prop
  | finish => False
  | seq r r' => r.Plain ∧ r'.Plain
  | _ => True

variable {newline : α → Bool} {r : Pattern α} {s t : List α} {i j : ℕ}

theorem Runs.le (h : r.Runs newline s i j) : i ≤ j := by
  induction r generalizing i j with
  | start | finish => exact h.1.ge
  | char p => have hj := h.1; omega
  | upTo p n => exact h.1
  | seq r r' ih ih' =>
      obtain ⟨k, hr, hr'⟩ := h
      exact (ih hr).trans (ih' hr')

/-- **A plain pattern looks at what it consumes** and no further. -/
theorem runs_append (hplain : r.Plain) (u : List α) (hj : j ≤ t.length) :
    r.Runs newline (t ++ u) i j ↔ r.Runs newline t i j := by
  induction r generalizing i j with
  | start => exact Iff.rfl
  | finish => exact absurd hplain id
  | char p =>
      simp only [Runs]
      refine and_congr_right fun hstep => ?_
      rw [List.getElem?_append_left (by omega)]
  | upTo p n =>
      simp only [Runs]
      refine and_congr_right fun _ => and_congr_right fun _ => forall_congr' fun k => ?_
      refine imp_congr_right fun _ => imp_congr_right fun hk => ?_
      rw [List.getElem?_append_left (by omega)]
  | seq r r' ih ih' =>
      simp only [Runs]
      constructor
      · rintro ⟨k, hr, hr'⟩
        have hk := hr'.le
        exact ⟨k, (ih hplain.1 (by omega)).1 hr, (ih' hplain.2 hj).1 hr'⟩
      · rintro ⟨k, hr, hr'⟩
        have hk := hr'.le
        exact ⟨k, (ih hplain.1 (by omega)).2 hr, (ih' hplain.2 hj).2 hr'⟩

/-- **At the end of a full match the anchor is void.** -/
theorem fullMatches_finish :
    (seq r finish).FullMatches newline s ↔ r.FullMatches newline s := by
  constructor
  · rintro ⟨k, hr, hk, -⟩
    unfold FullMatches
    rw [hk]
    exact hr
  · intro hr
    exact ⟨s.length, hr, rfl, .inl rfl⟩

/-- **What the anchor admits of a match**: all of the string, or all of it but a newline. -/
theorem matches_finish_iff (hplain : r.Plain) :
    (seq r finish).Matches newline s ↔
      r.FullMatches newline s ∨
        ∃ t c, s = t ++ [c] ∧ newline c = true ∧ r.FullMatches newline t := by
  constructor
  · rintro ⟨j, k, hr, -, hk | ⟨hk, hnewline⟩⟩
    · subst hk
      exact .inl hr
    · -- one character is left over
      have hlt : k < s.length := by omega
      rw [List.getElem?_eq_getElem hlt] at hnewline
      have hsplit : s = s.take k ++ [s[k]] := by
        rw [List.take_append_getElem hlt, hk, List.take_length]
      refine .inr ⟨s.take k, s[k], hsplit, hnewline, ?_⟩
      have hlength : (s.take k).length = k := List.length_take_of_le (by omega)
      unfold FullMatches
      rw [hlength, ← runs_append hplain [s[k]] hlength.ge, ← hsplit]
      exact hr
  · rintro (hr | ⟨t, c, rfl, hnewline, hr⟩)
    · exact ⟨s.length, s.length, hr, rfl, .inl rfl⟩
    · refine ⟨t.length, t.length, (runs_append hplain [c] le_rfl).2 hr, rfl, .inr ?_⟩
      simpa using hnewline

end Pattern

end Anchored
