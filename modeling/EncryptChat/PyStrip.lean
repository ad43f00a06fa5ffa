/-
**White space around a text.**

`str.strip` cuts a text into the white space before it, what is left, and the white space after it.
Whatever white space is put around a text, stripping takes it off again.

* `Python.exists_strip` — the three parts of a text;
* `Python.strip_white_append` — **white space put around a text is stripped**;
* `Python.strip_strip`, `Python.strip_of_no_space` — texts that stay as they are.
-/

import EncryptChat.PyText

set_option relaxedAutoImplicit false
set_option autoImplicit false

namespace Python

/-- The text is white space, all of it. -/
def isWhite (s : PyStr) : Bool := s.all isSpace

theorem isWhite_iff {s : PyStr} : isWhite s = true ↔ ∀ c ∈ s, isSpace c = true := List.all_eq_true

/-- What is put behind a list is dropped from behind as far as it goes. -/
theorem rdropWhile_append_of_pos {α : Type} {p : α → Bool} {l b : List α}
    (h : ∀ x ∈ b, p x = true) : (l ++ b).rdropWhile p = l.rdropWhile p := by
  have hb : ∀ x ∈ b.reverse, p x = true := fun x hx => h x (List.mem_reverse.1 hx)
  simp only [List.rdropWhile, List.reverse_append, List.dropWhile_append_of_pos hb]

/-- **White space put around a text is stripped.** -/
theorem strip_white_append {a b : PyStr} (ha : isWhite a = true) (s : PyStr)
    (hb : isWhite b = true) : strip (a ++ s ++ b) = strip s := by
  rw [isWhite_iff] at ha hb
  have hfront : (a ++ s ++ b).dropWhile isSpace = (s ++ b).dropWhile isSpace := by
    rw [List.append_assoc, List.dropWhile_append_of_pos ha]
  simp only [strip, hfront, List.dropWhile_append]
  split_ifs with hempty
  · -- nothing but white space
    rw [List.isEmpty_iff] at hempty
    rw [hempty, List.dropWhile_eq_nil_iff.2 hb]
  · exact rdropWhile_append_of_pos hb

/-- **The three parts of a text.** -/
theorem exists_strip (s : PyStr) :
    ∃ a b, isWhite a = true ∧ isWhite b = true ∧ s = a ++ strip s ++ b := by
  refine ⟨s.takeWhile isSpace, (s.dropWhile isSpace).rtakeWhile isSpace, ?_, ?_, ?_⟩
  · exact isWhite_iff.2 fun c hc => List.mem_takeWhile_imp hc
  · exact isWhite_iff.2 fun c hc => List.mem_rtakeWhile_imp hc
  · rw [List.append_assoc, strip, List.rdropWhile_append_rtakeWhile,
      List.takeWhile_append_dropWhile]

@[simp] theorem strip_strip (s : PyStr) : strip (strip s) = strip s := by
  obtain ⟨a, b, ha, hb, hs⟩ := exists_strip s
  have hstrip := strip_white_append ha (strip s) hb
  rw [← hs] at hstrip
  exact hstrip.symm

/-- A text without white space stays as it is. -/
theorem strip_of_no_space {s : PyStr} (h : ∀ c ∈ s, isSpace c = false) : strip s = s := by
  obtain ⟨a, b, ha, hb, hs⟩ := exists_strip s
  have hnil : ∀ w : PyStr, isWhite w = true → (∀ c ∈ w, c ∈ s) → w = [] := by
    intro w hw hsub
    rw [List.eq_nil_iff_forall_not_mem]
    intro c hc
    have hspace := isWhite_iff.1 hw c hc
    rw [h c (hsub c hc)] at hspace
    cases hspace
  have hempty : a = [] := hnil a ha fun c hc => by rw [hs]; simp [hc]
  have hempty' : b = [] := hnil b hb fun c hc => by rw [hs]; simp [hc]
  rw [hempty, hempty', List.nil_append, List.append_nil] at hs
  exact hs.symm

end Python
