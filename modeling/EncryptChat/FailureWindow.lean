/-
**The failed-login tracker as an exact sliding-window counter.**

Every call drops the old failures off the front of the window of its identifier, and the entry of an
identifier whose window gets empty.  As long as the clock does not go back the windows are sorted,
so what is left is exactly what is young: the tracker answers as if it kept every failure since the
last reset and counted the young ones.

Main definitions:

* `EncryptChat.FailedLoginTracker.failureCount`, `clear` — the calls no handler makes;
* `EncryptChat.TrackerOp`, `TrackerOp.call` — a call on the tracker, and what it does and returns;
* `EncryptChat.failuresOf` — the failures of an identifier since its last reset;
* `EncryptChat.TrackerOp.answer` — what a counter that forgets nothing answers.

Main results:

* `EncryptChat.FailedLoginTracker.keeps_after` — after every sequence of calls the tracker keeps the
  failures that are young;
* `EncryptChat.TrackerOp.call_of_ne` — a call about one identifier changes no answer about another;
* `EncryptChat.failed_logins_counted` — **the tracker counts exactly and recovers**.
-/

import EncryptChat.FailedLogins

set_option relaxedAutoImplicit false
set_option autoImplicit false

namespace EncryptChat

open Python SlidingWindow

namespace FailedLoginTracker

/-- `failure_count(identifier)`. -/
def failureCount (t : FailedLoginTracker) (identifier : PyStr) (now : ℚ) : FailedLoginTracker × ℕ :=
  let pruned := t.prune identifier now
  (pruned.1, pruned.2.length)

/-- `clear()`. -/
def clear (t : FailedLoginTracker) : FailedLoginTracker := { t with failures := ∅ }

end FailedLoginTracker

/-! ### Calls -/

/-- A call on the tracker, with the time it is made at. -/
inductive TrackerOp where
  | isBlocked (identifier : PyStr) (now : ℚ)
  | recordFailure (identifier : PyStr) (now : ℚ)
  | failureCount (identifier : PyStr) (now : ℚ)
  | reset (identifier : PyStr)
  | clear

/-- What a call returns. -/
inductive TrackerAnswer where
  | blocked (answer : Bool)
  | count (failures : ℕ)
  | none
  deriving DecidableEq

namespace TrackerOp

/-- What a call does to the tracker and what it returns. -/
def call (t : FailedLoginTracker) : TrackerOp → FailedLoginTracker × TrackerAnswer
  | .isBlocked m now => ((t.isBlocked m now).1, .blocked (t.isBlocked m now).2)
  | .recordFailure m now => ((t.recordFailure m now).1, .count (t.recordFailure m now).2)
  | .failureCount m now => ((t.failureCount m now).1, .count (t.failureCount m now).2)
  | .reset m => (t.reset m, .none)
  | .clear => (t.clear, .none)

/-- The identifier a call is about, when it is about one. -/
def identifier? : TrackerOp → Option PyStr
  | .isBlocked m _ | .recordFailure m _ | .failureCount m _ | .reset m => some m
  | .clear => none

/-- The time a call looks at, when it looks at one. -/
def time? : TrackerOp → Option ℚ
  | .isBlocked _ now | .recordFailure _ now | .failureCount _ now => some now
  | .reset _ | .clear => none

/-- What a call does to the failures of an identifier that are on record. -/
def onFailures (name : PyStr) (past : List ℚ) : TrackerOp → List ℚ
  | .recordFailure m now => if m = name then past ++ [now] else past
  | .reset m => if m = name then [] else past
  | .clear => []
  | .isBlocked _ _ | .failureCount _ _ => past

/-- **What a counter that forgets nothing answers**, given the failures of every identifier. -/
def answer (max : ℕ) (w : ℚ) (past : PyStr → List ℚ) : TrackerOp → TrackerAnswer
  | .isBlocked m now => .blocked (decide (max ≤ live w now (past m)))
  | .recordFailure m now => .count (live w now (past m) + 1)
  | .failureCount m now => .count (live w now (past m))
  | .reset _ | .clear => .none

end TrackerOp

/-- The times of a sequence of calls. -/
def callTimes (calls : List TrackerOp) : List ℚ := calls.filterMap TrackerOp.time?

/-- **The failures of an identifier since its last reset.** -/
def failuresOf (name : PyStr) (calls : List TrackerOp) : List ℚ :=
  calls.foldl (fun past op => op.onFailures name past) []

/-- The tracker after a sequence of calls. -/
def FailedLoginTracker.after (t : FailedLoginTracker) (calls : List TrackerOp) :
    FailedLoginTracker :=
  calls.foldl (fun t op => (op.call t).1) t

theorem failuresOf_snoc (name : PyStr) (calls : List TrackerOp) (op : TrackerOp) :
    failuresOf name (calls ++ [op]) = op.onFailures name (failuresOf name calls) := by
  unfold failuresOf
  rw [List.foldl_append]
  rfl

theorem mem_callTimes_snoc {calls : List TrackerOp} {op : TrackerOp} {x : ℚ} :
    x ∈ callTimes (calls ++ [op]) ↔ x ∈ callTimes calls ∨ op.time? = some x := by
  unfold callTimes
  rw [List.filterMap_append, List.mem_append]
  cases hop : op.time? with
  | none => simp [hop]
  | some y => simp [hop, eq_comm]

/-- Failures are on record at the times of calls. -/
theorem mem_callTimes_of_failuresOf {name : PyStr} {calls : List TrackerOp} {x : ℚ}
    (h : x ∈ failuresOf name calls) : x ∈ callTimes calls := by
  induction calls using List.reverseRecOn with
  | nil => cases h
  | append_singleton calls op ih =>
      rw [failuresOf_snoc] at h
      rw [mem_callTimes_snoc]
      cases op with
      | recordFailure m now =>
          simp only [TrackerOp.onFailures] at h
          split_ifs at h with hname
          · rcases List.mem_append.1 h with h | h
            · exact .inl (ih h)
            · rw [List.mem_singleton] at h
              exact .inr (h ▸ rfl)
          · exact .inl (ih h)
      | reset m =>
          simp only [TrackerOp.onFailures] at h
          split_ifs at h with hname
          · cases h
          · exact .inl (ih h)
      | clear => cases h
      | isBlocked | failureCount => exact .inl (ih h)

/-! ### One call -/

namespace FailedLoginTracker

variable {t : FailedLoginTracker} {name : PyStr} {past : List ℚ} {now : ℚ} {op : TrackerOp}

@[simp] theorem call_windowSeconds (t : FailedLoginTracker) (op : TrackerOp) :
    (op.call t).1.windowSeconds = t.windowSeconds := by
  cases op <;> rfl

@[simp] theorem call_maxFailures (t : FailedLoginTracker) (op : TrackerOp) :
    (op.call t).1.maxFailures = t.maxFailures := by
  cases op <;> rfl

/-- **A call keeps the failures that are young**, when the clock does not go back. -/
theorem Keeps.call (h : Keeps t name past now) (hle : ∀ x ∈ past, x ≤ now)
    (htime : ∀ x, op.time? = some x → x = now) :
    Keeps (op.call t).1 name (op.onFailures name past) now := by
  cases op with
  | isBlocked m x | failureCount m x =>
      obtain rfl := htime x rfl
      exact h.prune m
  | recordFailure m x =>
      obtain rfl := htime x rfl
      simp only [TrackerOp.onFailures]
      split_ifs with hname
      · subst hname
        exact h.record hle
      · exact h.record_other (Ne.symm hname)
  | reset m =>
      simp only [TrackerOp.onFailures]
      split_ifs with hname
      · subst hname
        exact keeps_reset t m now
      · exact h.reset_other (Ne.symm hname)
  | clear =>
      have hempty : (TrackerOp.clear.call t).1.window name = [] := by
        simp [TrackerOp.call, clear, window]
      exact ⟨List.Pairwise.nil, [], hempty.symm, by simp⟩

/-- The live window has the young failures. -/
theorem Keeps.length_prune (h : Keeps t name past now) :
    (t.prune name now).2.length = live t.windowSeconds now past := by
  rw [h.prune_snd_eq, live, List.countP_eq_length_filter]

/-- The answer of a call, given what the tracker keeps of the failures of its identifier. -/
theorem call_snd_eq {pasts : PyStr → List ℚ}
    (h : ∀ now, op.time? = some now → ∀ name, Keeps t name (pasts name) now) :
    (op.call t).2 = op.answer t.maxFailures t.windowSeconds pasts := by
  cases op with
  | isBlocked m x =>
      simp only [TrackerOp.call, TrackerOp.answer, (h x rfl m).isBlocked_eq]
  | recordFailure m x =>
      have hlength := (h x rfl m).length_prune
      have hcount : (t.recordFailure m x).2 = (t.prune m x).2.length + 1 := List.length_append
      simp only [TrackerOp.call, TrackerOp.answer, hcount, hlength]
  | failureCount m x =>
      have hlength := (h x rfl m).length_prune
      have hcount : (t.failureCount m x).2 = (t.prune m x).2.length := rfl
      simp only [TrackerOp.call, TrackerOp.answer, hcount, hlength]
  | reset | clear => rfl

/-- An identifier is tracked after pruning exactly when its live window is not empty. -/
theorem mem_prune_iff (t : FailedLoginTracker) (name : PyStr) (now : ℚ) :
    name ∈ (t.prune name now).1.failures ↔ 0 < (t.prune name now).2.length := by
  rw [List.length_pos_iff, prune_snd]
  unfold prune
  dsimp only
  split_ifs with hempty
  · simp [window, hempty]
  · simpa [window] using hempty

/-- **An identifier just accessed is tracked exactly when it has a young failure.** -/
theorem Keeps.mem_call_iff (h : Keeps t name past now) (hw : 0 < t.windowSeconds)
    (hop : op.identifier? = some name) (htime : ∀ x, op.time? = some x → x = now) :
    name ∈ (op.call t).1.failures ↔ 0 < live t.windowSeconds now (op.onFailures name past) := by
  cases op with
  | isBlocked m x | failureCount m x =>
      obtain rfl := htime x rfl
      cases hop
      have htracked := mem_prune_iff t name x
      rw [h.length_prune] at htracked
      exact htracked
  | recordFailure m x =>
      obtain rfl := htime x rfl
      cases hop
      -- the failure just recorded is young
      have hyoung : x ∈ past ++ [x] ∧ decide (x - t.windowSeconds < x) = true :=
        ⟨by simp, by simpa using hw⟩
      have hlive : 0 < live t.windowSeconds x (past ++ [x]) := List.countP_pos_iff.2 ⟨x, hyoung⟩
      simp only [TrackerOp.call, TrackerOp.onFailures, if_true, hlive, iff_true, recordFailure]
      exact Finmap.mem_insert.2 (.inl rfl)
  | reset m =>
      cases hop
      simp only [TrackerOp.call, TrackerOp.onFailures, if_true, live, List.countP_nil,
        Nat.lt_irrefl, iff_false, reset]
      exact fun hmem => (Finmap.mem_erase.1 hmem).1 rfl
  | clear => cases hop

/-- A call about one identifier leaves the window of another as it is. -/
theorem window_call_of_ne (t : FailedLoginTracker) {m : PyStr} (hop : op.identifier? = some m)
    (hne : name ≠ m) : (op.call t).1.window name = t.window name := by
  cases op with
  | isBlocked | failureCount =>
      cases hop
      exact (window_prune t m name _).trans (if_neg hne)
  | recordFailure =>
      cases hop
      exact (window_recordFailure t m name _).trans (if_neg hne)
  | reset =>
      cases hop
      exact (window_reset t m name).trans (if_neg hne)
  | clear => cases hop

end FailedLoginTracker

/-- The answer of a call depends on the window of its identifier only. -/
theorem TrackerOp.call_congr {t t' : FailedLoginTracker} {op : TrackerOp}
    (hmax : t'.maxFailures = t.maxFailures) (hw : t'.windowSeconds = t.windowSeconds)
    (hwindow : ∀ m, op.identifier? = some m → t'.window m = t.window m) :
    (op.call t').2 = (op.call t).2 := by
  have hprune : ∀ m now, op.identifier? = some m → (t'.prune m now).2 = (t.prune m now).2 := by
    intro m now hop
    rw [FailedLoginTracker.prune_snd, FailedLoginTracker.prune_snd, hwindow m hop, hw]
  cases op with
  | isBlocked m now =>
      simp only [call, FailedLoginTracker.isBlocked, hprune m now rfl, hmax]
  | recordFailure m now =>
      simp only [call, FailedLoginTracker.recordFailure, hprune m now rfl]
  | failureCount m now =>
      simp only [call, FailedLoginTracker.failureCount, hprune m now rfl]
  | reset | clear => rfl

/-- **A call about one identifier changes no answer about another.** -/
theorem TrackerOp.call_of_ne (t : FailedLoginTracker) {op other : TrackerOp} {m n : PyStr}
    (hop : op.identifier? = some m) (hother : other.identifier? = some n) (hne : n ≠ m) :
    (other.call (op.call t).1).2 = (other.call t).2 := by
  refine call_congr (FailedLoginTracker.call_maxFailures t op)
    (FailedLoginTracker.call_windowSeconds t op) fun k hk => ?_
  cases hother.symm.trans hk
  exact FailedLoginTracker.window_call_of_ne t hop hne

/-! ### Sequences of calls -/

namespace FailedLoginTracker

variable {max : ℕ} {w : ℚ} {calls : List TrackerOp}

theorem after_snoc (t : FailedLoginTracker) (calls : List TrackerOp) (op : TrackerOp) :
    t.after (calls ++ [op]) = (op.call (t.after calls)).1 := by
  unfold after
  rw [List.foldl_append]
  rfl

theorem after_bounds (t : FailedLoginTracker) (calls : List TrackerOp) :
    (t.after calls).maxFailures = t.maxFailures ∧
      (t.after calls).windowSeconds = t.windowSeconds := by
  induction calls using List.reverseRecOn with
  | nil => exact ⟨rfl, rfl⟩
  | append_singleton calls op ih =>
      rw [after_snoc, call_maxFailures, call_windowSeconds]
      exact ih

/-- **After every sequence of calls the tracker keeps the failures that are young**, as long as the
clock does not go back. -/
theorem keeps_after (hclock : (callTimes calls).Pairwise (· ≤ ·)) (name : PyStr) :
    ∀ now, (∀ x ∈ callTimes calls, x ≤ now) →
      Keeps (after ⟨max, w, ∅⟩ calls) name (failuresOf name calls) now := by
  induction calls using List.reverseRecOn with
  | nil =>
      intro now _
      exact ⟨List.Pairwise.nil, [], by simp [window, after, failuresOf], by simp⟩
  | append_singleton calls op ih =>
      intro now hnow
      unfold callTimes at hclock
      rw [List.filterMap_append, List.pairwise_append] at hclock
      obtain ⟨hbefore, -, hlast⟩ := hclock
      rw [after_snoc, failuresOf_snoc]
      -- a call that does not look at the clock might as well be made now
      have htime : ∃ time, time ≤ now ∧ (∀ x, op.time? = some x → x = time) ∧
          ∀ x ∈ callTimes calls, x ≤ time := by
        cases hop : op.time? with
        | none =>
            refine ⟨now, le_rfl, fun x hx => (by cases hx), fun x hx => ?_⟩
            exact hnow x (mem_callTimes_snoc.2 (.inl hx))
        | some time =>
            refine ⟨time, hnow time (mem_callTimes_snoc.2 (.inr hop)), fun x hx => ?_, ?_⟩
            · exact (Option.some.inj hx).symm
            · intro x hx
              exact hlast x hx time (by simp [hop])
      obtain ⟨time, hle, hop, hyoung⟩ := htime
      have hkept := (ih hbefore time hyoung).call
        (fun x hx => hyoung x (mem_callTimes_of_failuresOf hx)) hop
      exact hkept.later hle

/-- **The tracker recovers**: no failure is young any more once the last one is old. -/
theorem Keeps.live_eq_zero {t : FailedLoginTracker} {name : PyStr} {past : List ℚ} {now : ℚ}
    (h : Keeps t name past now) (hlast : ∀ x ∈ past.getLast?, x + w ≤ now) : live w now past = 0 := by
  rcases List.eq_nil_or_concat past with rfl | ⟨init, last, rfl⟩
  · rfl
  · rw [List.concat_eq_append] at hlast h ⊢
    have hold : last + w ≤ now := hlast last (by simp)
    have hsorted := h.sorted
    rw [List.pairwise_append] at hsorted
    refine List.countP_eq_zero.2 fun x hx => ?_
    have hx : x ≤ last := by
      rcases List.mem_append.1 hx with hx | hx
      · exact hsorted.2.2 x hx last (by simp)
      · exact (List.mem_singleton.1 hx).le
    rw [decide_eq_true_eq, not_lt]
    exact hx.trans (le_sub_iff_add_le.2 hold)

end FailedLoginTracker

/-- **The tracker counts exactly and recovers.**  After every sequence of calls at times that do
not go back, a further call answers as a counter that has kept every failure since the last reset; it
leaves its identifier tracked exactly when that has a young failure, and every answer about another
identifier as it was; and no identifier is blocked once its last failure has left the window. -/
theorem failed_logins_counted (max : ℕ) (w : ℚ) (calls : List TrackerOp) (op : TrackerOp)
    (hclock : (callTimes (calls ++ [op])).Pairwise (· ≤ ·)) :
    let t : FailedLoginTracker := .after ⟨max, w, ∅⟩ calls
    (op.call t).2 = op.answer max w (fun name => failuresOf name calls) ∧
      (0 < w → ∀ name now, op.identifier? = some name → (∀ x, op.time? = some x → x = now) →
        (∀ x ∈ callTimes calls, x ≤ now) →
          (name ∈ (op.call t).1.failures ↔ 0 < live w now (failuresOf name (calls ++ [op])))) ∧
      (∀ m n other, op.identifier? = some m → TrackerOp.identifier? other = some n → n ≠ m →
        (other.call (op.call t).1).2 = (other.call t).2) ∧
      (1 ≤ max → ∀ name now, op = .isBlocked name now →
        (∀ x ∈ (failuresOf name calls).getLast?, x + w ≤ now) → (op.call t).2 = .blocked false) := by
  intro t
  obtain ⟨hmax, hw⟩ : t.maxFailures = max ∧ t.windowSeconds = w :=
    FailedLoginTracker.after_bounds ⟨max, w, ∅⟩ calls
  unfold callTimes at hclock
  rw [List.filterMap_append, List.pairwise_append] at hclock
  obtain ⟨hbefore, -, hlast⟩ := hclock
  -- pruning loses only what no later answer counts
  have hkeeps : ∀ name now, (∀ x ∈ callTimes calls, x ≤ now) →
      t.Keeps name (failuresOf name calls) now := fun name now hnow =>
    FailedLoginTracker.keeps_after hbefore name now hnow
  have hnow : ∀ now, op.time? = some now → ∀ x ∈ callTimes calls, x ≤ now := by
    intro now hop x hx
    exact hlast x hx now (by simp [hop])
  have hanswer : (op.call t).2 = op.answer max w fun name => failuresOf name calls := by
    have hcall : (op.call t).2 = op.answer t.maxFailures t.windowSeconds _ :=
      FailedLoginTracker.call_snd_eq fun now hop name => hkeeps name now (hnow now hop)
    rwa [hmax, hw] at hcall
  refine ⟨hanswer, fun hpos name now hop htime hle => ?_, fun m n other hop hother hne => ?_,
    fun hone name now hop hold => ?_⟩
  · have htracked := (hkeeps name now hle).mem_call_iff (by rw [hw]; exact hpos) hop htime
    rwa [hw, ← failuresOf_snoc] at htracked
  · exact TrackerOp.call_of_ne t hop hother hne
  · subst hop
    have hzero := (hkeeps name now (hnow now rfl)).live_eq_zero hold
    rw [hanswer, TrackerOp.answer, hzero, decide_eq_false (by omega)]

/-- Two failures of alice, and one of bob between them. -/
def threeFailures : List TrackerOp :=
  [.recordFailure (py "alice") 0, .recordFailure (py "bob") 3, .recordFailure (py "alice") 5]

/-- Of the two failures one is young at 12, and the next one is the second in the window. -/
theorem failed_logins_counted_alice :
    (TrackerOp.call (.after ⟨2, 10, ∅⟩ threeFailures) (.recordFailure (py "alice") 12)).2 =
      .count 2 :=
  (failed_logins_counted 2 10 threeFailures (.recordFailure (py "alice") 12)
    (by decide +kernel)).1.trans (by decide +kernel)

end EncryptChat
