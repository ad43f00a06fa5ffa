/-
**Failed logins of one name, under any interleaving.**

`login` asks the tracker before it awaits the account, and feeds it after the password has been
verified.  The tracker forgets what has left its window, so what it counts are the recent failures
since the last reset.  Between asking and feeding any number of other logins of the name may pass the
same question.

Main definitions:

* `EncryptChat.FailedLoginTracker.Keeps` — what the tracker holds of the failures of a name;
* `EncryptChat.failureLog` — the failures and the resets of a name in a run;
* `EncryptChat.Checked` — a login that has passed the question and has not reported back;
* `EncryptChat.FindsRoom` — a login that passes finds room for all that have.

Main results:

* `EncryptChat.FailedLoginTracker.Keeps.isBlocked_eq` — **the tracker counts the recent failures**;
* `EncryptChat.keeps_of_run` — in every run with a clock that does not go back;
* `EncryptChat.failed_logins_bounded` — **the bound on every interval**, in runs where every login
  that passes finds room;
* `EncryptChat.failed_logins_exceed` — two logins that pass one question.
-/

import EncryptChat.AuthFollows
import EncryptChat.AuthFrame
import EncryptChat.SessionAuthority
import EncryptChat.SlidingWindow

set_option relaxedAutoImplicit false
set_option autoImplicit false

namespace EncryptChat

open Python Concurrent Transition SlidingWindow AuthService
open Program (Seen Follows)

/-! ### The tracker -/

namespace FailedLoginTracker

variable {t : FailedLoginTracker} {name : PyStr} {past : List ℚ} {now now' : ℚ}

/-- The failures the tracker holds for a name. -/
def window (t : FailedLoginTracker) (name : PyStr) : List ℚ := (t.failures.lookup name).getD []

/-- **What the tracker holds of the failures of a name**: all but some that have left the window. -/
structure Keeps (t : FailedLoginTracker) (name : PyStr) (past : List ℚ) (now : ℚ) : Prop where
  sorted : past.Pairwise (· ≤ ·)
  dropped : ∃ old, past = old ++ t.window name ∧ ∀ x ∈ old, x ≤ now - t.windowSeconds

theorem Keeps.later (h : Keeps t name past now) (hle : now ≤ now') : Keeps t name past now' := by
  obtain ⟨old, hpast, hold⟩ := h.dropped
  exact ⟨h.sorted, old, hpast, fun x hx => (hold x hx).trans (sub_le_sub_right hle _)⟩

theorem prune_snd (t : FailedLoginTracker) (name : PyStr) (now : ℚ) :
    (t.prune name now).2 =
      (t.window name).dropWhile fun time => decide (time ≤ now - t.windowSeconds) := rfl

@[simp] theorem prune_windowSeconds (t : FailedLoginTracker) (name : PyStr) (now : ℚ) :
    (t.prune name now).1.windowSeconds = t.windowSeconds := rfl

theorem window_prune (t : FailedLoginTracker) (m name : PyStr) (now : ℚ) :
    (t.prune m now).1.window name = if name = m then (t.prune m now).2 else t.window name := by
  unfold window prune
  dsimp only
  split_ifs with hempty hname hname
  · subst hname
    rw [Finmap.lookup_erase, hempty]
    rfl
  · rw [Finmap.lookup_erase_ne hname]
  · subst hname
    rw [Finmap.lookup_insert]
    rfl
  · rw [Finmap.lookup_insert_of_ne _ hname]

/-- The live window of a name. -/
theorem Keeps.prune_snd_eq (h : Keeps t name past now) :
    (t.prune name now).2 = past.filter fun x => decide (now - t.windowSeconds < x) := by
  obtain ⟨old, hpast, hold⟩ := h.dropped
  have hsorted := h.sorted
  rw [hpast, List.pairwise_append] at hsorted
  have hnone : (old.filter fun x => decide (now - t.windowSeconds < x)) = [] :=
    List.filter_eq_nil_iff.2 fun x hx => by simpa using hold x hx
  rw [prune_snd, dropWhile_eq_filter hsorted.2.1, hpast, List.filter_append, hnone, List.nil_append]

/-- **The tracker counts the recent failures.** -/
theorem Keeps.isBlocked_eq (h : Keeps t name past now) :
    (t.isBlocked name now).2 = decide (t.maxFailures ≤ live t.windowSeconds now past) := by
  change decide (t.maxFailures ≤ (t.prune name now).2.length) = _
  rw [h.prune_snd_eq, live, List.countP_eq_length_filter]

theorem Keeps.prune (h : Keeps t name past now) (m : PyStr) :
    Keeps (t.prune m now).1 name past now := by
  refine ⟨h.sorted, ?_⟩
  rw [prune_windowSeconds, window_prune]
  split_ifs with hname
  · subst hname
    obtain ⟨old, hpast, hold⟩ := h.dropped
    refine ⟨old ++ (t.window name).takeWhile fun time => decide (time ≤ now - t.windowSeconds),
      ?_, fun x hx => ?_⟩
    · rw [prune_snd, List.append_assoc, List.takeWhile_append_dropWhile]
      exact hpast
    · rcases List.mem_append.1 hx with hx | hx
      · exact hold x hx
      · simpa using List.mem_takeWhile_imp hx
  · exact h.dropped

@[simp] theorem recordFailure_windowSeconds (t : FailedLoginTracker) (m : PyStr) (now : ℚ) :
    (t.recordFailure m now).1.windowSeconds = t.windowSeconds := rfl

theorem window_recordFailure (t : FailedLoginTracker) (m name : PyStr) (now : ℚ) :
    (t.recordFailure m now).1.window name =
      if name = m then (t.prune m now).2 ++ [now] else t.window name := by
  have hpruned := window_prune t m name now
  unfold recordFailure window
  dsimp only
  split_ifs with hname
  · subst hname
    rw [Finmap.lookup_insert]
    rfl
  · rw [Finmap.lookup_insert_of_ne _ hname]
    rw [if_neg hname] at hpruned
    exact hpruned

/-- A failure of the name is kept. -/
theorem Keeps.record (h : Keeps t name past now) (hle : ∀ x ∈ past, x ≤ now) :
    Keeps (t.recordFailure name now).1 name (past ++ [now]) now := by
  obtain ⟨old, hpast, hold⟩ := (h.prune name).dropped
  refine ⟨?_, old, ?_, hold⟩
  · rw [List.pairwise_append]
    refine ⟨h.sorted, List.pairwise_singleton _ _, fun x hx y hy => ?_⟩
    rw [List.mem_singleton] at hy
    subst hy
    exact hle x hx
  · rw [window_recordFailure, if_pos rfl, ← List.append_assoc]
    rw [window_prune, if_pos rfl] at hpast
    rw [← hpast]

/-- A failure of another name changes nothing. -/
theorem Keeps.record_other (h : Keeps t name past now) {m : PyStr} (hne : name ≠ m) :
    Keeps (t.recordFailure m now).1 name past now := by
  refine ⟨h.sorted, ?_⟩
  rw [window_recordFailure, if_neg hne]
  exact h.dropped

theorem window_reset (t : FailedLoginTracker) (m name : PyStr) :
    (t.reset m).window name = if name = m then [] else t.window name := by
  unfold window reset
  dsimp only
  split_ifs with hname
  · subst hname
    rw [Finmap.lookup_erase]
    rfl
  · rw [Finmap.lookup_erase_ne hname]

theorem keeps_reset (t : FailedLoginTracker) (name : PyStr) (now : ℚ) :
    Keeps (t.reset name) name [] now :=
  ⟨List.Pairwise.nil, [], by rw [window_reset, if_pos rfl]; rfl, by simp⟩

/-- A reset of another name changes nothing. -/
theorem Keeps.reset_other (h : Keeps t name past now) {m : PyStr} (hne : name ≠ m) :
    Keeps (t.reset m) name past now := by
  refine ⟨h.sorted, ?_⟩
  rw [window_reset, if_neg hne]
  exact h.dropped

theorem keeps_new (config : AuthConfig) (name : PyStr) (now : ℚ) :
    Keeps (.new config) name [] now :=
  ⟨List.Pairwise.nil, [], by simp [window, new], by simp⟩

end FailedLoginTracker

/-! ### Operations on the tracker -/

/-- What an operation does to the tracker. -/
def AuthOp.onTracker (now : ℚ) (t : FailedLoginTracker) : AuthOp → FailedLoginTracker
  | .isBlocked m => (t.prune m now).1
  | .recordFailure m => (t.recordFailure m now).1
  | .resetFailures m => t.reset m
  | _ => t

theorem failedLogins_of_exec {env : AuthEnv} {i : ℕ} {op : AuthOp} {c : AuthChoice}
    {s s' : AuthState} {a : op.Answer} (h : authExec env i op c s = some (s', a)) :
    s'.failedLogins = op.onTracker c.monotonic s.failedLogins := by
  cases op with
  | clock | hashPassword | verifyPassword | dummyVerify | query | isBlocked | recordFailure
  | resetFailures | issue =>
      cases h
      rfl
  | write w =>
      rcases AuthState.write_eq_some h with ⟨rfl, -⟩ | ⟨d, d', b, -, -, -, rfl, -⟩
      · rfl
      · rfl
  | commit =>
      simp only [authExec] at h
      split at h
      · cases h
        rfl
      · cases h
        unfold AuthState.commit
        split
        · split_ifs <;> rfl
        · rfl
  | rollback =>
      cases h
      unfold AuthState.rollback
      split
      · split_ifs <;> rfl
      · rfl

@[simp] theorem onTracker_windowSeconds (now : ℚ) (t : FailedLoginTracker) (op : AuthOp) :
    (op.onTracker now t).windowSeconds = t.windowSeconds := by
  cases op <;> rfl

@[simp] theorem onTracker_maxFailures (now : ℚ) (t : FailedLoginTracker) (op : AuthOp) :
    (op.onTracker now t).maxFailures = t.maxFailures := by
  cases op <;> rfl

/-! ### The log of a run -/

/-- The operation a request performs next. -/
def AuthPool.nextOp (p : AuthPool) (i : ℕ) : Option AuthOp :=
  match p.threads i with
  | some ⟨_, .step op _, _⟩ => some op
  | _ => none

theorem AuthPool.nextOp_of_eq {p : AuthPool} {i : ℕ} {request : AuthRequest} {op : AuthOp}
    {next : op.Answer → AuthProgram AuthResponse} {seen : Seen AuthOp.Answer}
    (h : p.threads i = some ⟨request, .step op next, seen⟩) : p.nextOp i = some op := by
  simp [nextOp, h]

/-- When a step happens. -/
def stepTime? : AuthPool × AuthLabel → Option ℚ
  | (_, .step _ c) => some c.monotonic
  | (_, .start _ _) => none

/-- The times of the steps of a run. -/
def stepTimes (tr : List (AuthPool × AuthLabel)) : List ℚ := tr.filterMap stepTime?

/-- The clock of the run does not go back. -/
def Clocked (tr : List (AuthPool × AuthLabel)) : Prop := (stepTimes tr).Pairwise (· ≤ ·)

instance decidableClocked (tr : List (AuthPool × AuthLabel)) : Decidable (Clocked tr) :=
  inferInstanceAs (Decidable (List.Pairwise _ _))

/-- A failure or a reset of the name, when the operation is one. -/
def AuthOp.failureEvent? (name : PyStr) (now : ℚ) : AuthOp → Option (Event ℚ)
  | .recordFailure m => if m = name then some (.hit now) else none
  | .resetFailures m => if m = name then some (.clear now) else none
  | _ => none

/-- A failure or a reset of the name, when the step is one. -/
def failureEvent? (name : PyStr) : AuthPool × AuthLabel → Option (Event ℚ)
  | (p, .step i c) => (p.nextOp i).bind (AuthOp.failureEvent? name c.monotonic)
  | (_, .start _ _) => none

/-- The failures and the resets of a name in a run. -/
def failureLog (name : PyStr) (tr : List (AuthPool × AuthLabel)) : List (Event ℚ) :=
  tr.filterMap (failureEvent? name)

/-- A log whose events happen when the steps do is in the order of time. -/
theorem sorted_of_clocked {f : AuthPool × AuthLabel → Option (Event ℚ)}
    (hf : ∀ e event, f e = some event → stepTime? e = some event.time)
    {tr : List (AuthPool × AuthLabel)} (h : Clocked tr) : Sorted (tr.filterMap f) := by
  refine h.sublist ?_
  induction tr with
  | nil => exact List.Sublist.refl _
  | cons e tr ih =>
      have hrest := ih (h.sublist ((List.sublist_cons_self e tr).filterMap stepTime?))
      cases hevent : f e with
      | none =>
          rw [List.filterMap_cons_none hevent]
          exact hrest.trans ((List.sublist_cons_self e tr).filterMap stepTime?)
      | some event =>
          rw [List.filterMap_cons_some hevent, List.map_cons]
          unfold stepTimes
          rw [List.filterMap_cons_some (hf e event hevent)]
          exact hrest.cons_cons _

/-- What the log gets: a failure at its time, or a reset. -/
theorem eq_of_failureEvent? {name : PyStr} {p : AuthPool} {label : AuthLabel} {event : Event ℚ}
    (h : failureEvent? name (p, label) = some event) : ∃ i c, label = .step i c ∧
      (p.nextOp i = some (.recordFailure name) ∧ event = .hit c.monotonic ∨
        p.nextOp i = some (.resetFailures name) ∧ event = .clear c.monotonic) := by
  cases label with
  | start => cases h
  | step i c =>
      obtain ⟨op, hnext, hop⟩ := Option.bind_eq_some_iff.1 h
      refine ⟨i, c, rfl, ?_⟩
      cases op with
      | recordFailure m =>
          simp only [AuthOp.failureEvent?] at hop
          split_ifs at hop with hname
          cases hop
          exact .inl ⟨by rw [hnext, hname], rfl⟩
      | resetFailures m =>
          simp only [AuthOp.failureEvent?] at hop
          split_ifs at hop with hname
          cases hop
          exact .inr ⟨by rw [hnext, hname], rfl⟩
      | _ => cases hop

theorem stepTime?_of_failureEvent? {name : PyStr} (e : AuthPool × AuthLabel) (event : Event ℚ)
    (h : failureEvent? name e = some event) : stepTime? e = some event.time := by
  obtain ⟨p, label⟩ := e
  obtain ⟨i, c, rfl, ⟨-, rfl⟩ | ⟨-, rfl⟩⟩ := eq_of_failureEvent? h
  · rfl
  · rfl

/-- The failures and the resets of a name are logged in the order of time. -/
theorem sorted_failureLog {tr : List (AuthPool × AuthLabel)} (h : Clocked tr) (name : PyStr) :
    Sorted (failureLog name tr) :=
  sorted_of_clocked stepTime?_of_failureEvent? h

/-- The log of one step more. -/
theorem failureLog_snoc (name : PyStr) (tr : List (AuthPool × AuthLabel))
    (e : AuthPool × AuthLabel) :
    failureLog name (tr ++ [e]) = failureLog name tr ++ (failureEvent? name e).toList := by
  unfold failureLog
  rw [List.filterMap_append]
  cases he : failureEvent? name e <;> simp [he]

theorem Clocked.snoc {tr : List (AuthPool × AuthLabel)} {p : AuthPool} {label : AuthLabel}
    (h : Clocked (tr ++ [(p, label)])) :
    Clocked tr ∧ ∀ i c, label = .step i c → ∀ x ∈ stepTimes tr, x ≤ c.monotonic := by
  unfold Clocked stepTimes at h
  rw [List.filterMap_append, List.pairwise_append] at h
  refine ⟨h.1, ?_⟩
  rintro i c rfl x hx
  exact h.2.2 x hx _ (by simp [stepTime?])

theorem mem_stepTimes_snoc {tr : List (AuthPool × AuthLabel)} {e : AuthPool × AuthLabel} {x : ℚ}
    (h : x ∈ stepTimes tr) : x ∈ stepTimes (tr ++ [e]) := by
  unfold stepTimes at h ⊢
  rw [List.filterMap_append]
  exact List.mem_append_left _ h

theorem mem_stepTimes_last (tr : List (AuthPool × AuthLabel)) (p : AuthPool) (i : ℕ)
    (c : AuthChoice) : c.monotonic ∈ stepTimes (tr ++ [(p, .step i c)]) := by
  unfold stepTimes
  rw [List.filterMap_append]
  exact List.mem_append_right _ (by simp [stepTime?])

/-- What happened since the last reset is in the run. -/
theorem mem_stepTimes_of_since {name : PyStr} {tr : List (AuthPool × AuthLabel)} {x : ℚ}
    (h : x ∈ since (failureLog name tr)) : x ∈ stepTimes tr := by
  obtain ⟨e, he, hevent⟩ := List.mem_filterMap.1 (hit_mem_of_mem_since h)
  exact List.mem_filterMap.2 ⟨e, he, stepTime?_of_failureEvent? e _ hevent⟩

/-! ### The tracker follows the log -/

/-- An operation feeds the tracker with what the log gets. -/
theorem FailedLoginTracker.Keeps.onTracker {t : FailedLoginTracker} {name : PyStr}
    {log : List (Event ℚ)} {now : ℚ} (h : t.Keeps name (since log) now)
    (hle : ∀ x ∈ since log, x ≤ now) (op : AuthOp) :
    (op.onTracker now t).Keeps name (since (log ++ (op.failureEvent? name now).toList)) now := by
  cases op with
  | isBlocked m =>
      simp only [AuthOp.failureEvent?, Option.toList_none, List.append_nil]
      exact h.prune m
  | recordFailure m =>
      by_cases hname : m = name
      · subst hname
        simp only [AuthOp.failureEvent?, if_pos, Option.toList_some, since_hit]
        exact h.record hle
      · simp only [AuthOp.failureEvent?, if_neg hname, Option.toList_none, List.append_nil]
        exact h.record_other (Ne.symm hname)
  | resetFailures m =>
      by_cases hname : m = name
      · subst hname
        simp only [AuthOp.failureEvent?, if_pos, Option.toList_some, since_clear]
        exact keeps_reset t m now
      · simp only [AuthOp.failureEvent?, if_neg hname, Option.toList_none, List.append_nil]
        exact h.reset_other (Ne.symm hname)
  | _ =>
      simp only [AuthOp.failureEvent?, Option.toList_none, List.append_nil]
      exact h

section Runs

variable {env : AuthEnv} {s₀ : AuthState} {t : AuthPool} {tr : List (AuthPool × AuthLabel)}

/-- **What the tracker holds in every run** with a clock that does not go back. -/
theorem keeps_of_run
    (hrun : (poolSystem (authExec env) (authCode env) s₀).Run ⟨s₀, fun _ => none⟩ tr t)
    (hnew : s₀.failedLogins = .new env.config) (hclock : Clocked tr) (name : PyStr) :
    t.shared.failedLogins.windowSeconds = env.config.failedLoginWindowSeconds ∧
      t.shared.failedLogins.maxFailures = env.config.maxFailedLoginsPerAccount ∧
        ∀ now, (∀ x ∈ stepTimes tr, x ≤ now) →
          t.shared.failedLogins.Keeps name (since (failureLog name tr)) now := by
  induction hrun with
  | nil =>
      rw [hnew]
      exact ⟨rfl, rfl, fun now _ => FailedLoginTracker.keeps_new env.config name now⟩
  | @snoc u w tr label hrun hstep ih =>
      obtain ⟨hbefore, hlast⟩ := hclock.snoc
      obtain ⟨hwindow, hmax, hkeeps⟩ := ih hbefore
      rw [failureLog_snoc]
      cases label with
      | start i request =>
          obtain ⟨-, hshared, -⟩ := Pool.step_start (authExec env) (authCode env) hstep
          rw [hshared]
          refine ⟨hwindow, hmax, fun now hnow => ?_⟩
          simp only [failureEvent?, Option.toList_none, List.append_nil]
          exact hkeeps now fun x hx => hnow x (mem_stepTimes_snoc hx)
      | step i c =>
          obtain ⟨request, op, next, seen, s, a, hth, hexec, hshared, -⟩ :=
            Pool.step_step (authExec env) (authCode env) hstep
          rw [hshared, failedLogins_of_exec hexec]
          refine ⟨by rw [onTracker_windowSeconds, hwindow],
            by rw [onTracker_maxFailures, hmax], fun now hnow => ?_⟩
          have hkept := (hkeeps c.monotonic (hlast i c rfl)).onTracker
            (fun x hx => hlast i c rfl x (mem_stepTimes_of_since hx)) op
          rw [failureEvent?, AuthPool.nextOp_of_eq hth, Option.bind_some]
          exact hkept.later (hnow _ (mem_stepTimes_last tr u i c))

end Runs

/-! ### Logins under way -/

/-- The name was found not to be blocked. -/
def passes (name : PyStr) : (Σ op : AuthOp, op.Answer) → Bool
  | ⟨.isBlocked m, blocked⟩ => m == name && !blocked
  | _ => false

/-- A login of the name reports how the password has fared. -/
def AuthOp.reports (name : PyStr) : AuthOp → Bool
  | .recordFailure m | .resetFailures m => m == name
  | _ => false

/-- **A login has passed the question** and has not reported back. -/
def Checked (name : PyStr) (seen : Seen AuthOp.Answer) : Bool :=
  seen.any (passes name) && !seen.any fun e => e.1.reports name

theorem checked_snoc {name : PyStr} {seen : Seen AuthOp.Answer} {e : Σ op : AuthOp, op.Answer} :
    Checked name (seen ++ [e]) = true ↔
      e.1.reports name = false ∧ (Checked name seen = true ∨
        (seen.any fun e => e.1.reports name) = false ∧ passes name e = true) := by
  simp only [Checked, List.any_append, List.any_cons, List.any_nil, Bool.or_false,
    Bool.and_eq_true, Bool.or_eq_true, Bool.not_eq_true', Bool.or_eq_false_iff]
  tauto

/-- Whoever passes has asked for the name while it was not blocked. -/
theorem eq_isBlocked_of_passes {env : AuthEnv} {i : ℕ} {op : AuthOp} {c : AuthChoice}
    {s s' : AuthState} {a : op.Answer} {name : PyStr} (h : authExec env i op c s = some (s', a))
    (hp : passes name ⟨op, a⟩ = true) :
    op = .isBlocked name ∧ (s.failedLogins.isBlocked name c.monotonic).2 = false := by
  cases op with
  | isBlocked m =>
      cases h
      simp only [passes, Bool.and_eq_true, beq_iff_eq, Bool.not_eq_true'] at hp
      obtain ⟨rfl, hfree⟩ := hp
      exact ⟨rfl, hfree⟩
  | _ => cases hp

section Checked

variable {α β : Type} {P : Seen AuthOp.Answer → AuthOp → Prop} {seen : Seen AuthOp.Answer}

/-- What follows a query is known to come right after it. -/
theorem follows_query_bind {q : Query} {f : q.Answer → AuthProgram α} (h : P seen (.query q))
    (hf : ∀ a, Follows P (seen ++ [⟨.query q, .ok a⟩]) (f a)) :
    Follows P seen ((AuthProgram.query q).bind f) := by
  refine ⟨h, fun a => ?_⟩
  cases a with
  | ok a => exact hf a
  | error e => exact Program.follows_done _

/-- What follows a verification is known to come right after it. -/
theorem follows_verify_bind {storedHash password : PyStr} {f : Bool → AuthProgram α}
    (h : P seen (.verifyPassword storedHash password))
    (hf : ∀ a, Follows P (seen ++ [⟨.verifyPassword storedHash password, .ok a⟩]) (f a)) :
    Follows P seen ((AuthProgram.verify storedHash password).bind f) := by
  refine ⟨h, fun a => ?_⟩
  cases a with
  | ok a => exact hf a
  | error e => exact Program.follows_done _

end Checked

/-- Only a login that has passed records a failure. -/
def RecordsChecked (seen : Seen AuthOp.Answer) (op : AuthOp) : Prop :=
  ∀ name, op = .recordFailure name → Checked name seen = true

theorem recordsChecked_of_ne (seen : Seen AuthOp.Answer) {op : AuthOp}
    (h : ∀ name, op ≠ .recordFailure name) : RecordsChecked seen op :=
  fun name hop => absurd hop (h name)

theorem recordsChecked_of_plain (seen : Seen AuthOp.Answer) (op : AuthOp) (h : op.Plain) :
    RecordsChecked seen op := by
  rintro name rfl
  exact h.elim

/-- A login that fails has passed. -/
theorem follows_failLogin {α : Type} {normalized reason : PyStr} {seen : Seen AuthOp.Answer}
    (h : Checked normalized seen = true) :
    Follows RecordsChecked seen (failLogin normalized reason : AuthProgram α) := by
  refine (Program.follows_perform ?_).bind fun _ _ _ => Program.follows_done _
  rintro name hop
  cases hop
  exact h

theorem follows_checked_loginUser (env : AuthEnv) (normalized : PyStr) (user : User)
    (password : PyStr) {seen : Seen AuthOp.Answer} (h : Checked normalized seen = true) :
    Follows RecordsChecked seen (loginUser env normalized user password) := by
  refine follows_verify_bind (recordsChecked_of_plain _ _ (by trivial)) fun verified => ?_
  have hchecked : Checked normalized
      (seen ++ [⟨.verifyPassword user.passwordHash password, .ok verified⟩]) = true :=
    checked_snoc.2 ⟨rfl, .inl h⟩
  split_ifs
  · exact follows_failLogin hchecked
  · exact follows_failLogin hchecked
  · -- nothing is recorded any more
    have hissue : ∀ seen userId sessionId now, RecordsChecked seen (.issue userId sessionId now) :=
      fun _ _ _ _ => recordsChecked_of_ne _ (by simp)
    refine Follows.bind ?_ fun seen₁ rehash _ => ?_
    · unfold rehashPassword
      split_ifs
      · refine (follows_hash (recordsChecked_of_plain _ _ (by trivial))).bind fun seen₂ _ _ => ?_
        exact (Program.follows_perform (recordsChecked_of_plain _ _ (by trivial))).bind
          fun _ _ _ => Program.follows_done _
      · exact Program.follows_done _
    refine (Program.follows_perform (recordsChecked_of_ne _ (by simp))).bind fun seen₂ _ _ => ?_
    refine (Program.follows_perform (recordsChecked_of_plain _ _ (by trivial))).bind
      fun seen₃ now _ => ?_
    refine (follows_write (recordsChecked_of_plain _ _ (by trivial))).bind fun seen₄ drawn _ => ?_
    exact (Program.follows_perform (hissue _ _ _ _)).bind fun _ _ _ => Program.follows_done _

/-- A login records a failure only after it has passed. -/
theorem follows_checked_login (env : AuthEnv) (username password : PyStr) :
    Follows RecordsChecked [] (login env username password) := by
  unfold login
  split
  · rename_i normalized hvalid
    refine ⟨recordsChecked_of_ne _ (by simp), fun blocked => ?_⟩
    cases blocked with
    | true => exact Program.follows_done _
    | false =>
        have hchecked : Checked normalized [⟨.isBlocked normalized, false⟩] = true := by
          simp [Checked, passes, AuthOp.reports]
        refine follows_query_bind (recordsChecked_of_plain _ _ (by trivial)) fun found => ?_
        cases found with
        | none =>
            refine ⟨recordsChecked_of_plain _ _ (by trivial), fun _ => follows_failLogin ?_⟩
            exact checked_snoc.2 ⟨rfl, .inl (checked_snoc.2 ⟨rfl, .inl hchecked⟩)⟩
        | some user =>
            refine follows_query_bind (recordsChecked_of_plain _ _ (by trivial)) fun _ => ?_
            refine follows_checked_loginUser env normalized user password ?_
            exact checked_snoc.2 ⟨rfl, .inl (checked_snoc.2 ⟨rfl, .inl hchecked⟩)⟩
  · refine ⟨recordsChecked_of_plain _ _ (by trivial), fun _ => Program.follows_done _⟩

/-- **Whoever records a failure has passed.** -/
theorem follows_checked (env : AuthEnv) (request : AuthRequest) :
    Follows RecordsChecked [] (authCode env request) := by
  cases request with
  | login username password =>
      refine follows_inSession ?_ (fun seen => recordsChecked_of_plain seen _ (by trivial))
        fun seen => recordsChecked_of_plain seen _ (by trivial)
      exact (follows_checked_login env username password).bind fun _ _ _ => Program.follows_done _
  | _ =>
      refine follows_authCode ⟨recordsChecked_of_plain, ?_, ?_, ?_, ?_⟩
      · exact fun seen _ _ _ _ _ _ _ => recordsChecked_of_ne seen (by simp)
      · exact fun _ _ _ _ _ h => AuthRequest.noConfusion h
      · exact fun seen _ _ _ _ => recordsChecked_of_ne seen (by simp)
      · exact fun seen _ _ _ _ _ => recordsChecked_of_ne seen (by simp)

/-! ### The bound -/

/-- A login of the name that has passed and has not reported back is under way. -/
def AuthPool.pending (p : AuthPool) (name : PyStr) (i : ℕ) : Bool :=
  match p.threads i with
  | some ⟨_, .step _ _, seen⟩ => Checked name seen
  | _ => false

theorem AuthPool.pending_eq_true {p : AuthPool} {name : PyStr} {i : ℕ}
    (h : p.pending name i = true) :
    ∃ request op next seen, p.threads i = some ⟨request, .step op next, seen⟩ ∧
      Checked name seen = true := by
  unfold pending at h
  split at h
  · rename_i request op next seen hth
    exact ⟨request, op, next, seen, hth, h⟩
  · cases h

theorem AuthPool.pending_of_eq {p : AuthPool} {name : PyStr} {i : ℕ} {request : AuthRequest}
    {op : AuthOp} {next : op.Answer → AuthProgram AuthResponse} {seen : Seen AuthOp.Answer}
    (h : p.threads i = some ⟨request, .step op next, seen⟩) :
    p.pending name i = Checked name seen := by
  simp [pending, h]

/-- **A login that passes finds room**: the recent failures and the logins under way that have
passed are together fewer than the tracker lets through. -/
def FindsRoom (name : PyStr) : AuthPool × AuthLabel → Prop
  | (p, .step i c) =>
      p.nextOp i = some (.isBlocked name) →
        (p.shared.failedLogins.isBlocked name c.monotonic).2 = false →
          ∀ l : List ℕ, l.Nodup → (∀ j ∈ l, p.pending name j = true) →
            (p.shared.failedLogins.prune name c.monotonic).2.length + l.length <
              p.shared.failedLogins.maxFailures
  | (_, .start _ _) => True

section Steps

variable {env : AuthEnv} {u w : AuthPool} {label : AuthLabel} {name : PyStr}

/-- Which logins are under way after a step: those from before, and one that has just passed. -/
theorem pending_of_step (hstep : Pool.step (authExec env) (authCode env) u label = some w) {k : ℕ}
    (h : w.pending name k = true) :
    u.pending name k = true ∨ ∃ c, label = .step k c ∧ u.nextOp k = some (.isBlocked name) ∧
      (u.shared.failedLogins.isBlocked name c.monotonic).2 = false := by
  obtain ⟨request, op, next, seen, hth, hchecked⟩ := AuthPool.pending_eq_true h
  cases label with
  | start i request' =>
      obtain ⟨-, -, hupdate⟩ := Pool.step_start (authExec env) (authCode env) hstep
      rw [hupdate] at hth
      by_cases hki : k = i
      · subst hki
        rw [Function.update_self, Option.some.injEq] at hth
        have hseen : seen = [] := (congrArg Thread.seen hth).symm
        subst hseen
        cases hchecked
      · rw [Function.update_of_ne hki] at hth
        exact .inl (by rw [AuthPool.pending_of_eq hth]; exact hchecked)
  | step i c =>
      obtain ⟨request', op', next', seen', s, a, hu, hexec, -, hupdate⟩ :=
        Pool.step_step (authExec env) (authCode env) hstep
      rw [hupdate] at hth
      by_cases hki : k = i
      · subst hki
        rw [Function.update_self, Option.some.injEq] at hth
        have hseen : seen = seen' ++ [⟨op', a⟩] := (congrArg Thread.seen hth).symm
        subst hseen
        rcases (checked_snoc.1 hchecked).2 with hbefore | ⟨-, hpasses⟩
        · exact .inl (by rw [AuthPool.pending_of_eq hu]; exact hbefore)
        · obtain ⟨rfl, hfree⟩ := eq_isBlocked_of_passes hexec hpasses
          exact .inr ⟨c, rfl, AuthPool.nextOp_of_eq hu, hfree⟩
      · rw [Function.update_of_ne hki] at hth
        exact .inl (by rw [AuthPool.pending_of_eq hth]; exact hchecked)

/-- A login that reports back is not under way any more. -/
theorem not_pending_of_reports {i : ℕ} {c : AuthChoice}
    (hstep : Pool.step (authExec env) (authCode env) u (.step i c) = some w) {op : AuthOp}
    (hop : u.nextOp i = some op) (h : op.reports name = true) : w.pending name i = false := by
  obtain ⟨request, op', next, seen, s, a, hu, -, -, hupdate⟩ :=
    Pool.step_step (authExec env) (authCode env) hstep
  rw [AuthPool.nextOp_of_eq hu, Option.some.injEq] at hop
  subst hop
  rw [Bool.eq_false_iff]
  intro hpending
  obtain ⟨request', op'', next', seen', hth, hchecked⟩ := AuthPool.pending_eq_true hpending
  rw [hupdate, Function.update_self, Option.some.injEq] at hth
  have hseen : seen' = seen ++ [⟨op', a⟩] := (congrArg Thread.seen hth).symm
  rw [hseen, checked_snoc, h] at hchecked
  cases hchecked.1

end Steps

section Bound

variable {env : AuthEnv} {s₀ : AuthState} {t : AuthPool} {tr : List (AuthPool × AuthLabel)}
  {name : PyStr}

/-- Whoever is about to record a failure is under way. -/
theorem pending_of_recordFailure
    (hrun : (poolSystem (authExec env) (authCode env) s₀).Run ⟨s₀, fun _ => none⟩ tr t) {i : ℕ}
    (h : t.nextOp i = some (.recordFailure name)) : t.pending name i = true := by
  unfold AuthPool.nextOp at h
  split at h
  · rename_i request op next seen hth
    cases h
    rw [AuthPool.pending_of_eq hth]
    exact (follows_of_run hrun hth (follows_checked env request)).1 name rfl
  · cases h

/-- **There is room for all who have passed**, and every failure has found some. -/
theorem room_of_run
    (hrun : (poolSystem (authExec env) (authCode env) s₀).Run ⟨s₀, fun _ => none⟩ tr t)
    (hnew : s₀.failedLogins = .new env.config) (hclock : Clocked tr)
    (hroom : ∀ e ∈ tr, FindsRoom name e) :
    (∀ now, (∀ x ∈ stepTimes tr, x ≤ now) → ∀ l : List ℕ, l.Nodup →
        (∀ j ∈ l, t.pending name j = true) →
          live env.config.failedLoginWindowSeconds now (since (failureLog name tr)) + l.length ≤
            env.config.maxFailedLoginsPerAccount) ∧
      Throttled env.config.maxFailedLoginsPerAccount env.config.failedLoginWindowSeconds
        (failureLog name tr) := by
  induction hrun with
  | nil =>
      refine ⟨fun now _ l _ hl => ?_, throttled_nil _ _⟩
      cases l with
      | nil => exact Nat.zero_le _
      | cons j l => cases hl j List.mem_cons_self
  | @snoc u w tr label hrun hstep ih =>
      obtain ⟨hbefore, hlast⟩ := hclock.snoc
      obtain ⟨hfits, hthrottled⟩ := ih hbefore fun e he => hroom e (List.mem_append_left _ he)
      obtain ⟨hwindow, hmax, hkeeps⟩ := keeps_of_run hrun hnew hbefore name
      have hstep' : Pool.step (authExec env) (authCode env) u label = some w := hstep
      have hhere := hroom (u, label) (by simp)
      have hnow : ∀ now, (∀ x ∈ stepTimes (tr ++ [(u, label)]), x ≤ now) →
          ∀ x ∈ stepTimes tr, x ≤ now := fun now h x hx => h x (mem_stepTimes_snoc hx)
      rw [failureLog_snoc]
      cases hevent : failureEvent? name (u, label) with
      | none =>
          rw [Option.toList_none, List.append_nil]
          refine ⟨fun now hle l hnodup hl => ?_, hthrottled⟩
          by_cases hall : ∀ j ∈ l, u.pending name j = true
          · exact hfits now (hnow now hle) l hnodup hall
          · -- one of them has just passed, and has found room for the others
            push Not at hall
            obtain ⟨k, hk, hnot⟩ := hall
            obtain ⟨c, rfl, hop, hfree⟩ := (pending_of_step hstep' (hl k hk)).resolve_left hnot
            have hothers : ∀ j ∈ l.erase k, u.pending name j = true := by
              intro j hj
              rcases pending_of_step hstep' (hl j (List.mem_of_mem_erase hj)) with h | ⟨c', h, -⟩
              · exact h
              · cases h
                exact absurd hj hnodup.not_mem_erase
            have hfound := hhere hop hfree (l.erase k) (hnodup.erase k) hothers
            rw [(hkeeps c.monotonic (hlast k c rfl)).prune_snd_eq, hwindow, hmax,
              ← List.countP_eq_length_filter, List.length_erase_of_mem hk] at hfound
            have hlater := live_anti (w := env.config.failedLoginWindowSeconds)
              (l := since (failureLog name tr)) (hle _ (mem_stepTimes_last tr u k c))
            have hpos := List.length_pos_of_mem hk
            unfold live at hlater ⊢
            omega
      | some event =>
          rw [Option.toList_some]
          obtain ⟨i, c, rfl, hcase⟩ := eq_of_failureEvent? hevent
          -- nobody passes at this step
          have hsame : ∀ j, w.pending name j = true → u.pending name j = true := by
            intro j hj
            rcases pending_of_step hstep' hj with h | ⟨c', h, hop, -⟩
            · exact h
            · cases h
              rcases hcase with ⟨hop', -⟩ | ⟨hop', -⟩ <;> rw [hop] at hop' <;> cases hop'
          rcases hcase with ⟨hop, rfl⟩ | ⟨hop, rfl⟩
          · have hgone : w.pending name i = false :=
              not_pending_of_reports hstep' hop (by simp [AuthOp.reports])
            have hpending := pending_of_recordFailure hrun hop
            refine ⟨fun now hle l hnodup hl => ?_, hthrottled.snoc ?_⟩
            · have hout : i ∉ l := fun hi => by
                rw [hl i hi] at hgone
                cases hgone
              have hfit := hfits now (hnow now hle) (i :: l) (List.nodup_cons.2 ⟨hout, hnodup⟩)
                fun j hj => by
                  rcases List.mem_cons.1 hj with rfl | hj
                  · exact hpending
                  · exact hsame j (hl j hj)
              rw [List.length_cons] at hfit
              have hone := List.countP_le_length
                (p := fun x => decide (now - env.config.failedLoginWindowSeconds < x))
                (l := [c.monotonic])
              rw [since_hit, live, List.countP_append]
              unfold live at hfit
              rw [List.length_singleton] at hone
              omega
            · rintro _ ⟨⟩
              have hfit := hfits c.monotonic (hlast i c rfl) [i] (List.nodup_singleton i)
                fun j hj => by
                  rw [List.mem_singleton] at hj
                  rw [hj]
                  exact hpending
              exact Nat.lt_of_succ_le hfit
          · refine ⟨fun now hle l hnodup hl => ?_, hthrottled.snoc fun x hx => by cases hx⟩
            have hfit := hfits now (hnow now hle) l hnodup fun j hj => hsame j (hl j hj)
            rw [since_clear, live, List.countP_nil]
            omega

/-- **At most so many failures of a name in every interval** of the length of the window in which no
login of the name succeeds, in runs where every login that passes finds room. -/
theorem failed_logins_bounded
    (hrun : (poolSystem (authExec env) (authCode env) s₀).Run ⟨s₀, fun _ => none⟩ tr t)
    (hnew : s₀.failedLogins = .new env.config) (hclock : Clocked tr)
    (hroom : ∀ e ∈ tr, FindsRoom name e) (left : Bool) (a : ℚ)
    (hclear : ∀ x, .clear x ∈ failureLog name tr →
      halfOpen left a env.config.failedLoginWindowSeconds x = false) :
    (hits (failureLog name tr)).countP (halfOpen left a env.config.failedLoginWindowSeconds) ≤
      env.config.maxFailedLoginsPerAccount :=
  (room_of_run hrun hnew hclock hroom).2.bounded (sorted_failureLog hclock name) hclear

end Bound

/-- A login finds room where even all requests ever made would. -/
theorem findsRoom_of_started {env : AuthEnv} {s₀ : AuthState} {t : AuthPool}
    {tr : List (AuthPool × AuthLabel)} {name : PyStr} (ids : List ℕ)
    (hrun : (poolSystem (authExec env) (authCode env) s₀).Run ⟨s₀, fun _ => none⟩ tr t)
    (hids : ∀ e ∈ tr, ∀ i request, e.2 = .start i request → i ∈ ids)
    (hroom : ∀ e ∈ tr, ∀ i c, e.2 = .step i c →
      (e.1.shared.failedLogins.prune name c.monotonic).2.length + ids.length <
        e.1.shared.failedLogins.maxFailures) : ∀ e ∈ tr, FindsRoom name e := by
  rintro ⟨p, label⟩ he
  cases label with
  | start i request => trivial
  | step i c =>
      intro _ _ l hnodup hl
      have hsub : l ⊆ ids := by
        intro j hj
        obtain ⟨tr₁, tr₂, -, rfl, hbefore, -, -⟩ := hrun.of_mem he
        obtain ⟨request, op, next, seen, hth, -⟩ := AuthPool.pending_eq_true (hl j hj)
        obtain ⟨e, he', hstart⟩ := started_of_run hbefore hth
        exact hids e (List.mem_append_left _ he') j _ hstart
      have hfew := (List.subperm_of_subset hnodup hsub).length_le
      exact (Nat.add_le_add_left hfew _).trans_lt (hroom _ he i c rfl)

/-! ### Guesses -/

/-- The account of `alice`. -/
def aliceAccount : User where
  id := hexId 0
  username := py "alice"
  usernameNormalized := py "alice"
  passwordHash := samplePassword
  createdAt := .utc 0
  updatedAt := .utc 0

/-- The database of one account. -/
def aliceAlone : AuthState :=
  { AuthState.new (sampleEnv .instants) with
    committed := { Database.empty with users := [aliceAccount] } }

/-- All interleavings over it. -/
abbrev aliceSystem : Transition.System AuthPool AuthLabel :=
  poolSystem (authExec (sampleEnv .instants)) (authCode (sampleEnv .instants)) aliceAlone

/-- A guess at the password of `alice`. -/
def wrongGuess : AuthRequest := .login (py "alice") (py "battery staple")

/-- So many guesses at ten seconds, each of which asks before the first one has reported back. -/
def guessesAtOnce (n : ℕ) : List AuthLabel :=
  (List.range n).map (fun i => .start i wrongGuess) ++
    (List.range n).map (fun i => .step i { monotonic := 10 }) ++
    (List.range n).flatMap fun i => List.replicate 5 (.step i { monotonic := 10 })

/-- Nothing succeeds. -/
def isFailure : Event ℚ → Bool
  | .hit _ => true
  | .clear _ => false

/-- Guesses at one time, and nothing else; the log has failures only. -/
def guessesOnly (tr : List (AuthPool × AuthLabel)) : Bool :=
  decide (Clocked tr) && (failureLog (py "alice") tr).all isFailure &&
    tr.all fun e => match e.2 with
      | .start _ request => request == wrongGuess
      | .step _ _ => true

theorem of_guessesOnly {tr : List (AuthPool × AuthLabel)} (h : guessesOnly tr = true) :
    Clocked tr ∧ (∀ x, .clear x ∉ failureLog (py "alice") tr) ∧
      ∀ e ∈ tr, ∀ i request, e.2 = .start i request → request = wrongGuess := by
  simp only [guessesOnly, Bool.and_eq_true, decide_eq_true_eq, List.all_eq_true] at h
  obtain ⟨⟨hclock, hlog⟩, hstarts⟩ := h
  refine ⟨hclock, ?_, ?_⟩
  · intro x hx
    have hhit := hlog _ hx
    cases hhit
  · intro e he i request hstart
    have hwrong := hstarts e he
    rw [hstart] at hwrong
    exact beq_iff_eq.1 hwrong

/-- Three guesses are under way at one time, and fail. -/
theorem failed_logins_bounded_overlapping :
    ∃ tr t, aliceSystem.Run ⟨aliceAlone, fun _ => none⟩ tr t ∧
      (∃ e ∈ tr, ∀ i ∈ List.range 3, e.1.pending (py "alice") i = true) ∧
        hits (failureLog (py "alice") tr) = [10, 10, 10] ∧
          (hits (failureLog (py "alice") tr)).countP (halfOpen true 0 300) ≤ 10 := by
  have hexec : (aliceSystem.exec ⟨aliceAlone, fun _ => none⟩ (guessesAtOnce 3)).map (fun _ =>
      guessesOnly (aliceSystem.traceOf ⟨aliceAlone, fun _ => none⟩ (guessesAtOnce 3)) &&
        (aliceSystem.traceOf ⟨aliceAlone, fun _ => none⟩ (guessesAtOnce 3)).any (fun e =>
          (List.range 3).all (e.1.pending (py "alice"))) &&
        hits (failureLog (py "alice")
          (aliceSystem.traceOf ⟨aliceAlone, fun _ => none⟩ (guessesAtOnce 3))) == [10, 10, 10] &&
        (aliceSystem.traceOf ⟨aliceAlone, fun _ => none⟩ (guessesAtOnce 3)).all fun e =>
          match e.2 with
          | .start i _ => decide (i < 3)
          | .step _ c => decide ((e.1.shared.failedLogins.prune (py "alice") c.monotonic).2.length +
              3 < e.1.shared.failedLogins.maxFailures)) = some true := by decide +kernel
  obtain ⟨t, -, hrun, hp⟩ := System.exists_run_of_exec hexec
  simp only [Bool.and_eq_true, List.all_eq_true, List.any_eq_true, beq_iff_eq] at hp
  obtain ⟨⟨⟨hguesses, hpending⟩, hhits⟩, hroom⟩ := hp
  obtain ⟨hclock, hlog, -⟩ := of_guessesOnly hguesses
  have hfinds : ∀ e ∈ aliceSystem.traceOf ⟨aliceAlone, fun _ => none⟩ (guessesAtOnce 3),
      FindsRoom (py "alice") e := by
    refine findsRoom_of_started (List.range 3) hrun (fun e he i request hstart => ?_)
      fun e he i c hlabel => ?_
    · have h := hroom e he
      rw [hstart] at h
      rw [List.mem_range]
      exact of_decide_eq_true h
    · have h := hroom e he
      rw [hlabel] at h
      exact of_decide_eq_true h
  exact ⟨_, t, hrun, hpending, hhits,
    failed_logins_bounded hrun rfl hclock hfinds true 0 fun x hx => absurd hx (hlog x)⟩

/-- **Eleven guesses fail at one time**, where the tracker lets ten through. -/
theorem failed_logins_exceed :
    ∃ tr t, aliceSystem.Run ⟨aliceAlone, fun _ => none⟩ tr t ∧
      aliceAlone.failedLogins = .new (sampleEnv .instants).config ∧ Clocked tr ∧
        (∀ e ∈ tr, ∀ i request, e.2 = .start i request → request = wrongGuess) ∧
          (∀ x, .clear x ∉ failureLog (py "alice") tr) ∧
            (sampleEnv .instants).config.maxFailedLoginsPerAccount <
              (hits (failureLog (py "alice") tr)).countP
                (halfOpen true 0 (sampleEnv .instants).config.failedLoginWindowSeconds) := by
  have hexec : (aliceSystem.exec ⟨aliceAlone, fun _ => none⟩ (guessesAtOnce 11)).map (fun _ =>
      guessesOnly (aliceSystem.traceOf ⟨aliceAlone, fun _ => none⟩ (guessesAtOnce 11)) &&
        decide (10 < (hits (failureLog (py "alice")
          (aliceSystem.traceOf ⟨aliceAlone, fun _ => none⟩ (guessesAtOnce 11)))).countP
            (halfOpen true 0 300))) = some true := by decide +kernel
  obtain ⟨t, -, hrun, hp⟩ := System.exists_run_of_exec hexec
  simp only [Bool.and_eq_true, decide_eq_true_eq] at hp
  obtain ⟨hguesses, hmany⟩ := hp
  obtain ⟨hclock, hlog, hstarts⟩ := of_guessesOnly hguesses
  exact ⟨_, t, hrun, rfl, hclock, hstarts, hlog, hmany⟩

end EncryptChat
