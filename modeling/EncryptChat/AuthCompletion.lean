/-
**Every request comes to an end.**

A request performs a dozen operations at most, so the service is never kept busy by the requests it
has.  But a write waits while another request holds uncommitted writes, and nothing in the service
says when that one goes on.  It always can: who holds the lock is under way, none of its operations
waits, and its last one gives the lock back.  So whatever has happened, all requests that have
arrived can be brought to their ends, without the database raising once.

Main definitions:

* `EncryptChat.Supplied` — there are ids and tokens left to draw.

Main results:

* `EncryptChat.within_authCode` — how many operations a request performs;
* `EncryptChat.unfinished_of_writer` — who holds the lock has not ended;
* `EncryptChat.goes_on` — **some request can go on**;
* `EncryptChat.requests_come_to_an_end` — **so all of them come to an end**.
-/

import EncryptChat.AuthTransactions
import EncryptChat.Completion
import EncryptChat.JsonText
import EncryptChat.RegisteredPassword
import Mathlib.Data.Fintype.BigOperators

set_option relaxedAutoImplicit false
set_option autoImplicit false

namespace EncryptChat

open Python Concurrent AuthService Transition
open Program (Within within_done within_perform)

/-! ### How many operations a request performs -/

section Within

variable (env : AuthEnv)

theorem within_write (w : Write) : Within 1 (AuthProgram.write w) := within_call within_ofPython

theorem within_verify (storedHash password : PyStr) :
    Within 1 (AuthProgram.verify storedHash password) := within_call within_ofPython

theorem within_ofExcept {α : Type} (r : Except AuthFailure α) :
    Within 0 (Program.ofExcept r : AuthProgram α) := within_done 0 r

theorem within_register (username password : PyStr) :
    Within 4 (register env username password) := by
  have hhash : Within 1 (AuthProgram.hash password) := within_call within_ofPython
  refine (within_ofExcept _).bind (m := 4) fun normalized => ?_
  refine (within_ofExcept _).bind (m := 4) fun _ => hhash.bind (m := 3) fun passwordHash => ?_
  refine (within_perform _).bind (m := 2) fun now => ?_
  refine (within_write _).bind (m := 1) fun created => ?_
  cases created with
  | some user => exact within_done 1 _
  | none => exact (within_perform _).bind fun _ => within_done 0 _

theorem within_loadUser (userId : PyStr) (e : AuthFailure) : Within 2 (loadUser userId e) := by
  refine (within_query _).bind (m := 1) fun found => ?_
  cases found with
  | none => exact within_done 1 _
  | some user => exact (within_query _).bind fun _ => within_done 0 _

theorem within_resolveObjects (token : PyStr) : Within 5 (resolveObjects env token) := by
  refine (within_perform _).bind (m := 4) fun clock => (within_ofExcept _).bind (m := 4) fun _ => ?_
  refine (within_perform _).bind (m := 3) fun now => (within_query _).bind (m := 2) fun found => ?_
  cases found with
  | none => exact within_done 2 _
  | some session =>
      refine (within_ofExcept _).bind (m := 2) fun _ => ?_
      exact (within_loadUser _ _).bind (m := 0) fun loaded =>
        (within_ofExcept _).bind (m := 0) fun _ => within_done 0 _

theorem within_refresh (token : PyStr) : Within 6 (refresh env token) := by
  refine (within_ofPython _).bind (m := 6) fun tokenHash => ?_
  refine (within_query _).bind (m := 5) fun found => (within_perform _).bind (m := 4) fun now => ?_
  cases found with
  | none => exact within_done 4 _
  | some session =>
      refine (within_ofExcept _).bind (m := 4) fun _ => ?_
      refine (within_loadUser _ _).bind (m := 2) fun loaded => ?_
      split_ifs
      · exact within_done 2 _
      · exact (within_write _).bind fun _ => (within_perform _).bind fun _ => within_done 0 _

theorem within_logout (held : AuthSession) : Within 3 (logout held) := by
  obtain ⟨_, _, _, _, _, revokedAt⟩ := held
  refine (within_query _).bind (m := 2) fun found => ?_
  cases found with
  | none => exact within_done 2 _
  | some _ =>
      refine (within_perform _).bind (m := 1) fun now => ?_
      cases revokedAt with
      | none => exact within_write _
      | some _ => exact within_done 1 _

theorem within_deleteAccount (held : User) (sessionIds : List PyStr) (password : PyStr) :
    Within 5 (deleteAccount held sessionIds password) := by
  refine (within_query _).bind (m := 4) fun found => ?_
  cases found with
  | none => exact within_done 4 _
  | some _ =>
      refine (within_verify _ _).bind (m := 3) fun verified => ?_
      cases verified with
      | false => exact within_done 3 _
      | true =>
          exact (within_perform _).bind fun now => (within_write _).bind fun _ => within_write _

/-- **A request performs twelve operations at most.** -/
theorem within_authCode (request : AuthRequest) : Within 12 (authCode env request) := by
  refine within_inSession (n := 10) ?_
  cases request with
  | register username password =>
      exact ((within_register env username password).bind fun _ => within_done 0 _).mono (by omega)
  | login username password =>
      exact (within_login env username password).bind fun _ => within_done 0 _
  | resolve token =>
      exact ((within_resolveObjects env token).bind fun _ => within_done 0 _).mono (by omega)
  | refresh token =>
      exact ((within_refresh env token).bind fun _ => within_done 0 _).mono (by omega)
  | logout token =>
      refine ((within_resolveObjects env token).bind (m := 3) fun resolved => ?_).mono (by omega)
      exact (within_logout _).bind fun _ => within_done 0 _
  | deleteAccount token password =>
      refine (within_resolveObjects env token).bind (m := 5) fun resolved => ?_
      exact (within_deleteAccount _ _ _).bind fun _ => within_done 0 _

end Within

/-! ### What there is to draw -/

/-- Few strings leave a hexadecimal one of length `k` out. -/
theorem exists_hex_notMem (k : ℕ) (used : List PyStr) (h : used.length < 16 ^ k) :
    ∃ digits : Fin k → Fin 16, List.ofFn (fun j => hexDigit (digits j)) ∉ used := by
  have hinj : Function.Injective fun digits : Fin k → Fin 16 =>
      List.ofFn fun j => hexDigit (digits j) := by
    intro f g heq
    have hdigits : ∀ a b : Fin 16, hexDigit a = hexDigit b → a = b := by decide
    exact funext fun j => hdigits _ _ (congrFun (List.ofFn_injective heq) j)
  have hcard : (Finset.univ.image fun digits : Fin k → Fin 16 =>
      List.ofFn fun j => hexDigit (digits j)).card = 16 ^ k := by
    rw [Finset.card_image_of_injective _ hinj]
    simp
  by_contra hall
  have hsubset : (Finset.univ.image fun digits : Fin k → Fin 16 =>
      List.ofFn fun j => hexDigit (digits j)) ⊆ used.toFinset := by
    intro s hs
    obtain ⟨digits, -, rfl⟩ := Finset.mem_image.1 hs
    rw [List.mem_toFinset]
    by_contra hnot
    exact hall ⟨digits, hnot⟩
  have hle := (Finset.card_le_card hsubset).trans (List.toFinset_card_le used)
  omega

/-- There are ids and tokens left for `n` steps. -/
structure Supplied (n : ℕ) (s : AuthState) : Prop where
  ids : s.usedIds.length + n ≤ 16 ^ 32
  tokens : s.usedTokens.length + n ≤ 16 ^ 32

/-- **What is drawn can be fresh.** -/
theorem Supplied.exists_fresh {n : ℕ} {s : AuthState} (h : Supplied (n + 1) s) :
    ∃ c : AuthChoice, c.fault = none ∧ s.Fresh c := by
  have htokens : s.usedTokens.length < 16 ^ 43 := by
    have hle := h.tokens
    have hpow : 16 ^ 32 < 16 ^ 43 := Nat.pow_lt_pow_right (by omega) (by omega)
    omega
  obtain ⟨id, hid⟩ := exists_hex_notMem 32 s.usedIds (by have := h.ids; omega)
  obtain ⟨token, htoken⟩ := exists_hex_notMem 43 s.usedTokens htokens
  refine ⟨{ id := List.ofFn fun j => hexDigit (id j)
            token := List.ofFn fun j => hexDigit (token j) }, rfl, ?_, ?_, hid, htoken⟩
  · have hdigit : ∀ d : Fin 16, (inRange '0' '9' (hexDigit d) || inRange 'a' 'f' (hexDigit d)) =
        true := by decide
    simp only [isUuidHex, List.length_ofFn, beq_self_eq_true, Bool.true_and, List.all_eq_true,
      List.mem_ofFn]
    rintro _ ⟨j, rfl⟩
    exact hdigit (id j)
  · have hdigit : ∀ d : Fin 16, isUrlSafe (hexDigit d) = true := by decide
    simp only [isRefreshToken, List.length_ofFn, beq_self_eq_true, Bool.true_and, List.all_eq_true,
      List.mem_ofFn]
    rintro _ ⟨j, rfl⟩
    exact hdigit (token j)

/-- An operation draws once at most. -/
theorem drawn_of_effect {env : AuthEnv} {i : ℕ} {op : AuthOp} {s s' : AuthState}
    (h : AuthEffect env i s op s') : s'.usedIds.length ≤ s.usedIds.length + 1 ∧
      s'.usedTokens.length ≤ s.usedTokens.length + 1 := by
  cases h with
  | kept _ hsame => rw [hsame.usedIds, hsame.usedTokens]; omega
  | issued => exact ⟨Nat.le_succ _, Nat.le_succ _⟩
  | wrote => exact ⟨le_rfl, le_rfl⟩
  | committed =>
      unfold AuthState.commit
      split
      · split_ifs <;> exact ⟨Nat.le_succ _, Nat.le_succ _⟩
      · exact ⟨Nat.le_succ _, Nat.le_succ _⟩
  | rolledBack =>
      unfold AuthState.rollback
      split
      · split_ifs <;> exact ⟨Nat.le_succ _, Nat.le_succ _⟩
      · exact ⟨Nat.le_succ _, Nat.le_succ _⟩

section Runs

variable {env : AuthEnv} {tr : List (AuthPool × AuthLabel)} {t t' : AuthPool}

/-- A step draws once at most. -/
theorem drawn_of_step {label : AuthLabel} (h : (authSystem env).step t label = some t') :
    t'.shared.usedIds.length ≤ t.shared.usedIds.length + 1 ∧
      t'.shared.usedTokens.length ≤ t.shared.usedTokens.length + 1 := by
  cases label with
  | start i request =>
      rw [(Pool.step_start (authExec env) (authCode env) h).2.1]
      omega
  | step i c =>
      obtain ⟨request, op, next, seen, s, a, -, hexec, hshared, -⟩ :=
        Pool.step_step (authExec env) (authCode env) h
      rw [hshared]
      exact drawn_of_effect (authEffect hexec)

/-- A run has drawn no more often than it has steps. -/
theorem drawn_of_run (h : (authSystem env).Run (.new env) tr t) :
    t.shared.usedIds.length ≤ tr.length ∧ t.shared.usedTokens.length ≤ tr.length := by
  induction h with
  | nil => exact ⟨le_rfl, le_rfl⟩
  | snoc _ hstep ih =>
      have hdrawn := drawn_of_step hstep
      rw [List.length_append, List.length_singleton]
      omega

/-! ### Some request can go on -/

/-- **Who holds the lock has not ended.** -/
theorem unfinished_of_writer (h : (authSystem env).Run (.new env) tr t) {i : ℕ} {d : Database}
    (hw : t.shared.writer = some (i, d)) : ∃ th, t.threads i = some th ∧ th.Unfinished := by
  have hsound := sound_of_run h
  obtain ⟨hunder, w, hwrote⟩ := hsound.once.writer_under_way ((storePart env).run h) hw
  cases hth : t.threads i with
  | none => exact absurd hth (hsound.arrived _ hwrote)
  | some th =>
      refine ⟨th, rfl, fun r hr => ?_⟩
      have hprogress := hsound.progress i th hth
      rw [hr] at hprogress
      cases hprogress with
      | working _ htransacts => exact htransacts
      | abandoned _ hrolled _ => exact hunder.2 hrolled
      | ended hcommitted _ => exact hunder.1 hcommitted

/-- Who may write may do anything. -/
theorem exec_of_writable (env : AuthEnv) {s : AuthState} {i : ℕ} {d : Database}
    (hd : s.writable i = some d) {c : AuthChoice} (hfault : c.fault = none) (hfresh : s.Fresh c) (op : AuthOp) :
    ∃ out, authExec env i op c s = some out := by
  cases op with
  | write w =>
      simp only [authExec, AuthState.write, hfault, hd, if_pos hfresh]
      exact ⟨_, rfl⟩
  | commit =>
      simp only [authExec, hfault]
      exact ⟨_, rfl⟩
  | _ => exact ⟨_, rfl⟩

/-- **Some request can go on**: the one that holds the lock, or any. -/
theorem goes_on {n : ℕ} (h : (authSystem env).Run (.new env) tr t)
    (hsupplied : Supplied (n + 1) t.shared)
    (hunfinished : ∃ i th, t.threads i = some th ∧ th.Unfinished) :
    ∃ i c t', c.fault = none ∧ (authSystem env).step t (.step i c) = some t' := by
  obtain ⟨c, hfault, hfresh⟩ := hsupplied.exists_fresh
  obtain ⟨i, th, hth, hnot, d, hd⟩ : ∃ i th, t.threads i = some th ∧ th.Unfinished ∧
      ∃ d, t.shared.writable i = some d := by
    cases hw : t.shared.writer with
    | none =>
        obtain ⟨i, th, hth, hnot⟩ := hunfinished
        exact ⟨i, th, hth, hnot, _, by rw [AuthState.writable, hw]⟩
    | some w =>
        obtain ⟨i, d⟩ := w
        obtain ⟨th, hth, hnot⟩ := unfinished_of_writer h hw
        exact ⟨i, th, hth, hnot, d, by rw [AuthState.writable, hw]; exact if_pos rfl⟩
  obtain ⟨request, rest, seen⟩ := th
  cases rest with
  | done r => exact absurd rfl (hnot r)
  | step op next =>
      obtain ⟨out, hout⟩ := exec_of_writable env hd hfault hfresh op
      refine ⟨i, c, ⟨out.1, Function.update t.threads i
        (some ⟨request, next out.2, seen ++ [⟨op, out.2⟩]⟩)⟩, hfault, ?_⟩
      simp only [authSystem, poolSystem, Pool.step, hth, hout, Option.map_some]

/-- **Every request comes to an end.**  A run is at most thirteen times as long as it has requests,
whatever the schedule; and whatever has happened, unless more than `2 ^ 120` requests have arrived,
all of them can be brought to their ends by steps in which the database does not raise. -/
theorem requests_come_to_an_end (h : (authSystem env).Run (.new env) tr t) :
    tr.length ≤ 13 * starts tr ∧ (starts tr ≤ 2 ^ 120 →
      ∃ tr' t', (authSystem env).Run t tr' t' ∧
        (∀ e ∈ tr', ∃ i c, e.2 = .step i c ∧ c.fault = none) ∧
          ∀ i th, t'.threads i = some th → ∃ r, th.rest = .done r) := by
  obtain ⟨n, hn, hlength⟩ := remaining_of_run (within_authCode env) h
  refine ⟨length_le_of_run (within_authCode env) h, fun hfew => ?_⟩
  have hdrawn := drawn_of_run h
  have hsupplied : Supplied n t.shared := ⟨by omega, by omega⟩
  -- what is known on the way: the pool is that of a run, and there is enough left to draw
  refine Pool.runs_down (C := fun c : AuthChoice => c.fault = none)
    (I := fun n p => (∃ tr, (authSystem env).Run (.new env) tr p) ∧ Supplied n p.shared)
    ?_ ⟨⟨tr, h⟩, hsupplied⟩ hn
  rintro m p ⟨⟨tr', hrun⟩, hsupply⟩ hunfinished
  obtain ⟨i, c, p', hfault, hstep⟩ := goes_on hrun hsupply hunfinished
  have hdraws := drawn_of_step hstep
  have hids := hsupply.ids
  have htokens := hsupply.tokens
  exact ⟨i, c, p', hfault, hstep, ⟨_, hrun.snoc hstep⟩, ⟨by omega, by omega⟩⟩

end Runs

/-! ### A registration that waits -/

/-- Two registrations: the second one is about to write while the first one holds the lock. -/
def waitsForTheLock : List AuthLabel :=
  requestOf 0 3 0 (.register (py "alice") samplePassword) ++
    requestOf 1 2 0 (.register (py "bob") samplePassword)

/-- The second registration cannot go on. -/
def secondWaits (t : AuthPool) : Bool :=
  starts ((authSystem (sampleEnv .instants)).traceOf (.new (sampleEnv .instants))
      waitsForTheLock) == 2 && (t.threads 1).isSome &&
    ((authSystem (sampleEnv .instants)).step t
      (.step 1 { id := hexId 1, token := urlsafeToken 1 })).isNone

/-- The registration that waits comes to its end, too. -/
theorem requests_come_to_an_end_bob :
    ∃ tr t, (authSystem (sampleEnv .instants)).Run (.new (sampleEnv .instants)) tr t ∧
      (authSystem (sampleEnv .instants)).step t
        (.step 1 { id := hexId 1, token := urlsafeToken 1 }) = none ∧
      ∃ tr' t' th r, (authSystem (sampleEnv .instants)).Run t tr' t' ∧
        t'.threads 1 = some th ∧ th.rest = .done r := by
  have hexec : ((authSystem (sampleEnv .instants)).exec (.new (sampleEnv .instants))
      waitsForTheLock).map secondWaits = some true := by decide +kernel
  obtain ⟨t, -, hrun, hp⟩ := System.exists_run_of_exec hexec
  simp only [secondWaits, Bool.and_eq_true, beq_iff_eq, Option.isNone_iff_eq_none,
    Option.isSome_iff_exists] at hp
  obtain ⟨⟨hstarts, th, hth⟩, hwaits⟩ := hp
  obtain ⟨tr', t', hrun', -, hdone⟩ := (requests_come_to_an_end hrun).2 (by
    rw [hstarts]
    exact Nat.pow_le_pow_right (n := 2) (i := 1) (by omega) (by omega))
  obtain ⟨th', hth', -⟩ := request_of_run hrun' hth
  obtain ⟨r, hr⟩ := hdone 1 th' hth'
  exact ⟨_, t, hrun, hwaits, tr', t', th', r, hrun', hth', hr⟩

end EncryptChat
