/-
**Guesses at the password of one account, one request after the other.**

Two requests verify a password, `login` and `delete_account`.  A login asks the failed-login tracker
first and feeds it when the verification fails; the deletion of an account does neither.  So a
verification that fails in a login has found room in the tracker, and shows up there right after it;
one that fails in a deletion is not counted.

Main definitions:

* `EncryptChat.Sequential` — a request starts when the others are done;
* `EncryptChat.guessLog` — the failed verifications against the hash of an account, and the logins to
  it that succeed, in a run;
* `EncryptChat.Reauthenticates` — a deletion presents the password of the account.

Main results:

* `EncryptChat.findsRoom_of_sequential` — nobody slips in between the question and the failure;
* `EncryptChat.guesses_behind` — **the tracker has seen every guess**, in runs where deletions
  reauthenticate;
* `EncryptChat.password_guesses_bounded` — the bound on every interval;
* `EncryptChat.password_guesses_exceed` — a deletion tried again and again.
-/

import EncryptChat.FailedLogins

set_option relaxedAutoImplicit false
set_option autoImplicit false

namespace EncryptChat

open Python Concurrent Transition SlidingWindow AuthService
open Program (Seen Follows Takes)

/-! ### One request after the other -/

/-- A request starts when the others are done. -/
def Sequential (tr : List (AuthPool × AuthLabel)) : Prop :=
  ∀ e ∈ tr, ∀ i request, e.2 = .start i request → ∀ j, e.1.nextOp j = none

theorem AuthPool.nextOp_eq_some {p : AuthPool} {i : ℕ} {op : AuthOp} (h : p.nextOp i = some op) :
    ∃ request next seen, p.threads i = some ⟨request, .step op next, seen⟩ := by
  unfold nextOp at h
  split at h
  · rename_i request op' next seen hth
    cases h
    exact ⟨request, next, seen, hth⟩
  · cases h

section Sequential

variable {env : AuthEnv} {s₀ : AuthState} {t : AuthPool} {tr : List (AuthPool × AuthLabel)}

/-- **At most one request is under way.** -/
theorem eq_of_sequential
    (hrun : (poolSystem (authExec env) (authCode env) s₀).Run ⟨s₀, fun _ => none⟩ tr t)
    (hseq : Sequential tr) {i j : ℕ} {op op' : AuthOp} (hi : t.nextOp i = some op)
    (hj : t.nextOp j = some op') : i = j := by
  induction hrun generalizing i j op op' with
  | nil => cases hi
  | @snoc u w tr label hrun hstep ih =>
      have hbefore : Sequential tr := fun e he => hseq e (List.mem_append_left _ he)
      -- whoever is under way was so before, or has just taken the step
      have hkept : ∀ k op, w.nextOp k = some op → (∀ c, label ≠ .step k c) →
          (∀ request, label ≠ .start k request) → u.nextOp k = some op := by
        intro k op hk hstep' hstart
        obtain ⟨request, next, seen, hth⟩ := AuthPool.nextOp_eq_some hk
        cases label with
        | start i' request' =>
            obtain ⟨-, -, hupdate⟩ := Pool.step_start (authExec env) (authCode env) hstep
            have hne : k ≠ i' := fun h => hstart request' (h ▸ rfl)
            rw [hupdate, Function.update_of_ne hne] at hth
            exact AuthPool.nextOp_of_eq hth
        | step i' c =>
            obtain ⟨_, _, _, _, _, _, -, -, -, hupdate⟩ :=
              Pool.step_step (authExec env) (authCode env) hstep
            have hne : k ≠ i' := fun h => hstep' c (h ▸ rfl)
            rw [hupdate, Function.update_of_ne hne] at hth
            exact AuthPool.nextOp_of_eq hth
      cases label with
      | start i' request =>
          have hdone := hseq (u, .start i' request) (by simp) i' request rfl
          have hnew : ∀ k op, w.nextOp k = some op → k = i' := by
            intro k op hk
            by_contra hne
            have hu := hkept k op hk (by simp) (by simpa using fun h => absurd h.symm hne)
            rw [hdone k] at hu
            cases hu
          rw [hnew i op hi, hnew j op' hj]
      | step i' c =>
          obtain ⟨_, _, _, _, _, _, hth, -, -, -⟩ :=
            Pool.step_step (authExec env) (authCode env) hstep
          have hu := AuthPool.nextOp_of_eq hth
          have hnew : ∀ k op, w.nextOp k = some op → k = i' := by
            intro k op hk
            by_contra hne
            exact hne (ih hbefore (hkept k op hk (by simpa using fun h => absurd h.symm hne)
              (by simp)) hu)
          rw [hnew i op hi, hnew j op' hj]

end Sequential

/-! ### What a login knows -/

/-- The account of the name was loaded; names are unique in the table. -/
def loads (name : PyStr) : (Σ op : AuthOp, op.Answer) → Bool
  | ⟨.query (.userById _), .ok (some user)⟩ => user.usernameNormalized == name
  | ⟨.query (.userByName _), .ok (some user)⟩ => user.usernameNormalized == name
  | _ => false

/-- An account that is loaded by a name has the name. -/
def NamedAsAsked (op : AuthOp) (a : op.Answer) : Prop :=
  ∀ asked name, op = .query (.userByName asked) → loads name ⟨op, a⟩ = true → name = asked

theorem namedAsAsked_of_exec {env : AuthEnv} {i : ℕ} {op : AuthOp} {c : AuthChoice}
    {s s' : AuthState} {a : op.Answer} (h : authExec env i op c s = some (s', a)) :
    NamedAsAsked op a := by
  rintro asked name rfl hloads
  cases h
  cases hfault : c.fault with
  | some e => simp [AuthState.query, hfault, loads] at hloads
  | none =>
      simp only [AuthState.query, hfault] at hloads
      cases hanswer : (s.visible i).answer env.backend (.userByName asked) with
      | error e => simp [hanswer, loads] at hloads
      | ok found =>
          cases found with
          | none => simp [hanswer, loads] at hloads
          | some user =>
              simp only [hanswer, loads, beq_iff_eq] at hloads
              obtain ⟨u, -, hname, rfl⟩ := Database.answer_userByName hanswer
              exact hloads.symm.trans hname

/-- A login verifies the password of the account it has asked the tracker for, and goes on to record
the failure when the verification fails; only an account it has loaded is reset. -/
def LoginStep (seen : Seen AuthOp.Answer) :
    (op : AuthOp) → (op.Answer → AuthProgram AuthResponse) → Prop
  | .isBlocked _, _ => seen = []
  | .verifyPassword _ _, next =>
      ∃ n, Checked n seen = true ∧ (∀ m, seen.any (loads m) = true → m = n) ∧
        ∃ next', next (.ok false) = .step (.recordFailure n) next'
  | .resetFailures n, _ =>
      seen.any (loads n) = true ∧ ∀ m, seen.any (loads m) = true → m = n
  | _, _ => True

/-- The operations of a login that need no explanation. -/
def AuthOp.Silent : AuthOp → Prop
  | .isBlocked _ | .verifyPassword _ _ | .resetFailures _ => False
  | _ => True

theorem loginStep_of_silent (seen : Seen AuthOp.Answer) (op : AuthOp)
    (next : op.Answer → AuthProgram AuthResponse) (h : op.Silent) : LoginStep seen op next := by
  cases op <;> trivial

/-- The rest of a request, where it needs no explanation. -/
theorem takes_of_silent {seen : Seen AuthOp.Answer} {p : AuthProgram AuthResponse}
    (h : Follows (fun _ op => op.Silent) seen p) : Takes NamedAsAsked LoginStep seen p :=
  .of_follows h loginStep_of_silent

theorem follows_silent_inSession {p : AuthProgram AuthResponse} {seen : Seen AuthOp.Answer}
    (h : Follows (fun _ op => op.Silent) seen p) :
    Follows (fun _ op => op.Silent) seen (AuthProgram.inSession p) :=
  follows_inSession h (fun _ => trivial) fun _ => trivial

section Login

variable {n : PyStr} {seen : Seen AuthOp.Answer}

/-- What a login has loaded besides is the account of its name. -/
theorem any_loads_snoc {e : Σ op : AuthOp, op.Answer} (h : ∀ m, seen.any (loads m) = true → m = n)
    (he : ∀ m, loads m e = true → m = n) : ∀ m, (seen ++ [e]).any (loads m) = true → m = n := by
  intro m hm
  rw [List.any_append, Bool.or_eq_true] at hm
  rcases hm with hm | hm
  · exact h m hm
  · exact he m (by simpa using hm)

/-- A login that succeeds. -/
theorem takes_openSession (env : AuthEnv) (user : User) (rehash : Option (PyStr × Datetime))
    (hnamed : seen.any (loads n) = true) (honly : ∀ m, seen.any (loads m) = true → m = n) :
    Takes NamedAsAsked LoginStep seen (.step (.resetFailures n) fun _ =>
      AuthProgram.inSession ((openSession env user rehash).bind fun credentials =>
        .done (.ok (.loggedIn credentials)))) := by
  refine ⟨⟨hnamed, honly⟩, fun _ _ => takes_of_silent (follows_silent_inSession ?_)⟩
  refine ⟨trivial, fun now => ⟨trivial, fun drawn => ?_⟩⟩
  cases drawn with
  | error e => exact Program.follows_done _
  | ok drawn => exact ⟨trivial, fun _ => Program.follows_done _⟩

/-- A login of an account that exists. -/
theorem takes_loginUser (env : AuthEnv) (user : User) (password : PyStr)
    (hchecked : Checked n seen = true) (hnamed : seen.any (loads n) = true)
    (honly : ∀ m, seen.any (loads m) = true → m = n) :
    Takes NamedAsAsked LoginStep seen
      (AuthProgram.inSession ((loginUser env n user password).bind fun credentials =>
        .done (.ok (.loggedIn credentials)))) := by
  refine ⟨⟨n, hchecked, honly, _, rfl⟩, fun verified _ => ?_⟩
  match verified with
  | .error e => exact takes_of_silent ⟨trivial, fun _ => trivial⟩
  | .ok false => exact takes_of_silent ⟨trivial, fun _ => ⟨trivial, fun _ => trivial⟩⟩
  | .ok true =>
      change Takes NamedAsAsked LoginStep _ (AuthProgram.inSession
        ((if user.isActive = false then failLogin n (py "account disabled") else do
          let rehash ← rehashPassword env user password
          let _ ← AuthProgram.perform (.resetFailures n)
          openSession env user rehash).bind fun credentials => .done (.ok (.loggedIn credentials))))
      have hloads : ∀ m, loads m ⟨.verifyPassword user.passwordHash password, .ok true⟩ = true →
          m = n := by simp [loads]
      have honly' := any_loads_snoc honly hloads
      split_ifs
      · exact takes_of_silent ⟨trivial, fun _ => ⟨trivial, fun _ => trivial⟩⟩
      · unfold rehashPassword
        split_ifs
        · refine ⟨trivial, fun hashed _ => ?_⟩
          cases hashed with
          | error e => exact takes_of_silent ⟨trivial, fun _ => trivial⟩
          | ok hash =>
              refine ⟨trivial, fun now _ => ?_⟩
              refine takes_openSession env user (some (hash, now)) ?_ ?_
              · simp [hnamed]
              · exact any_loads_snoc (any_loads_snoc honly' (by simp [loads])) (by simp [loads])
        · exact takes_openSession env user none (by simp [hnamed]) honly'

end Login

/-- **What a login does.** -/
theorem takes_login (env : AuthEnv) (username password : PyStr) :
    Takes NamedAsAsked LoginStep [] (authCode env (.login username password)) := by
  cases hvalid : validateUsername env.unicode username with
  | error e =>
      rw [authCode_login_error hvalid]
      exact takes_of_silent ⟨trivial, fun _ => ⟨trivial, fun _ => trivial⟩⟩
  | ok n =>
      rw [authCode_login hvalid]
      refine ⟨rfl, fun blocked _ => ?_⟩
      cases blocked with
      | true => exact takes_of_silent ⟨trivial, fun _ => trivial⟩
      | false =>
          have hchecked : Checked n [⟨.isBlocked n, false⟩] = true := by
            simp [Checked, passes, AuthOp.reports]
          refine ⟨trivial, fun found hfound => ?_⟩
          cases found with
          | error e => exact takes_of_silent ⟨trivial, fun _ => trivial⟩
          | ok found =>
              cases found with
              | none =>
                  exact takes_of_silent
                    ⟨trivial, fun _ => ⟨trivial, fun _ => ⟨trivial, fun _ => trivial⟩⟩⟩
              | some user =>
                  -- the account that was found has the name
                  have hname : user.usernameNormalized = n := hfound n _ rfl (by simp [loads])
                  have hloads : ∀ m, loads m ⟨.query (.userByName n), .ok (some user)⟩ = true →
                      m = n := fun m hm => hfound n m rfl hm
                  refine ⟨trivial, fun sessionIds _ => ?_⟩
                  cases sessionIds with
                  | error e => exact takes_of_silent ⟨trivial, fun _ => trivial⟩
                  | ok ids =>
                      refine takes_loginUser env user password ?_ ?_ ?_
                      · exact checked_snoc.2 ⟨rfl, .inl (checked_snoc.2 ⟨rfl, .inl hchecked⟩)⟩
                      · simp [loads, hname]
                      · exact any_loads_snoc (any_loads_snoc (by simp [loads]) hloads)
                          (by simp [loads])

/-- The request verifies a password. -/
def AuthRequest.verifies : AuthRequest → Bool
  | .login _ _ | .deleteAccount _ _ => true
  | _ => false

/-- The request signs in with a password. -/
def AuthRequest.isLogin : AuthRequest → Bool
  | .login _ _ => true
  | _ => false

/-- Only a login asks the tracker, or resets it. -/
theorem follows_of_not_login (env : AuthEnv) {request : AuthRequest}
    (h : request.isLogin = false) :
    Follows (fun _ op => ∀ n, op ≠ .isBlocked n ∧ op ≠ .resetFailures n) []
      (authCode env request) := by
  refine follows_authCode ⟨?_, ?_, ?_, ?_, ?_⟩
  · rintro seen op hplain n
    constructor
    · rintro rfl
      exact hplain
    · rintro rfl
      exact hplain
  · intros
    simp
  · rintro seen username password normalized op rfl
    cases h
  · intros
    simp
  · intros
    simp

/-! ### Guesses -/

/-- A failed verification, or a login that succeeds, when the operation is one. -/
def AuthOp.guessEvent? (env : AuthEnv) (now : ℚ) : AuthOp → Option (Event ℚ)
  | .verifyPassword storedHash password =>
      if EncryptChat.verifyPassword env.unicode env.argon2 storedHash password matches .ok false then
        some (.hit now)
      else none
  | .resetFailures _ => some (.clear now)
  | _ => none

/-- A failed verification against the hash of the account of a name, or a login to it that succeeds,
when the step is one. -/
def guessEvent? (env : AuthEnv) (name : PyStr) : AuthPool × AuthLabel → Option (Event ℚ)
  | (p, .step i c) =>
      match p.threads i with
      | some ⟨_, .step op _, seen⟩ =>
          if seen.any (loads name) then op.guessEvent? env c.monotonic else none
      | _ => none
  | (_, .start _ _) => none

/-- The failed verifications against the hash of the account of a name, and the logins to it that
succeed, in a run. -/
def guessLog (env : AuthEnv) (name : PyStr) (tr : List (AuthPool × AuthLabel)) :
    List (Event ℚ) :=
  tr.filterMap (guessEvent? env name)

theorem guessEvent?_of_eq {env : AuthEnv} {name : PyStr} {p : AuthPool} {i : ℕ} {c : AuthChoice}
    {request : AuthRequest} {op : AuthOp} {next : op.Answer → AuthProgram AuthResponse}
    {seen : Seen AuthOp.Answer} (h : p.threads i = some ⟨request, .step op next, seen⟩) :
    guessEvent? env name (p, .step i c) =
      if seen.any (loads name) then op.guessEvent? env c.monotonic else none := by
  simp [guessEvent?, h]

theorem AuthOp.time_of_guessEvent? {env : AuthEnv} {now : ℚ} {op : AuthOp} {event : Event ℚ}
    (h : op.guessEvent? env now = some event) : event.time = now := by
  cases op with
  | verifyPassword storedHash password =>
      simp only [guessEvent?] at h
      split_ifs at h
      cases h
      rfl
  | resetFailures =>
      cases h
      rfl
  | _ => cases h

theorem stepTime?_of_guessEvent? {env : AuthEnv} {name : PyStr} (e : AuthPool × AuthLabel)
    (event : Event ℚ) (h : guessEvent? env name e = some event) :
    stepTime? e = some event.time := by
  obtain ⟨p, label⟩ := e
  cases label with
  | start => cases h
  | step i c =>
      simp only [guessEvent?] at h
      split at h
      · split_ifs at h
        exact congrArg some (AuthOp.time_of_guessEvent? h).symm
      · cases h

/-- The log of one step more. -/
theorem guessLog_snoc (env : AuthEnv) (name : PyStr) (tr : List (AuthPool × AuthLabel))
    (e : AuthPool × AuthLabel) :
    guessLog env name (tr ++ [e]) = guessLog env name tr ++ (guessEvent? env name e).toList := by
  unfold guessLog
  rw [List.filterMap_append]
  cases he : guessEvent? env name e <;> simp [he]

/-- **A deletion presents the password of the account.** -/
def Reauthenticates (env : AuthEnv) : AuthPool × AuthLabel → Prop
  | (p, .step i _) => ∀ accessToken given storedHash password next seen,
      p.threads i =
          some ⟨.deleteAccount accessToken given, .step (.verifyPassword storedHash password) next,
            seen⟩ →
        EncryptChat.verifyPassword env.unicode env.argon2 storedHash password ≠ .ok false
  | (_, .start _ _) => True

section Guesses

variable {env : AuthEnv} {s₀ : AuthState} {t : AuthPool} {tr : List (AuthPool × AuthLabel)}
  {name : PyStr}

/-- What a login under way is about to do. -/
theorem loginStep_of_run
    (hrun : (poolSystem (authExec env) (authCode env) s₀).Run ⟨s₀, fun _ => none⟩ tr t) {i : ℕ}
    {username password : PyStr} {op : AuthOp} {next : op.Answer → AuthProgram AuthResponse}
    {seen : Seen AuthOp.Answer}
    (hth : t.threads i = some ⟨.login username password, .step op next, seen⟩) :
    LoginStep seen op next :=
  (takes_of_run hrun (fun _ _ _ _ _ _ h => namedAsAsked_of_exec h) hth
    (takes_login env username password)).1

/-- Whoever asks the tracker has done nothing before. -/
theorem seen_of_isBlocked
    (hrun : (poolSystem (authExec env) (authCode env) s₀).Run ⟨s₀, fun _ => none⟩ tr t) {i : ℕ}
    {request : AuthRequest} {n : PyStr} {next : Bool → AuthProgram AuthResponse}
    {seen : Seen AuthOp.Answer}
    (hth : t.threads i = some ⟨request, .step (.isBlocked n) next, seen⟩) : seen = [] := by
  cases hlogin : request.isLogin with
  | false => exact absurd rfl ((follows_of_run hrun hth (follows_of_not_login env hlogin)).1 n).1
  | true =>
      cases request with
      | login username password => exact loginStep_of_run hrun hth
      | _ => cases hlogin

/-- Whoever resets the tracker has loaded the account of the name, and no other. -/
theorem loads_of_resetFailures
    (hrun : (poolSystem (authExec env) (authCode env) s₀).Run ⟨s₀, fun _ => none⟩ tr t) {i : ℕ}
    {request : AuthRequest} {n : PyStr} {next : Unit → AuthProgram AuthResponse}
    {seen : Seen AuthOp.Answer}
    (hth : t.threads i = some ⟨request, .step (.resetFailures n) next, seen⟩) :
    seen.any (loads n) = true ∧ ∀ m, seen.any (loads m) = true → m = n := by
  cases hlogin : request.isLogin with
  | false => exact absurd rfl ((follows_of_run hrun hth (follows_of_not_login env hlogin)).1 n).2
  | true =>
      cases request with
      | login username password => exact loginStep_of_run hrun hth
      | _ => cases hlogin

/-- **Nobody slips in between the question and the failure**, when one request comes after the
other. -/
theorem findsRoom_of_sequential
    (hrun : (poolSystem (authExec env) (authCode env) s₀).Run ⟨s₀, fun _ => none⟩ tr t)
    (hseq : Sequential tr) : ∀ e ∈ tr, FindsRoom name e := by
  rintro ⟨p, label⟩ he
  cases label with
  | start i request => trivial
  | step i c =>
      intro hop hfree l _ hl
      obtain ⟨tr₁, tr₂, -, rfl, hbefore, -, -⟩ := hrun.of_mem he
      have hseq' : Sequential tr₁ := fun e he => hseq e (List.mem_append_left _ he)
      obtain ⟨request, next, seen, hth⟩ := AuthPool.nextOp_eq_some hop
      have hnone : l = [] := by
        rw [List.eq_nil_iff_forall_not_mem]
        intro j hj
        have hpending := hl j hj
        obtain ⟨request', op', next', seen', hth', -⟩ := AuthPool.pending_eq_true hpending
        have hij := eq_of_sequential hbefore hseq' hop (AuthPool.nextOp_of_eq hth')
        subst hij
        rw [AuthPool.pending_of_eq hth, seen_of_isBlocked hbefore hth] at hpending
        cases hpending
      subst hnone
      simpa [FailedLoginTracker.isBlocked] using hfree

/-- What the tracker may still have to hear of. -/
def Told (env : AuthEnv) (name : PyStr) (tr : List (AuthPool × AuthLabel)) (t : AuthPool) : Prop :=
  Behind (since (guessLog env name tr)) (since (failureLog name tr)) ∨
    ∃ i x, t.nextOp i = some (.recordFailure name) ∧ x ∈ stepTimes tr ∧
      Behind (since (guessLog env name tr)) (since (failureLog name tr) ++ [x])

/-- **A guess that fails** is one of a login under way, which goes on to record it. -/
theorem of_guess_fails
    (hrun : (poolSystem (authExec env) (authCode env) s₀).Run ⟨s₀, fun _ => none⟩ tr t)
    (hkinds : ∀ e ∈ tr, ∀ i request, e.2 = .start i request → request.verifies = true) {i : ℕ}
    {c : AuthChoice} {w : AuthPool}
    (hstep : Pool.step (authExec env) (authCode env) t (.step i c) = some w)
    (hspares : Reauthenticates env (t, .step i c)) {x : ℚ}
    (hevent : guessEvent? env name (t, .step i c) = some (.hit x)) :
    x = c.monotonic ∧ failureEvent? name (t, .step i c) = none ∧ t.pending name i = true ∧
      w.nextOp i = some (.recordFailure name) := by
  obtain ⟨request, op, next, seen, s, a, hth, hexec, -, hupdate⟩ :=
    Pool.step_step (authExec env) (authCode env) hstep
  rw [guessEvent?_of_eq hth] at hevent
  split_ifs at hevent with hloads
  cases op with
  | verifyPassword storedHash password =>
      simp only [AuthOp.guessEvent?] at hevent
      split at hevent
      · rename_i hfails
        cases hevent
        cases request with
        | login username given =>
            obtain ⟨n, hchecked, honly, next', hnext⟩ := loginStep_of_run hrun hth
            have hname := honly name hloads
            subst hname
            refine ⟨rfl, ?_, by rw [AuthPool.pending_of_eq hth]; exact hchecked, ?_⟩
            · simp [failureEvent?, AuthPool.nextOp_of_eq hth, AuthOp.failureEvent?]
            · have hanswer : a = .ok false := by
                cases hexec
                exact hfails
              rw [hanswer, hnext] at hupdate
              exact AuthPool.nextOp_of_eq (hupdate ▸ Function.update_self ..)
        -- the tracker is not told of this one
        | deleteAccount accessToken given => exact absurd hfails (hspares _ _ _ _ _ _ hth)
        | _ =>
            obtain ⟨e, he, hstart⟩ := started_of_run hrun hth
            cases hkinds e he i _ hstart
      · cases hevent
  | _ => cases hevent

/-- The tracker is reset with the log of the guesses. -/
theorem clear_iff
    (hrun : (poolSystem (authExec env) (authCode env) s₀).Run ⟨s₀, fun _ => none⟩ tr t)
    {label : AuthLabel} {x : ℚ} :
    guessEvent? env name (t, label) = some (.clear x) ↔
      failureEvent? name (t, label) = some (.clear x) := by
  constructor
  · intro h
    cases label with
    | start => cases h
    | step i c =>
        simp only [guessEvent?] at h
        split at h
        · rename_i request op next seen hth
          split_ifs at h with hloads
          cases op with
          | resetFailures n =>
              have hname := (loads_of_resetFailures hrun hth).2 name hloads
              subst hname
              cases h
              simp [failureEvent?, AuthPool.nextOp_of_eq hth, AuthOp.failureEvent?]
          | verifyPassword =>
              simp only [AuthOp.guessEvent?] at h
              split at h <;> cases h
          | _ => cases h
        · cases h
  · intro h
    obtain ⟨i, c, rfl, ⟨-, hevent⟩ | ⟨hop, hevent⟩⟩ := eq_of_failureEvent? h
    · cases hevent
    · cases hevent
      obtain ⟨request, next, seen, hth⟩ := AuthPool.nextOp_eq_some hop
      rw [guessEvent?_of_eq hth, if_pos (loads_of_resetFailures hrun hth).1]
      rfl

/-- **The tracker has seen every guess**, and every guess has found room. -/
theorem guesses_behind
    (hrun : (poolSystem (authExec env) (authCode env) s₀).Run ⟨s₀, fun _ => none⟩ tr t)
    (hnew : s₀.failedLogins = .new env.config) (hclock : Clocked tr) (hseq : Sequential tr)
    (hkinds : ∀ e ∈ tr, ∀ i request, e.2 = .start i request → request.verifies = true)
    (hspares : ∀ e ∈ tr, Reauthenticates env e) :
    Told env name tr t ∧
      Throttled env.config.maxFailedLoginsPerAccount env.config.failedLoginWindowSeconds
        (guessLog env name tr) := by
  induction hrun with
  | nil => exact ⟨.inl (Behind.refl _), throttled_nil _ _⟩
  | @snoc u w tr label hrun hstep ih =>
      obtain ⟨hbefore, hlast⟩ := hclock.snoc
      have hseq' : Sequential tr := fun e he => hseq e (List.mem_append_left _ he)
      have hkinds' : ∀ e ∈ tr, ∀ i request, e.2 = .start i request → request.verifies = true :=
        fun e he => hkinds e (List.mem_append_left _ he)
      obtain ⟨htold, hthrottled⟩ := ih hbefore hseq' hkinds'
        fun e he => hspares e (List.mem_append_left _ he)
      unfold Told
      rw [guessLog_snoc, failureLog_snoc]
      cases label with
      | start i request =>
          have hdone := hseq (u, .start i request) (by simp) i request rfl
          simp only [guessEvent?, failureEvent?, Option.toList_none, List.append_nil]
          refine ⟨.inl (htold.resolve_right ?_), hthrottled⟩
          rintro ⟨j, x, hop, -⟩
          rw [hdone j] at hop
          cases hop
      | step i c =>
          obtain ⟨request, op, next, seen, s, a, hth, hexec, -, hupdate⟩ :=
            Pool.step_step (authExec env) (authCode env) hstep
          have hop := AuthPool.nextOp_of_eq hth
          rcases htold with hbehind | ⟨j, x, hj, hx, hbehind⟩
          · cases hguess : guessEvent? env name (u, .step i c) with
            | none =>
                rw [Option.toList_none, List.append_nil]
                refine ⟨.inl ?_, hthrottled⟩
                cases hfailure : failureEvent? name (u, .step i c) with
                | none =>
                    rw [Option.toList_none, List.append_nil]
                    exact hbehind
                | some event =>
                    cases event with
                    | hit x =>
                        rw [Option.toList_some, since_hit]
                        exact hbehind.snoc_right x
                    | clear x =>
                        rw [(clear_iff hrun).2 hfailure] at hguess
                        cases hguess
            | some event =>
                cases event with
                | hit x =>
                    obtain ⟨rfl, hnone, hpending, hnext⟩ := of_guess_fails hrun hkinds' hstep
                      (hspares _ (by simp)) hguess
                    rw [hnone, Option.toList_none, List.append_nil, Option.toList_some, since_hit]
                    refine ⟨.inr ⟨i, c.monotonic, hnext, mem_stepTimes_last tr u i c,
                      hbehind.snoc _⟩, hthrottled.snoc ?_⟩
                    rintro _ ⟨⟩
                    -- the login that fails has found room
                    have hroom := (room_of_run hrun hnew hbefore
                      (findsRoom_of_sequential hrun hseq')).1 c.monotonic (hlast i c rfl) [i]
                      (List.nodup_singleton i) (by simpa using hpending)
                    exact (hbehind.live_le _ _).trans_lt (Nat.lt_of_succ_le hroom)
                | clear x =>
                    rw [(clear_iff hrun).1 hguess, Option.toList_some, since_clear, since_clear]
                    exact ⟨.inl (Behind.refl _), hthrottled.snoc fun t h => by cases h⟩
          · -- the failure that is owed is recorded now
            have hji := eq_of_sequential hrun hseq' hj hop
            subst hji
            rw [hop, Option.some.injEq] at hj
            subst hj
            rw [guessEvent?_of_eq hth, failureEvent?, hop]
            simp only [AuthOp.guessEvent?, ite_self, Option.toList_none, List.append_nil,
              Option.bind_some, AuthOp.failureEvent?, if_true, Option.toList_some, since_hit]
            exact ⟨.inl (hbehind.later (hlast j c rfl x hx)), hthrottled⟩

/-- **At most so many guesses at the password of an account in every interval** of the length of the
window in which no login to it succeeds, where deletions present its password. -/
theorem password_guesses_bounded
    (hrun : (poolSystem (authExec env) (authCode env) s₀).Run ⟨s₀, fun _ => none⟩ tr t)
    (hnew : s₀.failedLogins = .new env.config) (hclock : Clocked tr) (hseq : Sequential tr)
    (hkinds : ∀ e ∈ tr, ∀ i request, e.2 = .start i request → request.verifies = true)
    (hspares : ∀ e ∈ tr, Reauthenticates env e) (left : Bool) (a : ℚ)
    (hclear : ∀ x, .clear x ∈ guessLog env name tr →
      halfOpen left a env.config.failedLoginWindowSeconds x = false) :
    (hits (guessLog env name tr)).countP (halfOpen left a env.config.failedLoginWindowSeconds) ≤
      env.config.maxFailedLoginsPerAccount :=
  (guesses_behind hrun hnew hclock hseq hkinds hspares).2.bounded
    (sorted_of_clocked stepTime?_of_guessEvent? hclock) hclear

end Guesses

/-! ### Runs of one account -/

/-- The requests `ids` verify a password, one after the other. -/
def oneByOne (ids : List ℕ) (tr : List (AuthPool × AuthLabel)) : Bool :=
  decide (Clocked tr) && tr.all fun e => match e.2 with
    | .start i request =>
        ids.contains i && request.verifies && ids.all fun j => (e.1.nextOp j).isNone
    | .step _ _ => true

theorem of_oneByOne {env : AuthEnv} {s₀ : AuthState} {t : AuthPool}
    {tr : List (AuthPool × AuthLabel)} {ids : List ℕ}
    (hrun : (poolSystem (authExec env) (authCode env) s₀).Run ⟨s₀, fun _ => none⟩ tr t)
    (h : oneByOne ids tr = true) :
    Clocked tr ∧ Sequential tr ∧
      ∀ e ∈ tr, ∀ i request, e.2 = .start i request → request.verifies = true := by
  simp only [oneByOne, Bool.and_eq_true, decide_eq_true_eq, List.all_eq_true] at h
  obtain ⟨hclock, hstarts⟩ := h
  have hstart : ∀ e ∈ tr, ∀ i request, e.2 = .start i request →
      (i ∈ ids ∧ request.verifies = true) ∧ ∀ j ∈ ids, e.1.nextOp j = none := by
    intro e he i request hlabel
    have hgood := hstarts e he
    rw [hlabel] at hgood
    simpa using hgood
  refine ⟨hclock, ?_, fun e he i request hlabel => (hstart e he i request hlabel).1.2⟩
  rintro ⟨p, label⟩ he i request rfl j
  by_cases hj : j ∈ ids
  · exact (hstart _ he i request rfl).2 j hj
  · -- the others have not been started
    obtain ⟨tr₁, tr₂, -, rfl, hbefore, -, -⟩ := hrun.of_mem he
    by_contra hsome
    obtain ⟨op, hop⟩ := Option.ne_none_iff_exists'.1 hsome
    obtain ⟨_, next, seen, hth⟩ := AuthPool.nextOp_eq_some hop
    obtain ⟨e, he', hlabel⟩ := started_of_run hbefore hth
    exact hj (hstart e (List.mem_append_left _ he') j _ hlabel).1.1

/-- `Reauthenticates`, by evaluation. -/
def reauthenticates (env : AuthEnv) : AuthPool × AuthLabel → Bool
  | (p, .step i _) =>
      match p.threads i with
      | some ⟨.deleteAccount _ _, .step (.verifyPassword storedHash password) _, _⟩ =>
          !(EncryptChat.verifyPassword env.unicode env.argon2 storedHash password matches .ok false)
      | _ => true
  | (_, .start _ _) => true

theorem reauthenticates_of_eq_true (env : AuthEnv) (e : AuthPool × AuthLabel)
    (h : reauthenticates env e = true) : Reauthenticates env e := by
  obtain ⟨p, label⟩ := e
  cases label with
  | start i request => trivial
  | step i c =>
      intro accessToken given storedHash password next seen hth hfails
      simp [reauthenticates, hth, hfails] at h

/-- No success between five seconds and five minutes later. -/
def clearsElsewhere : Event ℚ → Bool
  | .hit _ => true
  | .clear x => !halfOpen true 5 300 x

/-- `alice` logs in, somebody guesses at her password three times, and she deletes her account. -/
def guessesAndDeletion : List AuthLabel :=
  requestOf 1 9 0 (.login (py "alice") samplePassword) ++
    ((List.range 3).flatMap fun i => .start (i + 2) wrongGuess ::
      List.replicate 6 (.step (i + 2) { monotonic := 10 * (i + 1) })) ++
    .start 5 (.deleteAccount (aliceToken 1) samplePassword) ::
      (List.replicate 9 (.step 5 { id := hexId 5, token := urlsafeToken 5, monotonic := 40 }) ++
        List.replicate 2 (.step 5 { id := hexId 6, token := urlsafeToken 6, monotonic := 40 }))

/-- The guesses fail, the deletion succeeds. -/
theorem password_guesses_bounded_thrice :
    ∃ tr t, aliceSystem.Run ⟨aliceAlone, fun _ => none⟩ tr t ∧
      t.shared.committed.users.isEmpty = true ∧
        hits (guessLog (sampleEnv .instants) (py "alice") tr) = [10, 20, 30] ∧
          (hits (guessLog (sampleEnv .instants) (py "alice") tr)).countP (halfOpen true 5 300) ≤
            10 := by
  have hexec : (aliceSystem.exec ⟨aliceAlone, fun _ => none⟩ guessesAndDeletion).map (fun t =>
      t.shared.committed.users.isEmpty &&
        oneByOne (List.range 6)
          (aliceSystem.traceOf ⟨aliceAlone, fun _ => none⟩ guessesAndDeletion) &&
        (aliceSystem.traceOf ⟨aliceAlone, fun _ => none⟩ guessesAndDeletion).all
          (reauthenticates (sampleEnv .instants)) &&
        hits (guessLog (sampleEnv .instants) (py "alice")
          (aliceSystem.traceOf ⟨aliceAlone, fun _ => none⟩ guessesAndDeletion)) == [10, 20, 30] &&
        (guessLog (sampleEnv .instants) (py "alice")
          (aliceSystem.traceOf ⟨aliceAlone, fun _ => none⟩ guessesAndDeletion)).all
            clearsElsewhere) = some true := by decide +kernel
  obtain ⟨t, -, hrun, hp⟩ := System.exists_run_of_exec hexec
  simp only [Bool.and_eq_true, List.all_eq_true, beq_iff_eq] at hp
  obtain ⟨⟨⟨⟨hdeleted, hone⟩, hspares⟩, hhits⟩, hlog⟩ := hp
  obtain ⟨hclock, hseq, hkinds⟩ := of_oneByOne hrun hone
  refine ⟨_, t, hrun, hdeleted, hhits, password_guesses_bounded hrun rfl hclock hseq hkinds
    (fun e he => reauthenticates_of_eq_true _ e (hspares e he)) true 5 fun x hx => ?_⟩
  have hout : halfOpen true 5 300 x = false := by simpa [clearsElsewhere] using hlog _ hx
  exact hout

/-- `alice` logs in, and then somebody who has her access token guesses at her password. -/
def deletionsTried : List AuthLabel :=
  requestOf 1 9 0 (.login (py "alice") samplePassword) ++
    (List.range 11).flatMap fun i =>
      .start (i + 2) (.deleteAccount (aliceToken 1) (py "battery staple")) ::
        List.replicate 8 (.step (i + 2) { monotonic := 10 })

/-- **Eleven guesses in ten seconds**, one after the other, where the tracker lets ten through. -/
theorem password_guesses_exceed :
    ∃ tr t, aliceSystem.Run ⟨aliceAlone, fun _ => none⟩ tr t ∧
      aliceAlone.failedLogins = .new (sampleEnv .instants).config ∧ Clocked tr ∧ Sequential tr ∧
        (∀ e ∈ tr, ∀ i request, e.2 = .start i request → request.verifies = true) ∧
          (∀ x, .clear x ∈ guessLog (sampleEnv .instants) (py "alice") tr →
            halfOpen true 5 (sampleEnv .instants).config.failedLoginWindowSeconds x = false) ∧
            (sampleEnv .instants).config.maxFailedLoginsPerAccount <
              (hits (guessLog (sampleEnv .instants) (py "alice") tr)).countP
                (halfOpen true 5 (sampleEnv .instants).config.failedLoginWindowSeconds) := by
  have hexec : (aliceSystem.exec ⟨aliceAlone, fun _ => none⟩ deletionsTried).map (fun _ =>
      oneByOne (List.range 13) (aliceSystem.traceOf ⟨aliceAlone, fun _ => none⟩ deletionsTried) &&
        (guessLog (sampleEnv .instants) (py "alice")
          (aliceSystem.traceOf ⟨aliceAlone, fun _ => none⟩ deletionsTried)).all clearsElsewhere &&
        decide (10 < (hits (guessLog (sampleEnv .instants) (py "alice")
          (aliceSystem.traceOf ⟨aliceAlone, fun _ => none⟩ deletionsTried))).countP
            (halfOpen true 5 300))) = some true := by decide +kernel
  obtain ⟨t, -, hrun, hp⟩ := System.exists_run_of_exec hexec
  simp only [Bool.and_eq_true, List.all_eq_true, decide_eq_true_eq] at hp
  obtain ⟨⟨hone, hlog⟩, hmany⟩ := hp
  obtain ⟨hclock, hseq, hkinds⟩ := of_oneByOne hrun hone
  refine ⟨_, t, hrun, rfl, hclock, hseq, hkinds, fun x hx => ?_, hmany⟩
  have hout : halfOpen true 5 300 x = false := by simpa [clearsElsewhere] using hlog _ hx
  exact hout

end EncryptChat
