/-
**The names of accounts.**

An account is created by a registration, under the name that was typed less the white space around
it, after the normalized form of that name has passed the policy.  An identity that has been resolved
is that of an account that was created; so what the policy says of names holds of the name a
connection is bound to.

Main definitions:

* `EncryptChat.RegisteredName` — a name an account may have.

Main results:

* `EncryptChat.registeredName_of_account` — every account has such a name;
* `EncryptChat.account_of_resolved`, `EncryptChat.account_of_registered` — **the account behind an
  identity that has been resolved, and behind a registration**;
* `EncryptChat.RegisteredName.ne_provisionalId` — no account has the name of a connection that is
  not authenticated.
-/

import EncryptChat.Application
import EncryptChat.AuthFollows
import EncryptChat.AuthOutlines

set_option relaxedAutoImplicit false
set_option autoImplicit false

namespace EncryptChat

open Python Concurrent Transition AuthService
open Program (Seen Follows)

/-! ### Names -/

/-- The name of an account: one was typed whose normalized form has passed the policy. -/
def RegisteredName (uni : Unicode) (name : PyStr) : Prop :=
  ∃ raw normalized, validateUsername uni raw = .ok normalized ∧ name = strip raw

/-- A name that passes the policy is not longer than the policy says. -/
theorem length_le_of_usernameFullmatch {s : PyStr} (h : usernameFullmatch s = true) :
    s.length ≤ maxUsernameLength := by
  cases s with
  | nil => cases h
  | cons c cs =>
      simp only [usernameFullmatch, Bool.and_eq_true, decide_eq_true_eq] at h
      simp only [List.length_cons, maxUsernameLength]
      omega

/-- **A name that is canonical as it was typed has passed the policy itself.** -/
theorem RegisteredName.fullmatch_of_canonical {uni : Unicode} (huni : uni.Lawful) {raw n : PyStr}
    (h : validateUsername uni raw = .ok n) (hcanonical : isCanonical (strip raw) = true) :
    n = strip raw ∧ usernameFullmatch (strip raw) = true := by
  obtain ⟨hn, hmatch⟩ := validateUsername_eq_ok h
  have hsame : n = strip raw := by
    rw [hn, normalizeUsername, huni.nfkc_canonical raw hcanonical,
      huni.casefold_canonical _ hcanonical]
  exact ⟨hsame, hsame ▸ hmatch⟩

theorem isCanonical_provisionalId {hex : PyStr} (h : isUuidHex hex = true) :
    isCanonical (provisionalId hex) = true := by
  simp only [isUuidHex, Bool.and_eq_true, List.all_eq_true] at h
  simp only [isCanonical, provisionalId, List.all_append, Bool.and_eq_true]
  refine ⟨by decide, List.all_eq_true.2 fun c hc => isIdentifierChar_of_isLowerAlnum ?_⟩
  have hhex := h.2 c hc
  simp only [isLowerAlnum, inRange, Bool.or_eq_true, Bool.and_eq_true, decide_eq_true_eq] at hhex ⊢
  rcases hhex with hdigit | ⟨hlo, hhi⟩
  · exact .inr hdigit
  · exact .inl ⟨hlo, hhi.trans (by decide)⟩

/-- **No account has the name of a connection that is not authenticated**: it is too long. -/
theorem RegisteredName.ne_provisionalId {uni : Unicode} (huni : uni.Lawful) {name hex : PyStr}
    (h : RegisteredName uni name) (hhex : isUuidHex hex = true) : name ≠ provisionalId hex := by
  rintro rfl
  obtain ⟨raw, n, hvalid, hname⟩ := h
  have hcanonical := isCanonical_provisionalId hhex
  rw [hname] at hcanonical
  have hlength := length_le_of_usernameFullmatch
    (RegisteredName.fullmatch_of_canonical huni hvalid hcanonical).2
  rw [← hname] at hlength
  simp only [isUuidHex, Bool.and_eq_true, beq_iff_eq] at hhex
  simp only [provisionalId, List.length_append, hhex.1, maxUsernameLength] at hlength
  exact absurd hlength (by decide)

/-! ### Accounts -/

section Accounts

variable {env : AuthEnv} {tr : List (AuthPool × AuthLabel)} {t : AuthPool}

/-- A request creates accounts under names it has validated only. -/
theorem follows_createUser (env : AuthEnv) (request : AuthRequest) :
    Follows (fun _ op => ∀ username normalized passwordHash now,
      op = .write (.createUser username normalized passwordHash now) →
        RegisteredName env.unicode username) [] (authCode env request) := by
  refine follows_authCode ⟨?_, ?_, ?_, ?_, ?_⟩
  · rintro _ _ hop _ _ _ _ rfl
    exact absurd hop id
  · rintro _ username password n _ _ - hvalid _ _ _ _ ⟨⟩
    exact ⟨username, n, hvalid, rfl⟩
  · rintro _ _ _ _ _ - - htracks _ _ _ _ rfl
    exact absurd htracks id
  · simp
  · simp

/-- What is newly an account is what a creation has stored. -/
theorem AuthState.account_of_effect {i : ℕ} {op : AuthOp} {s s' : AuthState}
    (heffect : AuthEffect env i s op s') {a : PyStr × PyStr}
    (ha : s'.Records fun d => a ∈ d.accounts) :
    (s.Records fun d => a ∈ d.accounts) ∨ ∃ normalized passwordHash now,
      op = .write (.createUser a.2 normalized passwordHash now) := by
  rcases records_of_effect heffect ha with ha | ⟨id, token, w, d', rfl, heff, ha⟩
  · exact .inl ha
  · have hold : a ∈ (s.visible i).accounts → s.Records fun d => a ∈ d.accounts :=
      records_of_visible (P := fun d => a ∈ d.accounts)
    cases heff with
    | nameTaken | sessionOpened | rotated | sessionRevoked | sessionsRevoked | userDeleted =>
        exact .inl (hold ha)
    | userCreated username normalized passwordHash now hid husername =>
        rcases List.mem_append.1 ha with ha | ha
        · exact .inl (hold ha)
        · rw [List.mem_singleton] at ha
          refine .inr ⟨normalized, passwordHash, now, ?_⟩
          rw [ha, husername]

/-- **Every account has a name that was registered.** -/
theorem registeredName_of_account (h : (authSystem env).Run (.new env) tr t) :
    ∀ a, (t.shared.Records fun d => a ∈ d.accounts) → RegisteredName env.unicode a.2 := by
  induction h with
  | nil =>
      rintro a (ha | ⟨i, d, hw, -⟩)
      · cases ha
      · cases hw
  | @snoc u w tr label hrun hstep ih =>
      intro a ha
      cases label with
      | start i request =>
          obtain ⟨-, hshared, -⟩ := Pool.step_start (authExec env) (authCode env) hstep
          rw [hshared] at ha
          exact ih a ha
      | step i c =>
          obtain ⟨request, op, next, seen, s, answer, hu, hexec, hshared, -⟩ :=
            Pool.step_step (authExec env) (authCode env) hstep
          rw [hshared] at ha
          rcases AuthState.account_of_effect (authEffect hexec) ha with ha | ⟨normalized,
            passwordHash, now, rfl⟩
          · exact ih a ha
          · exact (follows_of_run hrun hu (follows_createUser env request)).1 _ _ _ _ rfl

end Accounts

/-! ### Registrations and identities -/

section Outlines

variable {env : AuthEnv} {i : ℕ} {s : AuthState} {seen : Seen AuthOp.Answer}

/-- What the creation of an account does. -/
theorem Database.createUser_eq_ok {sha256 : PyStr → PyStr} {d d' : Database}
    {id token username normalized passwordHash : PyStr} {now : Datetime} {user : User}
    (h : d.write sha256 i id token (.createUser username normalized passwordHash now) =
      .ok (d', some user)) :
    user.username = username ∧ user.usernameNormalized = normalized ∧
      (user.id, user.username) ∈ d'.accounts := by
  have heq := Except.ok.inj h
  unfold Database.createUser at heq
  split_ifs at heq
  · cases heq
  · cases heq
    exact ⟨rfl, rfl, List.mem_append_right _ List.mem_cons_self⟩

/-- The account a registration has created. -/
structure CreatedBy (env : AuthEnv) (username : PyStr) (user : User) (d : Database) : Prop where
  valid : validateUsername env.unicode username = .ok user.usernameNormalized
  name : user.username = strip username
  account : (user.id, user.username) ∈ d.accounts

/-- **The outline of `register`.** -/
theorem ensures_register (username password : PyStr) :
    (authDiscipline env).Ensures i (fun _ user s' => CreatedBy env username user (s'.visible i))
      seen (register env username password) s := by
  refine Discipline.Ensures.ofExcept fun normalized hname => ?_
  refine Discipline.Ensures.ofExcept fun _ _ => ?_
  refine Discipline.Ensures.perform fun s₁ _ _ c s₂ a _ hexec _ => ?_
  cases hexec
  refine ensures_ofPython fun passwordHash _ => ?_
  refine ensures_now fun s₃ now _ _ => ?_
  refine ensures_write fun s₄ c d' created _ _ _ _ hwrite _ => ?_
  cases created with
  | none => exact Discipline.Ensures.perform fun _ _ _ _ _ _ _ _ _ => Discipline.Ensures.raise _
  | some user =>
      refine Discipline.Ensures.pure fun s₅ _ henv₅ => ?_
      obtain ⟨husername, hnormalized, haccount⟩ := Database.createUser_eq_ok hwrite
      have hlater := henv₅.visible
      rw [AuthState.visible_wrote] at hlater
      exact ⟨hnormalized ▸ registrationUsername_eq_ok hname, husername, hlater.accounts haccount⟩

/-- The account behind the response of a request that has succeeded. -/
def Names (env : AuthEnv) (request : AuthRequest) (d : Database) : AuthResponse → Prop
  | .registered user => ∃ username password, request = .register username password ∧
      CreatedBy env username user d
  | .resolved identity => (identity.userId, identity.username) ∈ d.accounts
  | _ => True

theorem Names.later {request : AuthRequest} {d d' : Database} {r : AuthResponse}
    (h : Names env request d r) (hlater : d.Later d') : Names env request d' r := by
  cases r with
  | registered user =>
      obtain ⟨username, password, hrequest, hcreated⟩ := h
      exact ⟨username, password, hrequest, hcreated.valid, hcreated.name,
        hlater.accounts hcreated.account⟩
  | resolved identity => exact hlater.accounts h
  | loggedIn | refreshed | loggedOut | deleted => trivial

/-- The outline of a request, as to the account it names. -/
theorem ensures_names (hs : s.WF env) (request : AuthRequest) :
    (authDiscipline env).Ensures i (fun _ r s' => Names env request s'.committed r) []
      (authCode env request) s := by
  refine ensures_inSession_later (P := fun r d => Names env request d r) (authRules env)
    (fun _ _ _ hlater h => h.later hlater) ?_ hs
  cases request with
  | login | refresh | logout | deleteAccount =>
      refine (Discipline.ensures_true _).bind hs fun seen _ s₁ hs₁ _ => ?_
      first
        | exact Discipline.Ensures.pure fun _ _ _ => trivial
        | exact (Discipline.ensures_true _).bind hs₁ fun _ _ _ _ _ =>
            Discipline.Ensures.pure fun _ _ _ => trivial
  | register username password =>
      refine (ensures_register username password).bind hs fun seen user s₁ _ hcreated => ?_
      refine Discipline.Ensures.pure fun s₂ _ henv₂ => ?_
      exact ⟨username, password, rfl, hcreated.valid, hcreated.name,
        henv₂.visible.accounts hcreated.account⟩
  | resolve token =>
      refine (ensures_resolveObjects (P := fun _ _ => True)
        (T := fun d u => (u.id, u.username) ∈ d.accounts) (authRules env)
        (fun _ _ _ _ => trivial) (fun _ _ _ _ _ => trivial)
        (fun s u hs hu => (hs.visible i).1.account u hu)
        (fun _ _ _ hlater hu => hlater.accounts hu) token).bind hs ?_
      rintro seen r s₁ - ⟨-, -, hcreated, -⟩
      exact Discipline.Ensures.pure fun s₂ _ henv₂ => henv₂.visible.accounts hcreated

end Outlines

/-! ### Every run -/

section Runs

variable {env : AuthEnv} {tr : List (AuthPool × AuthLabel)} {t : AuthPool}

/-- What the response of a request names, at the end of every run. -/
theorem names_of_run (h : (authSystem env).Run (.new env) tr t) {i : ℕ} {th : AuthThread}
    (hth : t.threads i = some th) {r : AuthResponse} (hrest : th.rest = .done (.ok r)) :
    Names env th.request t.shared.committed r := by
  obtain ⟨hinv, houtlines⟩ := (authDiscipline env).outline_of_run
    (fun _ request s hs _ => ensures_names (s := s) hs request) h (meets_of_run tr)
    (AuthState.wf_new env)
  obtain ⟨request, rest, seen⟩ := th
  subst hrest
  exact (houtlines i _ hth rfl).result hinv r rfl

/-- **The account behind an identity** that a request has resolved. -/
theorem account_of_resolved (h : (authSystem env).Run (.new env) tr t) {i : ℕ} {th : AuthThread}
    (hth : t.threads i = some th) {identity : AuthenticatedIdentity}
    (hrest : th.rest = .done (.ok (.resolved identity))) :
    (identity.userId, identity.username) ∈ t.shared.committed.accounts :=
  names_of_run h hth hrest

/-- **The account behind a registration** that has succeeded. -/
theorem account_of_registered (h : (authSystem env).Run (.new env) tr t) {i : ℕ} {th : AuthThread}
    (hth : t.threads i = some th) {user : User}
    (hrest : th.rest = .done (.ok (.registered user))) :
    ∃ username password, th.request = .register username password ∧
      CreatedBy env username user t.shared.committed :=
  names_of_run h hth hrest

end Runs

end EncryptChat
