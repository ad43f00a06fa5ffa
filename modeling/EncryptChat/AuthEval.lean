/-
**One request alone.**

`Concurrent.Program.eval` runs a program without the steps of others, one choice for each operation.
The lemmas of this module take an operation of the service off the front of a program; they are what
a sequential run of requests is computed with.

* `EncryptChat.eval_now`, `EncryptChat.eval_query` — operations;
* `EncryptChat.eval_ofExcept`, `EncryptChat.eval_raise` — computations without operations;
* `EncryptChat.eval_write_eq_some`, `EncryptChat.eval_inSession_eq_some` and their like — the same,
  read off a request that has run.
-/

import EncryptChat.AuthService

set_option relaxedAutoImplicit false
set_option autoImplicit false

namespace EncryptChat

open Python Concurrent

section Eval

variable {env : AuthEnv} {k : ℕ} {α β : Type} {s : AuthState} {c : AuthChoice}
  {cs : List AuthChoice}

theorem eval_raise (e : AuthFailure) :
    (Program.raise e : AuthProgram α).eval (authExec env k) cs s = some (s, .error e) :=
  Program.eval_done _ _ _ _

theorem eval_ofExcept {r : Except AuthFailure β} {b : β} (h : r = .ok b) (f : β → AuthProgram α) :
    ((Program.ofExcept r).bind f : AuthProgram α).eval (authExec env k) cs s =
      (f b).eval (authExec env k) cs s := by
  subst h
  rfl

theorem eval_ofExcept_error {r : Except AuthFailure β} {e : AuthFailure} (h : r = .error e)
    (f : β → AuthProgram α) :
    ((Program.ofExcept r).bind f : AuthProgram α).eval (authExec env k) cs s =
      some (s, .error e) := by
  subst h
  exact eval_raise e

theorem eval_now (f : Datetime → AuthProgram α) :
    (AuthProgram.now.bind f).eval (authExec env k) (c :: cs) s =
      (f (.utc c.time)).eval (authExec env k) cs s := rfl

theorem eval_query {q : Query} {a : q.Answer} (h : s.query env k c q = .ok a)
    (f : q.Answer → AuthProgram α) :
    ((AuthProgram.query q).bind f).eval (authExec env k) (c :: cs) s =
      (f a).eval (authExec env k) cs s := by
  change ((AuthProgram.ofPython (s.query env k c q)).bind f).eval (authExec env k) cs s = _
  rw [h]
  rfl

/-! ### What a request that ran alone has done -/

variable {f : β → AuthProgram α} {out : AuthState × Except AuthFailure α}

theorem eval_perform_eq_some {op : AuthOp} {f : op.Answer → AuthProgram α}
    (h : ((AuthProgram.perform op).bind f).eval (authExec env k) cs s = some out) :
    ∃ c rest mid, cs = c :: rest ∧ authExec env k op c s = some mid ∧
      (f mid.2).eval (authExec env k) rest mid.1 = some out :=
  Program.eval_step_eq_some _ h

/-- A computation without operations raises, or goes on. -/
theorem eval_ofExcept_eq_some {r : Except AuthFailure β}
    (h : ((Program.ofExcept r).bind f : AuthProgram α).eval (authExec env k) cs s = some out) :
    (∃ e, r = .error e ∧ out = (s, .error e)) ∨
      ∃ b, r = .ok b ∧ (f b).eval (authExec env k) cs s = some out := by
  cases r with
  | error e =>
      rw [eval_ofExcept_error rfl, Option.some.injEq] at h
      exact .inl ⟨e, rfl, h.symm⟩
  | ok b =>
      rw [eval_ofExcept rfl] at h
      exact .inr ⟨b, rfl, h⟩

/-- A call raises, or goes on. -/
theorem eval_ofPython_eq_some {r : Except PyError β}
    (h : ((AuthProgram.ofPython r).bind f).eval (authExec env k) cs s = some out) :
    (∃ e, r = .error e ∧ out = (s, .error (.python e))) ∨
      ∃ b, r = .ok b ∧ (f b).eval (authExec env k) cs s = some out := by
  cases r with
  | error e =>
      refine .inl ⟨e, rfl, ?_⟩
      exact (Option.some.inj ((eval_raise (.python e)).symm.trans h)).symm
  | ok b => exact .inr ⟨b, rfl, h⟩

theorem eval_query_eq_some {q : Query} {f : q.Answer → AuthProgram α}
    (h : ((AuthProgram.query q).bind f).eval (authExec env k) cs s = some out) :
    ∃ c rest, cs = c :: rest ∧
      ((∃ e, s.query env k c q = .error e ∧ out = (s, .error (.python e))) ∨
        ∃ a, s.query env k c q = .ok a ∧ (f a).eval (authExec env k) rest s = some out) := by
  have hstep : (Program.step (.query q) fun r => (AuthProgram.ofPython r).bind f :
      AuthProgram α).eval (authExec env k) cs s = some out := h
  obtain ⟨c, rest, mid, rfl, hmid, hrest⟩ := Program.eval_step_eq_some _ hstep
  cases hmid
  exact ⟨c, rest, rfl, eval_ofPython_eq_some hrest⟩

theorem eval_write_eq_some {w : Write} {f : w.Answer → AuthProgram α}
    (h : ((AuthProgram.write w).bind f).eval (authExec env k) cs s = some out) :
    ∃ c rest s₁ answer, cs = c :: rest ∧ s.write env k c w = some (s₁, answer) ∧
      ((∃ e, answer = .error e ∧ out = (s₁, .error (.python e))) ∨
        ∃ a, answer = .ok a ∧ (f a).eval (authExec env k) rest s₁ = some out) := by
  have hstep : (Program.step (.write w) fun r => (AuthProgram.ofPython r).bind f :
      AuthProgram α).eval (authExec env k) cs s = some out := h
  obtain ⟨c, rest, ⟨s₁, answer⟩, rfl, hmid, hrest⟩ := Program.eval_step_eq_some _ hstep
  exact ⟨c, rest, s₁, answer, rfl, hmid, eval_ofPython_eq_some hrest⟩

theorem eval_hash_eq_some {password : PyStr} {f : PyStr → AuthProgram α}
    (h : ((AuthProgram.hash password).bind f).eval (authExec env k) cs s = some out) :
    ∃ c rest, cs = c :: rest ∧
      ((∃ e, hashPassword env.unicode env.argon2 env.config c.salt password = .error e ∧
          out = (s, .error (.python e))) ∨
        ∃ hash, hashPassword env.unicode env.argon2 env.config c.salt password = .ok hash ∧
          (f hash).eval (authExec env k) rest s = some out) := by
  have hstep : (Program.step (.hashPassword password) fun r => (AuthProgram.ofPython r).bind f :
      AuthProgram α).eval (authExec env k) cs s = some out := h
  obtain ⟨c, rest, mid, rfl, hmid, hrest⟩ := Program.eval_step_eq_some _ hstep
  cases hmid
  exact ⟨c, rest, rfl, eval_ofPython_eq_some hrest⟩

theorem eval_verify_eq_some {storedHash password : PyStr} {f : Bool → AuthProgram α}
    (h : ((AuthProgram.verify storedHash password).bind f).eval (authExec env k) cs s = some out) :
    ∃ c rest, cs = c :: rest ∧
      ((∃ e, verifyPassword env.unicode env.argon2 storedHash password = .error e ∧
          out = (s, .error (.python e))) ∨
        ∃ b, verifyPassword env.unicode env.argon2 storedHash password = .ok b ∧
          (f b).eval (authExec env k) rest s = some out) := by
  have hstep : (Program.step (.verifyPassword storedHash password) fun r => (AuthProgram.ofPython r).bind f :
      AuthProgram α).eval (authExec env k) cs s = some out := h
  obtain ⟨c, rest, mid, rfl, hmid, hrest⟩ := Program.eval_step_eq_some _ hstep
  cases hmid
  exact ⟨c, rest, rfl, eval_ofPython_eq_some hrest⟩

/-- **A request in its database session** commits what it has written and returns, or raises and
rolls back. -/
theorem eval_inSession_eq_some {p : AuthProgram α}
    (h : (AuthProgram.inSession p).eval (authExec env k) cs s = some out) :
    ∃ s₁ r₁ rest, rest <:+ cs ∧ p.eval (authExec env k) cs s = some (s₁, r₁) ∧
      ((∃ a, r₁ = .ok a ∧ out = (s₁.commit k, .ok a)) ∨
        (∃ e, out = (s₁.rollback k, .error e)) ∧
          ∀ a, r₁ = .ok a → ∃ c ∈ rest, c.fault ≠ none) := by
  obtain ⟨⟨s₁, r₁⟩, rest, hsuffix, hbody, hend⟩ := Program.eval_handle_eq_some _ h
  refine ⟨s₁, r₁, rest, hsuffix, hbody, ?_⟩
  have hrolls : ∀ {e : AuthFailure} {cs' : List AuthChoice},
      (AuthProgram.rollbackAndRaise e : AuthProgram α).eval (authExec env k) cs' s₁ = some out →
        out = (s₁.rollback k, .error e) := by
    intro e cs' hroll
    obtain ⟨c, later, mid, -, hmid, hlater⟩ := Program.eval_step_eq_some _ hroll
    cases hmid
    exact (Option.some.inj ((eval_raise e).symm.trans hlater)).symm
  cases r₁ with
  | error e => exact .inr ⟨⟨e, hrolls hend⟩, fun a ha => by cases ha⟩
  | ok a =>
      obtain ⟨c, later, mid, hcs, hmid, hlater⟩ := Program.eval_step_eq_some _ hend
      cases hfault : c.fault with
      | none =>
          simp only [authExec, hfault] at hmid
          cases hmid
          exact .inl ⟨a, rfl, (Option.some.inj ((Program.eval_done _ _ _ _).symm.trans hlater)).symm⟩
      | some e =>
          simp only [authExec, hfault] at hmid
          cases hmid
          refine .inr ⟨⟨_, hrolls hlater⟩, fun _ _ => ⟨c, ?_, by simp [hfault]⟩⟩
          rw [hcs]
          exact List.mem_cons_self

end Eval

end EncryptChat
