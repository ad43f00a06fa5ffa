/-
**Programs of atomic operations.**

A coroutine that talks to shared state through named operations is a tree: it is done, with a value
or an exception, or it performs an operation and goes on with the answer.  A program is built with
`do`; whether one thread runs it alone or many threads interleave their operations is decided by the
module that runs it.

Main definitions:

* `Concurrent.Program` — the trees;
* `Concurrent.Program.handle`, `Concurrent.Program.bind` — `try`/`except`, and sequencing;
* `Concurrent.Program.Follows` — what every operation the program may perform is like;
* `Concurrent.Program.Achieves` — the same, with what the program ends with;
* `Concurrent.Program.Takes` — the same, with what the answers are known to be and what comes next;
* `Concurrent.Program.Within` — how many operations the program performs at most;
* `Concurrent.Program.eval`, `Concurrent.Program.alone` — one thread running alone;
* `Concurrent.Program.costed` — the same, with what its operations cost.
-/

import Mathlib.Tactic.Common

set_option relaxedAutoImplicit false
set_option autoImplicit false

namespace Concurrent

/-- A program over operations `Op`, the answer to `op` being of type `Ans op`; it ends with an
exception of type `ε` or a value of type `α`. -/
inductive Program {Op : Type} (Ans : Op → Type) (ε α : Type) where
  | done (result : Except ε α)
  | step (op : Op) (next : Ans op → Program Ans ε α)

namespace Program

variable {Op : Type} {Ans : Op → Type} {ε ε' α β : Type}

/-- Run a program and go on with its result, exceptions included. -/
def handle (p : Program Ans ε α) (f : Except ε α → Program Ans ε' β) : Program Ans ε' β :=
  match p with
  | done r => f r
  | step op next => step op fun a => (next a).handle f

/-- Run a program and go on with its value. -/
def bind (p : Program Ans ε α) (f : α → Program Ans ε β) : Program Ans ε β :=
  p.handle fun
    | .ok a => f a
    | .error e => done (.error e)

instance : Monad (Program Ans ε) where
  pure a := done (.ok a)
  bind := bind

/-- Raise an exception. -/
def raise (e : ε) : Program Ans ε α := done (.error e)

/-- A computation that performs no operation. -/
def ofExcept (r : Except ε α) : Program Ans ε α := done r

/-- Perform an operation and return its answer. -/
def perform (op : Op) : Program Ans ε (Ans op) := step op fun a => done (.ok a)

@[simp] theorem done_handle (r : Except ε α) (f : Except ε α → Program Ans ε' β) :
    (done r : Program Ans ε α).handle f = f r := rfl

@[simp] theorem step_handle (op : Op) (next : Ans op → Program Ans ε α)
    (f : Except ε α → Program Ans ε' β) :
    (step op next).handle f = step op fun a => (next a).handle f := rfl

@[simp] theorem pure_eq (a : α) : (pure a : Program Ans ε α) = done (.ok a) := rfl

@[simp] theorem bind_eq (p : Program Ans ε α) (f : α → Program Ans ε β) :
    p >>= f = p.bind f := rfl

@[simp] theorem done_ok_bind (a : α) (f : α → Program Ans ε β) :
    (done (.ok a) : Program Ans ε α).bind f = f a := rfl

@[simp] theorem done_error_bind (e : ε) (f : α → Program Ans ε β) :
    (done (.error e) : Program Ans ε α).bind f = done (.error e) := rfl

@[simp] theorem step_bind (op : Op) (next : Ans op → Program Ans ε α)
    (f : α → Program Ans ε β) : (step op next).bind f = step op fun a => (next a).bind f := rfl

@[simp] theorem perform_bind (op : Op) (f : Ans op → Program Ans ε β) :
    (perform op).bind f = step op f := rfl

theorem bind_assoc {γ : Type} (p : Program Ans ε α) (f : α → Program Ans ε β)
    (g : β → Program Ans ε γ) : (p.bind f).bind g = p.bind fun a => (f a).bind g := by
  induction p with
  | done r => cases r <;> rfl
  | step op next ih => exact congrArg (step op) (funext ih)

theorem bind_pure (p : Program Ans ε α) : (p.bind fun a => done (.ok a)) = p := by
  induction p with
  | done r => cases r <;> rfl
  | step op next ih => exact congrArg (step op) (funext ih)

/-! ### The operations a program may perform -/

/-- What a program has done: its operations with their answers, oldest first. -/
abbrev Seen {Op : Type} (Ans : Op → Type) : Type := List (Σ op : Op, Ans op)

/-- Every operation the program may perform, after what it has done, is one that `P` admits. -/
def Follows (P : Seen Ans → Op → Prop) : Seen Ans → Program Ans ε α → Prop
  | _, done _ => True
  | seen, step op next => P seen op ∧ ∀ a, Follows P (seen ++ [⟨op, a⟩]) (next a)

section Follows

variable {P : Seen Ans → Op → Prop} {seen : Seen Ans}

theorem follows_done (r : Except ε α) : Follows P seen (done r : Program Ans ε α) := trivial

theorem follows_perform {op : Op} (h : P seen op) :
    Follows P seen (perform op : Program Ans ε (Ans op)) := ⟨h, fun _ => trivial⟩

/-- What follows a program has all of its past. -/
theorem Follows.handle {p : Program Ans ε α} {f : Except ε α → Program Ans ε' β}
    (h : Follows P seen p) (hf : ∀ seen' r, seen ⊆ seen' → Follows P seen' (f r)) :
    Follows P seen (p.handle f) := by
  induction p generalizing seen with
  | done r => exact hf seen r fun _ => id
  | step op next ih =>
      refine ⟨h.1, fun a => ih a (h.2 a) fun seen' r hsub => hf seen' r ?_⟩
      exact List.Subset.trans (List.subset_append_left _ _) hsub

theorem Follows.bind {p : Program Ans ε α} {f : α → Program Ans ε β} (h : Follows P seen p)
    (hf : ∀ seen' a, seen ⊆ seen' → Follows P seen' (f a)) : Follows P seen (p.bind f) := by
  refine h.handle fun seen' r hsub => ?_
  cases r with
  | ok a => exact hf seen' a hsub
  | error e => exact follows_done _

theorem Follows.mono {P' : Seen Ans → Op → Prop} {p : Program Ans ε α} (h : Follows P seen p)
    (hP : ∀ seen op, P seen op → P' seen op) : Follows P' seen p := by
  induction p generalizing seen with
  | done r => exact follows_done r
  | step op next ih => exact ⟨hP seen op h.1, fun a => ih a (h.2 a)⟩

end Follows

/-- The program performs only operations that `P` admits, and what it ends with, after all it has
done, is as `Q` says. -/
def Achieves (P : Seen Ans → Op → Prop) (Q : Seen Ans → Except ε α → Prop) :
    Seen Ans → Program Ans ε α → Prop
  | seen, done r => Q seen r
  | seen, step op next => P seen op ∧ ∀ a, Achieves P Q (seen ++ [⟨op, a⟩]) (next a)

section Achieves

variable {P : Seen Ans → Op → Prop} {Q : Seen Ans → Except ε α → Prop} {seen : Seen Ans}

theorem Achieves.follows {p : Program Ans ε α} (h : Achieves P Q seen p) : Follows P seen p := by
  induction p generalizing seen with
  | done r => exact follows_done r
  | step op next ih => exact ⟨h.1, fun a => ih a (h.2 a)⟩

/-- **The rule for a program and what handles its end.** -/
theorem Achieves.handle {Q' : Seen Ans → Except ε' β → Prop} {p : Program Ans ε α}
    {f : Except ε α → Program Ans ε' β} (h : Achieves P Q seen p)
    (hf : ∀ seen' r, seen ⊆ seen' → Q seen' r → Achieves P Q' seen' (f r)) :
    Achieves P Q' seen (p.handle f) := by
  induction p generalizing seen with
  | done r => exact hf seen r (fun _ => id) h
  | step op next ih =>
      refine ⟨h.1, fun a => ih a (h.2 a) fun seen' r hsub => hf seen' r ?_⟩
      exact List.Subset.trans (List.subset_append_left _ _) hsub

/-- **The rule for one program after the other.** -/
theorem Achieves.bind {Q' : Seen Ans → Except ε β → Prop} {p : Program Ans ε α}
    {f : α → Program Ans ε β} (h : Achieves P Q seen p)
    (hok : ∀ seen' a, seen ⊆ seen' → Q seen' (.ok a) → Achieves P Q' seen' (f a))
    (herror : ∀ seen' e, seen ⊆ seen' → Q seen' (.error e) → Q' seen' (.error e)) :
    Achieves P Q' seen (p.bind f) := by
  refine h.handle fun seen' r hsub hr => ?_
  cases r with
  | ok a => exact hok seen' a hsub hr
  | error e => exact herror seen' e hsub hr

end Achieves

/-- Every step the program may take, after what it has done and answers that `R` admits, is one that
`Q` admits, with what comes after it. -/
def Takes (R : ∀ op, Ans op → Prop)
    (Q : Seen Ans → (op : Op) → (Ans op → Program Ans ε α) → Prop) :
    Seen Ans → Program Ans ε α → Prop
  | _, done _ => True
  | seen, step op next => Q seen op next ∧ ∀ a, R op a → Takes R Q (seen ++ [⟨op, a⟩]) (next a)

section Takes

variable {R : ∀ op, Ans op → Prop} {Q : Seen Ans → (op : Op) → (Ans op → Program Ans ε α) → Prop}
  {seen : Seen Ans}

theorem takes_done (r : Except ε α) : Takes R Q seen (done r) := trivial

/-- Where what comes next does not matter. -/
theorem Takes.of_follows {P : Seen Ans → Op → Prop} {p : Program Ans ε α} (h : Follows P seen p)
    (hP : ∀ seen op next, P seen op → Q seen op next) : Takes R Q seen p := by
  induction p generalizing seen with
  | done r => exact takes_done r
  | step op next ih => exact ⟨hP seen op next h.1, fun a _ => ih a (h.2 a)⟩

end Takes

/-! ### How many operations a program performs -/

/-- The program performs at most `n` operations, whatever the answers are. -/
def Within : ℕ → Program Ans ε α → Prop
  | _, done _ => True
  | 0, step _ _ => False
  | n + 1, step _ next => ∀ a, Within n (next a)

section Within

variable {p : Program Ans ε α} {n m : ℕ}

theorem within_done (n : ℕ) (r : Except ε α) : Within n (done r : Program Ans ε α) := by
  cases n <;> trivial

theorem within_perform (op : Op) : Within 1 (perform op : Program Ans ε (Ans op)) :=
  fun _ => within_done 0 _

theorem Within.mono (h : Within n p) (hnm : n ≤ m) : Within m p := by
  induction p generalizing n m with
  | done r => exact within_done m r
  | step op next ih =>
      cases n with
      | zero => exact absurd h id
      | succ n =>
          obtain ⟨m, rfl⟩ : ∃ m', m = m' + 1 := ⟨m - 1, by omega⟩
          exact fun a => ih a (h a) (by omega)

theorem Within.handle (h : Within n p) {f : Except ε α → Program Ans ε' β}
    (hf : ∀ r, Within m (f r)) : Within (n + m) (p.handle f) := by
  induction p generalizing n with
  | done r => exact (hf r).mono (by omega)
  | step op next ih =>
      cases n with
      | zero => exact absurd h id
      | succ n =>
          rw [show n + 1 + m = (n + m) + 1 by omega]
          exact fun a => ih a (h a)

theorem Within.bind (h : Within n p) {f : α → Program Ans ε β} (hf : ∀ a, Within m (f a)) :
    Within (n + m) (p.bind f) := by
  refine h.handle fun r => ?_
  cases r with
  | ok a => exact hf a
  | error e => exact within_done m _

end Within

/-! ### One thread alone -/

section Eval

variable {σ χ : Type} (exec : (op : Op) → χ → σ → Option (σ × Ans op))

/-- The program run alone, one choice for each operation: `none` when an operation is not enabled or
the choices run out. -/
def eval : Program Ans ε α → List χ → σ → Option (σ × Except ε α)
  | done r, _, s => some (s, r)
  | step _ _, [], _ => none
  | step op next, c :: choices, s =>
      (exec op c s).bind fun out => (next out.2).eval choices out.1

@[simp] theorem eval_done (r : Except ε α) (choices : List χ) (s : σ) :
    (done r : Program Ans ε α).eval exec choices s = some (s, r) := by
  cases choices <;> rfl

theorem eval_step (op : Op) (next : Ans op → Program Ans ε α) (c : χ) (choices : List χ) (s : σ) :
    (step op next).eval exec (c :: choices) s =
      (exec op c s).bind fun out => (next out.2).eval exec choices out.1 := rfl

/-- **The first operation of a program run alone** takes the first choice. -/
theorem eval_step_eq_some {op : Op} {next : Ans op → Program Ans ε α} {choices : List χ} {s : σ}
    {out : σ × Except ε α} (h : (step op next).eval exec choices s = some out) :
    ∃ c rest mid, choices = c :: rest ∧ exec op c s = some mid ∧
      (next mid.2).eval exec rest mid.1 = some out := by
  cases choices with
  | nil => cases h
  | cons c rest =>
      obtain ⟨mid, hmid, hrest⟩ := Option.bind_eq_some_iff.1 h
      exact ⟨c, rest, mid, rfl, hmid, hrest⟩

/-- One program after the other: the second takes its choices from what the first leaves. -/
theorem eval_handle_eq_some {p : Program Ans ε α} {f : Except ε α → Program Ans ε' β}
    {choices : List χ} {s : σ} {out : σ × Except ε' β}
    (h : (p.handle f).eval exec choices s = some out) :
    ∃ mid rest, rest <:+ choices ∧ p.eval exec choices s = some mid ∧
      (f mid.2).eval exec rest mid.1 = some out := by
  induction p generalizing choices s with
  | done r => exact ⟨(s, r), choices, List.suffix_refl choices, eval_done exec r choices s, h⟩
  | step op next ih =>
      obtain ⟨c, later, first, rfl, hfirst, hlater⟩ := eval_step_eq_some exec h
      obtain ⟨mid, rest, hsuffix, hmid, hrest⟩ := ih first.2 hlater
      refine ⟨mid, rest, hsuffix.trans (List.suffix_cons c later), ?_, hrest⟩
      rw [eval_step, hfirst]
      exact hmid

/-- **A program run alone returns**, when it has enough choices and its operations are enabled. -/
theorem eval_returns {I : List χ → σ → Prop}
    (henabled : ∀ op c rest s, I (c :: rest) s → ∃ mid, exec op c s = some mid ∧ I rest mid.1)
    {p : Program Ans ε α} {n : ℕ} (h : p.Within n) {choices : List χ} (hn : n ≤ choices.length)
    {s : σ} (hI : I choices s) : ∃ out, p.eval exec choices s = some out := by
  induction p generalizing n choices s with
  | done r => exact ⟨_, eval_done exec r choices s⟩
  | step op next ih =>
      cases n with
      | zero => exact absurd h id
      | succ n =>
          cases choices with
          | nil => simp at hn
          | cons c rest =>
              obtain ⟨mid, hmid, hrest⟩ := henabled op c rest s hI
              obtain ⟨out, hout⟩ := ih mid.2 (h mid.2) (by simpa using hn) hrest
              refine ⟨out, ?_⟩
              rw [eval_step, hmid]
              exact hout

/-- The program run alone, where the operation decides the choice: `none` when an operation is not
enabled. -/
def alone (choose : Op → χ) : Program Ans ε α → σ → Option (σ × Except ε α)
  | done r, s => some (s, r)
  | step op next, s => (exec op (choose op) s).bind fun out => (next out.2).alone choose out.1

variable (choose : Op → χ)

@[simp] theorem alone_done (r : Except ε α) (s : σ) :
    (done r : Program Ans ε α).alone exec choose s = some (s, r) := rfl

theorem alone_step (op : Op) (next : Ans op → Program Ans ε α) (s : σ) :
    (step op next).alone exec choose s =
      (exec op (choose op) s).bind fun out => (next out.2).alone exec choose out.1 := rfl

/-- One program after the other. -/
theorem alone_handle (p : Program Ans ε α) (f : Except ε α → Program Ans ε' β) (s : σ) :
    (p.handle f).alone exec choose s =
      (p.alone exec choose s).bind fun out => (f out.2).alone exec choose out.1 := by
  induction p generalizing s with
  | done r => rfl
  | step op next ih =>
      rw [step_handle, alone_step, alone_step, Option.bind_assoc]
      exact congrArg _ (funext fun out => ih out.2 out.1)

section Costed

variable {κ : Type} (cost : Op → List κ)

/-- The program run alone, with what its operations cost, oldest first. -/
def costed : Program Ans ε α → σ → Option ((σ × Except ε α) × List κ)
  | done r, s => some ((s, r), [])
  | step op next, s => (exec op (choose op) s).bind fun out =>
      ((next out.2).costed out.1).map fun later => (later.1, cost op ++ later.2)

theorem costed_step (op : Op) (next : Ans op → Program Ans ε α) {s : σ} {out : σ × Ans op}
    (h : exec op (choose op) s = some out) :
    (step op next).costed exec choose cost s =
      ((next out.2).costed exec choose cost out.1).map fun later =>
        (later.1, cost op ++ later.2) := by
  rw [costed, h, Option.bind_some]

/-- An operation that costs nothing. -/
theorem costed_step_free {op : Op} (hfree : cost op = []) (next : Ans op → Program Ans ε α) {s : σ}
    {out : σ × Ans op} (h : exec op (choose op) s = some out) :
    (step op next).costed exec choose cost s = (next out.2).costed exec choose cost out.1 := by
  rw [costed_step exec choose cost op next h, hfree]
  exact Option.map_id'

/-- The costs stand beside the run. -/
theorem costed_alone (p : Program Ans ε α) (s : σ) :
    (p.costed exec choose cost s).map Prod.fst = p.alone exec choose s := by
  induction p generalizing s with
  | done r => rfl
  | step op next ih =>
      rw [costed, alone_step, Option.map_bind]
      refine congrArg _ (funext fun out => ?_)
      rw [← ih out.2 out.1, Function.comp_apply, Option.map_map]
      rfl

/-- **Costs add up** along one program after the other. -/
theorem costed_handle (p : Program Ans ε α) (f : Except ε α → Program Ans ε' β) (s : σ) :
    (p.handle f).costed exec choose cost s =
      (p.costed exec choose cost s).bind fun first =>
        ((f first.1.2).costed exec choose cost first.1.1).map fun later =>
          (later.1, first.2 ++ later.2) := by
  induction p generalizing s with
  | done r => exact Option.map_id'.symm
  | step op next ih =>
      rw [step_handle, costed, costed, Option.bind_assoc]
      refine congrArg _ (funext fun out => ?_)
      rw [ih out.2 out.1, Option.map_bind, Option.bind_map]
      refine congrArg _ (funext fun first => ?_)
      simp only [Function.comp_apply, Option.map_map, List.append_assoc]
      rfl

end Costed

end Eval

end Program

end Concurrent
