/-
**Threads that interleave their operations, and proof outlines for them.**

A pool of threads runs programs over one shared state; each step performs one operation of one
thread.  What a thread may rely on between two of its own operations is a relation on the shared
state, and a *discipline* says that the operations of the other threads respect it.  A proof outline
is then about one program only, whatever the others do between its operations;
`Concurrent.Discipline.outline_of_run` turns it into a statement about every interleaving.

Main definitions:

* `Concurrent.Thread`, `Concurrent.Pool`, `Concurrent.poolSystem` — threads and their interleavings;
* `Concurrent.Discipline` — an invariant of the shared state and what each thread relies on;
* `Concurrent.Discipline.Outline`, `Concurrent.Discipline.Ensures` — **proof outlines**.

Main results:

* `Concurrent.Discipline.Outline.handle`, `Concurrent.Discipline.Ensures.bind` — outlines compose;
* `Concurrent.Discipline.outline_of_run` — **outlines are sound for every interleaving**;
* `Concurrent.thread_of_run` — **what a thread starts with and keeps at its own steps**;
* `Concurrent.follows_of_run`, `Concurrent.answered_of_run` — what a thread does and has seen.
-/

import EncryptChat.Program
import EncryptChat.Transition

set_option relaxedAutoImplicit false
set_option autoImplicit false

namespace Concurrent

open Program (Seen)
open Transition

/-- A thread: what it was started for, what is left of its program, and what it has done, which is a
history variable that no operation reads. -/
structure Thread {Op : Type} (Ans : Op → Type) (ρ ε α : Type) where
  request : ρ
  rest : Program Ans ε α
  seen : Seen Ans

/-- A shared state and threads by their ids. -/
structure Pool (ι : Type) (σ : Type) {Op : Type} (Ans : Op → Type) (ρ ε α : Type) where
  shared : σ
  threads : ι → Option (Thread Ans ρ ε α)

/-- A thread is started under a new id, or takes a step. -/
inductive PoolLabel (ι ρ χ : Type) where
  | start (i : ι) (request : ρ)
  | step (i : ι) (choice : χ)

section Pool

variable {ι σ χ : Type} {Op : Type} {Ans : Op → Type} {ρ ε α : Type}
  (exec : ι → (op : Op) → χ → σ → Option (σ × Ans op)) (code : ρ → Program Ans ε α)

/-! ### Disciplines and outlines -/

/-- An invariant of the shared state; what a thread relies on while others run; and the operations
that are allowed where. -/
structure Discipline where
  Inv : σ → Prop
  Env : ι → σ → σ → Prop
  Allowed : ι → Op → σ → Prop
  env_refl : ∀ i s, Env i s s
  env_trans : ∀ i s t u, Env i s t → Env i t u → Env i s u
  /-- An allowed operation keeps the invariant. -/
  keeps : ∀ i op c s s' a, Inv s → Allowed i op s → exec i op c s = some (s', a) → Inv s'
  /-- An allowed operation respects what the other threads rely on. -/
  respects : ∀ i op c s s' a, Inv s → Allowed i op s → exec i op c s = some (s', a) →
    ∀ j, j ≠ i → Env j s s'

namespace Discipline

variable {exec} (D : Discipline exec)

/-- A discipline with more in its invariant and less allowed. -/
def strengthen (I : σ → Prop) (A : ι → Op → σ → Prop)
    (h : ∀ i op c s s' a, D.Inv s → D.Allowed i op s → I s → A i op s →
      exec i op c s = some (s', a) → I s') : Discipline exec where
  Inv := fun s => D.Inv s ∧ I s
  Env := D.Env
  Allowed := fun i op s => D.Allowed i op s ∧ A i op s
  env_refl := D.env_refl
  env_trans := D.env_trans
  keeps := fun i op c s s' a hs hA hexec =>
    ⟨D.keeps i op c s s' a hs.1 hA.1 hexec, h i op c s s' a hs.1 hA.1 hs.2 hA.2 hexec⟩
  respects := fun i op c s s' a hs hA => D.respects i op c s s' a hs.1 hA.1

/-- **A proof outline** of the thread `i`: whatever the other threads do between its operations,
when it has ended `Q` holds of what it has done, of its result, and of the shared state, and goes on
to hold. -/
def Outline (i : ι) (Q : Seen Ans → Except ε α → σ → Prop) :
    Seen Ans → Program Ans ε α → σ → Prop
  | seen, .done r, s => ∀ s', D.Inv s' → D.Env i s s' → Q seen r s'
  | seen, .step op next, s => ∀ s', D.Inv s' → D.Env i s s' →
      ∀ c s'' a, D.Allowed i op s' → exec i op c s' = some (s'', a) → D.Inv s'' →
        Outline i Q (seen ++ [⟨op, a⟩]) (next a) s''

/-- An outline about the value of a program that ends without an exception. -/
def Ensures (i : ι) (Q : Seen Ans → α → σ → Prop) (seen : Seen Ans) (p : Program Ans ε α)
    (s : σ) : Prop :=
  D.Outline i (fun seen r s => ∀ a, r = .ok a → Q seen a s) seen p s

namespace Outline

variable {D} {i : ι} {Q : Seen Ans → Except ε α → σ → Prop} {seen : Seen Ans} {s s' : σ}

/-- What the other threads do keeps an outline. -/
theorem stable {p : Program Ans ε α} (h : D.Outline i Q seen p s) (henv : D.Env i s s') :
    D.Outline i Q seen p s' := by
  cases p with
  | done r => exact fun t ht hst => h t ht (D.env_trans i s s' t henv hst)
  | step op next => exact fun t ht hst => h t ht (D.env_trans i s s' t henv hst)

/-- What an outline says about a thread that has ended. -/
theorem result {r : Except ε α} (h : D.Outline i Q seen (.done r) s) (hs : D.Inv s) :
    Q seen r s := h s hs (D.env_refl i s)

/-- The thread takes a step. -/
theorem step {op : Op} {next : Ans op → Program Ans ε α}
    (h : D.Outline i Q seen (.step op next) s) (hs : D.Inv s) {c : χ} {a : Ans op}
    (hallowed : D.Allowed i op s) (hexec : exec i op c s = some (s', a)) :
    D.Outline i Q (seen ++ [⟨op, a⟩]) (next a) s' :=
  h s hs (D.env_refl i s) c s' a hallowed hexec (D.keeps i op c s s' a hs hallowed hexec)

/-- **Outlines compose** along `handle`. -/
theorem handle {ε' β : Type} {Q' : Seen Ans → Except ε' β → σ → Prop} {p : Program Ans ε α}
    {f : Except ε α → Program Ans ε' β} (h : D.Outline i Q seen p s) (hs : D.Inv s)
    (hf : ∀ seen r t, D.Inv t → Q seen r t → D.Outline i Q' seen (f r) t) :
    D.Outline i Q' seen (p.handle f) s := by
  induction p generalizing seen s with
  | done r => exact hf seen r s hs (h.result hs)
  | step op next ih =>
      intro t ht henv c t' a hallowed hexec ht'
      exact ih a (h t ht henv c t' a hallowed hexec ht') ht'

end Outline

namespace Ensures

variable {D} {i : ι} {Q : Seen Ans → α → σ → Prop} {seen : Seen Ans} {s : σ}

theorem pure {a : α} (h : ∀ s', D.Inv s' → D.Env i s s' → Q seen a s') :
    D.Ensures i Q seen (.done (.ok a) : Program Ans ε α) s := by
  intro s' hs' henv b hb
  cases hb
  exact h s' hs' henv

/-- A program that raises ensures everything. -/
theorem raise (e : ε) : D.Ensures i Q seen (.done (.error e) : Program Ans ε α) s := by
  intro s' _ _ a ha
  cases ha

theorem perform {op : Op} {next : Ans op → Program Ans ε α}
    (h : ∀ s', D.Inv s' → D.Env i s s' → ∀ c s'' a, D.Allowed i op s' →
      exec i op c s' = some (s'', a) → D.Inv s'' →
        D.Ensures i Q (seen ++ [⟨op, a⟩]) (next a) s'') :
    D.Ensures i Q seen (.step op next) s := h

/-- A computation that performs no operation. -/
theorem ofExcept {β : Type} {r : Except ε β} {f : β → Program Ans ε α}
    (h : ∀ b, r = .ok b → D.Ensures i Q seen (f b) s) :
    D.Ensures i Q seen ((Program.ofExcept r).bind f) s := by
  cases r with
  | ok b => exact h b rfl
  | error e => exact raise e

/-- **Outlines compose** along `bind`. -/
theorem bind {β : Type} {Q' : Seen Ans → β → σ → Prop} {p : Program Ans ε α}
    {f : α → Program Ans ε β} (h : D.Ensures i Q seen p s) (hs : D.Inv s)
    (hf : ∀ seen a t, D.Inv t → Q seen a t → D.Ensures i Q' seen (f a) t) :
    D.Ensures i Q' seen (p.bind f) s := by
  refine Outline.handle h hs fun seen r t ht hQ => ?_
  cases r with
  | ok a => exact hf seen a t ht (hQ a rfl)
  | error e => exact raise e

/-- What an outline ensures may be weakened. -/
theorem mono {Q' : Seen Ans → α → σ → Prop} {p : Program Ans ε α} (h : D.Ensures i Q seen p s)
    (hs : D.Inv s) (hQ : ∀ seen a t, D.Inv t → Q seen a t → Q' seen a t) :
    D.Ensures i Q' seen p s := by
  induction p generalizing seen s with
  | done r =>
      intro s' hs' henv a ha
      exact hQ seen a s' hs' (h s' hs' henv a ha)
  | step op next ih =>
      intro t ht henv c t' a hallowed hexec ht'
      exact ih a (h t ht henv c t' a hallowed hexec ht') ht'

end Ensures

/-- What every step keeps, the thread's own and the others', holds at the end of every program. -/
theorem ensures_of_kept {D : Discipline exec} {i : ι} {Q : Seen Ans → σ → Prop}
    (henv : ∀ seen s s', D.Env i s s' → Q seen s → Q seen s')
    (hstep : ∀ seen op c s s' a, D.Inv s → exec i op c s = some (s', a) → Q seen s →
      Q (seen ++ [⟨op, a⟩]) s')
    {seen : Seen Ans} {s : σ} (h : Q seen s) (p : Program Ans ε α) :
    D.Ensures i (fun seen _ s => Q seen s) seen p s := by
  induction p generalizing seen s with
  | done r => exact fun s' _ hs' _ _ => henv seen s s' hs' h
  | step op next ih =>
      intro s' hs hs' c s'' a _ hexec _
      exact ih a (hstep seen op c s' s'' a hs hexec (henv seen s s' hs' h))

/-- Every program ensures nothing in particular. -/
theorem ensures_true {D : Discipline exec} {i : ι} {seen : Seen Ans} {s : σ} (p : Program Ans ε α) :
    D.Ensures i (fun _ _ _ => True) seen p s :=
  ensures_of_kept (Q := fun _ _ => True) (fun _ _ _ _ => id) (fun _ _ _ _ _ _ _ _ => id) trivial p

end Discipline

/-! ### Interleavings -/

variable [DecidableEq ι]

/-- One step of a pool. -/
def Pool.step (p : Pool ι σ Ans ρ ε α) : PoolLabel ι ρ χ → Option (Pool ι σ Ans ρ ε α)
  | .start i request =>
      match p.threads i with
      | none => some ⟨p.shared, Function.update p.threads i (some ⟨request, code request, []⟩)⟩
      | some _ => none
  | .step i choice =>
      match p.threads i with
      | some ⟨request, .step op next, seen⟩ =>
          (exec i op choice p.shared).map fun out =>
            ⟨out.1, Function.update p.threads i
              (some ⟨request, next out.2, seen ++ [⟨op, out.2⟩]⟩)⟩
      | _ => none

/-- The interleavings of any number of threads, from the shared state `init` and no thread. -/
def poolSystem (init : σ) : System (Pool ι σ Ans ρ ε α) (PoolLabel ι ρ χ) where
  init := fun p => p = ⟨init, fun _ => none⟩
  step := Pool.step exec code

/-- What the start of a thread is. -/
theorem Pool.step_start {p p' : Pool ι σ Ans ρ ε α} {i : ι} {request : ρ}
    (h : p.step exec code (.start i request) = some p') :
    p.threads i = none ∧ p'.shared = p.shared ∧
      p'.threads = Function.update p.threads i (some ⟨request, code request, []⟩) := by
  simp only [Pool.step] at h
  split at h
  · rename_i hnone
    cases h
    exact ⟨hnone, rfl, rfl⟩
  · cases h

/-- What a step of a thread is. -/
theorem Pool.step_step {p p' : Pool ι σ Ans ρ ε α} {i : ι} {c : χ}
    (h : p.step exec code (.step i c) = some p') :
    ∃ request op next seen s a, p.threads i = some ⟨request, .step op next, seen⟩ ∧
      exec i op c p.shared = some (s, a) ∧ p'.shared = s ∧
      p'.threads = Function.update p.threads i
        (some ⟨request, next a, seen ++ [⟨op, a⟩]⟩) := by
  simp only [Pool.step] at h
  split at h
  · rename_i request op next seen hthread
    obtain ⟨out, hout, rfl⟩ := Option.map_eq_some_iff.1 h
    exact ⟨request, op, next, seen, out.1, out.2, hthread, hout, rfl, rfl⟩
  · cases h

/-! ### Soundness -/

namespace Discipline

variable {exec} (D : Discipline exec)

/-- Every thread is started where its outline holds, and takes the allowed steps only. -/
def Meets (Start : ρ → σ → Prop) (p : Pool ι σ Ans ρ ε α) : PoolLabel ι ρ χ → Prop
  | .start _ request => Start request p.shared
  | .step i _ => ∀ request op next seen,
      p.threads i = some ⟨request, .step op next, seen⟩ → D.Allowed i op p.shared

variable {code}

/-- **Outlines are sound for every interleaving**: in a run whose labels all meet the discipline, the
invariant holds at the end, and every thread started in it satisfies its outline. -/
theorem outline_of_run {init : σ} {Start : ρ → σ → Prop}
    {Q : ι → ρ → Seen Ans → Except ε α → σ → Prop}
    (hcode : ∀ i request s, D.Inv s → Start request s →
      D.Outline i (Q i request) [] (code request) s)
    {p t : Pool ι σ Ans ρ ε α} {tr : List (Pool ι σ Ans ρ ε α × PoolLabel ι ρ χ)}
    (h : (poolSystem exec code init).Run p tr t) (hmeets : ∀ e ∈ tr, D.Meets Start e.1 e.2)
    (hp : D.Inv p.shared) :
    D.Inv t.shared ∧ ∀ i th, t.threads i = some th → p.threads i = none →
      D.Outline i (Q i th.request) th.seen th.rest t.shared := by
  induction h with
  | nil =>
      refine ⟨hp, fun i th hth hnone => ?_⟩
      rw [hnone] at hth
      cases hth
  | @snoc u w tr label hrun hstep ih =>
      obtain ⟨hinv, hthreads⟩ := ih fun e he => hmeets e (List.mem_append_left _ he)
      have hlabel := hmeets (u, label) (by simp)
      cases label with
      | start i request =>
          obtain ⟨hnone, hshared, hupdate⟩ := Pool.step_start exec code hstep
          rw [hshared]
          refine ⟨hinv, fun j th hth hj => ?_⟩
          rw [hupdate] at hth
          by_cases hij : j = i
          · subst hij
            rw [Function.update_self, Option.some.injEq] at hth
            subst hth
            exact hcode j request u.shared hinv hlabel
          · rw [Function.update_of_ne hij] at hth
            exact hthreads j th hth hj
      | step i c =>
          obtain ⟨request, op, next, seen, s, a, hth, hexec, hshared, hupdate⟩ :=
            Pool.step_step exec code hstep
          have hallowed := hlabel request op next seen hth
          rw [hshared]
          refine ⟨D.keeps i op c _ _ a hinv hallowed hexec, fun j th hj hnone => ?_⟩
          rw [hupdate] at hj
          by_cases hij : j = i
          · subst hij
            rw [Function.update_self, Option.some.injEq] at hj
            subst hj
            exact (hthreads j _ hth hnone).step hinv hallowed hexec
          -- another thread: its outline is stable under what this one may do
          · rw [Function.update_of_ne hij] at hj
            exact (hthreads j th hj hnone).stable
              (D.respects i op c _ _ a hinv hallowed hexec j hij)

end Discipline

/-! ### What threads are made of -/

variable {exec code}

/-- **What a thread starts with and keeps at its own steps** holds of every thread of a run,
whatever the others do; it may speak of the run so far. -/
theorem thread_of_run {init : σ}
    {I : List (Pool ι σ Ans ρ ε α × PoolLabel ι ρ χ) → ι → Thread Ans ρ ε α → Prop}
    {t : Pool ι σ Ans ρ ε α} {tr : List (Pool ι σ Ans ρ ε α × PoolLabel ι ρ χ)}
    (h : (poolSystem exec code init).Run ⟨init, fun _ => none⟩ tr t)
    (hstart : ∀ u tr i request, I (tr ++ [(u, .start i request)]) i ⟨request, code request, []⟩)
    (hstep : ∀ u tr i c request op next seen s a, exec i op c u.shared = some (s, a) →
      I tr i ⟨request, .step op next, seen⟩ →
        I (tr ++ [(u, .step i c)]) i ⟨request, next a, seen ++ [⟨op, a⟩]⟩)
    (hkept : ∀ tr e i th, I tr i th → I (tr ++ [e]) i th) {i : ι} {th : Thread Ans ρ ε α}
    (hth : t.threads i = some th) : I tr i th := by
  induction h generalizing i th with
  | nil => cases hth
  | @snoc u w tr label hrun hstep' ih =>
      -- the thread that has moved, and the others
      cases label with
      | start j request =>
          obtain ⟨-, -, hupdate⟩ := Pool.step_start exec code hstep'
          rw [hupdate] at hth
          by_cases hij : i = j
          · subst hij
            rw [Function.update_self, Option.some.injEq] at hth
            subst hth
            exact hstart u tr i request
          · rw [Function.update_of_ne hij] at hth
            exact hkept tr _ i th (ih hth)
      | step j c =>
          obtain ⟨request, op, next, seen, s, a, hu, hexec, -, hupdate⟩ :=
            Pool.step_step exec code hstep'
          rw [hupdate] at hth
          by_cases hij : i = j
          · subst hij
            rw [Function.update_self, Option.some.injEq] at hth
            subst hth
            exact hstep u tr i c request op next seen s a hexec (ih hu)
          · rw [Function.update_of_ne hij] at hth
            exact hkept tr _ i th (ih hth)

section Run

variable {init : σ} {t : Pool ι σ Ans ρ ε α}
  {tr : List (Pool ι σ Ans ρ ε α × PoolLabel ι ρ χ)} {i : ι} {th : Thread Ans ρ ε α}

/-- A thread performs the operations of its code only. -/
theorem follows_of_run {P : Seen Ans → Op → Prop}
    (h : (poolSystem exec code init).Run ⟨init, fun _ => none⟩ tr t)
    (hth : t.threads i = some th) (hcode : Program.Follows P [] (code th.request)) :
    Program.Follows P th.seen th.rest :=
  thread_of_run (I := fun _ _ th => Program.Follows P [] (code th.request) →
      Program.Follows P th.seen th.rest) h (fun _ _ _ _ => id)
    (fun _ _ _ _ _ _ _ _ _ a _ hfollows hcode => (hfollows hcode).2 a) (fun _ _ _ _ => id) hth
    hcode

/-- **What a thread achieves**: it performs what its code may, and ends as its code may. -/
theorem achieves_of_run {P : Seen Ans → Op → Prop} {Q : Seen Ans → Except ε α → Prop}
    (h : (poolSystem exec code init).Run ⟨init, fun _ => none⟩ tr t)
    (hth : t.threads i = some th) (hcode : Program.Achieves P Q [] (code th.request)) :
    Program.Achieves P Q th.seen th.rest :=
  thread_of_run (I := fun _ _ th => Program.Achieves P Q [] (code th.request) →
      Program.Achieves P Q th.seen th.rest) h (fun _ _ _ _ => id)
    (fun _ _ _ _ _ _ _ _ _ a _ hachieves hcode => (hachieves hcode).2 a) (fun _ _ _ _ => id) hth
    hcode

/-- A thread takes the steps of its code only, and the answers it gets are those that are given. -/
theorem takes_of_run {R : ∀ op, Ans op → Prop}
    {Q : Seen Ans → (op : Op) → (Ans op → Program Ans ε α) → Prop}
    (h : (poolSystem exec code init).Run ⟨init, fun _ => none⟩ tr t)
    (hR : ∀ i op c s s' a, exec i op c s = some (s', a) → R op a) (hth : t.threads i = some th)
    (hcode : Program.Takes R Q [] (code th.request)) : Program.Takes R Q th.seen th.rest :=
  thread_of_run (I := fun _ _ th => Program.Takes R Q [] (code th.request) →
      Program.Takes R Q th.seen th.rest) h (fun _ _ _ _ => id)
    (fun u _ i c _ op _ _ s a hexec htakes hcode =>
      (htakes hcode).2 a (hR i op c u.shared s a hexec)) (fun _ _ _ _ => id) hth hcode

/-- **What a thread has seen** was answered at a step of its own. -/
theorem answered_of_run (h : (poolSystem exec code init).Run ⟨init, fun _ => none⟩ tr t)
    (hth : t.threads i = some th) {op : Op} {a : Ans op} (ha : ⟨op, a⟩ ∈ th.seen) :
    ∃ e ∈ tr, ∃ c s, e.2 = .step i c ∧ exec i op c e.1.shared = some (s, a) := by
  have hkept : ∀ tr (e' : Pool ι σ Ans ρ ε α × PoolLabel ι ρ χ) (i : ι) (th : Thread Ans ρ ε α),
      (⟨op, a⟩ ∈ th.seen → ∃ e ∈ tr, ∃ c s, e.2 = .step i c ∧
        exec i op c e.1.shared = some (s, a)) →
      ⟨op, a⟩ ∈ th.seen → ∃ e ∈ tr ++ [e'], ∃ c s, e.2 = .step i c ∧
        exec i op c e.1.shared = some (s, a) := by
    intro tr e' i th hbefore ha
    obtain ⟨e, he, hanswer⟩ := hbefore ha
    exact ⟨e, List.mem_append_left _ he, hanswer⟩
  refine thread_of_run (I := fun tr i th => ⟨op, a⟩ ∈ th.seen → ∃ e ∈ tr, ∃ c s,
    e.2 = .step i c ∧ exec i op c e.1.shared = some (s, a)) h ?_ ?_ hkept hth ha
  · intro u tr i request ha
    cases ha
  · intro u tr i c request op' next seen s b hexec hbefore ha
    rcases List.mem_append.1 ha with ha | ha
    · exact hkept tr _ i _ hbefore ha
    · rw [List.mem_singleton] at ha
      cases ha
      exact ⟨(u, .step i c), by simp, c, s, rfl, hexec⟩

/-- **What a thread has performed** its code admits, given all it has seen by now. -/
theorem performed_of_run {P : ρ → Seen Ans → Op → Prop}
    (h : (poolSystem exec code init).Run ⟨init, fun _ => none⟩ tr t)
    (hcode : ∀ request, Program.Follows (P request) [] (code request))
    (hmono : ∀ request seen seen' op, seen ⊆ seen' → P request seen op → P request seen' op)
    (hth : t.threads i = some th) {op : Op} {a : Ans op} (ha : ⟨op, a⟩ ∈ th.seen) :
    P th.request th.seen op := by
  have hall := thread_of_run (I := fun _ _ th => Program.Follows (P th.request) th.seen th.rest ∧
    ∀ e ∈ th.seen, P th.request th.seen e.1) h ?_ ?_ (fun _ _ _ _ => id) hth
  · exact hall.2 _ ha
  · intro u tr i request
    exact ⟨hcode request, fun e he => by cases he⟩
  · rintro u tr i c request op' next seen s b - ⟨hfollows, hseen⟩
    refine ⟨hfollows.2 b, fun e he => ?_⟩
    refine hmono _ seen _ e.1 (List.subset_append_left _ _) ?_
    rcases List.mem_append.1 he with he | he
    · exact hseen e he
    · rw [List.mem_singleton] at he
      rw [he]
      exact hfollows.1

/-- A thread has been started. -/
theorem started_of_run (h : (poolSystem exec code init).Run ⟨init, fun _ => none⟩ tr t)
    (hth : t.threads i = some th) : ∃ e ∈ tr, e.2 = .start i th.request := by
  have hkept : ∀ tr (e' : Pool ι σ Ans ρ ε α × PoolLabel ι ρ χ) (i : ι) (th : Thread Ans ρ ε α),
      (∃ e ∈ tr, e.2 = .start i th.request) → ∃ e ∈ tr ++ [e'], e.2 = .start i th.request := by
    rintro tr e' i th ⟨e, he, hstart⟩
    exact ⟨e, List.mem_append_left _ he, hstart⟩
  refine thread_of_run (I := fun tr i th => ∃ e ∈ tr, e.2 = .start i th.request) h ?_ ?_ hkept hth
  · intro u tr i request
    exact ⟨(u, .start i request), by simp, rfl⟩
  · intro u tr i c request op next seen s a _ hstarted
    exact hkept tr _ i ⟨request, .step op next, seen⟩ hstarted

end Run

/-- **A thread that runs alone** is one of the interleavings. -/
theorem run_of_alone {init : σ} {choose : Op → χ} {i : ι} {request : ρ} {rest : Program Ans ε α}
    {p : Pool ι σ Ans ρ ε α} {seen : Seen Ans} {s : σ} {r : Except ε α}
    (hth : p.threads i = some ⟨request, rest, seen⟩)
    (h : rest.alone (exec i) choose p.shared = some (s, r)) :
    ∃ tr seen', (poolSystem exec code init).Run p tr
      ⟨s, Function.update p.threads i (some ⟨request, .done r, seen'⟩)⟩ := by
  induction rest generalizing p seen with
  | done r' =>
      cases h
      refine ⟨[], seen, ?_⟩
      rw [← hth, Function.update_eq_self]
      exact System.Run.nil p
  | step op next ih =>
      obtain ⟨out, hexec, hrest⟩ := Option.bind_eq_some_iff.1 h
      obtain ⟨tr, seen', hrun⟩ := ih out.2 (p := ⟨out.1, Function.update p.threads i
        (some ⟨request, next out.2, seen ++ [⟨op, out.2⟩]⟩)⟩) (Function.update_self ..) hrest
      rw [Function.update_idem] at hrun
      refine ⟨_, seen', System.Run.head (a := .step i (choose op)) ?_ hrun⟩
      simp only [poolSystem, Pool.step, hth, hexec, Option.map_some]

/-- A request that is served alone, from its start to its end. -/
theorem run_of_request {init : σ} {choose : Op → χ} {i : ι} {request : ρ} {p : Pool ι σ Ans ρ ε α}
    {s : σ} {r : Except ε α} (hnone : p.threads i = none)
    (h : (code request).alone (exec i) choose p.shared = some (s, r)) :
    ∃ tr seen, (poolSystem exec code init).Run p tr
      ⟨s, Function.update p.threads i (some ⟨request, .done r, seen⟩)⟩ := by
  have hstarted : ∃ tr seen, (poolSystem exec code init).Run
      ⟨p.shared, Function.update p.threads i (some ⟨request, code request, []⟩)⟩ tr _ :=
    run_of_alone (Function.update_self ..) h
  obtain ⟨tr, seen, hrun⟩ := hstarted
  rw [Function.update_idem] at hrun
  refine ⟨_, seen, System.Run.head (a := .start i request) ?_ hrun⟩
  simp only [poolSystem, Pool.step, hnone]

/-- **A thread goes on**: it stays what it was started for, and what it has seen it has seen. -/
theorem Pool.persists_of_step {p p' : Pool ι σ Ans ρ ε α} {label : PoolLabel ι ρ χ}
    (h : p.step exec code label = some p') {i : ι} {th : Thread Ans ρ ε α}
    (hth : p.threads i = some th) :
    ∃ th', p'.threads i = some th' ∧ th'.request = th.request ∧ th.seen ⊆ th'.seen := by
  cases label with
  | start j request =>
      obtain ⟨hnone, -, hupdate⟩ := Pool.step_start exec code h
      have hij : i ≠ j := by
        rintro rfl
        rw [hth] at hnone
        cases hnone
      exact ⟨th, by rw [hupdate, Function.update_of_ne hij]; exact hth, rfl, fun _ => id⟩
  | step j c =>
      obtain ⟨request, op, next, seen, s, a, hu, -, -, hupdate⟩ := Pool.step_step exec code h
      rw [hupdate]
      by_cases hij : i = j
      · subst hij
        rw [hth, Option.some.injEq] at hu
        subst hu
        exact ⟨_, Function.update_self .., rfl, List.subset_append_left _ _⟩
      · exact ⟨th, by rw [Function.update_of_ne hij]; exact hth, rfl, fun _ => id⟩

/-- A thread stays what it was started for. -/
theorem request_of_run {init : σ} {p t : Pool ι σ Ans ρ ε α}
    {tr : List (Pool ι σ Ans ρ ε α × PoolLabel ι ρ χ)} (h : (poolSystem exec code init).Run p tr t)
    {i : ι} {th : Thread Ans ρ ε α} (hth : p.threads i = some th) :
    ∃ th', t.threads i = some th' ∧ th'.request = th.request := by
  induction h with
  | nil => exact ⟨th, hth, rfl⟩
  | @snoc u w tr label hrun hstep ih =>
      obtain ⟨th', hth', hreq⟩ := ih
      cases label with
      | start j request =>
          obtain ⟨hnone, -, hupdate⟩ := Pool.step_start exec code hstep
          have hij : i ≠ j := by
            rintro rfl
            rw [hth'] at hnone
            cases hnone
          exact ⟨th', by rw [hupdate, Function.update_of_ne hij]; exact hth', hreq⟩
      | step j c =>
          obtain ⟨request, op, next, seen, s, a, hu, -, -, hupdate⟩ :=
            Pool.step_step exec code hstep
          rw [hupdate]
          by_cases hij : i = j
          · subst hij
            rw [hth', Option.some.injEq] at hu
            subst hu
            exact ⟨_, Function.update_self .., hreq⟩
          · exact ⟨th', by rw [Function.update_of_ne hij]; exact hth', hreq⟩

end Pool

end Concurrent
