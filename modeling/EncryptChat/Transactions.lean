/-
**A store with one writer at a time.**

The participants of a store write to it under a lock: the first write takes it, a commit or a
rollback gives it back.  Until then only the writer sees its writes; a commit publishes them, a
rollback forgets them.  So whatever the interleaving, the store is what the committed transactions
make of it, **one after the other in the order of their commits** — and when each participant ends
with its first commit or rollback, a transaction is all that its participant has ever written.

Main definitions:

* `Transactions.Store`, `Transactions.storeSystem` — the store and its runs;
* `Transactions.History` — the writes still pending, and the transactions that were committed;
* `Transactions.serial` — a list of transactions, one after the other;
* `Transactions.Once` — every participant ends with its first commit or rollback.

Main results:

* `Transactions.committed_eq_serial` — **the store is what its transactions make of it**;
* `Transactions.Once.writer_under_way` — the lock is held by a participant that has not ended;
* `Transactions.Once.settled` — a transaction is all that its participant has written.
-/

import EncryptChat.Transition
import Mathlib.Data.List.Nodup

set_option relaxedAutoImplicit false
set_option autoImplicit false

namespace Transactions

open Transition

/-! ### The store -/

/-- What a participant does to the store. -/
inductive Act (ι W : Type*) where
  | write (i : ι) (w : W)
  | commit (i : ι)
  | rollback (i : ι)

/-- Who acts. -/
def Act.actor {ι W : Type*} : Act ι W → ι
  | .write i _ | .commit i | .rollback i => i

/-- What is committed, and what its writer sees. -/
structure Store (ι D : Type*) where
  committed : D
  writer : Option (ι × D)

variable {ι W D : Type*} [DecidableEq ι]

namespace Store

/-- What a participant may write to: nothing while another one holds the lock. -/
def writable (s : Store ι D) (i : ι) : Option D :=
  match s.writer with
  | some (j, d) => if j = i then some d else none
  | none => some s.committed

/-- A commit, of a participant that may have written nothing. -/
def commit (s : Store ι D) (i : ι) : Store ι D :=
  match s.writer with
  | some (j, d) => if j = i then ⟨d, none⟩ else s
  | none => s

/-- A rollback, of a participant that may have written nothing. -/
def rollback (s : Store ι D) (i : ι) : Store ι D :=
  match s.writer with
  | some (j, _) => if j = i then ⟨s.committed, none⟩ else s
  | none => s

/-- One step of the store; `apply` is what a write does. -/
def step (apply : W → D → D) (s : Store ι D) : Act ι W → Option (Store ι D)
  | .write i w => (s.writable i).map fun d => ⟨s.committed, some (i, apply w d)⟩
  | .commit i => some (s.commit i)
  | .rollback i => some (s.rollback i)

end Store

/-- The runs of a store from `d₀`. -/
def storeSystem (apply : W → D → D) (d₀ : D) : System (Store ι D) (Act ι W) where
  init := fun s => s = ⟨d₀, none⟩
  step := Store.step apply

/-! ### Its history -/

/-- The writes of each participant that are neither committed nor rolled back, and the transactions
that were committed, in the order of their commits. -/
structure History (ι W : Type*) where
  pending : ι → List W
  committed : List (ι × List W)

namespace History

/-- Before any act. -/
def empty : History ι W := ⟨fun _ => [], []⟩

/-- One act more. -/
def add (h : History ι W) : Act ι W → History ι W
  | .write i w => { h with pending := Function.update h.pending i (h.pending i ++ [w]) }
  | .commit i =>
      ⟨Function.update h.pending i [], h.committed ++ [(i, h.pending i)]⟩
  | .rollback i => { h with pending := Function.update h.pending i [] }

end History

/-- The history of a list of acts. -/
def history (acts : List (Act ι W)) : History ι W := acts.foldl History.add .empty

theorem history_snoc (acts : List (Act ι W)) (a : Act ι W) :
    history (acts ++ [a]) = (history acts).add a := by
  simp [history, List.foldl_append]

/-- Writes, one after the other. -/
def applyAll (apply : W → D → D) (ws : List W) (d : D) : D := ws.foldl (fun d w => apply w d) d

/-- **Transactions, one after the other.** -/
def serial (apply : W → D → D) (ts : List (ι × List W)) (d : D) : D :=
  ts.foldl (fun d t => applyAll apply t.2 d) d

theorem applyAll_snoc (apply : W → D → D) (ws : List W) (w : W) (d : D) :
    applyAll apply (ws ++ [w]) d = apply w (applyAll apply ws d) := by
  simp [applyAll, List.foldl_append]

omit [DecidableEq ι] in
theorem serial_snoc (apply : W → D → D) (ts : List (ι × List W)) (t : ι × List W) (d : D) :
    serial apply (ts ++ [t]) d = applyAll apply t.2 (serial apply ts d) := by
  simp [serial, List.foldl_append]

/-- A participant without pending writes has none to lose. -/
theorem forget_nothing {pending : ι → List W} {i : ι} (h : pending i = []) :
    Function.update pending i [] = pending :=
  Function.update_eq_self_iff.2 h.symm

/-- The history explains the store: what is committed, and what the writer sees. -/
structure Explains (apply : W → D → D) (d₀ : D) (h : History ι W) (s : Store ι D) : Prop where
  committed : s.committed = serial apply h.committed d₀
  idle : s.writer = none → ∀ i, h.pending i = []
  writer : ∀ i d, s.writer = some (i, d) →
    d = applyAll apply (h.pending i) s.committed ∧ ∀ j, j ≠ i → h.pending j = []

/-- **An act keeps the history an explanation.** -/
theorem Explains.add {apply : W → D → D} {d₀ : D} {h : History ι W} {s s' : Store ι D}
    (hs : Explains apply d₀ h s) {a : Act ι W} (hstep : s.step apply a = some s') :
    Explains apply d₀ (h.add a) s' := by
  cases a with
  | write i w =>
      obtain ⟨d, hd, rfl⟩ := Option.map_eq_some_iff.1 hstep
      -- the lock is free, or the participant's own
      have hseen : d = applyAll apply (h.pending i) s.committed ∧
          ∀ j, j ≠ i → h.pending j = [] := by
        unfold Store.writable at hd
        split at hd
        · rename_i j e hw
          split_ifs at hd with hij
          cases hd
          subst hij
          exact hs.writer j d hw
        · rename_i hw
          cases hd
          rw [hs.idle hw i]
          exact ⟨rfl, fun j _ => hs.idle hw j⟩
      refine ⟨hs.committed, ?_, ?_⟩
      · rintro ⟨⟩
      · rintro k e ⟨⟩
        refine ⟨?_, fun j hj => ?_⟩
        · simp only [History.add, Function.update_self]
          rw [applyAll_snoc, ← hseen.1]
        · simp only [History.add, Function.update_of_ne hj]
          exact hseen.2 j hj
  | commit i =>
      cases hstep
      unfold Store.commit
      split
      · rename_i j d hw
        obtain ⟨hd, hothers⟩ := hs.writer j d hw
        split_ifs with hij
        · subst hij
          refine ⟨?_, fun _ k => ?_, by rintro _ _ ⟨⟩⟩
          · simp only [History.add]
            rw [serial_snoc, ← hs.committed, hd]
          · simp only [History.add, Function.update_apply]
            split_ifs with hk
            · rfl
            · exact hothers k hk
        -- another participant holds the lock: there is nothing to commit
        · have hnothing := hothers i fun heq => hij heq.symm
          refine ⟨?_, fun hnone => ?_, ?_⟩
          · simp only [History.add, hnothing]
            rw [serial_snoc]
            exact hs.committed
          · rw [hw] at hnone
            cases hnone
          · intro k e hk
            simp only [History.add, forget_nothing hnothing]
            exact hs.writer k e hk
      · rename_i hw
        have hnothing := hs.idle hw
        refine ⟨?_, fun _ k => ?_, ?_⟩
        · simp only [History.add, hnothing i]
          rw [serial_snoc]
          exact hs.committed
        · simp only [History.add, forget_nothing (hnothing i)]
          exact hnothing k
        · intro k e hk
          rw [hw] at hk
          cases hk
  | rollback i =>
      cases hstep
      unfold Store.rollback
      split
      · rename_i j d hw
        obtain ⟨-, hothers⟩ := hs.writer j d hw
        split_ifs with hij
        · subst hij
          refine ⟨hs.committed, fun _ k => ?_, by rintro _ _ ⟨⟩⟩
          simp only [History.add, Function.update_apply]
          split_ifs with hk
          · rfl
          · exact hothers k hk
        · have hnothing := hothers i fun heq => hij heq.symm
          refine ⟨hs.committed, fun hnone => ?_, ?_⟩
          · rw [hw] at hnone
            cases hnone
          · intro k e hk
            simp only [History.add, forget_nothing hnothing]
            exact hs.writer k e hk
      · rename_i hw
        have hnothing := hs.idle hw
        refine ⟨hs.committed, fun _ k => ?_, ?_⟩
        · simp only [History.add, forget_nothing (hnothing i)]
          exact hnothing k
        · intro k e hk
          rw [hw] at hk
          cases hk

/-- **The store is what its transactions make of it**, one after the other. -/
theorem committed_eq_serial {apply : W → D → D} {d₀ : D} {s : Store ι D}
    {tr : List (Store ι D × Act ι W)} (h : (storeSystem apply d₀).Run ⟨d₀, none⟩ tr s) :
    s.committed = serial apply (history (tr.map Prod.snd)).committed d₀ := by
  have hexplains : Explains apply d₀ (history (tr.map Prod.snd)) s := by
    induction h with
    | nil => exact ⟨rfl, fun _ _ => rfl, by rintro _ _ ⟨⟩⟩
    | snoc _ hstep ih =>
        rw [List.map_append, List.map_singleton, history_snoc]
        exact ih.add hstep
  exact hexplains.committed

/-! ### Participants that end with their first commit or rollback -/

/-- The writes of a participant. -/
def writesOf (i : ι) (acts : List (Act ι W)) : List W :=
  acts.filterMap fun
    | .write j w => if j = i then some w else none
    | .commit _ | .rollback _ => none

/-- The participant has neither committed nor rolled back. -/
def Under (i : ι) (acts : List (Act ι W)) : Prop := .commit i ∉ acts ∧ .rollback i ∉ acts

/-- **Every participant ends with its first commit or rollback**, though it may roll back again. -/
inductive Once : List (Act ι W) → Prop
  | nil : Once []
  | write {acts : List (Act ι W)} {i : ι} (h : Once acts) (under : Under i acts) (w : W) :
      Once (acts ++ [.write i w])
  | commit {acts : List (Act ι W)} {i : ι} (h : Once acts) (under : Under i acts) :
      Once (acts ++ [.commit i])
  | rollback {acts : List (Act ι W)} {i : ι} (h : Once acts) (never : .commit i ∉ acts) :
      Once (acts ++ [.rollback i])

/-- What is committed, and by whom. -/
structure Settled (acts : List (Act ι W)) : Prop where
  pending : ∀ i, Under i acts → (history acts).pending i = writesOf i acts
  nodup : ((history acts).committed.map Prod.fst).Nodup
  mem_iff : ∀ i, i ∈ (history acts).committed.map Prod.fst ↔ .commit i ∈ acts
  /-- A transaction is all that its participant has written. -/
  whole : ∀ t ∈ (history acts).committed, t.2 = writesOf t.1 acts

theorem writesOf_snoc_write (i j : ι) (w : W) (acts : List (Act ι W)) :
    writesOf j (acts ++ [.write i w]) = writesOf j acts ++ if i = j then [w] else [] := by
  unfold writesOf
  rw [List.filterMap_append]
  split_ifs with hij <;> simp [hij]

theorem writesOf_snoc_other {a : Act ι W} (ha : ∀ i w, a ≠ .write i w) (j : ι)
    (acts : List (Act ι W)) : writesOf j (acts ++ [a]) = writesOf j acts := by
  unfold writesOf
  rw [List.filterMap_append]
  cases a with
  | write i w => exact absurd rfl (ha i w)
  | commit | rollback => exact List.append_nil _

omit [DecidableEq ι] in
theorem Under.of_snoc {i : ι} {a : Act ι W} {acts : List (Act ι W)} (h : Under i (acts ++ [a])) :
    Under i acts :=
  ⟨fun hmem => h.1 (List.mem_append_left _ hmem), fun hmem => h.2 (List.mem_append_left _ hmem)⟩

omit [DecidableEq ι] in
/-- A write is no end. -/
theorem Under.snoc_write {i : ι} {acts : List (Act ι W)} (h : Under i acts) (j : ι) (w : W) :
    Under i (acts ++ [.write j w]) :=
  ⟨by simpa using h.1, by simpa using h.2⟩

omit [DecidableEq ι] in
/-- What others do is not what the participant does. -/
theorem mem_snoc_of_ne {a b : Act ι W} {acts : List (Act ι W)} (h : b.actor ≠ a.actor) :
    b ∈ acts ++ [a] ↔ b ∈ acts := by
  have hne : b ≠ a := fun heq => h (congrArg Act.actor heq)
  simp [hne]

omit [DecidableEq ι] in
theorem Under.snoc_of_ne {i : ι} {a : Act ι W} {acts : List (Act ι W)} (h : Under i acts)
    (hi : i ≠ a.actor) : Under i (acts ++ [a]) :=
  ⟨fun hmem => h.1 ((mem_snoc_of_ne (b := .commit i) hi).1 hmem),
    fun hmem => h.2 ((mem_snoc_of_ne (b := .rollback i) hi).1 hmem)⟩

theorem writesOf_snoc_of_ne {i : ι} {a : Act ι W} (hi : i ≠ a.actor) (acts : List (Act ι W)) :
    writesOf i (acts ++ [a]) = writesOf i acts := by
  cases a with
  | write j w =>
      have hne : j ≠ i := Ne.symm hi
      rw [writesOf_snoc_write, if_neg hne, List.append_nil]
  | commit | rollback => exact writesOf_snoc_other (by simp) i acts

omit [DecidableEq ι] in
/-- Who has not acted has neither committed nor rolled back. -/
theorem under_of_absent {i : ι} {acts : List (Act ι W)} (h : ∀ a ∈ acts, a.actor ≠ i) :
    Under i acts :=
  ⟨fun hmem => h _ hmem rfl, fun hmem => h _ hmem rfl⟩

/-- Who has not acted has written nothing. -/
theorem writesOf_of_absent {i : ι} {acts : List (Act ι W)} (h : ∀ a ∈ acts, a.actor ≠ i) :
    writesOf i acts = [] := by
  refine List.filterMap_eq_nil_iff.2 fun a ha => ?_
  cases a with
  | write j w => exact if_neg (h _ ha)
  | commit | rollback => rfl

omit [DecidableEq ι] in
/-- What comes before an act, and what a write needs. -/
theorem Once.of_snoc {acts : List (Act ι W)} {a : Act ι W} (h : Once (acts ++ [a])) :
    Once acts ∧ ∀ i w, a = .write i w → Under i acts := by
  generalize hl : acts ++ [a] = l at h
  cases h with
  | nil => simp at hl
  | write h hunder w =>
      obtain ⟨rfl, heq⟩ := List.append_inj' hl rfl
      cases heq
      refine ⟨h, ?_⟩
      rintro _ _ ⟨⟩
      exact hunder
  | commit h hunder | rollback h hunder =>
      obtain ⟨rfl, heq⟩ := List.append_inj' hl rfl
      cases heq
      refine ⟨h, ?_⟩
      rintro _ _ ⟨⟩

/-- **The writer is under way**: it has written, and has neither committed nor rolled back. -/
theorem Once.writer_under_way {apply : W → D → D} {d₀ : D} {s : Store ι D}
    {tr : List (Store ι D × Act ι W)} (h : (storeSystem apply d₀).Run ⟨d₀, none⟩ tr s)
    (honce : Once (tr.map Prod.snd)) {i : ι} {d : D} (hw : s.writer = some (i, d)) :
    Under i (tr.map Prod.snd) ∧ ∃ w, .write i w ∈ tr.map Prod.snd := by
  induction h generalizing d with
  | nil => cases hw
  | @snoc u v tr a _ hstep ih =>
      rw [List.map_append, List.map_singleton] at honce ⊢
      obtain ⟨hbefore, hwrite⟩ := honce.of_snoc
      -- what another participant does leaves the writer under way
      have hkept : ∀ e, u.writer = some (i, e) → i ≠ a.actor →
          Under i (tr.map Prod.snd ++ [a]) ∧ ∃ w, .write i w ∈ tr.map Prod.snd ++ [a] := by
        intro e he hi
        obtain ⟨hunder, w, hmem⟩ := ih hbefore he
        exact ⟨hunder.snoc_of_ne hi, w, List.mem_append_left _ hmem⟩
      cases a with
      | write j w =>
          obtain ⟨e, -, rfl⟩ := Option.map_eq_some_iff.1 hstep
          cases hw
          exact ⟨(hwrite i w rfl).snoc_write i w, w, List.mem_append_right _ List.mem_cons_self⟩
      | commit j =>
          cases hstep
          unfold Store.commit at hw
          split at hw
          · rename_i k e hk
            split_ifs at hw with hij
            rw [hk, Option.some.injEq, Prod.mk.injEq] at hw
            obtain ⟨rfl, rfl⟩ := hw
            exact hkept e hk hij
          · rename_i hnone
            rw [hnone] at hw
            cases hw
      | rollback j =>
          cases hstep
          unfold Store.rollback at hw
          split at hw
          · rename_i k e hk
            split_ifs at hw with hij
            rw [hk, Option.some.injEq, Prod.mk.injEq] at hw
            obtain ⟨rfl, rfl⟩ := hw
            exact hkept e hk hij
          · rename_i hnone
            rw [hnone] at hw
            cases hw

/-- **A transaction is all that its participant has written**, and no participant has two. -/
theorem Once.settled {acts : List (Act ι W)} (h : Once acts) : Settled acts := by
  induction h with
  | nil => exact ⟨fun _ _ => rfl, List.nodup_nil, by simp [history, History.empty],
      by simp [history, History.empty]⟩
  | @write acts i _ hunder w ih =>
      refine ⟨fun j hj => ?_, ?_, fun j => ?_, fun t ht => ?_⟩
      · rw [history_snoc, writesOf_snoc_write]
        simp only [History.add, Function.update_apply]
        split_ifs with h₁ h₂ h₂
        · rw [h₁, ih.pending i hunder]
        · exact absurd h₁.symm h₂
        · exact absurd h₂.symm h₁
        · rw [ih.pending j hj.of_snoc, List.append_nil]
      · rw [history_snoc]
        exact ih.nodup
      · rw [history_snoc]
        simp only [History.add, ih.mem_iff, List.mem_append, List.mem_singleton, reduceCtorEq,
          or_false]
      · rw [history_snoc] at ht
        have hne : i ≠ t.1 := by
          rintro rfl
          exact hunder.1 ((ih.mem_iff t.1).1 (List.mem_map_of_mem ht))
        rw [writesOf_snoc_write, if_neg hne, List.append_nil]
        exact ih.whole t ht
  | @commit acts i _ hunder ih =>
      have hnew : i ∉ (history acts).committed.map Prod.fst := fun hmem =>
        hunder.1 ((ih.mem_iff i).1 hmem)
      have hsame : ∀ j, writesOf j (acts ++ [.commit i]) = writesOf j acts := fun j =>
        writesOf_snoc_other (by simp) j acts
      refine ⟨fun j hj => ?_, ?_, fun j => ?_, fun t ht => ?_⟩
      · have hne : j ≠ i := by
          rintro rfl
          exact hj.1 (List.mem_append_right _ (List.mem_singleton_self _))
        rw [history_snoc, hsame]
        simp only [History.add, Function.update_of_ne hne]
        exact ih.pending j hj.of_snoc
      · rw [history_snoc]
        simp only [History.add, List.map_append, List.map_singleton]
        exact List.Nodup.append ih.nodup (List.nodup_singleton i) (List.disjoint_singleton.2 hnew)
      · rw [history_snoc]
        simp only [History.add, List.map_append, List.map_singleton, List.mem_append, ih.mem_iff,
          List.mem_singleton, Act.commit.injEq]
      · rw [history_snoc] at ht
        rw [hsame]
        rcases List.mem_append.1 ht with ht | ht
        · exact ih.whole t ht
        · rw [List.mem_singleton.1 ht]
          exact ih.pending i hunder
  | @rollback acts i _ hnever ih =>
      have hsame : ∀ j, writesOf j (acts ++ [.rollback i]) = writesOf j acts := fun j =>
        writesOf_snoc_other (by simp) j acts
      refine ⟨fun j hj => ?_, ?_, fun j => ?_, fun t ht => ?_⟩
      · have hne : j ≠ i := by
          rintro rfl
          exact hj.2 (List.mem_append_right _ (List.mem_singleton_self _))
        rw [history_snoc, hsame]
        simp only [History.add, Function.update_of_ne hne]
        exact ih.pending j hj.of_snoc
      · rw [history_snoc]
        exact ih.nodup
      · rw [history_snoc]
        simp only [History.add, ih.mem_iff, List.mem_append, List.mem_singleton, reduceCtorEq,
          or_false]
      · rw [history_snoc] at ht
        rw [hsame]
        exact ih.whole t ht

end Transactions
