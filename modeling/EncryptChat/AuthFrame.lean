/-
**What the requests of others do.**

Whatever other requests do between two operations of one request: the database it sees only grows
later, its own uncommitted writes stay, and no minted token is forgotten.  That is the discipline of
this module; with it come the rules for the operations.

Main definitions:

* `EncryptChat.AuthEffect` — **what an operation does to the store**;
* `EncryptChat.AuthState.WF` — the invariant of the store;
* `EncryptChat.AuthState.Records` — what one of the databases of the store says;
* `EncryptChat.AuthState.Relies` — what a request relies on;
* `EncryptChat.authDiscipline` — the discipline;
* `EncryptChat.AuthRules` — the disciplines that ask for more.

Main results:

* `EncryptChat.authEffect`, `EncryptChat.AuthState.WF.effect` — every operation keeps the invariant;
* `EncryptChat.ensures_query`, `EncryptChat.ensures_write` — the rules for queries and writes;
* `EncryptChat.ensures_inSession`, `EncryptChat.ensures_inSession_later` — **the rules for a
  request**.
-/

import EncryptChat.AuthService
import EncryptChat.AuthStoreFrame

set_option relaxedAutoImplicit false
set_option autoImplicit false

namespace EncryptChat

open Python Concurrent
open Program (Seen)

/-! ### The store -/

namespace AuthState

variable {s s' s'' : AuthState} {i : ℕ}

theorem visible_of_writer {d : Database} (h : s.writer = some (i, d)) : s.visible i = d := by
  simp [visible, h]

theorem visible_of_idle (h : ∀ d, s.writer ≠ some (i, d)) : s.visible i = s.committed := by
  unfold visible
  split
  · rename_i j d hw
    by_cases hij : j = i
    · subst hij
      exact absurd hw (h d)
    · rw [if_neg hij]
  · rfl

/-- A request writes to the database it sees. -/
theorem writable_eq_some {d : Database} (h : s.writable i = some d) :
    d = s.visible i ∧ ∀ j e, s.writer = some (j, e) → j = i := by
  unfold writable at h
  unfold visible
  split at h
  · rename_i j e hw
    split_ifs at h with hij
    cases h
    subst hij
    simp only [hw, if_true, true_and]
    rintro k e' heq
    cases heq
    rfl
  · rename_i hw
    cases h
    rw [hw]
    exact ⟨rfl, fun j e hj => by cases hj⟩

/-- A commit publishes what the request sees. -/
theorem committed_commit (s : AuthState) (i : ℕ) : (s.commit i).committed = s.visible i := by
  unfold commit visible
  split
  · split_ifs <;> rfl
  · rfl

/-- After a write: the request holds the lock. -/
def wrote (s : AuthState) (i : ℕ) (c : AuthChoice) (d : Database) : AuthState :=
  { s with
    writer := some (i, d)
    usedIds := c.id :: s.usedIds
    usedTokens := c.token :: s.usedTokens }

@[simp] theorem visible_wrote (s : AuthState) (i : ℕ) (c : AuthChoice) (d : Database) :
    (s.wrote i c d).visible i = d := visible_of_writer rfl

/-- The store is the same. -/
structure SameStore (s s' : AuthState) : Prop where
  committed : s'.committed = s.committed
  writer : s'.writer = s.writer
  usedIds : s'.usedIds = s.usedIds
  usedTokens : s'.usedTokens = s.usedTokens
  minted : s'.minted = s.minted

theorem SameStore.refl (s : AuthState) : SameStore s s := ⟨rfl, rfl, rfl, rfl, rfl⟩

theorem SameStore.visible (h : SameStore s s') (i : ℕ) : s'.visible i = s.visible i := by
  unfold AuthState.visible
  rw [h.committed, h.writer]

end AuthState

open AuthState

/-- **What an operation does to the store.** -/
inductive AuthEffect (env : AuthEnv) (i : ℕ) (s : AuthState) : AuthOp → AuthState → Prop
  | kept {s' : AuthState} (op : AuthOp) (same : SameStore s s') : AuthEffect env i s op s'
  | issued (c : AuthChoice) (userId sessionId : PyStr) (now : Datetime) :
      AuthEffect env i s (.issue userId sessionId now) (s.issue env i c userId sessionId now).1
  | wrote {d d' : Database} {w : Write} (c : AuthChoice) (writable : s.writable i = some d)
      (fresh : s.Fresh c) (effect : d.WriteEffect env.sha256 i c.id c.token w d') :
      AuthEffect env i s (.write w) (s.wrote i c d')
  | committed : AuthEffect env i s .commit (s.commit i)
  | rolledBack : AuthEffect env i s .rollback (s.rollback i)

/-- What a write is: it raises and changes nothing, or it writes to the database the request
sees. -/
theorem AuthState.write_eq_some {env : AuthEnv} {s s' : AuthState} {i : ℕ} {c : AuthChoice}
    {w : Write} {a : Except PyError w.Answer} (h : s.write env i c w = some (s', a)) :
    (s' = s ∧ ∃ e, a = .error e) ∨
      ∃ d d' b, s.writable i = some d ∧ s.Fresh c ∧
        d.write env.sha256 i c.id c.token w = .ok (d', b) ∧ s' = s.wrote i c d' ∧ a = .ok b := by
  unfold AuthState.write at h
  split at h
  · cases h
    exact .inl ⟨rfl, _, rfl⟩
  · cases h
  · rename_i d _ hd
    split_ifs at h with hfresh
    unfold writeTo at h
    split at h
    · cases h
      exact .inl ⟨rfl, _, rfl⟩
    · rename_i d' b hwrite
      cases h
      exact .inr ⟨d, d', b, hd, hfresh, hwrite, rfl, rfl⟩

/-- **An operation that is performed** has one of these effects. -/
theorem authEffect {env : AuthEnv} {i : ℕ} {op : AuthOp} {c : AuthChoice} {s s' : AuthState}
    {a : op.Answer} (h : authExec env i op c s = some (s', a)) : AuthEffect env i s op s' := by
  cases op with
  | clock | hashPassword | verifyPassword | dummyVerify | query =>
      cases h
      exact .kept _ (.refl s)
  | isBlocked | recordFailure | resetFailures =>
      cases h
      exact .kept _ ⟨rfl, rfl, rfl, rfl, rfl⟩
  | write w =>
      rcases AuthState.write_eq_some h with ⟨rfl, -⟩ | ⟨d, d', b, hd, hfresh, hwrite, rfl, -⟩
      · exact .kept _ (.refl s')
      · exact .wrote c hd hfresh (Database.writeEffect hwrite)
  | issue userId sessionId now =>
      cases h
      exact .issued c userId sessionId now
  | commit =>
      simp only [authExec] at h
      split at h
      · cases h
        exact .kept _ (.refl s)
      · cases h
        exact .committed
  | rollback =>
      cases h
      exact .rolledBack

/-- The invariant of the store. -/
structure AuthState.WF (env : AuthEnv) (s : AuthState) : Prop where
  committed : Database.WF s.usedIds s.committed
  pending : ∀ i d, s.writer = some (i, d) → Database.WF s.usedIds d ∧ s.committed.Later d
  minted : ∀ m ∈ s.minted, m.token =
    issueAccessToken env.jwt env.config m.userId m.sessionId m.tokenId m.now

namespace AuthState

variable {env : AuthEnv} {s s' s'' : AuthState} {i j : ℕ} {op : AuthOp}

theorem wf_new (env : AuthEnv) : (new env).WF env where
  committed := Database.wf_empty
  pending := by simp [new]
  minted := by simp [new]

/-- The database a request sees is well-formed, and later than the committed one. -/
theorem WF.visible (h : s.WF env) (i : ℕ) :
    Database.WF s.usedIds (s.visible i) ∧ s.committed.Later (s.visible i) := by
  by_cases hw : ∃ d, s.writer = some (i, d)
  · obtain ⟨d, hd⟩ := hw
    rw [visible_of_writer hd]
    exact h.pending i d hd
  · rw [visible_of_idle fun d hd => hw ⟨d, hd⟩]
    exact ⟨h.committed, .refl _⟩

/-- **Every operation keeps the invariant of the store.** -/
theorem WF.effect (h : s.WF env) (heffect : AuthEffect env i s op s') : s'.WF env := by
  cases heffect with
  | kept _ hsame =>
      refine ⟨?_, ?_, ?_⟩
      · rw [hsame.committed, hsame.usedIds]
        exact h.committed
      · rw [hsame.committed, hsame.usedIds, hsame.writer]
        exact h.pending
      · rw [hsame.minted]
        exact h.minted
  | issued c userId sessionId now =>
      refine ⟨h.committed, h.pending, fun m hm => ?_⟩
      rcases List.mem_append.1 hm with hm | hm
      · exact h.minted m hm
      · rw [List.mem_singleton] at hm
        subst hm
        rfl
  | @wrote d d' w c hd hfresh heff =>
      obtain ⟨rfl, -⟩ := writable_eq_some hd
      obtain ⟨hwf, hlater⟩ := h.visible i
      obtain ⟨hlater', hwf'⟩ := heff.later hwf hfresh.2.2.1
      refine ⟨h.committed.mono (List.subset_cons_self _ _), fun j e he => ?_, h.minted⟩
      cases he
      exact ⟨hwf', hlater.trans hlater'⟩
  | committed =>
      refine ⟨?_, ?_, ?_⟩
      · rw [committed_commit]
        unfold commit
        split
        · split_ifs <;> exact (h.visible i).1
        · exact (h.visible i).1
      · intro j d hw
        unfold commit at hw ⊢
        split at hw
        · split_ifs at hw ⊢
          exact h.pending j d hw
        · rename_i hnone
          rw [hnone] at hw
          cases hw
      · unfold commit
        split
        · split_ifs <;> exact h.minted
        · exact h.minted
  | rolledBack =>
      unfold rollback
      split
      · split_ifs
        · exact ⟨h.committed, by simp, h.minted⟩
        · exact h
      · exact h

/-- The committed database only grows later. -/
theorem later_of_effect (h : s.WF env) (heffect : AuthEffect env i s op s') :
    s.committed.Later s'.committed := by
  cases heffect with
  | kept _ hsame =>
      rw [hsame.committed]
      exact .refl _
  | issued | wrote => exact .refl _
  | committed =>
      rw [committed_commit]
      exact (h.visible i).2
  | rolledBack =>
      unfold rollback
      split
      · split_ifs <;> exact .refl _
      · exact .refl _

theorem minted_of_effect (heffect : AuthEffect env i s op s') : s.minted ⊆ s'.minted := by
  cases heffect with
  | kept _ hsame =>
      rw [hsame.minted]
      exact fun _ => id
  | issued => exact List.subset_append_left _ _
  | wrote => exact fun _ => id
  | committed =>
      unfold commit
      split
      · split_ifs <;> exact fun _ => id
      · exact fun _ => id
  | rolledBack =>
      unfold rollback
      split
      · split_ifs <;> exact fun _ => id
      · exact fun _ => id

/-! ### What the store says -/

/-- One of the databases of the store, the committed one or the one with uncommitted writes, is as
`P` says. -/
def Records (P : Database → Prop) (s : AuthState) : Prop :=
  P s.committed ∨ ∃ i d, s.writer = some (i, d) ∧ P d

/-- What a request sees is what the store says. -/
theorem records_of_visible {P : Database → Prop} (h : P (s.visible i)) : s.Records P := by
  by_cases hw : ∃ d, s.writer = some (i, d)
  · obtain ⟨d, hd⟩ := hw
    rw [visible_of_writer hd] at h
    exact .inr ⟨i, d, hd, h⟩
  · rw [visible_of_idle fun d hd => hw ⟨d, hd⟩] at h
    exact .inl h

/-- **What the store says newly**, the database says that a write has just left. -/
theorem records_of_effect {P : Database → Prop} (heffect : AuthEffect env i s op s')
    (h : s'.Records P) :
    s.Records P ∨ ∃ id token w d', op = .write w ∧
      (s.visible i).WriteEffect env.sha256 i id token w d' ∧ P d' := by
  cases heffect with
  | kept _ hsame =>
      unfold Records at h ⊢
      rw [hsame.committed, hsame.writer] at h
      exact .inl h
  | issued => exact .inl h
  | @wrote d d' w c hd hfresh heff =>
      obtain ⟨rfl, -⟩ := writable_eq_some hd
      rcases h with h | ⟨j, e, he, h⟩
      · exact .inl (.inl h)
      · cases he
        exact .inr ⟨c.id, c.token, w, d', rfl, heff, h⟩
  | committed =>
      refine .inl ?_
      rcases h with h | ⟨j, d, hw, h⟩
      · rw [committed_commit] at h
        exact records_of_visible h
      · unfold commit at hw
        split at hw
        · split_ifs at hw
          exact .inr ⟨j, d, hw, h⟩
        · exact .inr ⟨j, d, hw, h⟩
  | rolledBack =>
      refine .inl ?_
      unfold rollback at h
      split at h
      · split_ifs at h
        · rcases h with h | ⟨j, d, hw, -⟩
          · exact .inl h
          · cases hw
        · exact h
      · exact h

/-! ### What a request relies on -/

/-- What the request `i` relies on while others run. -/
structure Relies (i : ℕ) (s s' : AuthState) : Prop where
  later : s.committed.Later s'.committed
  minted : s.minted ⊆ s'.minted
  /-- Its uncommitted writes stay, and nobody else commits. -/
  holds : ∀ d, s.writer = some (i, d) → s'.writer = some (i, d) ∧ s'.committed = s.committed
  /-- Without writes of its own it does not come to have any. -/
  idle : (∀ d, s.writer ≠ some (i, d)) → ∀ d, s'.writer ≠ some (i, d)

theorem Relies.refl (i : ℕ) (s : AuthState) : Relies i s s :=
  ⟨.refl _, fun _ => id, fun _ hd => ⟨hd, rfl⟩, id⟩

theorem Relies.trans (h : Relies i s s') (h' : Relies i s' s'') : Relies i s s'' where
  later := h.later.trans h'.later
  minted := fun _ hm => h'.minted (h.minted hm)
  holds := fun d hd =>
    let ⟨hw, hc⟩ := h.holds d hd
    let ⟨hw', hc'⟩ := h'.holds d hw
    ⟨hw', hc'.trans hc⟩
  idle := fun hidle => h'.idle (h.idle hidle)

/-- The database a request sees only grows later. -/
theorem Relies.visible (h : Relies i s s') : (s.visible i).Later (s'.visible i) := by
  by_cases hw : ∃ d, s.writer = some (i, d)
  · obtain ⟨d, hd⟩ := hw
    rw [visible_of_writer hd, visible_of_writer (h.holds d hd).1]
    exact .refl d
  · have hidle : ∀ d, s.writer ≠ some (i, d) := fun d hd => hw ⟨d, hd⟩
    rw [visible_of_idle hidle, visible_of_idle (h.idle hidle)]
    exact h.later

/-- **An operation of another request respects what this one relies on.** -/
theorem relies_of_effect (h : s.WF env) (heffect : AuthEffect env j s op s') (hij : i ≠ j) :
    Relies i s s' := by
  refine ⟨later_of_effect h heffect, minted_of_effect heffect, ?_, ?_⟩
  · intro d hd
    cases heffect with
    | kept _ hsame => exact ⟨by rw [hsame.writer, hd], hsame.committed⟩
    | issued => exact ⟨hd, rfl⟩
    | wrote c hw => exact absurd ((writable_eq_some hw).2 i d hd) hij
    | committed =>
        simp only [commit, hd, if_neg hij]
        exact ⟨trivial, trivial⟩
    | rolledBack =>
        simp only [rollback, hd, if_neg hij]
        exact ⟨trivial, trivial⟩
  · intro hidle d
    cases heffect with
    | kept _ hsame =>
        rw [hsame.writer]
        exact hidle d
    | issued => exact hidle d
    | wrote c hw =>
        intro heq
        cases heq
        exact hij rfl
    | committed =>
        unfold commit
        split
        · split_ifs
          · exact fun heq => by cases heq
          · exact hidle d
        · exact hidle d
    | rolledBack =>
        unfold rollback
        split
        · split_ifs
          · exact fun heq => by cases heq
          · exact hidle d
        · exact hidle d

end AuthState

/-- **The discipline of the service**: every operation is allowed everywhere. -/
def authDiscipline (env : AuthEnv) : Discipline (authExec env) where
  Inv := AuthState.WF env
  Env := Relies
  Allowed := fun _ _ _ => True
  env_refl := Relies.refl
  env_trans := fun _ _ _ _ h h' => h.trans h'
  keeps := fun _ _ _ _ _ _ hs _ hexec => hs.effect (authEffect hexec)
  respects := fun _ _ _ _ _ _ hs _ hexec _ hij => relies_of_effect hs (authEffect hexec) hij

/-- A discipline whose threads rely on no more, and whose invariant says no less. -/
structure AuthRules {env : AuthEnv} (D : Discipline (authExec env)) : Prop where
  relies : ∀ i s s', D.Env i s s' → Relies i s s'
  wf : ∀ s, D.Inv s → s.WF env

theorem authRules (env : AuthEnv) : AuthRules (authDiscipline env) :=
  ⟨fun _ _ _ => id, fun _ => id⟩

theorem AuthRules.strengthen {env : AuthEnv} {D : Discipline (authExec env)} (h : AuthRules D)
    {I : AuthState → Prop} {A : ℕ → AuthOp → AuthState → Prop}
    (hI : ∀ i op c s s' a, D.Inv s → D.Allowed i op s → I s → A i op s →
      authExec env i op c s = some (s', a) → I s') : AuthRules (D.strengthen I A hI) :=
  ⟨h.relies, fun s hs => h.wf s hs.1⟩

/-! ### Rules for the operations -/

section Rules

variable {env : AuthEnv} {D : Discipline (authExec env)} {i : ℕ} {α β : Type}
  {Q : Seen AuthOp.Answer → α → AuthState → Prop} {seen : Seen AuthOp.Answer} {s : AuthState}

theorem ensures_now {f : Datetime → AuthProgram α}
    (h : ∀ s' t, D.Inv s' → D.Env i s s' →
      D.Ensures i Q (seen ++ [⟨.clock, Datetime.utc t⟩]) (f (.utc t)) s') :
    D.Ensures i Q seen (AuthProgram.now.bind f) s := by
  refine Discipline.Ensures.perform fun s' hs henv c s'' a _ hexec _ => ?_
  cases hexec
  exact h s' c.time hs henv

/-- **The rule for queries.** -/
theorem ensures_query {q : Query} {f : q.Answer → AuthProgram α}
    (h : ∀ s' a, D.Inv s' → D.Env i s s' → (s'.visible i).answer env.backend q = .ok a →
      D.Ensures i Q (seen ++ [⟨.query q, Except.ok a⟩]) (f a) s') :
    D.Ensures i Q seen ((AuthProgram.query q).bind f) s := by
  refine Discipline.Ensures.perform fun s' hs henv c s'' a _ hexec _ => ?_
  cases hexec
  cases hanswer : s'.query env i c q with
  | error e => exact Discipline.Ensures.raise _
  | ok x =>
      refine h s' x hs henv ?_
      unfold AuthState.query at hanswer
      split at hanswer
      · cases hanswer
      · exact hanswer

/-- **The rule for writes.** -/
theorem ensures_write {w : Write} {f : w.Answer → AuthProgram α}
    (h : ∀ s' c d' a, D.Inv s' → D.Env i s s' → D.Allowed i (.write w) s' → s'.Fresh c →
      (s'.visible i).write env.sha256 i c.id c.token w = .ok (d', a) → D.Inv (s'.wrote i c d') →
      D.Ensures i Q (seen ++ [⟨.write w, Except.ok a⟩]) (f a) (s'.wrote i c d')) :
    D.Ensures i Q seen ((AuthProgram.write w).bind f) s := by
  refine Discipline.Ensures.perform fun s' hs henv c s'' a hallowed hexec hs'' => ?_
  rcases AuthState.write_eq_some hexec with ⟨rfl, e, rfl⟩ | ⟨d, d', b, hd, hfresh, hw, rfl, rfl⟩
  · exact Discipline.Ensures.raise _
  · obtain ⟨rfl, -⟩ := writable_eq_some hd
    exact h s' c d' b hs henv hallowed hfresh hw hs''

/-- The rule for a write that ends a program. -/
theorem ensures_write_last {w : Write} {Q : Seen AuthOp.Answer → w.Answer → AuthState → Prop}
    (h : ∀ s' c d' a, D.Inv s' → D.Env i s s' → D.Allowed i (.write w) s' → s'.Fresh c →
      (s'.visible i).write env.sha256 i c.id c.token w = .ok (d', a) → D.Inv (s'.wrote i c d') →
      ∀ t, D.Inv t → D.Env i (s'.wrote i c d') t → Q (seen ++ [⟨.write w, Except.ok a⟩]) a t) :
    D.Ensures i Q seen (AuthProgram.write w) s := by
  rw [← Program.bind_pure (AuthProgram.write w)]
  refine ensures_write fun s' c d' a hs henv hallowed hfresh hwrite hs' => ?_
  exact Discipline.Ensures.pure (h s' c d' a hs henv hallowed hfresh hwrite hs')

/-- The rule for a password verification. -/
theorem ensures_verify {storedHash password : PyStr} {f : Bool → AuthProgram α}
    (h : ∀ s' b, D.Inv s' → D.Env i s s' →
      D.Ensures i Q (seen ++ [⟨.verifyPassword storedHash password, Except.ok b⟩]) (f b) s') :
    D.Ensures i Q seen ((AuthProgram.verify storedHash password).bind f) s := by
  refine Discipline.Ensures.perform fun s' hs henv c s'' a _ hexec _ => ?_
  simp only [authExec, Option.some.injEq] at hexec
  obtain ⟨rfl, rfl⟩ := hexec
  cases EncryptChat.verifyPassword env.unicode env.argon2 storedHash password with
  | error e => exact Discipline.Ensures.raise _
  | ok b => exact h s' b hs henv

/-- The rule for an operation of which only the effect on the store matters. -/
theorem ensures_perform {op : AuthOp} {f : op.Answer → AuthProgram α}
    (h : ∀ s' s'' a, D.Inv s' → D.Env i s s' → AuthEffect env i s' op s'' → D.Inv s'' →
      D.Ensures i Q (seen ++ [⟨op, a⟩]) (f a) s'') :
    D.Ensures i Q seen ((AuthProgram.perform op).bind f) s := by
  refine Discipline.Ensures.perform fun s' hs henv c s'' a _ hexec hs'' => ?_
  exact h s' s'' a hs henv (authEffect hexec) hs''

/-- **The rule for a request**: what its body ensures is published by the commit. -/
theorem ensures_inSession {Q' : Seen AuthOp.Answer → α → AuthState → Prop} {p : AuthProgram α}
    (h : D.Ensures i Q seen p s) (hs : D.Inv s)
    (hstable : ∀ seen a t t', D.Inv t' → D.Env i t t' → Q seen a t → Q seen a t')
    (hcommit : ∀ seen a t t', D.Inv t → Q seen a t → D.Inv t' → D.Env i (t.commit i) t' →
      Q' (seen ++ [⟨.commit, Except.ok ()⟩]) a t') :
    D.Ensures i Q' seen (AuthProgram.inSession p) s := by
  refine Discipline.Outline.handle h hs fun seen r t ht hQ => ?_
  cases r with
  | error e =>
      exact Discipline.Ensures.perform fun _ _ _ _ _ _ _ _ _ => Discipline.Ensures.raise _
  | ok a =>
      refine Discipline.Ensures.perform fun t' ht' henv c t'' b _ hexec ht'' => ?_
      simp only [authExec] at hexec
      split at hexec
      · cases hexec
        exact Discipline.Ensures.perform fun _ _ _ _ _ _ _ _ _ => Discipline.Ensures.raise _
      · cases hexec
        refine Discipline.Ensures.pure fun u hu henv' => ?_
        exact hcommit seen a t' u ht' (hstable seen a t t' ht' henv (hQ a rfl)) hu henv'

/-- **The rule for a request and a fact that lasts**: what its body has seen to hold of the database
holds of the committed one at its end. -/
theorem ensures_inSession_later {P : α → Database → Prop} {p : AuthProgram α} (hD : AuthRules D)
    (hlater : ∀ a d d', d.Later d' → P a d → P a d')
    (h : D.Ensures i (fun _ a s' => P a (s'.visible i)) seen p s) (hs : D.Inv s) :
    D.Ensures i (fun _ a s' => P a s'.committed) seen (AuthProgram.inSession p) s := by
  refine ensures_inSession h hs ?_ ?_
  · exact fun seen a t t' _ henv hP => hlater a _ _ (hD.relies i t t' henv).visible hP
  · intro seen a t t' _ hP _ henv
    have hcommitted := (hD.relies i _ _ henv).later
    rw [AuthState.committed_commit] at hcommitted
    exact hlater a _ _ hcommitted hP

end Rules

/-! ### Every run -/

section Runs

variable {env : AuthEnv} {tr : List (AuthPool × AuthLabel)} {t : AuthPool}

/-- Every run meets the discipline of the service. -/
theorem meets_of_run (tr : List (AuthPool × AuthLabel)) :
    ∀ e ∈ tr, (authDiscipline env).Meets (fun _ _ => True) e.1 e.2 := by
  rintro ⟨p, label⟩ _
  cases label with
  | start i request => trivial
  | step i c => exact fun _ _ _ _ _ => trivial

/-- The invariant of the store holds in every run. -/
theorem wf_of_run (h : (authSystem env).Run (.new env) tr t) : t.shared.WF env :=
  ((authDiscipline env).outline_of_run (fun _ _ _ _ _ => Discipline.ensures_true _) h
    (meets_of_run tr) (AuthState.wf_new env)).1

end Runs

end EncryptChat
