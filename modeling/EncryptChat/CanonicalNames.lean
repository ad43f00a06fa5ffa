/-
**Canonical names.**

The name an account is found by is computed from the one that was typed: NFKC, then the white space
around it is stripped, then `casefold`.  The database constrains that name only, while connections
are looked up by the name that was typed.  The canonical name is a function of the typed one, and
stripping the typed one does not change it; so the constraint reaches both.

Main definitions:

* `EncryptChat.Unicode.Standard` — what Unicode says of ASCII and of white space;
* `EncryptChat.Database.names`, `EncryptChat.Unambiguous` — the names of the accounts, and how they
  stay apart;
* `EncryptChat.refused` — the database has refused the name of a registration.

Main results:

* `EncryptChat.Unicode.Standard.lawful` — what is used of Unicode elsewhere follows from it;
* `EncryptChat.validateUsername_strip` — the canonical name is that of the stripped one;
* `EncryptChat.Database.names_of_write` — **what a write does to the names**;
* `EncryptChat.canonical_names_identify` — **canonical names are stable, and names identify
  accounts**.
-/

import EncryptChat.AccountNames
import EncryptChat.PyStrip
import EncryptChat.SessionAuthority

set_option relaxedAutoImplicit false
set_option autoImplicit false

namespace EncryptChat

open Python Concurrent Transition AuthService
open Program (Seen Follows Takes)

/-! ### Unicode -/

/-- An ASCII character. -/
def isAscii (c : CodePoint) : Bool := decide (c.val < 0x80)

/-- An ASCII character that is not an uppercase letter. -/
def isLowerAscii (c : CodePoint) : Bool := isAscii c && !inRange 'A' 'Z' c

/-- What Unicode says of ASCII, and of the white space around a text. -/
structure Unicode.Standard (uni : Unicode) : Prop where
  nfkc_ascii : ∀ s : PyStr, s.all isAscii = true → uni.nfkc s = s
  casefold_ascii : ∀ s : PyStr, s.all isLowerAscii = true → uni.casefold s = s
  /-- White space becomes white space, and the rest is not touched. -/
  nfkc_white : ∀ a s b : PyStr, isWhite a = true → isWhite b = true →
    ∃ a' b', isWhite a' = true ∧ isWhite b' = true ∧ uni.nfkc (a ++ s ++ b) = a' ++ uni.nfkc s ++ b'

section Characters

variable {c : CodePoint} {s : PyStr}

/-- What the characters of a canonical name are. -/
theorem isIdentifierChar_ascii (h : isIdentifierChar c = true) :
    isAscii c = true ∧ inRange 'A' 'Z' c = false ∧ isSpace c = false := by
  simp only [isIdentifierChar, isLowerAlnum, inRange, isChar, Bool.or_eq_true, Bool.and_eq_true,
    decide_eq_true_eq, beq_iff_eq, Char.reduceToNat] at h
  simp only [isAscii, inRange, isSpace, decide_eq_true_eq, Bool.and_eq_false_iff,
    decide_eq_false_iff_not, Bool.or_eq_false_iff, beq_eq_false_iff_ne, Char.reduceToNat]
  omega

theorem isAscii_of_canonical (h : isCanonical s = true) : s.all isAscii = true :=
  List.all_eq_true.2 fun c hc => (isIdentifierChar_ascii (List.all_eq_true.1 h c hc)).1

theorem isLowerAscii_of_canonical (h : isCanonical s = true) : s.all isLowerAscii = true := by
  refine List.all_eq_true.2 fun c hc => ?_
  obtain ⟨hascii, hupper, -⟩ := isIdentifierChar_ascii (List.all_eq_true.1 h c hc)
  simp [isLowerAscii, hascii, hupper]

/-- A canonical name has no white space around it. -/
theorem strip_of_canonical (h : isCanonical s = true) : strip s = s :=
  strip_of_no_space fun c hc => (isIdentifierChar_ascii (List.all_eq_true.1 h c hc)).2.2

end Characters

namespace Unicode.Standard

variable {uni : Unicode}

/-- **Stripping first makes no difference.** -/
theorem strip_nfkc_strip (h : uni.Standard) (s : PyStr) :
    strip (uni.nfkc (strip s)) = strip (uni.nfkc s) := by
  obtain ⟨a, b, ha, hb, hs⟩ := exists_strip s
  obtain ⟨a', b', ha', hb', hnfkc⟩ := h.nfkc_white a (strip s) b ha hb
  rw [← hs] at hnfkc
  rw [hnfkc, strip_white_append ha' _ hb']

/-- What is used of Unicode elsewhere. -/
theorem lawful (h : uni.Standard) : uni.Lawful where
  casefold_canonical := fun s hs => h.casefold_ascii s (isLowerAscii_of_canonical hs)
  nfkc_canonical := by
    intro s hs
    rw [← h.strip_nfkc_strip, h.nfkc_ascii _ (isAscii_of_canonical hs), strip_strip]

end Unicode.Standard

/-! ### Canonical names -/

section Names

variable {uni : Unicode} {raw n : PyStr}

/-- A canonical name is an identifier of the wire, in full. -/
theorem isValidIdentifier_of_fullmatch (h : usernameFullmatch n = true) :
    isValidIdentifier n = true := by
  cases n with
  | nil => cases h
  | cons c cs =>
      simp only [usernameFullmatch, Bool.and_eq_true, decide_eq_true_eq] at h
      obtain ⟨⟨⟨hc, -⟩, hlen⟩, hcs⟩ := h
      simp only [isValidIdentifier, identifierFullmatch, Bool.and_eq_true, decide_eq_true_eq]
      exact ⟨⟨hc, by omega⟩, hcs⟩

/-- The lengths the policy admits. -/
theorem length_of_usernameFullmatch (h : usernameFullmatch n = true) :
    minUsernameLength ≤ n.length ∧ n.length ≤ EncryptChat.maxUsernameLength := by
  refine ⟨?_, length_le_of_usernameFullmatch h⟩
  cases n with
  | nil => cases h
  | cons c cs =>
      simp only [usernameFullmatch, Bool.and_eq_true, decide_eq_true_eq] at h
      simp only [List.length_cons, minUsernameLength]
      omega

/-- **A name is accepted** when it is not blank and its normalized form is canonical. -/
theorem validateUsername_eq_ok_iff :
    validateUsername uni raw = .ok n ↔
      strip raw ≠ [] ∧ normalizeUsername uni raw = n ∧ usernameFullmatch n = true := by
  have hnil : raw = [] → strip raw = [] := by
    rintro rfl
    rfl
  constructor
  · intro h
    obtain ⟨hn, hmatch⟩ := validateUsername_eq_ok h
    refine ⟨fun hempty => ?_, hn.symm, hmatch⟩
    rw [validateUsername, if_pos (.inr hempty)] at h
    cases h
  · rintro ⟨hstrip, rfl, hmatch⟩
    obtain ⟨hmin, hmax⟩ := length_of_usernameFullmatch hmatch
    have hempty : ¬ (raw = [] ∨ strip raw = []) := fun h => hstrip (h.elim hnil id)
    simp only [validateUsername, if_neg hempty, hmatch]
    rw [if_neg (by omega), if_neg (by omega), if_neg (by decide)]

/-- **The canonical name is that of the stripped one.** -/
theorem validateUsername_strip (huni : uni.Standard) (h : validateUsername uni raw = .ok n) :
    validateUsername uni (strip raw) = .ok n := by
  obtain ⟨hstrip, hn, hmatch⟩ := validateUsername_eq_ok_iff.1 h
  refine validateUsername_eq_ok_iff.2 ⟨by rwa [strip_strip], ?_, hmatch⟩
  rw [← hn, normalizeUsername, normalizeUsername, huni.strip_nfkc_strip]

/-- **A canonical name is its own canonical name.** -/
theorem validateUsername_canonical (huni : uni.Lawful) (h : usernameFullmatch n = true) :
    validateUsername uni n = .ok n := by
  have hstrip := strip_of_canonical (isCanonical_of_fullmatch h)
  refine validateUsername_eq_ok_iff.2 ⟨?_, ?_, h⟩
  · rw [hstrip]
    rintro rfl
    cases h
  · rw [normalizeUsername_of_fullmatch huni (by rwa [hstrip]), hstrip]

end Names

/-! ### The names of the accounts -/

/-- The two names of an account. -/
def User.names (u : User) : PyStr × PyStr := (u.username, u.usernameNormalized)

/-- The names of the accounts. -/
def Database.names (d : Database) : List (PyStr × PyStr) := d.users.map User.names

/-- No canonical name occurs twice, and each is that of the name it stands with. -/
structure Unambiguous (uni : Unicode) (names : List (PyStr × PyStr)) : Prop where
  nodup : (names.map Prod.snd).Nodup
  canonical : ∀ a ∈ names, validateUsername uni a.1 = .ok a.2

namespace Unambiguous

variable {uni : Unicode} {names names' : List (PyStr × PyStr)}

theorem nil (uni : Unicode) : Unambiguous uni [] := ⟨List.nodup_nil, by simp⟩

theorem sublist (h : Unambiguous uni names) (hsub : names'.Sublist names) :
    Unambiguous uni names' :=
  ⟨h.nodup.sublist (hsub.map _), fun a ha => h.canonical a (hsub.subset ha)⟩

theorem snoc (h : Unambiguous uni names) {name n : PyStr} (hnew : n ∉ names.map Prod.snd)
    (hvalid : validateUsername uni name = .ok n) : Unambiguous uni (names ++ [(name, n)]) where
  nodup := by
    rw [List.map_append, List.map_singleton, List.nodup_append_comm, List.singleton_append,
      List.nodup_cons]
    exact ⟨hnew, h.nodup⟩
  canonical := by
    intro a ha
    rcases List.mem_append.1 ha with ha | ha
    · exact h.canonical a ha
    · rw [List.mem_singleton] at ha
      rw [ha]
      exact hvalid

/-- **The typed names are different, too**: the canonical one is a function of them. -/
theorem nodup_typed (h : Unambiguous uni names) : (names.map Prod.fst).Nodup := by
  have hnames : names.Nodup := h.nodup.of_map
  refine hnames.map_on fun a ha b hb heq => Prod.ext heq ?_
  have hsame := (h.canonical a ha).symm.trans (heq ▸ h.canonical b hb)
  exact Except.ok.inj hsame

end Unambiguous

/-- What an `UPDATE users` leaves of the names. -/
theorem Database.names_rehashUser {d d' : Database} {userId : PyStr}
    {rehash : Option (PyStr × Datetime)} (h : d.rehashUser userId rehash = .ok d') :
    d'.names = d.names := by
  cases rehash with
  | none =>
      cases h
      rfl
  | some update =>
      obtain ⟨passwordHash, updatedAt⟩ := update
      simp only [rehashUser] at h
      split_ifs at h
      cases h
      simp only [names, List.map_map]
      refine List.map_congr_left fun u _ => ?_
      simp only [Function.comp_apply]
      split_ifs <;> rfl

/-- **What a write does to the names.** -/
theorem Database.names_of_write {sha256 : PyStr → PyStr} {d d' : Database} {i : ℕ}
    {id token : PyStr} {w : Write} {b : w.Answer}
    (h : d.write sha256 i id token w = .ok (d', b)) :
    d'.names.Sublist d.names ∨ ∃ username n passwordHash now,
      w = .createUser username n passwordHash now ∧ n ∉ d.names.map Prod.snd ∧
        d'.names = d.names ++ [(username, n)] := by
  have hfst : (d.write sha256 i id token w).map Prod.fst = .ok d' := by
    rw [h]
    rfl
  clear h
  cases w with
  | createUser username n passwordHash now =>
      have heq := Except.ok.inj hfst
      subst heq
      simp only [Database.createUser]
      split_ifs with htaken
      · exact .inl (List.Sublist.refl _)
      · refine .inr ⟨username, n, passwordHash, now, rfl, fun hmem => htaken ?_, by simp [names,
          User.names]⟩
        simp only [names, List.map_map, List.mem_map, Function.comp_apply, User.names] at hmem
        obtain ⟨u, hu, hname⟩ := hmem
        exact List.any_eq_true.2 ⟨u, hu, beq_iff_eq.2 hname⟩
  | createSession userId now expiresAt rehash =>
      simp only [write] at hfst
      cases hd : d.rehashUser userId rehash with
      | error e =>
          rw [hd] at hfst
          cases hfst
      | ok d₁ =>
          rw [hd] at hfst
          have heq := Except.ok.inj hfst
          subst heq
          refine .inl ?_
          rw [← names_rehashUser hd]
          exact List.Sublist.refl _
  | rotate session expiresAt =>
      simp only [write, rotateSession] at hfst
      split at hfst
      · cases hfst
      · cases hfst
        exact .inl (List.Sublist.refl _)
  | revoke sessionId now =>
      simp only [write, revokeSession] at hfst
      split_ifs at hfst
      · cases hfst
        exact .inl (List.Sublist.refl _)
      · cases hfst
  | revokeAll userId now =>
      have heq := Except.ok.inj hfst
      subst heq
      exact .inl (List.Sublist.refl _)
  | deleteUser userId sessionIds =>
      have heq := Except.ok.inj hfst
      subst heq
      exact .inl (List.filter_sublist.map _)

/-- **What the store says newly**, the database says that a write has just left. -/
theorem AuthState.records_of_exec {env : AuthEnv} {i : ℕ} {op : AuthOp} {c : AuthChoice}
    {s s' : AuthState} {a : op.Answer} {P : Database → Prop}
    (hexec : authExec env i op c s = some (s', a)) (h : s'.Records P) :
    s.Records P ∨ ∃ w d' b, op = .write w ∧
      (s.visible i).write env.sha256 i c.id c.token w = .ok (d', b) ∧ P d' := by
  rcases records_of_effect (authEffect hexec) h with hs | ⟨_, _, w, d', rfl, -, hP⟩
  · exact .inl hs
  · rcases AuthState.write_eq_some hexec with ⟨rfl, -⟩ | ⟨d, d', b, hd, -, hwrite, rfl, -⟩
    · exact .inl h
    · obtain ⟨rfl, -⟩ := writable_eq_some hd
      rcases h with h | ⟨j, e, he, h⟩
      · exact .inl (.inl h)
      · cases he
        exact .inr ⟨w, d', b, rfl, hwrite, h⟩

/-- Every database of the store is as `P` says. -/
def AuthState.Everywhere (P : Database → Prop) (s : AuthState) : Prop :=
  P s.committed ∧ ∀ i d, s.writer = some (i, d) → P d

theorem AuthState.everywhere_iff {P : Database → Prop} {s : AuthState} :
    s.Everywhere P ↔ ¬ s.Records fun d => ¬ P d := by
  unfold Everywhere Records
  push Not
  rfl

section Accounts

variable {env : AuthEnv} {tr : List (AuthPool × AuthLabel)} {t : AuthPool}

/-- A request creates accounts under the canonical name of their own name only. -/
theorem follows_canonicalName (huni : env.unicode.Standard) (request : AuthRequest) :
    Follows (fun _ op => ∀ username n passwordHash now,
      op = .write (.createUser username n passwordHash now) →
        validateUsername env.unicode username = .ok n) [] (authCode env request) := by
  refine follows_authCode ⟨?_, ?_, ?_, ?_, ?_⟩
  · rintro _ _ hop _ _ _ _ rfl
    exact absurd hop id
  · rintro _ username password n _ _ - hvalid _ _ _ _ ⟨⟩
    exact validateUsername_strip huni hvalid
  · rintro _ _ _ _ _ - - htracks _ _ _ _ rfl
    exact absurd htracks id
  · simp
  · simp

/-- **The names of the accounts stay apart**, in every database of the store. -/
theorem unambiguous_of_run (huni : env.unicode.Standard)
    (h : (authSystem env).Run (.new env) tr t) :
    t.shared.Everywhere fun d => Unambiguous env.unicode d.names := by
  rw [AuthState.everywhere_iff]
  induction h with
  | nil =>
      rintro (hnew | ⟨i, d, hw, -⟩)
      · exact hnew (.nil _)
      · cases hw
  | @snoc u w tr label hrun hstep ih =>
      intro hbad
      cases label with
      | start i request =>
          obtain ⟨-, hshared, -⟩ := Pool.step_start (authExec env) (authCode env) hstep
          rw [hshared] at hbad
          exact ih hbad
      | step i c =>
          obtain ⟨request, op, next, seen, s, answer, hu, hexec, hshared, -⟩ :=
            Pool.step_step (authExec env) (authCode env) hstep
          rw [hshared] at hbad
          rcases AuthState.records_of_exec hexec hbad with hbad | ⟨w, d', b, rfl, hwrite, hbad⟩
          · exact ih hbad
          have hbefore : Unambiguous env.unicode (u.shared.visible i).names := by
            by_contra hnot
            exact ih (AuthState.records_of_visible hnot)
          rcases Database.names_of_write hwrite with hsub | ⟨username, n, passwordHash, now, rfl,
            hnew, hnames⟩
          · exact hbad (hbefore.sublist hsub)
          · have hcode := follows_canonicalName huni request
            have hvalid := (follows_of_run hrun hu hcode).1 _ _ _ _ rfl
            rw [hnames] at hbad
            exact hbad (hbefore.snoc hnew hvalid)

end Accounts

/-! ### Registrations that lose -/

/-- The request registers an account. -/
def AuthRequest.registers : AuthRequest → Bool
  | .register _ _ => true
  | _ => false

/-- The database has refused the name of a registration. -/
def refused (seen : Seen AuthOp.Answer) : Bool :=
  seen.any fun
    | ⟨.write (.createUser _ _ _ _), .ok none⟩ => true
    | _ => false

/-- The answer to a registration whose name the database has refused. -/
def identifierTaken : AuthFailure :=
  .auth ⟨.registrationRejected, 409, some (py "identifier already registered")⟩

/-- A commit that is made ends the request. -/
def CommitEnds {α : Type} : (op : AuthOp) → (op.Answer → AuthProgram α) → Prop
  | .commit, next => ∃ a, next (.ok ()) = .done (.ok a)
  | _, _ => True

section Losing

variable {env : AuthEnv} {i : ℕ} {s : AuthState} {α : Type}

/-- A registration leaves the commit to the end of its database session. -/
theorem follows_register_uncommitted (username password : PyStr) :
    Follows (fun _ op => op ≠ .commit) [] (register env username password) := by
  refine follows_ofExcept fun normalized _ => ?_
  refine (Program.follows_done _).bind fun _ _ _ => ?_
  refine (follows_hash nofun).bind fun _ _ _ => ?_
  refine (Program.follows_perform nofun).bind fun _ _ _ => ?_
  refine (follows_write nofun).bind fun _ created _ => ?_
  cases created with
  | some user => exact Program.follows_done _
  | none => exact follows_rollbackAndRaise _ fun _ => nofun

/-- The commit at the end of a database session ends the request. -/
theorem takes_inSession {R : ∀ op : AuthOp, op.Answer → Prop} {seen : Seen AuthOp.Answer}
    {p : AuthProgram α} (h : Follows (fun _ op => op ≠ .commit) seen p) :
    Takes R (fun _ op next => CommitEnds op next) seen (AuthProgram.inSession p) := by
  induction p generalizing seen with
  | done r =>
      cases r with
      | error e => exact ⟨trivial, fun _ _ => trivial⟩
      | ok a =>
          refine ⟨⟨a, rfl⟩, fun b _ => ?_⟩
          cases b with
          | ok _ => exact trivial
          | error e => exact ⟨trivial, fun _ _ => trivial⟩
  | step op next ih =>
      refine ⟨?_, fun a _ => ih a (h.2 a)⟩
      cases op with
      | commit => exact absurd rfl h.1
      | _ => exact trivial

/-- An outline that says nothing. -/
theorem outline_of_forall {Q : Seen AuthOp.Answer → Except AuthFailure α → AuthState → Prop}
    (h : ∀ seen r s, Q seen r s) (seen : Seen AuthOp.Answer) (p : AuthProgram α) :
    (authDiscipline env).Outline i Q seen p s := by
  induction p generalizing seen s with
  | done r => exact fun s' _ _ => h seen r s'
  | step op next ih => exact fun _ _ _ _ _ a _ _ _ => ih a _

/-- **A request that has ended holds no uncommitted writes.** -/
theorem outline_idle (hs : s.WF env) (seen : Seen AuthOp.Answer) (p : AuthProgram α) :
    (authDiscipline env).Outline i (fun _ _ s => ∀ d, s.writer ≠ some (i, d)) seen
      (AuthProgram.inSession p) s := by
  refine Discipline.Outline.handle (outline_of_forall (fun _ _ _ => trivial) seen p) hs
    fun seen r s _ _ => ?_
  have hrollback : ∀ seen s e, (authDiscipline env).Outline i
      (fun _ _ s => ∀ d, s.writer ≠ some (i, d)) seen
        (AuthProgram.rollbackAndRaise e : AuthProgram α) s := by
    intro seen s e s₁ _ _ c s₂ a _ hexec _ s₃ _ hrelies
    cases hexec
    refine hrelies.idle fun d hd => ?_
    simp only [AuthState.rollback] at hd
    split at hd
    · split_ifs at hd with hij
      rename_i j d' hw
      rw [hw, Option.some.injEq, Prod.mk.injEq] at hd
      exact hij hd.1
    · rename_i hnone
      rw [hnone] at hd
      cases hd
  cases r with
  | error e => exact hrollback seen s e
  | ok b =>
      intro s₁ _ _ c s₂ a _ hexec _
      simp only [authExec] at hexec
      split at hexec
      · cases hexec
        exact hrollback _ _ _
      · cases hexec
        refine fun s₃ _ hrelies => hrelies.idle fun d hd => ?_
        simp only [AuthState.commit] at hd
        split at hd
        · split_ifs at hd with hij
          rename_i j d' hw
          rw [hw, Option.some.injEq, Prod.mk.injEq] at hd
          exact hij hd.1
        · rename_i hnone
          rw [hnone] at hd
          cases hd

/-- **A registration that the database has refused** ends with that answer. -/
theorem outline_register (username password : PyStr) :
    (authDiscipline env).Outline i
      (fun seen r _ => refused seen = true → r = .error identifierTaken) []
      (register env username password) s := by
  unfold register
  cases registrationUsername env username with
  | error e => exact fun _ _ _ h => by cases h
  | ok normalized =>
      cases registrationPolicy env password with
      | error e => exact fun _ _ _ h => by cases h
      | ok _ =>
          intro s₁ _ _ c₁ s₂ hash _ _ _
          cases hash with
          | error e => exact fun _ _ _ h => by cases h
          | ok passwordHash =>
              intro s₃ _ _ c₂ s₄ now _ _ _ s₅ _ _ c₃ s₆ created _ _ _
              cases created with
              | error e => exact fun _ _ _ h => by cases h
              | ok created =>
                  cases created with
                  | some user => exact fun _ _ _ h => by cases h
                  | none => exact fun _ _ _ _ _ _ _ _ _ _ _ _ _ => rfl

theorem outline_refused (hs : s.WF env) (request : AuthRequest) :
    (authDiscipline env).Outline i
      (fun seen r _ => request.registers = true → refused seen = true → r = .error identifierTaken)
      [] (authCode env request) s := by
  cases request with
  | register username password =>
      have hbody : (authDiscipline env).Outline i
          (fun seen r _ => refused seen = true → r = .error identifierTaken) []
          (register env username password) s := outline_register username password
      refine Discipline.Outline.handle (Discipline.Outline.handle hbody hs
        fun seen r s₁ _ hrefused => ?_) hs
          (Q := fun seen r _ => refused seen = true → r = .error identifierTaken)
            fun seen r s₁ _ hrefused => ?_
      · cases r with
        | error e => exact fun s₂ _ _ h => by rw [Except.error.inj (hrefused h)]
        | ok user => exact fun s₂ _ _ h => by cases hrefused h
      · cases r with
        | error e =>
            intro s₂ _ _ c s₃ a _ _ _ s₄ _ _ _ h
            have hbefore : refused seen = true := by simpa [refused] using h
            rw [Except.error.inj (hrefused hbefore)]
        | ok user =>
            intro s₂ _ _ c s₃ a _ _ _
            cases a with
            | ok _ =>
                intro s₄ _ _ _ h
                have hbefore : refused seen = true := by simpa [refused] using h
                cases hrefused hbefore
            | error e =>
                intro s₄ _ _ c' s₅ a _ _ _ s₆ _ _ _ h
                have hbefore : refused seen = true := by simpa [refused] using h
                cases hrefused hbefore
  | login | resolve | refresh | logout | deleteAccount =>
      exact outline_of_forall (fun _ _ _ h => by cases h) [] _

end Losing

section Runs

variable {env : AuthEnv} {tr : List (AuthPool × AuthLabel)} {t : AuthPool}

/-- A request that has ended stays as it is. -/
theorem ended_of_run {p : AuthPool} (h : (authSystem env).Run p tr t) {i : ℕ}
    {request : AuthRequest} {r : Except AuthFailure AuthResponse} {seen : Seen AuthOp.Answer}
    (hth : p.threads i = some ⟨request, .done r, seen⟩) :
    t.threads i = some ⟨request, .done r, seen⟩ := by
  induction h with
  | nil => exact hth
  | @snoc u w tr label hrun hstep ih =>
      cases label with
      | start j request' =>
          obtain ⟨hnone, -, hupdate⟩ := Pool.step_start (authExec env) (authCode env) hstep
          rw [hupdate, Function.update_of_ne, ih]
          rintro rfl
          rw [ih] at hnone
          cases hnone
      | step j c =>
          obtain ⟨request', op, next, seen', s, a, hu, -, -, hupdate⟩ :=
            Pool.step_step (authExec env) (authCode env) hstep
          rw [hupdate, Function.update_of_ne, ih]
          rintro rfl
          rw [ih] at hu
          cases hu

/-- How a request that the database has refused ends, and that no request that has ended holds
uncommitted writes. -/
theorem idle_of_ended (h : (authSystem env).Run (.new env) tr t) {i : ℕ} {th : AuthThread}
    (hth : t.threads i = some th) {r : Except AuthFailure AuthResponse}
    (hrest : th.rest = .done r) :
    (∀ d, t.shared.writer ≠ some (i, d)) ∧
      (th.request.registers = true → refused th.seen = true → r = .error identifierTaken) := by
  obtain ⟨request, rest, seen⟩ := th
  subst hrest
  obtain ⟨hinv, hidle⟩ := (authDiscipline env).outline_of_run
    (fun _ request s hs _ => outline_idle hs [] (authBody env request)) h (meets_of_run tr)
    (AuthState.wf_new env)
  obtain ⟨-, hrefused⟩ := (authDiscipline env).outline_of_run
    (fun _ request s hs _ => outline_refused hs request) h (meets_of_run tr) (AuthState.wf_new env)
  exact ⟨(hidle i _ hth rfl).result hinv, (hrefused i _ hth rfl).result hinv⟩

/-- **No step of a registration that the database refuses** changes what is committed. -/
theorem committed_of_refused {tr₁ tr₂ : List (AuthPool × AuthLabel)} {p p' : AuthPool}
    (h : (authSystem env).Run (.new env) tr₁ p) {i : ℕ} {c : AuthChoice}
    (hstep : (authSystem env).step p (.step i c) = some p')
    (hlater : (authSystem env).Run p' tr₂ t)
    {th : AuthThread} (hth : t.threads i = some th) (hregisters : th.request.registers = true)
    (hrefused : refused th.seen = true) : p'.shared.committed = p.shared.committed := by
  obtain ⟨request, op, next, seen, s, a, hu, hexec, hshared, hupdate⟩ :=
    Pool.step_step (authExec env) (authCode env) hstep
  have hrun : (authSystem env).Run (.new env) (tr₁ ++ [(p, .step i c)] ++ tr₂) t :=
    (h.snoc hstep).trans hlater
  have hnow : p'.threads i = some ⟨request, next a, seen ++ [⟨op, a⟩]⟩ := by
    rw [hupdate, Function.update_self]
  obtain ⟨th', hth', hrequest⟩ := request_of_run hlater hnow
  rw [hth, Option.some.injEq] at hth'
  subst hth'
  rw [hshared]
  cases authEffect hexec with
  | kept _ hsame => exact hsame.committed
  | issued | wrote => rfl
  | rolledBack =>
      unfold AuthState.rollback
      split
      · split_ifs <;> rfl
      · rfl
  | committed =>
      obtain ⟨username, password, rfl⟩ : ∃ username password,
          request = .register username password := by
        rw [hrequest] at hregisters
        cases request with
        | register username password => exact ⟨username, password, rfl⟩
        | login | resolve | refresh | logout | deleteAccount => cases hregisters
      have hbody : Follows (fun _ op => op ≠ .commit) []
          (authBody env (.register username password)) :=
        (follows_register_uncommitted username password).bind fun _ _ _ => Program.follows_done _
      obtain ⟨r, hnext⟩ := (takes_of_run (R := fun _ _ => True) h (fun _ _ _ _ _ _ _ => trivial) hu
        (takes_inSession hbody)).1
      cases hfault : c.fault with
      | some e =>
          simp only [authExec, hfault, Option.some.injEq] at hexec
          exact (congrArg (fun out => out.1.committed) hexec).symm
      | none =>
          simp only [authExec, hfault, Option.some.injEq] at hexec
          obtain rfl : a = .ok () := (congrArg Prod.snd hexec).symm
          -- it has ended with success, which a registration that was refused has not
          rw [hnext] at hnow
          have hended := ended_of_run hlater hnow
          rw [hth, Option.some.injEq] at hended
          have hfails := (idle_of_ended hrun hth (by rw [hended])).2 hregisters hrefused
          cases hfails

/-- **Canonical usernames are stable, and names identify accounts.**  A canonical name is its own,
is an identifier of the wire, and is that of the name less the white space around it.  In no
database of the store do two accounts share a name, typed or canonical.  No step of a registration
that the database refuses changes what is committed, and once it has ended, with that answer, it
holds no uncommitted writes. -/
theorem canonical_names_identify {env : AuthEnv} (huni : env.unicode.Standard) :
    (∀ raw n, validateUsername env.unicode raw = .ok n →
      validateUsername env.unicode n = .ok n ∧ isValidIdentifier n = true ∧
        validateUsername env.unicode (strip raw) = .ok n) ∧
    ∀ tr t, (authSystem env).Run (.new env) tr t →
      (t.shared.Everywhere fun d => (d.users.map User.usernameNormalized).Nodup ∧
        (d.users.map User.username).Nodup) ∧
      ∀ i th, t.threads i = some th → th.request.registers = true → refused th.seen = true →
        (∀ tr₁ p c p' tr₂, tr = tr₁ ++ (p, .step i c) :: tr₂ →
          (authSystem env).step p (.step i c) = some p' →
            p'.shared.committed = p.shared.committed) ∧
        ∀ r, th.rest = .done r →
          r = .error identifierTaken ∧ ∀ d, t.shared.writer ≠ some (i, d) := by
  refine ⟨fun raw n h => ?_, fun tr t h => ⟨?_, fun i th hth hregisters hrefused => ⟨?_, ?_⟩⟩⟩
  · have hmatch := (validateUsername_eq_ok h).2
    exact ⟨validateUsername_canonical huni.lawful hmatch, isValidIdentifier_of_fullmatch hmatch,
      validateUsername_strip huni h⟩
  · have hboth : ∀ d : Database, Unambiguous env.unicode d.names →
        (d.users.map User.usernameNormalized).Nodup ∧ (d.users.map User.username).Nodup := by
      intro d hd
      have hnormalized := hd.nodup
      have htyped := hd.nodup_typed
      simp only [Database.names, List.map_map] at hnormalized htyped
      exact ⟨hnormalized, htyped⟩
    obtain ⟨hcommitted, hpending⟩ := unambiguous_of_run huni h
    exact ⟨hboth _ hcommitted, fun j d hw => hboth d (hpending j d hw)⟩
  · intro tr₁ p c p' tr₂ htr hstep
    obtain ⟨q, hbefore, hq, hafter⟩ := h.split htr
    rw [hstep, Option.some.injEq] at hq
    subst hq
    exact committed_of_refused hbefore hstep hafter hth hregisters hrefused
  · intro r hrest
    obtain ⟨hidle, hfails⟩ := idle_of_ended h hth hrest
    exact ⟨hfails hregisters hrefused, hidle⟩

end Runs

/-! ### Two registrations of one name -/

theorem standard_sampleEnv (backend : Backend) : (sampleEnv backend).unicode.Standard where
  nfkc_ascii := fun _ _ => rfl
  casefold_ascii := by
    intro s hs
    refine (List.map_congr_left fun c hc => ?_).trans (List.map_id s)
    have hlower := List.all_eq_true.1 hs c hc
    simp only [isLowerAscii, Bool.and_eq_true, Bool.not_eq_true'] at hlower
    simp only [hlower.2, Bool.false_eq_true, if_false, id_eq]
  nfkc_white := fun a _ b ha hb => ⟨a, b, ha, hb, rfl⟩

/-- Two clients register one name at once, typed in two ways; the second one commits first. -/
def registerTwice : List AuthLabel :=
  requestOf 0 2 0 (.register (py "alice") samplePassword) ++
    requestOf 1 4 0 (.register (py "  Alice ") samplePassword) ++
      List.replicate 3 (.step 0 { id := hexId 0, token := urlsafeToken 0 })

/-- The first request is a registration that the database has refused, and has ended. -/
def firstRefused (p : AuthPool) : Bool :=
  match p.threads 0 with
  | some ⟨.register _ _, .done _, seen⟩ => refused seen
  | _ => false

theorem exists_of_firstRefused {p : AuthPool} (h : firstRefused p = true) :
    ∃ th r, p.threads 0 = some th ∧ th.request.registers = true ∧ refused th.seen = true ∧
      th.rest = .done r := by
  unfold firstRefused at h
  split at h
  · rename_i username password r seen hth
    exact ⟨_, r, hth, rfl, h, rfl⟩
  · cases h

theorem canonical_names_identify_alice :
    validateUsername (sampleEnv .sqlite).unicode (py "  Alice ") = .ok (py "alice") ∧
    validateUsername (sampleEnv .sqlite).unicode (py "Alice") = .ok (py "alice") ∧
    ∃ tr t th, (authSystem (sampleEnv .sqlite)).Run (.new (sampleEnv .sqlite)) tr t ∧
      (t.shared.committed.users.map User.username).Nodup ∧ t.threads 0 = some th ∧
        th.rest = .done (.error identifierTaken) ∧ ∀ d, t.shared.writer ≠ some (0, d) := by
  obtain ⟨hnames, hruns⟩ := canonical_names_identify (standard_sampleEnv .sqlite)
  have hvalid : validateUsername (sampleEnv .sqlite).unicode (py "  Alice ") =
      .ok (py "alice") := by decide +kernel
  have hexec : ((authSystem (sampleEnv .sqlite)).exec (.new (sampleEnv .sqlite)) registerTwice).map
      firstRefused = some true := by decide +kernel
  obtain ⟨t, -, hrun, hend⟩ := System.exists_run_of_exec hexec
  obtain ⟨th, r, hth, hregisters, hrefused, hrest⟩ := exists_of_firstRefused hend
  obtain ⟨⟨hcommitted, -⟩, hloses⟩ := hruns _ t hrun
  obtain ⟨rfl, hidle⟩ := (hloses 0 th hth hregisters hrefused).2 r hrest
  exact ⟨hvalid, (hnames _ _ hvalid).2.2, _, t, th, hrun, hcommitted.2, hth, hrest, hidle⟩

end EncryptChat
