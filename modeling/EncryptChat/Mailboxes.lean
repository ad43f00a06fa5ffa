/-
**Mailboxes, and the sessions that empty them.**

Messages are addressed to names.  A session arrives under a name of its own, may later take another
name and with it what waits for that name, and leaves.  A message is given to sessions that read its
name; it is kept for the name only while no session reads it.

This is all there is to a store-and-forward service once its queues, its connections and its
handlers are forgotten.  A name may be taken by several sessions at a time, a session may have no
room for everything it collects, and a message may be turned away; so nothing is promised of names
in general.  But when the sessions of a name follow one another, and each has room for what it
finds, then the name has a history of its own: **what was sent to it is what its sessions were given,
one session after the other, and then what waits**.

Main definitions:

* `Mailboxes.Boxes` — where each session stands, what each was given, what waits for each name;
* `Mailboxes.Step`, `Mailboxes.Run` — the events of the service, and its runs;
* `Mailboxes.Event.Alone` — the events after which the sessions of a name still follow one another;
* `Mailboxes.Served` — the history of a name.

Main results:

* `Mailboxes.Served.step` — an event that leaves the sessions of a name alone continues its history;
* `Mailboxes.Run.sentTo_eq` — **nothing that was sent to the name is lost, repeated or reordered**.
-/

import Mathlib.Data.List.Nodup
import Mathlib.Data.List.Infix
import Mathlib.Logic.Function.Basic
import Mathlib.Tactic.Common

set_option relaxedAutoImplicit false
set_option autoImplicit false

namespace Mailboxes

/-! ### The service -/

/-- Where a session stands. -/
inductive Standing (Name : Type*) where
  /-- It has not arrived. -/
  | absent
  /-- It has arrived, under a name of its own. -/
  | guest (n : Name)
  /-- It has taken a name. -/
  | member (n : Name)
  | gone

/-- The name whose messages the session reads. -/
def Standing.reads {Name : Type*} : Standing Name → Option Name
  | absent => none
  | guest n => some n
  | member n => some n
  | gone => none

/-- The state of the service. -/
@[ext]
structure Boxes (Session Name Msg : Type*) where
  standing : Session → Standing Name
  /-- What each session was given, oldest first. -/
  given : Session → List Msg
  /-- What is kept for each name, oldest first. -/
  waiting : Name → List Msg

/-- What can happen. -/
inductive Event (Session Name Msg : Type*) where
  | arrive (c : Session) (n : Name)
  | deliver (m : Msg) (takers : List Session)
  | hold (m : Msg)
  /-- The session takes the name `n`, and `k` of the messages that wait for it; the rest is lost. -/
  | collect (c : Session) (n : Name) (k : ℕ)
  | leave (c : Session)
  | pass

variable {Session Name Msg : Type*}

namespace Boxes

/-- Before anybody has arrived. -/
def empty : Boxes Session Name Msg := ⟨fun _ => .absent, fun _ => [], fun _ => []⟩

/-- No session reads the name. -/
def Unread (b : Boxes Session Name Msg) (n : Name) : Prop := ∀ c, (b.standing c).reads ≠ some n

variable [DecidableEq Session]

/-- A session stands elsewhere. -/
def move (b : Boxes Session Name Msg) (c : Session) (p : Standing Name) : Boxes Session Name Msg :=
  { b with standing := Function.update b.standing c p }

theorem reads_move (b : Boxes Session Name Msg) (c c' : Session) (p : Standing Name) :
    ((b.move c p).standing c').reads = if c' = c then p.reads else (b.standing c').reads := by
  simp only [move, Function.update_apply]
  split_ifs <;> rfl

/-- A message is given to some sessions. -/
def give (b : Boxes Session Name Msg) (m : Msg) (takers : List Session) :
    Boxes Session Name Msg :=
  { b with given := fun c => if c ∈ takers then b.given c ++ [m] else b.given c }

variable [DecidableEq Name]

/-- A message is kept for a name. -/
def keep (b : Boxes Session Name Msg) (n : Name) (m : Msg) : Boxes Session Name Msg :=
  { b with waiting := Function.update b.waiting n (b.waiting n ++ [m]) }

/-- A session takes a name, and `k` of the messages that wait for it. -/
def handOver (b : Boxes Session Name Msg) (c : Session) (n : Name) (k : ℕ) :
    Boxes Session Name Msg where
  standing := Function.update b.standing c (.member n)
  given := Function.update b.given c (b.given c ++ (b.waiting n).take k)
  waiting := Function.update b.waiting n []

end Boxes

section Service

variable [DecidableEq Session] [DecidableEq Name] (address : Msg → Name)

/-- **One event of the service.** -/
inductive Step (b : Boxes Session Name Msg) :
    Event Session Name Msg → Boxes Session Name Msg → Prop
  | arrive {c : Session} {n : Name} (absent : b.standing c = .absent) :
      Step b (.arrive c n) (b.move c (.guest n))
  | deliver {m : Msg} {takers : List Session} (taken : takers ≠ [])
      (reads : ∀ c ∈ takers, (b.standing c).reads = some (address m)) :
      Step b (.deliver m takers) (b.give m takers)
  | hold {m : Msg} (unread : b.Unread (address m)) : Step b (.hold m) (b.keep (address m) m)
  | collect {c : Session} {n g : Name} {k : ℕ} (guest : b.standing c = .guest g) :
      Step b (.collect c n k) (b.handOver c n k)
  | leave {c : Session} {n : Name} (reads : (b.standing c).reads = some n) :
      Step b (.leave c) (b.move c .gone)
  | pass : Step b .pass b

/-- **A run of the service**: each event, with the state it finds. -/
inductive Run : Boxes Session Name Msg →
    List (Boxes Session Name Msg × Event Session Name Msg) → Boxes Session Name Msg → Prop
  | nil (b : Boxes Session Name Msg) : Run b [] b
  | snoc {b b' b'' : Boxes Session Name Msg}
      {tr : List (Boxes Session Name Msg × Event Session Name Msg)}
      {e : Event Session Name Msg} :
      Run b tr b' → Step address b' e b'' → Run b (tr ++ [(b', e)]) b''

/-! ### The history of a name -/

/-- The message for the name that an event sends on its way, to a session or into the box. -/
def Event.sent? (n : Name) : Event Session Name Msg → Option Msg
  | deliver m _ => if address m = n then some m else none
  | hold m => if address m = n then some m else none
  | arrive _ _ | collect _ _ _ | leave _ | pass => none

/-- The session that takes the name. -/
def Event.collector? (n : Name) : Event Session Name Msg → Option Session
  | collect c n' _ => if n' = n then some c else none
  | arrive _ _ | deliver _ _ | hold _ | leave _ | pass => none

/-- The messages sent to a name, in order. -/
def sentTo (n : Name) (tr : List (Boxes Session Name Msg × Event Session Name Msg)) : List Msg :=
  tr.filterMap fun e => e.2.sent? address n

/-- The sessions that have taken a name, in order. -/
def sessionsOf (n : Name) (tr : List (Boxes Session Name Msg × Event Session Name Msg)) :
    List Session :=
  tr.filterMap fun e => e.2.collector? n

/-- What a session was given for a name. -/
def Boxes.givenFor (b : Boxes Session Name Msg) (n : Name) (c : Session) : List Msg :=
  (b.given c).filter fun m => decide (address m = n)

/-- The sessions of the name still follow one another: nobody arrives under the name, and it is
only taken when nobody reads it, by a session that takes everything that waits. -/
def Event.Alone (n : Name) (b : Boxes Session Name Msg) : Event Session Name Msg → Prop
  | arrive _ g => g ≠ n
  | collect _ n' k => n' = n → b.Unread n ∧ (b.waiting n).length ≤ k
  | deliver _ _ | hold _ | leave _ | pass => True

/-- **The history of a name**, after a run. -/
structure Served (n : Name) (tr : List (Boxes Session Name Msg × Event Session Name Msg))
    (b : Boxes Session Name Msg) : Prop where
  sent : sentTo address n tr = (sessionsOf n tr).flatMap (b.givenFor address n) ++ b.waiting n
  nodup : (sessionsOf n tr).Nodup
  /-- Who has taken the name reads no other. -/
  known : ∀ c ∈ sessionsOf n tr, b.standing c = .member n ∨ b.standing c = .gone
  others : ∀ c, c ∉ sessionsOf n tr → b.givenFor address n c = []
  /-- Who reads the name has taken it last, and found all there was. -/
  reader : ∀ c, (b.standing c).reads = some n →
    (∃ before, sessionsOf n tr = before ++ [c]) ∧ b.waiting n = []
  addressed : ∀ k, ∀ m ∈ b.waiting k, address m = k

end Service

/-! ### What an event adds to the history -/

section Histories

variable [DecidableEq Name] {address : Msg → Name} {n : Name} {b b' : Boxes Session Name Msg}
  {tr : List (Boxes Session Name Msg × Event Session Name Msg)} {e : Event Session Name Msg}

theorem sentTo_snoc : sentTo address n (tr ++ [(b, e)]) =
    sentTo address n tr ++ (e.sent? address n).toList := by
  unfold sentTo
  rw [List.filterMap_append]
  cases h : e.sent? address n <;> simp [h]

theorem sessionsOf_snoc : sessionsOf n (tr ++ [(b, e)]) =
    sessionsOf n tr ++ (e.collector? n).toList := by
  unfold sessionsOf
  rw [List.filterMap_append]
  cases h : e.collector? n <;> simp [h]

variable [DecidableEq Session]

/-- A message for another name is nothing to this one. -/
theorem givenFor_give_of_ne {m : Msg} (hne : address m ≠ n) (takers : List Session) :
    (b.give m takers).givenFor address n = b.givenFor address n := by
  funext c
  simp only [Boxes.givenFor, Boxes.give]
  split_ifs
  · rw [List.filter_append, List.filter_cons_of_neg (by simpa using hne), List.filter_nil,
      List.append_nil]
  · rfl

theorem givenFor_give_of_mem {m : Msg} (heq : address m = n) {takers : List Session} {c : Session}
    (hc : c ∈ takers) :
    (b.give m takers).givenFor address n c = b.givenFor address n c ++ [m] := by
  simp only [Boxes.givenFor, Boxes.give, if_pos hc]
  rw [List.filter_append, List.filter_cons_of_pos (by simpa using heq), List.filter_nil]

theorem givenFor_give_of_notMem {m : Msg} {takers : List Session} {c : Session}
    (hc : c ∉ takers) : (b.give m takers).givenFor address n c = b.givenFor address n c := by
  simp only [Boxes.givenFor, Boxes.give, if_neg hc]

theorem givenFor_handOver_of_ne {c c' : Session} (hne : c' ≠ c) (n' : Name) (k : ℕ) :
    (b.handOver c n' k).givenFor address n c' = b.givenFor address n c' := by
  simp only [Boxes.givenFor, Boxes.handOver, Function.update_of_ne hne]

/-- Of what waits for a name, a session takes only messages for it. -/
theorem givenFor_handOver_self (haddressed : ∀ k, ∀ m ∈ b.waiting k, address m = k) (c : Session)
    (n' : Name) (k : ℕ) : (b.handOver c n' k).givenFor address n c =
      b.givenFor address n c ++ if n' = n then (b.waiting n').take k else [] := by
  simp only [Boxes.givenFor, Boxes.handOver, Function.update_self]
  rw [List.filter_append]
  congr 1
  split_ifs with hn
  · exact List.filter_eq_self.2 fun m hm =>
      decide_eq_true ((haddressed n' m (List.mem_of_mem_take hm)).trans hn)
  · refine List.filter_eq_nil_iff.2 fun m hm => ?_
    rw [haddressed n' m (List.mem_of_mem_take hm)]
    simpa using hn

end Histories

/-! ### One event -/

namespace Served

variable [DecidableEq Name] {address : Msg → Name} {n : Name} {b b' : Boxes Session Name Msg}
  {tr : List (Boxes Session Name Msg × Event Session Name Msg)}

theorem empty (address : Msg → Name) (n : Name) :
    Served address n [] (.empty : Boxes Session Name Msg) where
  sent := rfl
  nodup := List.nodup_nil
  known := by simp [sessionsOf]
  others := fun _ _ => rfl
  reader := by simp [Boxes.empty, Standing.reads]
  addressed := by simp [Boxes.empty]

/-- A message is kept for a name that nobody reads. -/
theorem keep (h : Served address n tr b) {m : Msg} (hunread : b.Unread (address m)) :
    Served address n (tr ++ [(b, .hold m)]) (b.keep (address m) m) := by
  have hsessions : sessionsOf n (tr ++ [(b, .hold m)]) = sessionsOf n tr := by
    rw [sessionsOf_snoc]
    exact List.append_nil _
  refine ⟨?_, hsessions ▸ h.nodup, hsessions ▸ h.known, hsessions ▸ h.others, ?_, ?_⟩
  · rw [sentTo_snoc, hsessions, h.sent, List.append_assoc]
    simp only [Boxes.keep, Event.sent?, Function.update_apply]
    by_cases hm : address m = n
    · rw [if_pos hm, if_pos hm.symm, hm]
      rfl
    · rw [if_neg hm, if_neg fun heq => hm heq.symm, Option.toList_none, List.append_nil]
      rfl
  · rw [hsessions]
    intro c hc
    have hne : n ≠ address m := by
      rintro rfl
      exact hunread c hc
    simp only [Boxes.keep, Function.update_of_ne hne]
    exact h.reader c hc
  · intro k x hx
    simp only [Boxes.keep, Function.update_apply] at hx
    split_ifs at hx with hk
    · rcases List.mem_append.1 hx with hx | hx
      · exact (h.addressed _ x hx).trans hk.symm
      · rw [List.mem_singleton.1 hx, hk]
    · exact h.addressed k x hx

variable [DecidableEq Session]

/-- A session moves, and the name is not what it moves to. -/
theorem move (h : Served address n tr b) {e : Event Session Name Msg} {c : Session}
    {p : Standing Name} (hsent : e.sent? address n = none) (hcollector : e.collector? n = none)
    (hreads : p.reads ≠ some n) (hknown : c ∈ sessionsOf n tr → p = .gone) :
    Served address n (tr ++ [(b, e)]) (b.move c p) := by
  have hsessions : sessionsOf n (tr ++ [(b, e)]) = sessionsOf n tr := by
    rw [sessionsOf_snoc, hcollector, Option.toList_none, List.append_nil]
  have hsame : sentTo address n (tr ++ [(b, e)]) = sentTo address n tr := by
    rw [sentTo_snoc, hsent, Option.toList_none, List.append_nil]
  refine ⟨?_, ?_, ?_, ?_, ?_, h.addressed⟩
  · rw [hsame, hsessions]
    exact h.sent
  · rw [hsessions]
    exact h.nodup
  · rw [hsessions]
    intro c' hc'
    by_cases hne : c' = c
    · subst hne
      right
      simp only [Boxes.move, Function.update_self]
      exact hknown hc'
    · simp only [Boxes.move, Function.update_of_ne hne]
      exact h.known c' hc'
  · rw [hsessions]
    exact h.others
  · rw [hsessions]
    intro c' hc'
    rw [Boxes.reads_move] at hc'
    split_ifs at hc' with hne
    · exact absurd hc' hreads
    · exact h.reader c' hc'

/-- A message is given to sessions that read its name. -/
theorem give (h : Served address n tr b) {m : Msg} {takers : List Session} (htaken : takers ≠ [])
    (hreads : ∀ c ∈ takers, (b.standing c).reads = some (address m)) :
    Served address n (tr ++ [(b, .deliver m takers)]) (b.give m takers) := by
  have hsessions : sessionsOf n (tr ++ [(b, .deliver m takers)]) = sessionsOf n tr := by
    rw [sessionsOf_snoc]
    exact List.append_nil _
  by_cases hm : address m = n
  swap
  · -- the message is for another name
    have hsame : sentTo address n (tr ++ [(b, .deliver m takers)]) = sentTo address n tr := by
      rw [sentTo_snoc, Event.sent?, if_neg hm, Option.toList_none, List.append_nil]
    refine ⟨?_, hsessions ▸ h.nodup, hsessions ▸ h.known, ?_, hsessions ▸ h.reader, h.addressed⟩
    · rw [hsame, hsessions, givenFor_give_of_ne hm]
      exact h.sent
    · rw [hsessions, givenFor_give_of_ne hm]
      exact h.others
  -- the one session that reads the name is the last that has taken it
  obtain ⟨c, hc⟩ := List.exists_mem_of_ne_nil takers htaken
  have hreader : ∀ c' ∈ takers, (∃ before, sessionsOf n tr = before ++ [c']) ∧ b.waiting n = [] :=
    fun c' hc' => h.reader c' (hm ▸ hreads c' hc')
  obtain ⟨⟨before, hbefore⟩, hempty⟩ := hreader c hc
  have honly : ∀ c' ∈ takers, c' = c := by
    intro c' hc'
    obtain ⟨⟨before', hbefore'⟩, -⟩ := hreader c' hc'
    rw [hbefore] at hbefore'
    have hlast := (List.append_inj' hbefore' rfl).2
    exact (List.cons.inj hlast).1.symm
  have hearlier : ∀ c' ∈ before, c' ∉ takers := by
    intro c' hc' htakes
    have hnodup := h.nodup
    rw [hbefore, List.nodup_append] at hnodup
    exact hnodup.2.2 c' hc' c (List.mem_singleton_self c) (honly c' htakes)
  refine ⟨?_, hsessions ▸ h.nodup, hsessions ▸ h.known, ?_, hsessions ▸ h.reader, h.addressed⟩
  · have hsent := h.sent
    rw [hbefore, hempty, List.append_nil, List.flatMap_append] at hsent
    rw [sentTo_snoc, hsent, hsessions, hbefore, List.flatMap_append]
    rw [List.flatMap_congr fun c' hc' => givenFor_give_of_notMem (hearlier c' hc')]
    change _ = _ ++ b.waiting n
    rw [hempty, List.append_nil]
    simp [Event.sent?, hm, givenFor_give_of_mem hm hc]
  · rw [hsessions]
    intro c' hc'
    have hne : c' ∉ takers := by
      intro htakes
      refine hc' ?_
      rw [honly c' htakes, hbefore]
      exact List.mem_append_right _ (List.mem_singleton_self c)
    rw [givenFor_give_of_notMem hne]
    exact h.others c' hc'

/-- A session takes a name: this one, when nobody reads it, and all that waits; or another. -/
theorem handOver (h : Served address n tr b) {c : Session} {n' g : Name} {k : ℕ}
    (hguest : b.standing c = .guest g)
    (halone : n' = n → b.Unread n ∧ (b.waiting n).length ≤ k) :
    Served address n (tr ++ [(b, .collect c n' k)]) (b.handOver c n' k) := by
  have hnew : c ∉ sessionsOf n tr := by
    intro hmem
    rcases h.known c hmem with hc | hc <;> rw [hguest] at hc <;> cases hc
  have hearlier : ∀ c' ∈ sessionsOf n tr, c' ≠ c := fun c' hc' heq => hnew (heq ▸ hc')
  have hsame : sentTo address n (tr ++ [(b, .collect c n' k)]) = sentTo address n tr := by
    rw [sentTo_snoc]
    exact List.append_nil _
  have hself := givenFor_handOver_self h.addressed (n := n) c n' k
  have haddressed : ∀ k', ∀ m ∈ (b.handOver c n' k).waiting k', address m = k' := by
    intro k' m hm
    simp only [Boxes.handOver, Function.update_apply] at hm
    split_ifs at hm
    · cases hm
    · exact h.addressed k' m hm
  have hothers : ∀ c', c' ∉ sessionsOf n tr → c' ≠ c →
      (b.handOver c n' k).givenFor address n c' = [] := by
    intro c' hc' hne
    rw [givenFor_handOver_of_ne hne]
    exact h.others c' hc'
  have hstanding : ∀ c', c' ≠ c → (b.handOver c n' k).standing c' = b.standing c' :=
    fun c' hne => Function.update_of_ne hne _ _
  by_cases hn : n' = n
  · subst hn
    obtain ⟨hunread, hall⟩ := halone rfl
    have hsessions : sessionsOf n' (tr ++ [(b, .collect c n' k)]) = sessionsOf n' tr ++ [c] := by
      rw [sessionsOf_snoc, Event.collector?, if_pos rfl]
      rfl
    have hempty : (b.handOver c n' k).waiting n' = [] := Function.update_self ..
    refine ⟨?_, ?_, ?_, ?_, ?_, haddressed⟩
    · rw [hsame, hsessions, hempty, List.append_nil, List.flatMap_append, h.sent]
      rw [List.flatMap_congr fun c' hc' => givenFor_handOver_of_ne (hearlier c' hc') n' k]
      rw [List.flatMap_singleton, hself, h.others c hnew, if_pos rfl, List.nil_append,
        List.take_of_length_le hall]
    · rw [hsessions]
      exact List.Nodup.append h.nodup (List.nodup_singleton c)
        (List.disjoint_singleton.2 hnew)
    · rw [hsessions]
      intro c' hc'
      rcases List.mem_append.1 hc' with hc' | hc'
      · rw [hstanding c' (hearlier c' hc')]
        exact h.known c' hc'
      · rw [List.mem_singleton.1 hc']
        exact .inl (Function.update_self ..)
    · rw [hsessions]
      intro c' hc'
      rw [List.mem_append, List.mem_singleton, not_or] at hc'
      exact hothers c' hc'.1 hc'.2
    · rw [hsessions]
      intro c' hc'
      by_cases hne : c' = c
      · subst hne
        exact ⟨⟨_, rfl⟩, hempty⟩
      · rw [hstanding c' hne] at hc'
        exact absurd hc' (hunread c')
  · have hsessions : sessionsOf n (tr ++ [(b, .collect c n' k)]) = sessionsOf n tr := by
      rw [sessionsOf_snoc, Event.collector?, if_neg hn]
      exact List.append_nil _
    have hwaiting : (b.handOver c n' k).waiting n = b.waiting n :=
      Function.update_of_ne (fun heq => hn heq.symm) _ _
    refine ⟨?_, hsessions ▸ h.nodup, ?_, ?_, ?_, haddressed⟩
    · rw [hsame, hsessions, hwaiting, h.sent]
      rw [List.flatMap_congr fun c' hc' => givenFor_handOver_of_ne (hearlier c' hc') n' k]
    · rw [hsessions]
      intro c' hc'
      rw [hstanding c' (hearlier c' hc')]
      exact h.known c' hc'
    · rw [hsessions]
      intro c' hc'
      by_cases hne : c' = c
      · subst hne
        rw [hself, if_neg hn, List.append_nil]
        exact h.others c' hc'
      · exact hothers c' hc' hne
    · rw [hsessions, hwaiting]
      intro c' hc'
      by_cases hne : c' = c
      · subst hne
        simp only [Boxes.handOver, Function.update_self, Standing.reads, Option.some.injEq] at hc'
        exact absurd hc' hn
      · rw [hstanding c' hne] at hc'
        exact h.reader c' hc'

/-- **An event that leaves the sessions of a name alone continues its history.** -/
theorem step (h : Served address n tr b) {e : Event Session Name Msg} (hstep : Step address b e b')
    (halone : e.Alone n b) : Served address n (tr ++ [(b, e)]) b' := by
  cases hstep with
  | arrive habsent =>
      refine h.move rfl rfl (fun heq => halone (Option.some.inj heq)) fun hmem => ?_
      rcases h.known _ hmem with hc | hc <;> rw [habsent] at hc <;> cases hc
  | deliver htaken hreads => exact h.give htaken hreads
  | hold hunread => exact h.keep hunread
  | collect hguest => exact h.handOver hguest halone
  | leave hreads => exact h.move rfl rfl (by simp [Standing.reads]) fun _ => rfl
  | pass =>
      have hsessions : sessionsOf n (tr ++ [(b, .pass)]) = sessionsOf n tr := by
        rw [sessionsOf_snoc]
        exact List.append_nil _
      have hsame : sentTo address n (tr ++ [(b, .pass)]) = sentTo address n tr := by
        rw [sentTo_snoc]
        exact List.append_nil _
      exact ⟨by rw [hsame, hsessions]; exact h.sent, hsessions ▸ h.nodup, hsessions ▸ h.known,
        hsessions ▸ h.others, hsessions ▸ h.reader, h.addressed⟩

end Served

/-! ### Every run -/

/-- **The history of a name** whose sessions follow one another, in every run. -/
theorem Run.served [DecidableEq Session] [DecidableEq Name] {address : Msg → Name} {n : Name}
    {b : Boxes Session Name Msg} {tr : List (Boxes Session Name Msg × Event Session Name Msg)}
    (h : Run address .empty tr b) (halone : ∀ e ∈ tr, e.2.Alone n e.1) :
    Served address n tr b := by
  induction h with
  | nil => exact .empty address n
  | snoc _ hstep ih =>
      have hbefore := ih fun e he => halone e (List.mem_append_left _ he)
      exact hbefore.step hstep (halone _ (List.mem_append_right _ (List.mem_singleton_self _)))

/-- **Nothing that was sent to the name is lost, repeated or reordered**: it is what its sessions
were given for it, one session after the other, and then what waits. -/
theorem Run.sentTo_eq [DecidableEq Session] [DecidableEq Name] {address : Msg → Name} {n : Name}
    {b : Boxes Session Name Msg} {tr : List (Boxes Session Name Msg × Event Session Name Msg)}
    (h : Run address .empty tr b) (halone : ∀ e ∈ tr, e.2.Alone n e.1) :
    sentTo address n tr = (sessionsOf n tr).flatMap (b.givenFor address n) ++ b.waiting n :=
  (h.served halone).sent

end Mailboxes
