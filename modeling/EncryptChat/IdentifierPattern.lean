/-
**One pattern, two validators.**

`is_valid_identifier` asks for a full match of the identifier pattern, the schema for a match.  The
pattern ends in an anchor, and that admits a newline after the identifier: such a string passes the
schema, looks like the identifier it begins with, and is none.

Main definitions:

* `EncryptChat.identifierPattern` — the pattern, `^[a-z0-9][a-z0-9._-]{0,63}$`;
* `EncryptChat.dictSet` — an item of a dictionary, replaced;
* `EncryptChat.IdentifierAgreement` — **the two validators agree** on a string, and nothing accepted
  has a control character;
* `EncryptChat.newlineEnded` — an identifier with a newline after it, not too long for the schema.

Main results:

* `EncryptChat.fullMatches_identifierPattern`, `matches_identifierPattern` — what the two questions
  come to for this pattern;
* `EncryptChat.InboundEnvelope.modelValidate_sender`, `modelValidate_recipient` — the schema on an
  envelope in which one name is replaced;
* `EncryptChat.identifiers_agree_iff` — **when the validators agree**;
* `EncryptChat.newline_accepted` — a recipient that nobody can be.
-/

import EncryptChat.AnchoredPattern
import EncryptChat.InboundGrammar

set_option relaxedAutoImplicit false
set_option autoImplicit false

namespace EncryptChat

open Python Anchored

/-! ### The pattern -/

/-- `IDENTIFIER_PATTERN` without its last anchor. -/
def identifierBody : Pattern CodePoint :=
  .seq .start (.seq (.char isLowerAlnum) (.upTo isIdentifierChar 63))

/-- `IDENTIFIER_PATTERN`. -/
def identifierPattern : Pattern CodePoint := .seq identifierBody .finish

theorem plain_identifierBody : identifierBody.Plain := ⟨trivial, trivial, trivial⟩

/-- A full match of the body. -/
theorem fullMatches_identifierBody (s : PyStr) :
    identifierBody.FullMatches (isChar '\n') s ↔ identifierFullmatch s = true := by
  cases s with
  | nil =>
      simp only [identifierFullmatch, Bool.false_eq_true, iff_false]
      rintro ⟨k, ⟨rfl, -⟩, k', ⟨rfl, hchar⟩, -⟩
      cases hchar
  | cons c cs =>
      simp only [identifierFullmatch, Bool.and_eq_true, decide_eq_true_eq, List.all_eq_true]
      constructor
      · rintro ⟨k, ⟨rfl, -⟩, k', ⟨rfl, hchar⟩, -, hlength, hrest⟩
        rw [List.length_cons] at hlength hrest
        refine ⟨⟨by simpa using hchar, by omega⟩, fun x hx => ?_⟩
        obtain ⟨n, hn, rfl⟩ := List.mem_iff_getElem.1 hx
        have hcode := hrest (n + 1) (by omega) (by omega)
        rw [List.getElem?_cons_succ, List.getElem?_eq_getElem hn] at hcode
        exact hcode
      · rintro ⟨⟨hchar, hlength⟩, hrest⟩
        refine ⟨0, ⟨rfl, rfl⟩, 1, ⟨rfl, by simpa using hchar⟩, ?_, ?_, fun k hk hlt => ?_⟩
        · rw [List.length_cons]
          omega
        · rw [List.length_cons]
          omega
        · obtain ⟨n, rfl⟩ : ∃ n, k = n + 1 := ⟨k - 1, by omega⟩
          have hn : n < cs.length := by simpa using hlt
          rw [List.getElem?_cons_succ, List.getElem?_eq_getElem hn]
          exact hrest _ (List.getElem_mem hn)

/-- `IDENTIFIER_PATTERN.fullmatch`. -/
theorem fullMatches_identifierPattern (s : PyStr) :
    identifierPattern.FullMatches (isChar '\n') s ↔ identifierFullmatch s = true :=
  Pattern.fullMatches_finish.trans (fullMatches_identifierBody s)

/-- `IDENTIFIER_PATTERN.match`. -/
theorem matches_identifierPattern (s : PyStr) :
    identifierPattern.Matches (isChar '\n') s ↔ identifierMatch s = true := by
  unfold identifierPattern
  rw [Pattern.matches_finish_iff plain_identifierBody, fullMatches_identifierBody]
  unfold identifierMatch
  rw [Bool.or_eq_true, Bool.and_eq_true]
  refine or_congr_right ?_
  constructor
  · rintro ⟨t, c, rfl, hnewline, ht⟩
    rw [List.getLast?_append, List.dropLast_concat]
    exact ⟨hnewline, (fullMatches_identifierBody t).1 ht⟩
  · rintro ⟨hlast, hfull⟩
    rcases List.eq_nil_or_concat s with rfl | ⟨t, c, rfl⟩
    · cases hlast
    · rw [List.concat_eq_append] at hlast hfull ⊢
      rw [List.dropLast_concat] at hfull
      exact ⟨t, c, rfl, by simpa using hlast, (fullMatches_identifierBody t).2 hfull⟩

/-! ### Characters -/

/-- A control character: the general category `Cc`. -/
def isControl (c : CodePoint) : Bool := c.val ≤ 0x1F || (0x7F ≤ c.val && c.val ≤ 0x9F)

/-- No character of an identifier is a control character. -/
theorem isControl_of_isIdentifierChar {c : CodePoint} (h : isIdentifierChar c = true) :
    isControl c = false := by
  have hcode : (97 ≤ c.val ∧ c.val ≤ 122) ∨ (48 ≤ c.val ∧ c.val ≤ 57) ∨ c.val = 46 ∨ c.val = 95 ∨
      c.val = 45 := by
    simp only [isIdentifierChar, isLowerAlnum, inRange, isChar, Bool.or_eq_true, Bool.and_eq_true,
      decide_eq_true_eq, beq_iff_eq, Char.reduceToNat] at h
    omega
  simp only [isControl, Bool.or_eq_false_iff, Bool.and_eq_false_iff, decide_eq_false_iff_not]
  omega

/-- No identifier has a control character. -/
theorem any_isControl_of_identifierFullmatch {s : PyStr} (h : identifierFullmatch s = true) :
    s.any isControl = false := by
  cases s with
  | nil => cases h
  | cons c cs =>
      simp only [identifierFullmatch, Bool.and_eq_true, decide_eq_true_eq, List.all_eq_true] at h
      obtain ⟨⟨hchar, -⟩, hrest⟩ := h
      rw [List.any_eq_false]
      intro x hx
      rw [Bool.not_eq_true]
      rcases List.mem_cons.1 hx with rfl | hx
      · exact isControl_of_isIdentifierChar (by simp [isIdentifierChar, hchar])
      · exact isControl_of_isIdentifierChar (hrest x hx)

/-! ### An envelope with another name in it -/

/-- `d[key] = v`, up to the order of the items. -/
def dictSet (d : Dict) (key : PyStr) (v : Json) : Dict :=
  (key, v) :: d.filter fun item => item.1 != key

theorem dictGet_dictSet (d : Dict) (key k : PyStr) (v : Json) :
    dictGet (dictSet d key v) k = if k = key then some v else dictGet d k := by
  unfold dictGet dictSet
  rw [List.lookup_cons]
  by_cases hk : k = key
  · subst hk
    simp
  · have hne : (k == key) = false := by simpa using hk
    rw [hne, if_neg hk]
    dsimp only
    induction d with
    | nil => rfl
    | cons item d ih =>
        by_cases hitem : item.1 = key
        · have hother : (k == item.1) = false := by simpa [hitem] using hk
          rw [List.filter_cons_of_neg (by simp [hitem]), ih, List.lookup_cons, hother]
        · rw [List.filter_cons_of_pos (by simpa using hitem), List.lookup_cons, List.lookup_cons, ih]

namespace InboundEnvelope

variable {lib : Libraries} {d : Dict} {envelope : InboundEnvelope} {s : PyStr}

/-- The keys of an envelope stay those of an envelope. -/
theorem Denotes.fields_dictSet (h : Denotes lib d envelope) {key : PyStr} (v : Json)
    (hkey : key ∈ InboundEnvelope.fields) :
    ∀ item ∈ dictSet d key v, item.1 ∈ InboundEnvelope.fields := by
  intro item hitem
  rcases List.mem_cons.1 hitem with rfl | hitem
  · exact hkey
  · exact h.fields item (List.mem_filter.1 hitem).1

/-- The dictionary with other names denotes the envelope with these names. -/
theorem Denotes.withNames (h : Denotes lib d envelope) {d' : Dict} {sender : PyStr}
    {recipient : Option PyStr} (hfields : ∀ item ∈ d', item.1 ∈ InboundEnvelope.fields)
    (hsame : ∀ k, k ≠ py "sender" → k ≠ py "recipient" → dictGet d' k = dictGet d k)
    (hsender : dictGet d' (py "sender") = some (.str sender))
    (hvalid : transportIdentifier sender = true)
    (hrecipient : recipientField (dictGet d' (py "recipient")) = some recipient) :
    Denotes lib d' { envelope with sender := sender, recipient := recipient } where
  fields := hfields
  version := (hsame _ (by decide) (by decide)).trans h.version
  messageId := by
    rw [hsame _ (by decide) (by decide)]
    exact h.messageId
  type := (hsame _ (by decide) (by decide)).trans h.type
  sender := hsender
  sender_valid := hvalid
  recipient := hrecipient
  timestamp := by
    rw [hsame _ (by decide) (by decide)]
    exact h.timestamp
  aware := h.aware
  payload := by
    rw [hsame _ (by decide) (by decide)]
    exact h.payload

/-- **The schema on an envelope with another sender.** -/
theorem modelValidate_sender (h : modelValidate lib d = some envelope) (s : PyStr) :
    (modelValidate lib (dictSet d (py "sender") (.str s))).isSome = transportIdentifier s := by
  rw [modelValidate_eq_some_iff] at h
  have hsender : dictGet (dictSet d (py "sender") (.str s)) (py "sender") = some (.str s) := by
    rw [dictGet_dictSet, if_pos rfl]
  have hother : ∀ k, k ≠ py "sender" →
      dictGet (dictSet d (py "sender") (.str s)) k = dictGet d k := by
    intro k hk
    rw [dictGet_dictSet, if_neg hk]
  rw [Bool.eq_iff_iff, Option.isSome_iff_exists]
  constructor
  · rintro ⟨e, he⟩
    have he := modelValidate_eq_some_iff.1 he
    have hname := he.sender
    rw [hsender, Option.some.injEq, Json.str.injEq] at hname
    rw [hname]
    exact he.sender_valid
  · intro hs
    have hrecipient : recipientField (dictGet (dictSet d (py "sender") (.str s)) (py "recipient")) =
        some envelope.recipient := by
      rw [hother _ (by decide)]
      exact h.recipient
    have hdenotes := h.withNames (h.fields_dictSet (.str s) (by decide)) (fun k hk _ => hother k hk)
      hsender hs hrecipient
    exact ⟨_, modelValidate_eq_some_iff.2 hdenotes⟩

/-- **The schema on an envelope with another recipient.** -/
theorem modelValidate_recipient (h : modelValidate lib d = some envelope) (s : PyStr) :
    (modelValidate lib (dictSet d (py "recipient") (.str s))).isSome = transportIdentifier s := by
  rw [modelValidate_eq_some_iff] at h
  have hfield : recipientField (dictGet (dictSet d (py "recipient") (.str s)) (py "recipient")) =
      if transportIdentifier s then some (some s) else none := by
    rw [dictGet_dictSet, if_pos rfl]
    simp only [recipientField, identifierField]
    split_ifs <;> rfl
  have hother : ∀ k, k ≠ py "recipient" →
      dictGet (dictSet d (py "recipient") (.str s)) k = dictGet d k := by
    intro k hk
    rw [dictGet_dictSet, if_neg hk]
  rw [Bool.eq_iff_iff, Option.isSome_iff_exists]
  constructor
  · rintro ⟨e, he⟩
    have hrecipient := (modelValidate_eq_some_iff.1 he).recipient
    rw [hfield] at hrecipient
    by_contra hs
    rw [if_neg hs] at hrecipient
    cases hrecipient
  · intro hs
    have hsender : dictGet (dictSet d (py "recipient") (.str s)) (py "sender") =
        some (.str envelope.sender) := by
      rw [hother _ (by decide)]
      exact h.sender
    have hdenotes := h.withNames (h.fields_dictSet (.str s) (by decide)) (fun k _ hk => hother k hk)
      hsender h.sender_valid (hfield.trans (if_pos hs))
    exact ⟨_, modelValidate_eq_some_iff.2 hdenotes⟩

end InboundEnvelope

/-! ### Agreement -/

/-- **The two validators agree on a string**, in the place of the sender and of the recipient of an
envelope, and what the schema accepts there has no control character. -/
structure IdentifierAgreement (lib : Libraries) (d : Dict) (s : PyStr) : Prop where
  sender : (InboundEnvelope.modelValidate lib (dictSet d (py "sender") (.str s))).isSome =
    isValidIdentifier s
  recipient : (InboundEnvelope.modelValidate lib (dictSet d (py "recipient") (.str s))).isSome =
    isValidIdentifier s
  sender_clean : (InboundEnvelope.modelValidate lib (dictSet d (py "sender") (.str s))).isSome =
    true → s.any isControl = false
  recipient_clean :
    (InboundEnvelope.modelValidate lib (dictSet d (py "recipient") (.str s))).isSome = true →
      s.any isControl = false

/-- An identifier with a newline after it, no longer than the schema allows. -/
def newlineEnded (s : PyStr) : Bool :=
  s.getLast?.any (isChar '\n') && decide (s.length ≤ maxIdentifierLength) &&
    isValidIdentifier s.dropLast

/-- An identifier is not too long. -/
theorem length_of_identifierFullmatch {s : PyStr} (h : identifierFullmatch s = true) :
    1 ≤ s.length ∧ s.length ≤ maxIdentifierLength := by
  cases s with
  | nil => cases h
  | cons c cs =>
      simp only [identifierFullmatch, Bool.and_eq_true, decide_eq_true_eq] at h
      rw [List.length_cons, maxIdentifierLength]
      omega

/-- **What the schema accepts as a name**: the identifiers, and those with a newline after them. -/
theorem transportIdentifier_eq (s : PyStr) :
    transportIdentifier s = (isValidIdentifier s || newlineEnded s) := by
  rw [Bool.eq_iff_iff]
  simp only [transportIdentifier, identifierMatch, isValidIdentifier, newlineEnded,
    Bool.and_eq_true, Bool.or_eq_true, decide_eq_true_eq]
  constructor
  · rintro ⟨⟨-, hlength⟩, hfull | ⟨hlast, hinit⟩⟩
    · exact .inl hfull
    · exact .inr ⟨⟨hlast, hlength⟩, hinit⟩
  · rintro (hfull | ⟨⟨hlast, hlength⟩, hinit⟩)
    · exact ⟨length_of_identifierFullmatch hfull, .inl hfull⟩
    · have hpos : 1 ≤ s.length := by
        have hinit' := (length_of_identifierFullmatch hinit).1
        rw [List.length_dropLast] at hinit'
        omega
      exact ⟨⟨hpos, hlength⟩, .inr ⟨hlast, hinit⟩⟩

/-- A newline is a control character, so what ends in one is no identifier. -/
theorem not_isValidIdentifier_of_newlineEnded {s : PyStr} (h : newlineEnded s = true) :
    isValidIdentifier s = false := by
  simp only [newlineEnded, Bool.and_eq_true] at h
  obtain ⟨⟨hlast, -⟩, -⟩ := h
  obtain ⟨c, hc, hnewline⟩ := (Option.any_eq_true _ _).1 hlast
  have hcontrol : isControl c = true := by
    have hcode : c.val = 10 := by simpa [isChar] using hnewline
    simp [isControl, hcode]
  by_contra hvalid
  rw [Bool.not_eq_false] at hvalid
  have hclean := any_isControl_of_identifierFullmatch hvalid
  rw [List.any_eq_false] at hclean
  exact hclean c (List.mem_of_getLast? hc) hcontrol

/-- **When the validators agree**: on every string but an identifier with a newline after it. -/
theorem identifiers_agree_iff {lib : Libraries} {d : Dict} {envelope : InboundEnvelope}
    (h : InboundEnvelope.modelValidate lib d = some envelope) (s : PyStr) :
    IdentifierAgreement lib d s ↔ newlineEnded s = false := by
  have hsender := InboundEnvelope.modelValidate_sender h s
  have hrecipient := InboundEnvelope.modelValidate_recipient h s
  rw [transportIdentifier_eq] at hsender hrecipient
  constructor
  · intro hagree
    have heq := hsender.symm.trans hagree.sender
    by_contra hended
    rw [Bool.not_eq_false] at hended
    rw [hended, not_isValidIdentifier_of_newlineEnded hended] at heq
    cases heq
  · intro hended
    rw [hended, Bool.or_false] at hsender hrecipient
    refine ⟨hsender, hrecipient, fun haccepted => ?_, fun haccepted => ?_⟩
    · exact any_isControl_of_identifierFullmatch (hsender.symm.trans haccepted)
    · exact any_isControl_of_identifierFullmatch (hrecipient.symm.trans haccepted)

/-- A message of `alice` to `bob`. -/
def aliceToBob : Dict :=
  frameDict (py "message.send") (py "alice") [(py "recipient", .str (py "bob"))]

/-- The validators agree on `carol`. -/
theorem identifiers_agree_carol : IdentifierAgreement sampleLibraries aliceToBob (py "carol") := by
  obtain ⟨envelope, h⟩ := Option.isSome_iff_exists.1
    (by decide +kernel : (InboundEnvelope.modelValidate sampleLibraries aliceToBob).isSome = true)
  exact (identifiers_agree_iff h (py "carol")).2 (by decide +kernel)

/-- **A recipient that nobody can be**: `bob` with a newline after the name. -/
theorem newline_accepted :
    (InboundEnvelope.modelValidate sampleLibraries aliceToBob).isSome = true ∧
      ¬ IdentifierAgreement sampleLibraries aliceToBob (py "bob\n") := by
  refine ⟨by decide +kernel, fun hagree => ?_⟩
  have hinvalid : isValidIdentifier (py "bob\n") = false := by decide +kernel
  have haccepted : (InboundEnvelope.modelValidate sampleLibraries
      (dictSet aliceToBob (py "recipient") (.str (py "bob\n")))).isSome = true := by
    decide +kernel
  have hrecipient := hagree.recipient
  rw [haccepted, hinvalid] at hrecipient
  cases hrecipient

end EncryptChat
