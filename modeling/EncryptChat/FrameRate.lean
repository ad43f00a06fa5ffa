/-
**The rate limiter of a connection, over any sequence of calls.**

The windows of the limiter begin where a call comes after the last one has ended, so an interval of
their length may lie across two of them; it meets no third one, and each lets through at most the
configured number.  A call is refused only in a window that has let that many through, and the window
ends by itself, whatever is refused in it.

Main definitions:

* `EncryptChat.RateLimiter.after`, `accepted` — the limiter after a sequence of calls, and the times
  of those it let through;
* `EncryptChat.RateLimiter.Windowed` — what the counter and the window start say about the accepted
  times;
* `EncryptChat.limiterTimes`, `validatedTimes` — the calls a connection makes in a run of the server,
  and the frames that get past the limiter.

Main results:

* `EncryptChat.RateLimiter.Windowed.allow` — one call keeps the bookkeeping right;
* `EncryptChat.limiter_of_run` — in a run of the server a connection's limiter sees its own frames;
* `EncryptChat.frames_rate_bounded` — **what is let through is bounded, and nobody is locked out**.
-/

import EncryptChat.SenderAuthenticity
import EncryptChat.SlidingWindow
import Mathlib.Tactic.Linarith

set_option relaxedAutoImplicit false
set_option autoImplicit false

namespace EncryptChat

open Python Transition SlidingWindow ConnectionManager

namespace RateLimiter

variable {max : ℕ} {w now : ℚ} {l : RateLimiter} {passed : List ℚ}

/-! ### Sequences of calls -/

/-- The limiter after a sequence of calls. -/
def after (l : RateLimiter) (times : List ℚ) : RateLimiter :=
  times.foldl (fun l now => (l.allow now).1) l

/-- The times of the calls that were let through. -/
def accepted (l : RateLimiter) : List ℚ → List ℚ
  | [] => []
  | now :: times =>
      if (l.allow now).2 then now :: (l.allow now).1.accepted times
      else (l.allow now).1.accepted times

theorem after_snoc (l : RateLimiter) (times : List ℚ) (now : ℚ) :
    l.after (times ++ [now]) = ((l.after times).allow now).1 := by
  unfold after
  rw [List.foldl_append]
  rfl

theorem accepted_snoc (times : List ℚ) (now : ℚ) :
    ∀ l : RateLimiter, l.accepted (times ++ [now]) =
      l.accepted times ++ if ((l.after times).allow now).2 then [now] else [] := by
  induction times with
  | nil => exact fun l => rfl
  | cons time times ih =>
      intro l
      have hafter : l.after (time :: times) = (l.allow time).1.after times := rfl
      rw [hafter]
      simp only [List.cons_append, RateLimiter.accepted, ih]
      split_ifs <;> simp

/-! ### One call -/

/-- **What a call does**: it begins a window when the last one has ended, and is counted. -/
theorem allow_cases (l : RateLimiter) (now : ℚ) :
    (l.windowStartedAt + l.windowSeconds ≤ now ∧
        l.allow now = ({ l with windowStartedAt := now, count := 1 }, decide (1 ≤ l.maxMessages))) ∨
      (now < l.windowStartedAt + l.windowSeconds ∧
        l.allow now = ({ l with count := l.count + 1 }, decide (l.count + 1 ≤ l.maxMessages))) := by
  unfold allow
  by_cases hended : l.windowSeconds ≤ now - l.windowStartedAt
  · refine .inl ⟨by linarith, ?_⟩
    simp only [if_pos hended, Nat.zero_add]
  · refine .inr ⟨by linarith, ?_⟩
    simp only [if_neg hended]

/-- **What the limiter knows about the times it has let through**: as many as it has counted are in
the current window, up to the maximum, and no more than that in the time before it. -/
structure Windowed (max : ℕ) (w : ℚ) (l : RateLimiter) (passed : List ℚ) : Prop where
  maxMessages : l.maxMessages = max
  windowSeconds : l.windowSeconds = w
  current : (passed.countP fun x => decide (l.windowStartedAt ≤ x)) = min l.count max
  previous : (passed.countP fun x =>
    decide (l.windowStartedAt - w < x) && decide (x < l.windowStartedAt)) ≤ max
  ended : ∀ x ∈ passed, x < l.windowStartedAt + w
  bounded : ∀ left a, passed.countP (halfOpen left a w) ≤ 2 * max

theorem windowed_nil (l : RateLimiter) (hcount : l.count = 0) :
    Windowed l.maxMessages l.windowSeconds l [] :=
  ⟨rfl, rfl, by simp [hcount], Nat.zero_le _, by simp, fun _ _ => Nat.zero_le _⟩

/-- A window that is not left behind takes in what the call lets through. -/
theorem Windowed.stay (h : Windowed max w l passed) (hle : l.windowStartedAt ≤ now)
    (hin : now < l.windowStartedAt + w) :
    let taken := if decide (l.count + 1 ≤ max) then [now] else []
    ((passed ++ taken).countP fun x => decide (l.windowStartedAt ≤ x)) = min (l.count + 1) max ∧
      ((passed ++ taken).countP fun x =>
        decide (l.windowStartedAt - w < x) && decide (x < l.windowStartedAt)) ≤ max ∧
      ∀ x ∈ passed ++ taken, x < l.windowStartedAt + w := by
  have hcurrent := h.current
  have hprevious := h.previous
  by_cases hroom : l.count + 1 ≤ max
  · simp only [hroom, decide_true, if_true, List.countP_append, List.countP_singleton, hcurrent]
    refine ⟨?_, ?_, ?_⟩
    · rw [if_pos (by simpa using hle)]
      omega
    · rw [if_neg (by simpa using fun _ => hle)]
      exact hprevious
    · intro x hx
      rcases List.mem_append.1 hx with hx | hx
      · exact h.ended x hx
      · rw [List.mem_singleton.1 hx]
        exact hin
  · simp only [hroom, decide_false, Bool.false_eq_true, if_false, List.append_nil, hcurrent]
    exact ⟨by omega, hprevious, h.ended⟩

/-- A window that begins with the call has the window before it behind it. -/
theorem Windowed.begin (h : Windowed max w l passed) (hw : 0 < w)
    (hended : l.windowStartedAt + w ≤ now) :
    let taken := if decide (1 ≤ max) then [now] else []
    ((passed ++ taken).countP fun x => decide (now ≤ x)) = min 1 max ∧
      ((passed ++ taken).countP fun x => decide (now - w < x) && decide (x < now)) ≤ max ∧
      ∀ x ∈ passed ++ taken, x < now + w := by
  -- nothing passed so far is in the new window
  have hnone : (passed.countP fun x => decide (now ≤ x)) = 0 := by
    refine List.countP_eq_zero.2 fun x hx => ?_
    have hx := h.ended x hx
    rw [decide_eq_true_eq]
    linarith
  -- what was passed less than a window ago was passed in the last window
  have hlast : (passed.countP fun x => decide (now - w < x) && decide (x < now)) ≤ max := by
    have hcurrent := h.current
    refine le_trans (List.countP_mono_left fun x _ hx => ?_)
      (hcurrent.trans_le (Nat.min_le_right _ _))
    rw [Bool.and_eq_true, decide_eq_true_eq] at hx
    rw [decide_eq_true_eq]
    linarith [hx.1]
  have hbefore : ∀ x ∈ passed, x < now + w := fun x hx => by linarith [h.ended x hx]
  by_cases hroom : 1 ≤ max
  · simp only [hroom, decide_true, if_true, List.countP_append, List.countP_singleton, hnone,
      lt_self_iff_false, decide_false, Bool.and_false, Bool.false_eq_true, if_false, le_refl]
    refine ⟨by omega, hlast, fun x hx => ?_⟩
    rcases List.mem_append.1 hx with hx | hx
    · exact hbefore x hx
    · rw [List.mem_singleton.1 hx]
      linarith
  · simp only [hroom, decide_false, Bool.false_eq_true, if_false, List.append_nil, hnone]
    exact ⟨by omega, hlast, hbefore⟩

/-- **An interval as long as a window meets two windows at most.** -/
theorem bounded_of_parts {start : ℚ} {left : Bool} {a : ℚ} (hin : halfOpen left a w now = true)
    (hle : start ≤ now) (hcurrent : (passed.countP fun x => decide (start ≤ x)) ≤ max)
    (hprevious : (passed.countP fun x => decide (start - w < x) && decide (x < start)) ≤ max) :
    passed.countP (halfOpen left a w) ≤ 2 * max := by
  have hsplit : passed.countP (halfOpen left a w) ≤
      (passed.countP fun x => decide (start ≤ x)) +
        passed.countP fun x => decide (start - w < x) && decide (x < start) := by
    clear hcurrent hprevious
    induction passed with
    | nil => exact Nat.zero_le _
    | cons x passed ih =>
        simp only [List.countP_cons]
        cases hx : halfOpen left a w x with
        | true =>
            have hyoung := sub_lt_of_halfOpen hx hin
            rcases le_or_gt start x with hstart | hstart
            · simp only [if_true, hstart, decide_true]
              omega
            · have hwithin : start - w < x := by linarith
              simp only [if_true, hwithin, hstart, decide_true, Bool.and_self]
              omega
        | false =>
            rw [if_neg Bool.false_ne_true]
            omega
  omega

/-- What a call lets through keeps the bound on intervals. -/
theorem Windowed.bounded_append (h : Windowed max w l passed) {start : ℚ} (taken : Bool)
    (hle : start ≤ now)
    (hcurrent : ((passed ++ if taken then [now] else []).countP
      fun x => decide (start ≤ x)) ≤ max)
    (hprevious : ((passed ++ if taken then [now] else []).countP
      fun x => decide (start - w < x) && decide (x < start)) ≤ max) (left : Bool) (a : ℚ) :
    (passed ++ if taken then [now] else []).countP (halfOpen left a w) ≤ 2 * max := by
  cases hin : halfOpen left a w now with
  | true => exact bounded_of_parts hin hle hcurrent hprevious
  | false =>
      have hrest := h.bounded left a
      cases taken with
      | true =>
          rw [if_pos rfl, List.countP_append, List.countP_singleton, hin,
            if_neg Bool.false_ne_true]
          exact hrest
      | false =>
          rw [if_neg Bool.false_ne_true, List.append_nil]
          exact hrest

/-- **A call keeps the bookkeeping right.** -/
theorem Windowed.allow (h : Windowed max w l passed) (hw : 0 < w) (hle : l.windowStartedAt ≤ now) :
    Windowed max w (l.allow now).1 (passed ++ if (l.allow now).2 then [now] else []) := by
  obtain rfl := h.maxMessages
  obtain rfl := h.windowSeconds
  rcases l.allow_cases now with ⟨hended, heq⟩ | ⟨hin, heq⟩
  · rw [heq]
    obtain ⟨hcurrent, hprevious, hlast⟩ := h.begin hw hended
    exact ⟨rfl, rfl, hcurrent, hprevious, hlast,
      h.bounded_append _ le_rfl (hcurrent.trans_le (Nat.min_le_right _ _)) hprevious⟩
  · rw [heq]
    obtain ⟨hcurrent, hprevious, hlast⟩ := h.stay hle hin
    exact ⟨rfl, rfl, hcurrent, hprevious, hlast,
      h.bounded_append _ hle (hcurrent.trans_le (Nat.min_le_right _ _)) hprevious⟩

/-- **A refused call finds the maximum of young accepted ones.** -/
theorem Windowed.refused (h : Windowed max w l passed) (hmax : 1 ≤ max)
    (hrefused : (l.allow now).2 = false) : max ≤ live w now passed := by
  obtain rfl := h.maxMessages
  obtain rfl := h.windowSeconds
  rcases l.allow_cases now with ⟨hended, heq⟩ | ⟨hin, heq⟩
  · rw [heq] at hrefused
    exact absurd hmax (of_decide_eq_false hrefused)
  · rw [heq] at hrefused
    have hfull := of_decide_eq_false hrefused
    have hcurrent := h.current
    -- what is in the current window is young
    have hyoung : (passed.countP fun x => decide (l.windowStartedAt ≤ x)) ≤
        live l.windowSeconds now passed := by
      refine List.countP_mono_left fun x _ hx => ?_
      rw [decide_eq_true_eq] at hx ⊢
      linarith
    omega

/-- A call after the end of the window is let through. -/
theorem allow_of_ended (hmax : 1 ≤ l.maxMessages)
    (hended : l.windowStartedAt + l.windowSeconds ≤ now) : (l.allow now).2 = true := by
  rcases l.allow_cases now with ⟨-, heq⟩ | ⟨hin, -⟩
  · rw [heq]
    exact decide_eq_true hmax
  · exact absurd hended (not_le.2 hin)

/-- **After every sequence of calls** at times that do not go back, the bookkeeping is right, and the
window has begun at a time that has passed. -/
theorem windowed_after (hw : 0 < w) {times : List ℚ} (hnonneg : ∀ x ∈ times, 0 ≤ x)
    (hsorted : times.Pairwise (· ≤ ·)) :
    Windowed max w (after { maxMessages := max, windowSeconds := w } times)
        (RateLimiter.accepted { maxMessages := max, windowSeconds := w } times) ∧
      ∀ now, 0 ≤ now → (∀ x ∈ times, x ≤ now) →
        (after { maxMessages := max, windowSeconds := w } times).windowStartedAt ≤ now := by
  induction times using List.reverseRecOn with
  | nil =>
      exact ⟨windowed_nil { maxMessages := max, windowSeconds := w } rfl, fun now hnow _ => hnow⟩
  | append_singleton times time ih =>
      rw [List.pairwise_append] at hsorted
      have htime : ∀ x ∈ times, x ≤ time := fun x hx => hsorted.2.2 x hx time (by simp)
      have hpos : 0 ≤ time := hnonneg time (by simp)
      obtain ⟨hwindowed, hstarted⟩ := ih (fun x hx => hnonneg x (by simp [hx])) hsorted.1
      have hstart := hstarted time hpos htime
      rw [after_snoc, accepted_snoc]
      refine ⟨hwindowed.allow hw hstart, fun now hnow hle => ?_⟩
      have hnow : time ≤ now := hle time (by simp)
      rcases allow_cases (after { maxMessages := max, windowSeconds := w } times) time with
        ⟨-, heq⟩ | ⟨-, heq⟩
      · rw [heq]
        exact hnow
      · rw [heq]
        exact hstart.trans hnow

end RateLimiter

/-! ### The limiters of a manager -/

/-- The limiter of a connection. -/
def ConnectionManager.limiter (m : ConnectionManager) (k : ConnId) : Option RateLimiter :=
  (m.contexts k).map ConnectionContext.rateLimiter

namespace ConnectionManager

variable {m : ConnectionManager} {cid k : ConnId} {c : ConnectionContext}

theorem limiter_modifyContext (f : ConnectionContext → ConnectionContext)
    (hf : ∀ c, (f c).rateLimiter = c.rateLimiter) (m : ConnectionManager) (cid k : ConnId) :
    (m.modifyContext cid f).limiter k = m.limiter k := by
  unfold limiter
  rw [modifyContext_contexts]
  split_ifs with hk
  · subst hk
    cases m.contexts k with
    | none => rfl
    | some c => exact congrArg some (hf c)
  · rfl

/-- A context replaced by one with the same limiter. -/
theorem limiter_setContext {c' : ConnectionContext} (h : m.contexts cid = some c)
    (hc : c'.rateLimiter = c.rateLimiter) : (m.setContext cid c').limiter k = m.limiter k := by
  unfold limiter
  rw [setContext_contexts]
  split_ifs with hk
  · rw [hk, h]
    exact congrArg some hc
  · rfl

/-- **The limiter of a connection counts its own frames only.** -/
theorem limiter_allow (m : ConnectionManager) (cid k : ConnId) (now : ℚ) :
    (m.modifyContext cid fun c => (c.allow now).1).limiter k =
      if k = cid then (m.limiter cid).map fun l => (l.allow now).1 else m.limiter k := by
  unfold limiter
  rw [modifyContext_contexts]
  split_ifs with hk
  · cases m.contexts cid <;> rfl
  · rfl

@[simp] theorem limiter_touch (m : ConnectionManager) (cid k : ConnId) (now : ℚ) :
    (m.modifyContext cid fun c => c.touch now).limiter k = m.limiter k :=
  limiter_modifyContext (fun c => c.touch now) (fun _ => rfl) m cid k

@[simp] theorem limiter_enqueueOutbound (m : ConnectionManager) (cid k : ConnId)
    (message : OutboundMessage) : (m.enqueueOutbound cid message).1.limiter k = m.limiter k := by
  rw [enqueueOutbound_eq]
  refine limiter_modifyContext _ (fun c => ?_) m cid k
  unfold ConnectionContext.enqueueOutbound
  split_ifs
  · rfl
  · split <;> rfl

@[simp] theorem limiter_enqueueEach (message : OutboundMessage) (k : ConnId) :
    ∀ (targets : List ConnId) (m : ConnectionManager),
      (m.enqueueEach message targets).1.limiter k = m.limiter k := by
  intro targets
  induction targets with
  | nil => exact fun m => rfl
  | cons t targets ih =>
      intro m
      rw [enqueueEach, ih, limiter_enqueueOutbound]

@[simp] theorem limiter_deliverToClient (m : ConnectionManager) (r : PyStr)
    (message : OutboundMessage) (k : ConnId) :
    (m.deliverToClient r message).1.limiter k = m.limiter k := by
  unfold deliverToClient
  split
  · rfl
  · exact limiter_enqueueEach message k _ m

@[simp] theorem limiter_enqueueResponses (cid k : ConnId) :
    ∀ (responses : List OutboundMessage) (m : ConnectionManager),
      (enqueueResponses m cid responses).1.limiter k = m.limiter k := by
  intro responses
  induction responses with
  | nil => exact fun m => rfl
  | cons response responses ih =>
      intro m
      simp only [enqueueResponses]
      split_ifs
      · rw [ih, limiter_enqueueOutbound]
      · exact limiter_enqueueOutbound m cid k response

@[simp] theorem limiter_respond (m : ConnectionManager) (cid k : ConnId)
    (responses : List OutboundMessage) : (respond m cid responses).1.limiter k = m.limiter k :=
  limiter_enqueueResponses cid k responses m

theorem limiter_routeReceipt (m : ConnectionManager) (context : ConnectionContext)
    (envelope : InboundEnvelope) (recipient : PyStr) (ref : ℕ) (k : ConnId) :
    (routeReceipt m context envelope recipient ref).1.limiter k = m.limiter k := by
  rw [fst_routeReceipt]
  by_cases hconn : m.isConnected recipient = true
  · rw [if_pos hconn]
    exact limiter_deliverToClient m recipient _ k
  · rw [if_neg hconn]
    rfl

theorem limiter_handlePrivileged {lib : Libraries} {m : ConnectionManager}
    {context : ConnectionContext} {envelope : InboundEnvelope} {ref : ℕ}
    {handled : ConnectionManager × List OutboundMessage}
    (h : handlePrivileged lib m context envelope ref = .ok handled) (k : ConnId) :
    handled.1.limiter k = m.limiter k := by
  rcases fst_handlePrivileged h with heq | ⟨recipient, heq⟩
  · rw [heq]
  · rw [heq, limiter_routeReceipt]

/-- Handling a frame leaves every limiter as it is. -/
@[simp] theorem limiter_handleFrame (lib : Libraries) (m : ConnectionManager) (cid k : ConnId)
    (context : ConnectionContext) (rawText : PyStr) (clock : Datetime) (ref : ℕ) :
    (handleFrame lib m cid context rawText clock ref).1.limiter k = m.limiter k := by
  unfold handleFrame
  split
  · rfl
  · exact limiter_respond m cid k _
  · unfold dispatch
    split
    · split
      · exact limiter_respond m cid k _
      · rfl
    · exact limiter_respond m cid k _
    · split_ifs
      · split
        · rfl
        · rename_i handled hhandled
          rw [limiter_respond, limiter_handlePrivileged hhandled]
      · exact limiter_respond m cid k _

theorem limiter_bindIdentity (h : m.contexts cid = some c) (identity : AuthenticatedIdentity) :
    (m.bindIdentity cid c identity).limiter k = m.limiter k := by
  unfold limiter
  rw [bindIdentity_contexts]
  split_ifs with hk
  · rw [hk, h]
    rfl
  · rfl

@[simp] theorem limiter_unregister (m : ConnectionManager) (cid k : ConnId) :
    (m.unregister cid).limiter k = m.limiter k := by
  unfold unregister
  split_ifs
  · cases h : m.contexts cid with
    | none => rfl
    | some c =>
        dsimp only
        unfold limiter
        rw [removeClient_contexts]
        exact limiter_setContext (m := { m with connections := m.connections.erase cid }) h rfl
  · rfl

@[simp] theorem limiter_enterFinally (m : ConnectionManager) (cid k : ConnId) (hd : Handler)
    (code : ℕ) (raised : Option PyError) :
    (enterFinally m cid hd code raised).1.limiter k = m.limiter k :=
  limiter_modifyContext ConnectionContext.markClosing (fun _ => rfl) m cid k

@[simp] theorem limiter_continueLoop (cid k : ConnId) (hd : Handler)
    (outcome : ConnectionManager × Iteration) :
    (continueLoop cid hd outcome).1.limiter k = outcome.1.limiter k := by
  unfold continueLoop
  split
  · rfl
  · rfl
  · exact limiter_enterFinally _ cid k hd _ _
  · exact limiter_enterFinally _ cid k hd _ _

end ConnectionManager

/-! ### The calls of a connection in a run -/

/-- The time a step asks the limiter with: a frame asks once it is known not to be too large. -/
def HandlerAction.limiterTime? (maxMessageBytes : ℕ) : HandlerAction → Option ℚ
  | .frame rawText now _ =>
      match utf8Length rawText with
      | .ok size => if maxMessageBytes < size then none else some now
      | .error _ => none
  | .frameRaises now _ => some now
  | _ => none

/-- The time a step of the server asks the limiter of a connection with, when it does. -/
def limiterTime? (cid : ConnId) : ServerState × ServerAction → Option ℚ
  | (s, .act k a) => if k = cid then a.limiterTime? s.manager.limits.maxMessageBytes else none
  | (_, .connect _ _ _ _) => none

/-- Whether the limiter of a connection lets a frame through at a time. -/
def lets (s : ServerState) (cid : ConnId) (now : ℚ) : Bool :=
  (s.manager.limiter cid).any fun l => (l.allow now).2

/-- The time at which a step takes a frame of a connection to `_validate_inbound`, when it does. -/
def validatedTime? (cid : ConnId) (e : ServerState × ServerAction) : Option ℚ :=
  (limiterTime? cid e).filter (lets e.1 cid)

/-- The times the limiter of a connection is asked with in a run. -/
def limiterTimes (cid : ConnId) (tr : List (ServerState × ServerAction)) : List ℚ :=
  tr.filterMap (limiterTime? cid)

/-- The times at which frames of a connection get to `_validate_inbound` in a run. -/
def validatedTimes (cid : ConnId) (tr : List (ServerState × ServerAction)) : List ℚ :=
  tr.filterMap (validatedTime? cid)

/-- What a step of a connection does to the limiters. -/
def limiterAfter (l : Option RateLimiter) : Option ℚ → Option RateLimiter
  | some now => l.map fun l => (l.allow now).1
  | none => l

section Steps

variable {lib : Libraries} {m : ConnectionManager} {ref : ℕ} {cid : ConnId} {hd : Handler}
  {a : HandlerAction} {outcome : ConnectionManager × Handler}

/-- One iteration of the loop asks the limiter at most once. -/
theorem limiter_receiveFrame (context : ConnectionContext) (rawText : PyStr) (now : ℚ)
    (clock : Datetime) (k : ConnId) :
    (receiveFrame lib m cid context rawText now clock ref).1.limiter k =
      if k = cid then limiterAfter (m.limiter cid)
        ((HandlerAction.frame rawText now clock).limiterTime? m.limits.maxMessageBytes)
      else m.limiter k := by
  unfold receiveFrame
  simp only [HandlerAction.limiterTime?]
  cases utf8Length rawText with
  | error e =>
      simp only [limiter_touch, limiterAfter]
      split_ifs with hk
      · rw [hk]
      · rfl
  | ok size =>
      dsimp only
      by_cases hlarge : m.limits.maxMessageBytes < size
      · simp only [if_pos hlarge, limiter_enqueueOutbound, limiter_touch, limiterAfter]
        split_ifs with hk
        · rw [hk]
        · rfl
      · simp only [if_neg hlarge, limiterAfter]
        by_cases hrate : (context.allow now).2 = false
        · rw [if_pos hrate, limiter_enqueueOutbound, limiter_allow, limiter_touch, limiter_touch]
        · rw [if_neg hrate, limiter_handleFrame, limiter_allow, limiter_touch, limiter_touch]

/-- **What a step of a connection does to the limiters**: it asks its own, at most once. -/
theorem limiter_handlerEffect (h : HandlerEffect lib m ref cid hd a outcome) (k : ConnId) :
    outcome.1.limiter k =
      if k = cid then limiterAfter (m.limiter cid) (a.limiterTime? m.limits.maxMessageBytes)
      else m.limiter k := by
  -- most steps do not ask
  have hquiet : outcome.1.limiter k = m.limiter k →
      outcome.1.limiter k = if k = cid then limiterAfter (m.limiter cid) none else m.limiter k := by
    intro hsame
    rw [hsame]
    split_ifs with hk
    · rw [hk]
      rfl
    · rfl
  cases h with
  | accepted _ e =>
      refine hquiet ?_
      cases e with
      | none => exact limiter_enqueueOutbound m cid k _
      | some e => rfl
  | frame _ _ rawText now clock =>
      rw [limiter_continueLoop]
      exact limiter_receiveFrame _ rawText now clock k
  | frameRaises _ now e =>
      rw [limiter_enterFinally, limiter_allow, limiter_touch, limiter_touch]
      rfl
  | @receiveRaises context _ _ e =>
      refine hquiet ?_
      obtain ⟨m', code, raised, heq, hm'⟩ := receiveRaisesStep_eq m cid context hd e
      rw [heq, limiter_enterFinally]
      rcases hm' with rfl | ⟨error, rfl⟩
      · rfl
      · exact limiter_enqueueOutbound m cid k _
  | resolved _ hctx result =>
      refine hquiet ?_
      unfold resolvedStep
      rw [limiter_continueLoop, limiter_respond]
      cases result with
      | error e => rfl
      | ok identity => exact limiter_bindIdentity hctx identity
  | resolveRaises => exact hquiet (limiter_enterFinally m cid k hd _ _)
  | flushed | closed | writerCancelled | writerFailed => exact hquiet rfl
  | writerEnded | writerAwaitCancelled => exact hquiet (limiter_unregister m cid k)
  | writerGets =>
      exact hquiet (limiter_modifyContext ConnectionContext.takeOutbound (fun _ => rfl) m cid k)
  | @writerSends context _ e =>
      refine hquiet ?_
      have hdone : ∀ m : ConnectionManager,
          (m.modifyContext cid ConnectionContext.taskDone).limiter k = m.limiter k :=
        fun m => limiter_modifyContext ConnectionContext.taskDone (fun _ => rfl) m cid k
      obtain ⟨m', writer, heq, rfl | rfl⟩ := sendStep_eq m cid hd context e
      · rw [heq]
        exact hdone m
      · rw [heq]
        exact (hdone _).trans (hdone m)

end Steps

section Runs

variable {lib : Libraries} {limits : TransportLimits} {t u u' : ServerState} {cid k : ConnId}
  {tr : List (ServerState × ServerAction)} {a : HandlerAction} {action : ServerAction}

/-- The limiter a connection begins with. -/
def freshLimiter (limits : TransportLimits) : RateLimiter :=
  { maxMessages := limits.maxMessagesPerWindow, windowSeconds := limits.rateLimitWindowSeconds }

/-- What is known in a run about the limiter of a connection: it does not exist yet and nothing has
asked it, or it has counted the calls of the run and the frames it let through are validated. -/
def LimiterKnown (limits : TransportLimits) (cid : ConnId) (t : ServerState)
    (tr : List (ServerState × ServerAction)) : Prop :=
  (t.manager.limiter cid = none ∧ limiterTimes cid tr = [] ∧ validatedTimes cid tr = []) ∨
    (t.manager.limiter cid = some ((freshLimiter limits).after (limiterTimes cid tr)) ∧
      validatedTimes cid tr = (freshLimiter limits).accepted (limiterTimes cid tr))

theorem limiterTimes_snoc (cid : ConnId) (tr : List (ServerState × ServerAction))
    (e : ServerState × ServerAction) :
    limiterTimes cid (tr ++ [e]) = limiterTimes cid tr ++ (limiterTime? cid e).toList := by
  unfold limiterTimes
  rw [List.filterMap_append]
  cases he : limiterTime? cid e <;> simp [he]

theorem validatedTimes_snoc (cid : ConnId) (tr : List (ServerState × ServerAction))
    (e : ServerState × ServerAction) :
    validatedTimes cid (tr ++ [e]) = validatedTimes cid tr ++ (validatedTime? cid e).toList := by
  unfold validatedTimes
  rw [List.filterMap_append]
  cases he : validatedTime? cid e <;> simp [he]

/-- A step that does not ask the limiter and leaves it alone. -/
theorem LimiterKnown.quiet (h : LimiterKnown limits cid u tr)
    (hasks : limiterTime? cid (u, action) = none)
    (hsame : u'.manager.limiter cid = u.manager.limiter cid) :
    LimiterKnown limits cid u' (tr ++ [(u, action)]) := by
  have hvalidated : validatedTime? cid (u, action) = none := by
    unfold validatedTime?
    rw [hasks]
    rfl
  unfold LimiterKnown
  rw [limiterTimes_snoc, validatedTimes_snoc, hasks, hvalidated, hsame, Option.toList_none,
    List.append_nil, List.append_nil]
  exact h

/-- A step that asks the limiter. -/
theorem LimiterKnown.asks (h : LimiterKnown limits cid u tr) {now : ℚ} {l : RateLimiter}
    (hasks : limiterTime? cid (u, action) = some now) (hl : u.manager.limiter cid = some l)
    (hnext : u'.manager.limiter cid = some (l.allow now).1) :
    LimiterKnown limits cid u' (tr ++ [(u, action)]) := by
  obtain ⟨hnone, -, -⟩ | ⟨hsome, hvalidated⟩ := h
  · rw [hl] at hnone
    cases hnone
  · rw [hl, Option.some.injEq] at hsome
    have hlets : validatedTime? cid (u, action) = if (l.allow now).2 then some now else none := by
      unfold validatedTime? lets
      rw [hasks, hl]
      rfl
    refine .inr ⟨?_, ?_⟩
    · rw [hnext, limiterTimes_snoc, hasks, Option.toList_some, RateLimiter.after_snoc, hsome]
    · rw [validatedTimes_snoc, limiterTimes_snoc, hasks, Option.toList_some,
        RateLimiter.accepted_snoc, hvalidated, hlets, ← hsome]
      split_ifs <;> rfl

/-- **The limiter of a connection counts the connection's own calls**, in every run. -/
theorem limiter_of_run (hrun : (serverSystem lib limits).Run (.new limits) tr t) (cid : ConnId) :
    LimiterKnown limits cid t tr := by
  induction hrun with
  | nil => exact .inl ⟨rfl, rfl, rfl⟩
  | @snoc u u' tr action hrun hstep ih =>
      have hinv := inv_of_run hrun
      have hstep' : u.step lib action = some u' := hstep
      cases action with
      | connect k hex origin now =>
          obtain ⟨hnone, ⟨hm, -⟩ | ⟨-, hm, -, -⟩⟩ := ServerState.step_connect hstep'
          · exact ih.quiet rfl (by rw [hm])
          · by_cases hk : cid = k
            · -- the limiter is new, and nothing has asked it
              subst hk
              have hlimiter : u.manager.limiter cid = none := by
                unfold ConnectionManager.limiter
                rw [hnone]
                rfl
              obtain ⟨-, htimes, hvalidated⟩ | ⟨hsome, -⟩ := ih
              · refine .inr ⟨?_, ?_⟩
                · rw [limiterTimes_snoc, htimes, ConnectionManager.limiter, hm,
                    registered_contexts, if_pos rfl, hinv.limits_eq]
                  rfl
                · rw [limiterTimes_snoc, validatedTimes_snoc, htimes, hvalidated]
                  rfl
              · rw [hlimiter] at hsome
                cases hsome
            · refine ih.quiet rfl ?_
              unfold ConnectionManager.limiter
              rw [hm, registered_contexts, if_neg hk]
      | act k a =>
          obtain ⟨hd, outcome, hhd, heffect, rfl⟩ := ServerState.step_act hstep'
          have hlimiter := limiter_handlerEffect heffect cid
          by_cases hk : cid = k
          · subst hk
            rw [if_pos rfl] at hlimiter
            have hasks : limiterTime? cid (u, .act cid a) =
                a.limiterTime? u.manager.limits.maxMessageBytes := if_pos rfl
            cases htime : a.limiterTime? u.manager.limits.maxMessageBytes with
            | none =>
                rw [htime] at hasks hlimiter
                exact ih.quiet hasks hlimiter
            | some now =>
                rw [htime] at hasks hlimiter
                obtain ⟨c, hc⟩ := (hinv.handler cid hd hhd).present
                have hl : u.manager.limiter cid = some c.rateLimiter := by
                  unfold ConnectionManager.limiter
                  rw [hc]
                  rfl
                rw [hl] at hlimiter
                exact ih.asks hasks hl hlimiter
          · rw [if_neg hk] at hlimiter
            exact ih.quiet (if_neg (Ne.symm hk)) hlimiter

/-- **The frames of a connection that get to `_validate_inbound`** in an interval as long as a window
are twice the maximum at most. -/
theorem validated_bounded (hw : 0 < limits.rateLimitWindowSeconds)
    (hrun : (serverSystem lib limits).Run (.new limits) tr t)
    (hnonneg : ∀ x ∈ limiterTimes cid tr, 0 ≤ x)
    (hsorted : (limiterTimes cid tr).Pairwise (· ≤ ·)) (left : Bool) (a : ℚ) :
    (validatedTimes cid tr).countP (halfOpen left a limits.rateLimitWindowSeconds) ≤
      2 * limits.maxMessagesPerWindow := by
  obtain ⟨-, -, hvalidated⟩ | ⟨-, hvalidated⟩ := limiter_of_run hrun cid
  · rw [hvalidated]
    exact Nat.zero_le _
  · rw [hvalidated]
    exact (RateLimiter.windowed_after hw hnonneg hsorted).1.bounded left a

end Runs

/-- **What is let through is bounded, and nobody is locked out.**  Of any calls at times that do not
go back, a half-open interval as long as a window has at most twice the maximum that are let through,
and so many frames of a connection are validated in a run of the server; a call is only refused when
the maximum has been let through less than a window earlier; and a call after the end of a window is
let through, whatever has been refused in it. -/
theorem frames_rate_bounded {max : ℕ} {w : ℚ} (hmax : 1 ≤ max) (hw : 0 < w) :
    (∀ times : List ℚ, (∀ x ∈ times, 0 ≤ x) → times.Pairwise (· ≤ ·) →
      let l : RateLimiter := { maxMessages := max, windowSeconds := w }
      (∀ left a, (l.accepted times).countP (halfOpen left a w) ≤ 2 * max) ∧
        ∀ earlier now later, times = earlier ++ now :: later →
          (((l.after earlier).allow now).2 = false → max ≤ live w now (l.accepted earlier)) ∧
          ((l.after earlier).windowStartedAt + w ≤ now → ((l.after earlier).allow now).2 = true)) ∧
      ∀ (lib : Libraries) (limits : TransportLimits) (cid : ConnId) (t : ServerState)
        (tr : List (ServerState × ServerAction)), limits.maxMessagesPerWindow = max →
        limits.rateLimitWindowSeconds = w → (serverSystem lib limits).Run (.new limits) tr t →
        (∀ x ∈ limiterTimes cid tr, 0 ≤ x) → (limiterTimes cid tr).Pairwise (· ≤ ·) →
          ∀ left a, (validatedTimes cid tr).countP (halfOpen left a w) ≤ 2 * max := by
  refine ⟨fun times hnonneg hsorted => ⟨?_, ?_⟩, ?_⟩
  · exact (RateLimiter.windowed_after hw hnonneg hsorted).1.bounded
  · rintro earlier now later rfl
    rw [List.pairwise_append] at hsorted
    have hwindowed : RateLimiter.Windowed max w _ _ := (RateLimiter.windowed_after hw
      (fun x hx => hnonneg x (List.mem_append_left _ hx)) hsorted.1).1
    refine ⟨hwindowed.refused hmax, fun hended => RateLimiter.allow_of_ended ?_ ?_⟩
    · rw [hwindowed.maxMessages]
      exact hmax
    · rw [hwindowed.windowSeconds]
      exact hended
  · rintro lib limits cid t tr rfl rfl hrun hnonneg hsorted
    exact validated_bounded hw hrun hnonneg hsorted

/-- One frame in ten seconds. -/
def onePerTen : TransportLimits := { maxMessagesPerWindow := 1, rateLimitWindowSeconds := 10 }

/-- `alice` sends three frames around the end of a window. -/
def aliceHurries : List ServerAction :=
  [.connect aliceId aliceId none 0, .act aliceId (.accepted none),
    .act aliceId (.frame (py "hello") 9 (.utc 0)), .act aliceId (.frame (py "hello") 9 (.utc 0)),
    .act aliceId (.frame (py "hello") 11 (.utc 0))]

/-- The second one is refused, and the other two are validated within ten seconds. -/
theorem frames_rate_bounded_alice :
    1 ≤ live 10 9 (RateLimiter.accepted { maxMessages := 1, windowSeconds := 10 } [9]) ∧
      ∃ tr t, (serverSystem sampleLibraries onePerTen).Run (.new onePerTen) tr t ∧
        limiterTimes aliceId tr = [9, 9, 11] ∧ validatedTimes aliceId tr = [9, 11] ∧
          (validatedTimes aliceId tr).countP (halfOpen true 9 10) ≤ 2 * 1 := by
  have hbounded := frames_rate_bounded (le_refl 1) (by decide : (0 : ℚ) < 10)
  have hexec : ((serverSystem sampleLibraries onePerTen).exec (.new onePerTen) aliceHurries).map
      (fun _ => true) = some true := by
    decide +kernel
  have htimes : limiterTimes aliceId ((serverSystem sampleLibraries onePerTen).traceOf
      (.new onePerTen) aliceHurries) = [9, 9, 11] := by
    decide +kernel
  obtain ⟨t, -, hrun, -⟩ := System.exists_run_of_exec hexec
  refine ⟨?_, _, t, hrun, htimes, by decide +kernel, ?_⟩
  · have hrefused := ((hbounded.1 [9, 9] (by decide +kernel) (by decide +kernel)).2 [9] 9 [] rfl).1
    exact hrefused (by decide +kernel)
  · refine hbounded.2 sampleLibraries onePerTen aliceId t _ rfl rfl hrun ?_ ?_ true 9
    · rw [htimes]
      decide +kernel
    · rw [htimes]
      decide +kernel

end EncryptChat
