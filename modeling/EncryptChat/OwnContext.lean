/-
**The responses of a frame, seen from the connection's own context.**

What answers a frame goes to the queue of the connection that sent it and nowhere else, until a
message is refused.  Seen from the manager that is an update of one context; seen from the context it
is a function of its own.

Main definition:

* `EncryptChat.ConnectionContext.enqueueResponses` — the responses, put on the own queue.

Main results:

* `EncryptChat.ConnectionManager.respond_of_eq` — **answering a frame, from the own context**;
* `EncryptChat.ConnectionContext.enqueueResponses_accepted` — the own queue takes a prefix of the
  responses, and all of them unless the answer ends the loop.
-/

import EncryptChat.EndpointFrame

set_option relaxedAutoImplicit false
set_option autoImplicit false

namespace EncryptChat

open Python

namespace ConnectionContext

/-- The responses of a frame, put on the own queue until one is refused. -/
def enqueueResponses (c : ConnectionContext) : List OutboundMessage → ConnectionContext × Bool
  | [] => (c, true)
  | response :: responses =>
      if (c.enqueueOutbound response).2 then
        (c.enqueueOutbound response).1.enqueueResponses responses
      else ((c.enqueueOutbound response).1, false)

theorem enqueueResponses_singleton (c : ConnectionContext) (response : OutboundMessage) :
    c.enqueueResponses [response] = c.enqueueOutbound response := by
  simp only [enqueueResponses]
  by_cases htaken : (c.enqueueOutbound response).2 = true
  · rw [if_pos htaken, ← htaken]
  · rw [if_neg htaken, ← Bool.eq_false_iff.2 htaken]

/-- **The own queue takes a prefix of the responses**, and all of them unless one is refused. -/
theorem enqueueResponses_accepted (responses : List OutboundMessage) :
    ∀ c : ConnectionContext, ∃ n,
      (c.enqueueResponses responses).1.outbound.accepted = c.outbound.accepted ++ responses.take n ∧
        (c.enqueueResponses responses).1.closing = c.closing ∧
        ((c.enqueueResponses responses).2 = true → n = responses.length) := by
  induction responses with
  | nil => exact fun c => ⟨0, by simp [enqueueResponses], rfl, fun _ => rfl⟩
  | cons r responses ih =>
      intro c
      simp only [enqueueResponses]
      by_cases hroom : c.HasRoom
      · obtain ⟨q, heq, -, haccepted, -⟩ := enqueueOutbound_of_hasRoom hroom r
        obtain ⟨n, hn, hclosing, hall⟩ := ih { c with outbound := q }
        rw [heq, if_pos rfl]
        refine ⟨n + 1, ?_, hclosing, fun htaken => ?_⟩
        · rw [hn, haccepted, List.take_succ_cons, List.append_assoc, List.singleton_append]
        · rw [hall htaken, List.length_cons]
      · rw [enqueueOutbound_of_not_hasRoom hroom, if_neg (by simp)]
        exact ⟨0, by simp, rfl, fun htaken => by simp at htaken⟩

/-- Answering a frame leaves the identity as it is. -/
theorem enqueueResponses_sameIdentity (responses : List OutboundMessage) :
    ∀ c : ConnectionContext, SameIdentity c (c.enqueueResponses responses).1 := by
  induction responses with
  | nil => exact fun c => .refl c
  | cons r responses ih =>
      intro c
      have hfirst := (c.evolves_enqueueOutbound False r).toSameIdentity
      simp only [enqueueResponses]
      split_ifs
      · exact hfirst.trans (ih _)
      · exact hfirst

end ConnectionContext

namespace ConnectionManager

/-! ### From the manager to the own context -/

variable {m : ConnectionManager} {cid : ConnId} {c : ConnectionContext}

@[simp] theorem setContext_contexts_self (m : ConnectionManager) (cid : ConnId)
    (c : ConnectionContext) : (m.setContext cid c).contexts cid = some c := by
  simp [setContext]

@[simp] theorem setContext_setContext (m : ConnectionManager) (cid : ConnId)
    (c c' : ConnectionContext) : (m.setContext cid c).setContext cid c' = m.setContext cid c' := by
  simp [setContext]

theorem setContext_of_eq (h : m.contexts cid = some c) : m.setContext cid c = m := by
  unfold setContext
  rw [← h, Function.update_eq_self]

theorem modifyContext_of_eq (h : m.contexts cid = some c)
    (f : ConnectionContext → ConnectionContext) :
    m.modifyContext cid f = m.setContext cid (f c) := by
  simp [modifyContext, setContext, h]

theorem enqueueOutbound_of_eq (h : m.contexts cid = some c) (message : OutboundMessage) :
    m.enqueueOutbound cid message =
      (m.setContext cid (c.enqueueOutbound message).1, (c.enqueueOutbound message).2) := by
  simp only [enqueueOutbound, h]

/-- The responses of a frame go to the own queue and nowhere else. -/
theorem enqueueResponses_of_eq (responses : List OutboundMessage) :
    ∀ {m : ConnectionManager} {c : ConnectionContext}, m.contexts cid = some c →
      EncryptChat.enqueueResponses m cid responses =
        (m.setContext cid (c.enqueueResponses responses).1, (c.enqueueResponses responses).2) := by
  induction responses with
  | nil =>
      intro m c h
      simp only [EncryptChat.enqueueResponses, ConnectionContext.enqueueResponses]
      rw [setContext_of_eq h]
  | cons r responses ih =>
      intro m c h
      simp only [EncryptChat.enqueueResponses, ConnectionContext.enqueueResponses,
        enqueueOutbound_of_eq h]
      by_cases htaken : (c.enqueueOutbound r).2 = true
      · rw [if_pos htaken, if_pos htaken, ih (setContext_contexts_self m cid _),
          setContext_setContext]
      · rw [if_neg htaken, if_neg htaken]

/-- Answering a frame, from the own context. -/
theorem respond_of_eq (h : m.contexts cid = some c) (responses : List OutboundMessage) :
    respond m cid responses =
      (m.setContext cid (c.enqueueResponses responses).1,
        if (c.enqueueResponses responses).2 then .next
        else .close WebSocketCloseCode.policyViolation) := by
  unfold respond
  rw [enqueueResponses_of_eq responses h]

end ConnectionManager

end EncryptChat
