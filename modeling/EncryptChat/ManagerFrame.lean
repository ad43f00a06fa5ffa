/-
**What operations leave alone.**

A context is created by a registration, bound at most once, and never forgotten; a message is on a
queue because an operation put it there; a message queued for a name stays queued until that name is
drained or discarded; and the registry changes in three operations only.  Each statement is proved
for one operation and carried along `EncryptChat.ConnectionManager.Reaches`.

Main definitions:

* `EncryptChat.ConnectionManager.Held` — a message that some connection has accepted or that is
  queued for some name;
* `EncryptChat.ConnectionManager.PlacedFor`, `EncryptChat.ConnectionManager.KeptFor` — a message
  that a connection bound to a name has accepted, or that is still queued for the name;
* `EncryptChat.ConnectionManager.Untouched` — a connection that is as it was, but for its queue;
* `EncryptChat.ManagerOp.Quiet` — the operations that touch neither the registry nor a binding nor
  a closing flag, and remove no queued message.

Main results:

* `EncryptChat.ManagerOp.Effect.context`, `EncryptChat.ManagerOp.Effect.context_back` — **the life
  of a context**;
* `EncryptChat.ConnectionManager.Reaches.held`, `EncryptChat.ConnectionManager.Reaches.keptFor` —
  **the life of a message**;
* `EncryptChat.ConnectionManager.Reaches.identity` — an identity is bound at most once;
* `EncryptChat.ConnectionManager.Reaches.untouched` — what other connections do leaves one alone.
-/

import EncryptChat.ManagerInvariant

set_option relaxedAutoImplicit false
set_option autoImplicit false

namespace EncryptChat

open Python

/-- The operation may close the connection. -/
def ManagerOp.Closes (cid : ConnId) (op : ManagerOp) : Prop :=
  op = .markClosing cid ∨ op = .unregister cid

namespace ManagerOp.Effect

open ConnectionManager

variable {m m' : ConnectionManager} {op : ManagerOp}

/-- **A context is never forgotten**, and keeps its identity unless the operation binds one to
it. -/
theorem context (h : Effect m op m') {cid : ConnId} {c : ConnectionContext}
    (hc : m.contexts cid = some c) :
    ∃ c', m'.contexts cid = some c' ∧
      (ConnectionContext.Evolves (· ∈ op.puts) (op.Closes cid) c c' ∨
        ∃ identity, op = .bindIdentity cid identity ∧ c.authenticated = false ∧
          c' = c.authenticate identity) := by
  cases h with
  | rejected => exact ⟨c, hc, .inl (.refl _ _ c)⟩
  | @registered cid' k now hfresh =>
      have hne : cid ≠ cid' := by
        rintro rfl
        rw [hfresh] at hc
        cases hc
      refine ⟨c, ?_, .inl (.refl _ _ c)⟩
      rw [registered_contexts, if_neg hne]
      exact hc
  | @bound cid' c₁ identity hctx _ hauth =>
      by_cases hcid : cid = cid'
      · subst hcid
        rw [hctx] at hc
        cases hc
        refine ⟨_, ?_, .inr ⟨identity, rfl, hauth, rfl⟩⟩
        rw [bindIdentity_contexts, if_pos rfl]
      · refine ⟨c, ?_, .inl (.refl _ _ c)⟩
        rw [bindIdentity_contexts, if_neg hcid]
        exact hc
  | unregistered cid' =>
      obtain ⟨c', hc', hcc⟩ := (contextsEvolve_unregister _ m cid').exists_of_some hc
      exact ⟨c', hc', .inl (hcc.mono (fun _ => id) fun heq => .inr (by rw [heq]))⟩
  | enqueued | drained | discarded => exact ⟨c, hc, .inl (.refl _ _ c)⟩
  | contexts hevolve =>
      obtain ⟨c', hc', hcc⟩ := hevolve.exists_of_some hc
      exact ⟨c', hc', .inl (hcc.mono (fun _ => id) .inl)⟩

/-- A context there was not before is the one a registration creates. -/
theorem context_back (h : Effect m op m') {cid : ConnId} {c' : ConnectionContext}
    (hc' : m'.contexts cid = some c') :
    (∃ c, m.contexts cid = some c) ∨
      ∃ k now, op = .register cid k now ∧ c' = freshContext m.limits cid k now := by
  cases h with
  | rejected => exact .inl ⟨c', hc'⟩
  | @registered cid' k now =>
      rw [registered_contexts] at hc'
      split_ifs at hc' with hcid
      · cases hc'
        exact .inr ⟨k, now, by rw [hcid], by rw [hcid]⟩
      · exact .inl ⟨c', hc'⟩
  | @bound cid' c₁ identity hctx =>
      rw [bindIdentity_contexts] at hc'
      split_ifs at hc' with hcid
      · exact .inl ⟨c₁, hcid ▸ hctx⟩
      · exact .inl ⟨c', hc'⟩
  | unregistered cid' =>
      have hevolve := contextsEvolve_unregister (fun _ => True) m cid'
      obtain ⟨c, hc, -⟩ := hevolve.exists_of_eq_some hc'
      exact .inl ⟨c, hc⟩
  | enqueued | drained | discarded => exact .inl ⟨c', hc'⟩
  | contexts hevolve =>
      obtain ⟨c, hc, -⟩ := hevolve.exists_of_eq_some hc'
      exact .inl ⟨c, hc⟩

/-- A message on the offline queue was there before or has just been put there. -/
theorem queued_back (h : Effect m op m') {r : PyStr} {message : OutboundMessage}
    (hmem : message ∈ m'.offlineQueue.queued r) :
    message ∈ m.offlineQueue.queued r ∨ message ∈ op.puts := by
  cases h with
  | rejected | registered | contexts => exact .inl hmem
  | bound =>
      rw [bindIdentity_offlineQueue] at hmem
      exact .inl hmem
  | unregistered =>
      rw [unregister_offlineQueue] at hmem
      exact .inl hmem
  | enqueued r' message' =>
      by_cases hroom : m.offlineQueue.HasRoom r'
      · simp only [ConnectionManager.enqueueOffline,
          OfflineQueue.queued_enqueue_of_room _ hroom] at hmem
        split_ifs at hmem with hr
        · subst hr
          rcases List.mem_append.1 hmem with hold | hnew
          · exact .inl hold
          · exact .inr (by simpa [puts] using hnew)
        · exact .inl hmem
      · -- a refused message may leave a deque behind, but an empty one
        refine .inl ?_
        have hqueued := OfflineQueue.queued_enqueue_of_not_room message' hroom r
        simp only [ConnectionManager.enqueueOffline, hqueued] at hmem
        exact hmem
  | drained r' =>
      simp only [ConnectionManager.drainOffline, OfflineQueue.queued_drain] at hmem
      split_ifs at hmem with hr
      · simp at hmem
      · exact .inl hmem
  | discarded r' =>
      simp only [ConnectionManager.discardOffline, OfflineQueue.discard,
        OfflineQueue.queued_erase] at hmem
      split_ifs at hmem with hr
      · simp at hmem
      · exact .inl hmem

/-- A queued message stays queued until its name is drained or discarded. -/
theorem queued (h : Effect m op m') {r : PyStr} (hdrain : op ≠ .drainOffline r)
    (hdiscard : op ≠ .discardOffline r) {message : OutboundMessage}
    (hmem : message ∈ m.offlineQueue.queued r) : message ∈ m'.offlineQueue.queued r := by
  cases h with
  | rejected | registered | contexts => exact hmem
  | bound => rwa [bindIdentity_offlineQueue]
  | unregistered => rwa [unregister_offlineQueue]
  | enqueued r' message' =>
      by_cases hroom : m.offlineQueue.HasRoom r'
      · simp only [ConnectionManager.enqueueOffline, OfflineQueue.queued_enqueue_of_room _ hroom]
        split_ifs with hr
        · exact List.mem_append_left _ (hr ▸ hmem)
        · exact hmem
      · simp only [ConnectionManager.enqueueOffline,
          OfflineQueue.queued_enqueue_of_not_room message' hroom]
        exact hmem
  | drained r' =>
      have hr : r ≠ r' := fun hr => hdrain (by rw [hr])
      simp only [ConnectionManager.drainOffline, OfflineQueue.queued_drain, if_neg hr]
      exact hmem
  | discarded r' =>
      have hr : r ≠ r' := fun hr => hdiscard (by rw [hr])
      simp only [ConnectionManager.discardOffline, OfflineQueue.discard,
        OfflineQueue.queued_erase, if_neg hr]
      exact hmem

end ManagerOp.Effect

/-! ### Messages that some queue has taken -/

namespace ConnectionManager

/-- Some connection has accepted the message, or it is queued for some name. -/
def Held (m : ConnectionManager) (message : OutboundMessage) : Prop :=
  (∃ cid c, m.contexts cid = some c ∧ message ∈ c.outbound.accepted) ∨
    ∃ r, message ∈ m.offlineQueue.queued r

theorem Held.of_effect {m m' : ConnectionManager} {op : ManagerOp} (h : ManagerOp.Effect m op m')
    {message : OutboundMessage} (hheld : m'.Held message) :
    m.Held message ∨ message ∈ op.puts := by
  rcases hheld with ⟨cid, c', hc', hmem⟩ | ⟨r, hmem⟩
  · rcases h.context_back hc' with ⟨c, hc⟩ | ⟨k, now, rfl, rfl⟩
    · obtain ⟨c₁, hc₁, hcase⟩ := h.context hc
      rw [hc₁] at hc'
      cases hc'
      rcases hcase with hcc | ⟨identity, -, -, rfl⟩
      · exact (hcc.mem_accepted hmem).imp_left fun hold => .inl ⟨cid, c, hc, hold⟩
      · exact .inl (.inl ⟨cid, c, hc, hmem⟩)
    · simp [freshContext] at hmem
  · exact (h.queued_back hmem).imp_left fun hold => .inr ⟨r, hold⟩

/-- **What operations of a class leave on queues was there before or was put there by one of
them.** -/
theorem Reaches.held {K : ManagerOp → Prop} {m m' : ConnectionManager} (h : Reaches K m m')
    {message : OutboundMessage} (hheld : m'.Held message) :
    m.Held message ∨ ∃ op, K op ∧ message ∈ op.puts := by
  induction h with
  | refl => exact .inl hheld
  | tail _ hK happ ih =>
      rcases hheld.of_effect (ManagerOp.effect happ) with hold | hnew
      · exact ih hold
      · exact .inr ⟨_, hK, hnew⟩

/-- A connection bound to the name has accepted the message. -/
def PlacedFor (m : ConnectionManager) (k : PyStr) (message : OutboundMessage) : Prop :=
  ∃ cid c, m.contexts cid = some c ∧ c.authenticated = true ∧ c.accountUsername = some k ∧
    message ∈ c.outbound.accepted

theorem PlacedFor.of_effect {m m' : ConnectionManager} {op : ManagerOp}
    (h : ManagerOp.Effect m op m') {k : PyStr} {message : OutboundMessage}
    (hplaced : m.PlacedFor k message) : m'.PlacedFor k message := by
  obtain ⟨cid, c, hc, hauth, hname, hmem⟩ := hplaced
  obtain ⟨c', hc', hcc | ⟨identity, -, hunauth, -⟩⟩ := h.context hc
  · refine ⟨cid, c', hc', ?_, ?_, hcc.accepted_mono hmem⟩
    · rw [hcc.authenticated, hauth]
    · rw [hcc.accountUsername, hname]
  · rw [hauth] at hunauth
    cases hunauth

/-- A message placed for a name stays placed. -/
theorem Reaches.placedFor {K : ManagerOp → Prop} {m m' : ConnectionManager} (h : Reaches K m m')
    {k : PyStr} {message : OutboundMessage} (hplaced : m.PlacedFor k message) :
    m'.PlacedFor k message :=
  h.invariant (fun _ _ _ hm _ happ => PlacedFor.of_effect (ManagerOp.effect happ) hm) hplaced

/-- The message is queued for the name, or placed for it. -/
def KeptFor (m : ConnectionManager) (k : PyStr) (message : OutboundMessage) : Prop :=
  message ∈ m.offlineQueue.queued k ∨ m.PlacedFor k message

theorem KeptFor.of_effect {m m' : ConnectionManager} {op : ManagerOp}
    (h : ManagerOp.Effect m op m') {k : PyStr} (hdrain : op ≠ .drainOffline k)
    (hdiscard : op ≠ .discardOffline k) {message : OutboundMessage} (hkept : m.KeptFor k message) :
    m'.KeptFor k message :=
  hkept.imp (h.queued hdrain hdiscard) (PlacedFor.of_effect h)

/-- **A message kept for a name stays kept**, as long as the name is neither drained nor
discarded. -/
theorem Reaches.keptFor {K : ManagerOp → Prop} {m m' : ConnectionManager} (h : Reaches K m m')
    {k : PyStr} (hK : ∀ op, K op → op ≠ .drainOffline k ∧ op ≠ .discardOffline k)
    {message : OutboundMessage} (hkept : m.KeptFor k message) : m'.KeptFor k message :=
  h.invariant (fun _ _ _ hm hop happ =>
    KeptFor.of_effect (ManagerOp.effect happ) (hK _ hop).1 (hK _ hop).2 hm) hkept

/-! ### The life of a context along several operations -/

/-- **An identity is bound at most once**: operations that can only bind one given identity to a
connection either keep the identity it has, or bind the given one to it while it has none. -/
theorem Reaches.identity {K : ManagerOp → Prop} {m m' : ConnectionManager} (h : Reaches K m m')
    {cid : ConnId} {identity : AuthenticatedIdentity}
    (hK : ∀ identity', K (.bindIdentity cid identity') → identity' = identity)
    {c : ConnectionContext} (hc : m.contexts cid = some c) :
    ∃ c', m'.contexts cid = some c' ∧
      (ConnectionContext.SameIdentity c c' ∨
        c.authenticated = false ∧
          ConnectionContext.SameIdentity (c.authenticate identity) c') := by
  induction h with
  | refl => exact ⟨c, hc, .inl (.refl c)⟩
  | tail _ hop happ ih =>
      obtain ⟨c₁, hc₁, hcase⟩ := ih
      obtain ⟨c', hc', hcc | ⟨identity', rfl, hunauth, rfl⟩⟩ :=
        (ManagerOp.effect happ).context hc₁
      · refine ⟨c', hc', hcase.imp ?_ (And.imp_right ?_)⟩
        · exact fun hsame => hsame.trans hcc.toSameIdentity
        · exact fun hsame => hsame.trans hcc.toSameIdentity
      · rw [hK identity' hop] at hc'
        rcases hcase with hsame | ⟨-, hsame⟩
        · refine ⟨_, hc', .inr ⟨hsame.authenticated ▸ hunauth, ?_⟩⟩
          exact ⟨hsame.connectionId, hsame.transportClientId, rfl, rfl, rfl, rfl, hsame.maxsize⟩
        · -- the connection is authenticated by now
          rw [hsame.authenticated] at hunauth
          cases hunauth

/-- Operations that bind nothing to a connection keep the identity it has. -/
theorem Reaches.sameIdentity {K : ManagerOp → Prop} {m m' : ConnectionManager}
    (h : Reaches K m m') {cid : ConnId} (hK : ∀ identity, ¬ K (.bindIdentity cid identity))
    {c : ConnectionContext} (hc : m.contexts cid = some c) :
    ∃ c', m'.contexts cid = some c' ∧ ConnectionContext.SameIdentity c c' := by
  induction h with
  | refl => exact ⟨c, hc, .refl c⟩
  | tail _ hop happ ih =>
      obtain ⟨c₁, hc₁, hsame⟩ := ih
      obtain ⟨c', hc', hcc | ⟨identity, rfl, -⟩⟩ := (ManagerOp.effect happ).context hc₁
      · exact ⟨c', hc', hsame.trans hcc.toSameIdentity⟩
      · exact absurd hop (hK identity)

end ConnectionManager

/-! ### Connections an operation is not about -/

/-- The operation registers, binds, closes or removes the connection. -/
def ManagerOp.Targets (cid : ConnId) : ManagerOp → Prop
  | register cid' _ _ => cid' = cid
  | bindIdentity cid' _ => cid' = cid
  | markClosing cid' => cid' = cid
  | unregister cid' => cid' = cid
  | _ => False

/-- A connection is registered, open and bound as it was. -/
structure ConnectionManager.Untouched (m m' : ConnectionManager) (cid : ConnId) : Prop where
  registered : cid ∈ m'.connections ↔ cid ∈ m.connections
  absent : m.contexts cid = none → m'.contexts cid = none
  present : ∀ c, m.contexts cid = some c → ∃ c', m'.contexts cid = some c' ∧
    ConnectionContext.SameIdentity c c' ∧ c'.closing = c.closing

namespace ConnectionManager

theorem Untouched.refl (m : ConnectionManager) (cid : ConnId) : Untouched m m cid :=
  ⟨Iff.rfl, id, fun c hc => ⟨c, hc, .refl c, rfl⟩⟩

theorem Untouched.trans {m m' m'' : ConnectionManager} {cid : ConnId} (h : Untouched m m' cid)
    (h' : Untouched m' m'' cid) : Untouched m m'' cid := by
  refine ⟨h'.registered.trans h.registered, fun hnone => h'.absent (h.absent hnone), ?_⟩
  intro c hc
  obtain ⟨c₁, hc₁, hsame, hclosing⟩ := h.present c hc
  obtain ⟨c₂, hc₂, hsame', hclosing'⟩ := h'.present c₁ hc₁
  exact ⟨c₂, hc₂, hsame.trans hsame', hclosing'.trans hclosing⟩

theorem untouched_of_effect {m m' : ConnectionManager} {op : ManagerOp}
    (h : ManagerOp.Effect m op m') {cid : ConnId} (hop : ¬ op.Targets cid) :
    Untouched m m' cid := by
  refine ⟨?_, ?_, ?_⟩
  · cases h with
    | rejected | enqueued | drained | discarded | contexts => exact Iff.rfl
    | @registered cid' =>
        have hne : cid ≠ cid' := fun heq => hop heq.symm
        rw [registered_connections, Finset.mem_insert]
        simp [hne]
    | bound => rw [bindIdentity_connections]
    | unregistered cid' =>
        have hne : cid ≠ cid' := fun heq => hop heq.symm
        rw [unregister_connections, Finset.mem_erase]
        simp [hne]
  · intro hnone
    cases hc' : m'.contexts cid with
    | none => rfl
    | some c' =>
        rcases h.context_back hc' with ⟨c, hc⟩ | ⟨k, now, rfl, -⟩
        · rw [hnone] at hc
          cases hc
        · exact absurd rfl hop
  · intro c hc
    obtain ⟨c', hc', hcc | ⟨identity, rfl, -⟩⟩ := h.context hc
    · refine ⟨c', hc', hcc.toSameIdentity, ?_⟩
      have hcloses : ¬ op.Closes cid := by
        rintro (rfl | rfl)
        · exact hop rfl
        · exact hop rfl
      rw [Bool.eq_iff_iff]
      exact ⟨fun h' => (hcc.closed h').resolve_right hcloses, hcc.closing⟩
    · exact absurd rfl hop

/-- **Operations that are not about a connection leave it as it is.** -/
theorem Reaches.untouched {K : ManagerOp → Prop} {m m' : ConnectionManager} (h : Reaches K m m')
    {cid : ConnId} (hK : ∀ op, K op → ¬ op.Targets cid) : Untouched m m' cid := by
  induction h with
  | refl => exact .refl _ cid
  | tail _ hop happ ih => exact ih.trans (untouched_of_effect (ManagerOp.effect happ) (hK _ hop))

end ConnectionManager

/-! ### Quiet operations -/

/-- The operation touches neither the registry nor a binding nor a closing flag, and removes no
queued message. -/
def ManagerOp.Quiet : ManagerOp → Prop
  | register _ _ _ => False
  | bindIdentity _ _ => False
  | markClosing _ => False
  | unregister _ => False
  | drainOffline _ => False
  | discardOffline _ => False
  | _ => True

theorem ManagerOp.Quiet.not_targets {op : ManagerOp} (h : op.Quiet) (cid : ConnId) :
    ¬ op.Targets cid := by
  cases op <;> first | exact id | exact absurd h id

end EncryptChat
