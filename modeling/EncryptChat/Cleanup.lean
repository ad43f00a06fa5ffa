/-
**When a connection leaves the registry.**

`unregister` stands at the end of a `finally` block, after two awaits, and `accept` is awaited
before the `try` block begins.  A handler can therefore end in three ways without unregistering its
connection; in every other way it ends, the connection is gone.

Main definitions:

* `EncryptChat.Handler.Skips` — the step ends the handler before it unregisters;
* `EncryptChat.SkippedIn` — some step of a run did.

Main results:

* `EncryptChat.HandlerEffect.cleanup` — what a step means for the cleanup;
* `EncryptChat.unregistered_iff` — **a finished handler has unregistered its connection exactly when
  none of its steps skipped the cleanup**;
* `EncryptChat.registered_after_failed_accept` — an upgrade whose `accept` fails.
-/

import EncryptChat.SenderAuthenticity

set_option relaxedAutoImplicit false
set_option autoImplicit false

namespace EncryptChat

open Python Transition ConnectionManager

/-! ### The steps that skip the cleanup -/

/-- The step ends the handler before it unregisters: `accept` raises or is cancelled, the join
raises something that is not suppressed, or the awaited writer has failed. -/
def Handler.Skips (hd : Handler) : HandlerAction → Prop
  | .accepted (some _) => True
  | .flushed (some e) => e ≠ .timeoutError ∧ e ≠ .cancelledError
  | .writerAwaited => ∃ e, hd.writer = .failed e
  | _ => False

/-- **What a step means for the cleanup**: it skips it; or the handler goes on; or the handler ends
after it has unregistered; or only the writer moves. -/
theorem HandlerEffect.cleanup {lib : Libraries} {m : ConnectionManager} {ref : ℕ} {cid : ConnId}
    {hd : Handler} {a : HandlerAction} {outcome : ConnectionManager × Handler}
    (h : HandlerEffect lib m ref cid hd a outcome) :
    (hd.Skips a ∧ hd.phase.Before ∧ outcome.1 = m ∧ outcome.2.phase = .finished) ∨
      (¬ hd.Skips a ∧ hd.phase ≠ .finished ∧ outcome.2.phase ≠ .finished) ∨
      (¬ hd.Skips a ∧ hd.phase = .closing ∧ outcome.1 = m ∧ outcome.2.phase = .finished) ∨
      (¬ hd.Skips a ∧ outcome.1.connections = m.connections ∧ outcome.2.phase = hd.phase) := by
  cases h with
  | accepted hphase e =>
      cases e with
      | none =>
          exact .inr (.inl ⟨id, by rw [hphase]; exact Phase.noConfusion,
            fun h => Phase.noConfusion h⟩)
      | some e => exact .inl ⟨trivial, by rw [hphase]; trivial, rfl, rfl⟩
  | frame hphase =>
      refine .inr (.inl ⟨id, by rw [hphase]; exact Phase.noConfusion, ?_⟩)
      unfold continueLoop
      split <;> exact fun h => Phase.noConfusion h
  | frameRaises hphase | resolveRaises hphase =>
      exact .inr (.inl ⟨id, by rw [hphase]; exact Phase.noConfusion,
        fun h => Phase.noConfusion h⟩)
  | @receiveRaises context hphase _ e =>
      refine .inr (.inl ⟨id, by rw [hphase]; exact Phase.noConfusion, ?_⟩)
      obtain ⟨m', code, raised, heq, -⟩ := receiveRaisesStep_eq m cid context hd e
      rw [heq]
      exact fun h => Phase.noConfusion h
  | resolved hphase =>
      refine .inr (.inl ⟨id, by rw [hphase]; exact Phase.noConfusion, ?_⟩)
      unfold resolvedStep continueLoop
      dsimp only
      split <;> exact fun h => Phase.noConfusion h
  | flushed hphase e =>
      have hgoes : hd.phase ≠ .finished := by rw [hphase]; exact Phase.noConfusion
      unfold flushStep
      split
      · exact .inr (.inl ⟨id, hgoes, fun h => Phase.noConfusion h⟩)
      · exact .inr (.inl ⟨fun h => h.1 rfl, hgoes, fun h => Phase.noConfusion h⟩)
      · exact .inr (.inl ⟨fun h => h.2 rfl, hgoes, fun h => Phase.noConfusion h⟩)
      -- what the join raises besides these two is not suppressed
      · rename_i e htimeout hcancelled
        exact .inl ⟨⟨htimeout, hcancelled⟩, by rw [hphase]; trivial, rfl, rfl⟩
  | writerEnded hphase hwriter =>
      refine .inr (.inl ⟨?_, by rw [hphase]; exact Phase.noConfusion,
        fun h => Phase.noConfusion h⟩)
      rintro ⟨e, he⟩
      rcases hwriter with hw | hw
      · rw [hw] at he
        cases he
      · rw [hw] at he
        cases he
  | writerFailed hphase hwriter => exact .inl ⟨⟨_, hwriter⟩, by rw [hphase]; trivial, rfl, rfl⟩
  | writerAwaitCancelled hphase =>
      exact .inr (.inl ⟨id, by rw [hphase]; exact Phase.noConfusion,
        fun h => Phase.noConfusion h⟩)
  | closed hphase e =>
      obtain ⟨raised, heq⟩ := closeStep_eq hd e
      rw [heq]
      exact .inr (.inr (.inl ⟨id, hphase, rfl, rfl⟩))
  | writerGets => exact .inr (.inr (.inr ⟨id, rfl, rfl⟩))
  | writerCancelled => exact .inr (.inr (.inr ⟨id, rfl, rfl⟩))
  | @writerSends context hctx e =>
      obtain ⟨m', writer, heq, rfl | rfl⟩ := sendStep_eq m cid hd context e
      · rw [heq]
        exact .inr (.inr (.inr ⟨id, rfl, rfl⟩))
      · rw [heq]
        exact .inr (.inr (.inr ⟨id, rfl, rfl⟩))

/-! ### Along a run -/

/-- Some step of the connection skipped the cleanup. -/
def SkippedIn (tr : List (ServerState × ServerAction)) (cid : ConnId) : Prop :=
  ∃ u hd a, (u, ServerAction.act cid a) ∈ tr ∧ u.handlers cid = some hd ∧ hd.Skips a

theorem skippedIn_snoc_of_ne {tr : List (ServerState × ServerAction)} {u : ServerState}
    {cid cid' : ConnId} {a : HandlerAction} (hne : cid ≠ cid') :
    SkippedIn (tr ++ [(u, .act cid' a)]) cid ↔ SkippedIn tr cid := by
  constructor
  · rintro ⟨v, hd, b, hmem, hhd, hskips⟩
    rcases List.mem_append.1 hmem with hmem | hmem
    · exact ⟨v, hd, b, hmem, hhd, hskips⟩
    · simp only [List.mem_singleton, Prod.mk.injEq, ServerAction.act.injEq] at hmem
      exact absurd hmem.2.1 hne
  · rintro ⟨v, hd, b, hmem, hhd, hskips⟩
    exact ⟨v, hd, b, List.mem_append_left _ hmem, hhd, hskips⟩

theorem skippedIn_snoc_connect {tr : List (ServerState × ServerAction)} {u : ServerState}
    {cid cid' : ConnId} {hex : PyStr} {origin : Option PyStr} {now : ℚ} :
    SkippedIn (tr ++ [(u, .connect cid' hex origin now)]) cid ↔ SkippedIn tr cid := by
  simp [SkippedIn]

theorem skippedIn_snoc {tr : List (ServerState × ServerAction)} {u : ServerState} {cid : ConnId}
    {a : HandlerAction} {hd : Handler} (hhd : u.handlers cid = some hd) :
    SkippedIn (tr ++ [(u, .act cid a)]) cid ↔ SkippedIn tr cid ∨ hd.Skips a := by
  constructor
  · rintro ⟨v, hd', b, hmem, hhd', hskips⟩
    rcases List.mem_append.1 hmem with hmem | hmem
    · exact .inl ⟨v, hd', b, hmem, hhd', hskips⟩
    · simp only [List.mem_singleton, Prod.mk.injEq, ServerAction.act.injEq, true_and] at hmem
      obtain ⟨rfl, rfl⟩ := hmem
      rw [hhd] at hhd'
      cases hhd'
      exact .inr hskips
  · rintro (⟨v, hd', b, hmem, hhd', hskips⟩ | hskips)
    · exact ⟨v, hd', b, List.mem_append_left _ hmem, hhd', hskips⟩
    · exact ⟨u, hd, a, by simp, hhd, hskips⟩

/-- What the run so far means for the cleanup of a connection. -/
structure CleanupInv (s : ServerState) (tr : List (ServerState × ServerAction)) (cid : ConnId) :
    Prop where
  unhandled : s.handlers cid = none → ¬ SkippedIn tr cid
  running : ∀ hd, s.handlers cid = some hd → hd.phase ≠ .finished → ¬ SkippedIn tr cid
  finished : ∀ hd, s.handlers cid = some hd → hd.phase = .finished →
    (cid ∈ s.manager.connections ↔ SkippedIn tr cid)

/-- What other connections do means nothing for the cleanup of this one. -/
theorem CleanupInv.untouched {s s' : ServerState} {tr tr' : List (ServerState × ServerAction)}
    {cid : ConnId} (h : CleanupInv s tr cid) (hhandlers : s'.handlers cid = s.handlers cid)
    (hregistered : cid ∈ s'.manager.connections ↔ cid ∈ s.manager.connections)
    (htr : SkippedIn tr' cid ↔ SkippedIn tr cid) : CleanupInv s' tr' cid := by
  refine ⟨?_, ?_, ?_⟩ <;> rw [hhandlers, htr]
  · exact h.unhandled
  · exact h.running
  · rw [hregistered]
    exact h.finished

/-- **The step of one connection.** -/
theorem CleanupInv.own {lib : Libraries} {s : ServerState}
    {tr : List (ServerState × ServerAction)} {cid : ConnId} (h : CleanupInv s tr cid)
    {a : HandlerAction} {hd : Handler} {outcome : ConnectionManager × Handler}
    (hhd : s.handlers cid = some hd) (hknown : HandlerInv s.manager cid hd)
    (heffect : HandlerEffect lib s.manager s.nextRef cid hd a outcome) :
    CleanupInv (s.put cid outcome) (tr ++ [(s, .act cid a)]) cid := by
  have hput : (s.put cid outcome).handlers cid = some outcome.2 := by simp [ServerState.put]
  have hmanager : (s.put cid outcome).manager = outcome.1 := rfl
  refine ⟨fun hnone => ?_, fun hd' hhd' hphase => ?_, fun hd' hhd' hphase => ?_⟩
  · rw [hput] at hnone
    cases hnone
  · rw [hput, Option.some.injEq] at hhd'
    subst hhd'
    rw [skippedIn_snoc hhd, not_or]
    rcases heffect.cleanup with ⟨-, -, -, hfin⟩ | ⟨hskips, hgoes, -⟩ | ⟨-, -, -, hfin⟩ |
        ⟨hskips, -, hsame⟩
    · exact absurd hfin hphase
    · exact ⟨h.running hd hhd hgoes, hskips⟩
    · exact absurd hfin hphase
    · exact ⟨h.running hd hhd (hsame ▸ hphase), hskips⟩
  · rw [hput, Option.some.injEq] at hhd'
    subst hhd'
    rw [skippedIn_snoc hhd, hmanager]
    rcases heffect.cleanup with ⟨hskips, hbefore, hm, -⟩ | ⟨-, -, hgoes⟩ |
        ⟨hskips, hclosing, hm, -⟩ | ⟨hskips, hm, hsame⟩
    · rw [hm]
      exact iff_of_true (hknown.registered hbefore) (.inr hskips)
    · exact absurd hphase hgoes
    · rw [hm]
      have hrunning : hd.phase ≠ .finished := by rw [hclosing]; exact Phase.noConfusion
      refine iff_of_false (hknown.removed hclosing) ?_
      exact not_or.2 ⟨h.running hd hhd hrunning, hskips⟩
    · rw [hm, h.finished hd hhd (hsame ▸ hphase), or_iff_left hskips]

/-- **What a run means for the cleanup of every connection.** -/
theorem cleanupInv_of_run {lib : Libraries} {limits : TransportLimits} {s : ServerState}
    {tr : List (ServerState × ServerAction)}
    (h : (serverSystem lib limits).Run (.new limits) tr s) (cid : ConnId) :
    CleanupInv s tr cid := by
  induction h with
  | nil => exact ⟨by simp [SkippedIn], by simp [ServerState.new], by simp [ServerState.new]⟩
  | @snoc u w tr a hrun hstep ih =>
      have hinv := inv_of_run hrun
      cases a with
      | connect cid' hex origin now =>
          change u.step lib (.connect cid' hex origin now) = some w at hstep
          obtain ⟨hnone, ⟨hm, hh⟩ | ⟨happ, -, -, hh⟩⟩ := ServerState.step_connect hstep
          · exact ih.untouched (by rw [hh]) (by rw [hm]) skippedIn_snoc_connect
          · by_cases hne : cid = cid'
            · subst hne
              -- the id is new, so no handler with it has taken a step
              have hskipped : ¬ SkippedIn tr cid := by
                cases hhd : u.handlers cid with
                | none => exact ih.unhandled hhd
                | some hd =>
                    obtain ⟨c, hc⟩ := (hinv.handler cid hd hhd).present
                    rw [hnone] at hc
                    cases hc
              refine ⟨?_, ?_, ?_⟩ <;> rw [hh, Function.update_self, skippedIn_snoc_connect]
              · exact fun h => absurd h (by simp)
              · exact fun _ _ _ => hskipped
              · intro hd hhd hphase
                rw [Option.some.injEq] at hhd
                subst hhd
                cases hphase
            · refine ih.untouched (by rw [hh, Function.update_of_ne hne]) ?_
                skippedIn_snoc_connect
              exact (untouched_of_effect (ManagerOp.effect happ) (Ne.symm hne)).registered
      | act cid' a' =>
          change u.step lib (.act cid' a') = some w at hstep
          obtain ⟨hd, outcome, hhd, heffect, rfl⟩ := ServerState.step_act hstep
          by_cases hne : cid = cid'
          · subst hne
            exact ih.own hhd (hinv.handler cid hd hhd) heffect
          · refine ih.untouched ?_ ?_ (skippedIn_snoc_of_ne hne)
            · simp [ServerState.put, Function.update_of_ne hne]
            · exact ((hinv.reaches_act hstep).untouched fun op hop htarget =>
                hne (hop.targets htarget)).registered

/-- **A finished handler has unregistered its connection exactly when none of its steps skipped the
cleanup**: `accept` completed, the join completed, timed out or was cancelled, and the writer had
not failed when it was awaited. -/
theorem unregistered_iff (lib : Libraries) (limits : TransportLimits) {s : ServerState}
    {tr : List (ServerState × ServerAction)}
    (h : (serverSystem lib limits).Run (.new limits) tr s) {cid : ConnId} {hd : Handler}
    (hhd : s.handlers cid = some hd) (hphase : hd.phase = .finished) :
    (cid ∉ s.manager.connections ∧ ∀ k, cid ∉ s.manager.clients k) ↔
      ∀ u hd' a, (u, ServerAction.act cid a) ∈ tr → u.handlers cid = some hd' → ¬ hd'.Skips a := by
  have hfinished := (cleanupInv_of_run h cid).finished hd hhd hphase
  have hindexed := (inv_of_run h).wf.indexed cid
  constructor
  · rintro ⟨hnot, -⟩ u hd' a hmem hhd' hskips
    exact hnot (hfinished.2 ⟨u, hd', a, hmem, hhd', hskips⟩)
  · intro hnone
    have hnot : cid ∉ s.manager.connections := by
      intro hmem
      obtain ⟨u, hd', a, hmem', hhd', hskips⟩ := hfinished.1 hmem
      exact hnone u hd' a hmem' hhd' hskips
    exact ⟨hnot, fun k hmem => hnot ((hindexed k).1 hmem).1⟩

/-- A connection whose client goes away, and whose join times out. -/
def aliceLeaves : List ServerAction :=
  [.connect aliceId aliceId none 0, .act aliceId (.accepted none),
    .act aliceId (.receiveRaises .webSocketDisconnect),
    .act aliceId (.flushed (some .timeoutError)), .act aliceId .writerCancelled,
    .act aliceId .writerAwaited, .act aliceId (.closed none)]

/-- The handler of a connection has ended. -/
def ServerState.HasEnded (s : ServerState) (cid : ConnId) : Bool :=
  match s.handlers cid with
  | some ⟨.finished, _, _, _, _⟩ => true
  | _ => false

theorem ServerState.finished_of_hasEnded {s : ServerState} {cid : ConnId}
    (h : s.HasEnded cid = true) :
    ∃ hd, s.handlers cid = some hd ∧ hd.phase = .finished := by
  unfold HasEnded at h
  split at h
  · rename_i hhd
    exact ⟨_, hhd, rfl⟩
  · cases h

/-- The client goes away: nothing was skipped. -/
theorem unregistered_iff_alice :
    ∃ tr s, (serverSystem sampleLibraries onePending).Run (.new onePending) tr s ∧
      ∀ u hd a, (u, ServerAction.act aliceId a) ∈ tr → u.handlers aliceId = some hd →
        ¬ hd.Skips a := by
  have hexec : ((serverSystem sampleLibraries onePending).exec (.new onePending) aliceLeaves).map
      (fun s => s.HasEnded aliceId && decide (aliceId ∉ s.manager.connections)) =
        some true := by decide +kernel
  obtain ⟨s, -, hrun, hp⟩ := System.exists_run_of_exec hexec
  rw [Bool.and_eq_true, decide_eq_true_iff] at hp
  obtain ⟨hd, hhd, hphase⟩ := ServerState.finished_of_hasEnded hp.1
  have hnot : ∀ k, aliceId ∉ s.manager.clients k := fun k hmem =>
    hp.2 (((inv_of_run hrun).wf.indexed aliceId k).1 hmem).1
  exact ⟨_, s, hrun, (unregistered_iff _ _ hrun hhd hphase).1 ⟨hp.2, hnot⟩⟩

/-- **An upgrade whose `accept` fails**: the coroutine has ended, the connection is still in both
maps. -/
theorem registered_after_failed_accept :
    ∃ tr s, (serverSystem sampleLibraries onePending).Run (.new onePending) tr s ∧
      (∃ hd, s.handlers aliceId = some hd ∧ hd.phase = .finished) ∧
      aliceId ∈ s.manager.connections ∧ aliceId ∈ s.manager.clients (provisionalId aliceId) := by
  have hexec : ((serverSystem sampleLibraries onePending).exec (.new onePending)
      [.connect aliceId aliceId none 0, .act aliceId (.accepted (some .runtimeError))]).map
        (fun s => s.HasEnded aliceId && (decide (aliceId ∈ s.manager.connections) &&
          decide (aliceId ∈ s.manager.clients (provisionalId aliceId)))) =
      some true := by decide +kernel
  obtain ⟨s, -, hrun, hp⟩ := System.exists_run_of_exec hexec
  simp only [Bool.and_eq_true, decide_eq_true_iff] at hp
  exact ⟨_, s, hrun, ServerState.finished_of_hasEnded hp.1, hp.2⟩

end EncryptChat
