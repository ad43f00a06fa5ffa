/-
**The whole application: the accounts and the connections.**

The requests of the authentication layer and the handlers of the connections run on one event loop.
They meet in one place: a connection that presents a token waits for `resolve_access_token`, which
runs in a database session of its own, and goes on with what that returned or raised.

Main definitions:

* `EncryptChat.Application`, `EncryptChat.applicationSystem` — **the transition system of the whole
  application**;
* `EncryptChat.accountsPart`, `EncryptChat.serverPart` — its two components.

Main results:

* `EncryptChat.authRun_of_run`, `EncryptChat.serverRun_of_run` — a run of the application is a run
  of either;
* `EncryptChat.Application.exists_resolved_of_binding` — **an identity that is bound was resolved by
  a request**.
-/

import EncryptChat.AuthService
import EncryptChat.Server

set_option relaxedAutoImplicit false
set_option autoImplicit false

namespace EncryptChat

open Python Concurrent Transition

/-! ### The system -/

/-- The accounts, the connections, and the requests that resolve the tokens of connections. -/
structure Application where
  auth : AuthPool
  server : ServerState
  /-- The request in which the token of a connection is resolved. -/
  resolving : ConnId → Option ℕ

/-- A step of the application. -/
inductive ApplicationAction where
  /-- A request arrives, or takes a step. -/
  | auth (label : AuthLabel)
  /-- A step of the server, other than the end of a resolution. -/
  | server (action : ServerAction)
  /-- A connection that waits for the resolution of its token opens the database session. -/
  | resolve (cid : ConnId) (i : ℕ)
  /-- The request in which the token of a connection is resolved has ended. -/
  | resolved (cid : ConnId)

/-- The step is the end of a resolution. -/
def ServerAction.isResolved : ServerAction → Bool
  | .act _ (.resolved _) => true
  | _ => false

/-- How a resolution ends for the connection that waits for it. -/
def AuthPool.resolution (p : AuthPool) (i : ℕ) : Option HandlerAction :=
  match p.threads i with
  | some ⟨_, .done (.ok (.resolved identity)), _⟩ => some (.resolved (.ok identity))
  | some ⟨_, .done (.error (.auth e)), _⟩ => some (.resolved (.error e))
  | some ⟨_, .done (.error (.python e)), _⟩ => some (.resolveRaises e)
  | _ => none

/-- The token a connection waits for. -/
def ServerState.awaitedToken (s : ServerState) (cid : ConnId) : Option PyStr :=
  match s.handlers cid with
  | some ⟨.authenticating _ rawToken, _, _, _, _⟩ => some rawToken
  | _ => none

namespace Application

/-- Before any request and any connection. -/
def new (env : AuthEnv) (limits : TransportLimits) : Application :=
  ⟨.new env, .new limits, fun _ => none⟩

/-- The step of the accounts. -/
def authLabel (s : Application) : ApplicationAction → Option AuthLabel
  | .auth label => some label
  | .resolve cid i => (s.server.awaitedToken cid).map fun token => .start i (.resolve token)
  | _ => none

/-- The step of the server. -/
def serverAction (s : Application) : ApplicationAction → Option ServerAction
  | .server action => some action
  | .resolved cid => ((s.resolving cid).bind s.auth.resolution).map (.act cid)
  | _ => none

/-- One step of the application. -/
def step (lib : Libraries) (env : AuthEnv) (s : Application) : ApplicationAction →
    Option Application
  | .auth label =>
      (s.auth.step (authExec env) (authCode env) label).map fun p => { s with auth := p }
  | .server action =>
      -- how a resolution ends is for the accounts to say
      if action.isResolved then none
      else (s.server.step lib action).map fun t => { s with server := t }
  | .resolve cid i =>
      match s.server.awaitedToken cid, s.resolving cid with
      -- one resolution at a time
      | some token, none =>
          (s.auth.step (authExec env) (authCode env) (.start i (.resolve token))).map fun p =>
            { s with auth := p, resolving := Function.update s.resolving cid (some i) }
      | _, _ => none
  | .resolved cid =>
      ((s.resolving cid).bind s.auth.resolution).bind fun action =>
        (s.server.step lib (.act cid action)).map fun t =>
          { s with server := t, resolving := Function.update s.resolving cid none }

end Application

/-- **The transition system of the application.** -/
def applicationSystem (lib : Libraries) (env : AuthEnv) (limits : TransportLimits) :
    System Application ApplicationAction where
  init := fun s => s = .new env limits
  step := Application.step lib env

/-! ### Components -/

section Components

variable {lib : Libraries} {env : AuthEnv} {limits : TransportLimits} {s s' : Application}
  {a : ApplicationAction}

/-- What a step of the application is for its two components. -/
theorem Application.step_cases (h : s.step lib env a = some s') :
    (∃ label, s.authLabel a = some label ∧ s.serverAction a = none ∧
        s.auth.step (authExec env) (authCode env) label = some s'.auth ∧ s'.server = s.server) ∨
      ∃ action, s.authLabel a = none ∧ s.serverAction a = some action ∧
        s.server.step lib action = some s'.server ∧ s'.auth = s.auth := by
  cases a with
  | auth label =>
      obtain ⟨p, hp, rfl⟩ := Option.map_eq_some_iff.1 h
      exact .inl ⟨label, rfl, rfl, hp, rfl⟩
  | server action =>
      simp only [step] at h
      split_ifs at h
      obtain ⟨t, ht, rfl⟩ := Option.map_eq_some_iff.1 h
      exact .inr ⟨action, rfl, rfl, ht, rfl⟩
  | resolve cid i =>
      simp only [step] at h
      split at h
      · rename_i token htoken _
        obtain ⟨p, hp, rfl⟩ := Option.map_eq_some_iff.1 h
        exact .inl ⟨_, by simp [authLabel, htoken], rfl, hp, rfl⟩
      · cases h
  | resolved cid =>
      obtain ⟨action, haction, h⟩ := Option.bind_eq_some_iff.1 h
      obtain ⟨t, ht, rfl⟩ := Option.map_eq_some_iff.1 h
      exact .inr ⟨_, rfl, by simp [serverAction, haction], ht, rfl⟩

/-- The accounts in the application. -/
def accountsPart (lib : Libraries) (env : AuthEnv) (limits : TransportLimits) :
    System.Projection (applicationSystem lib env limits) (authSystem env) where
  state := Application.auth
  label := Application.authLabel
  step_of_label := by
    intro s a s' label h hlabel
    rcases Application.step_cases h with ⟨label', hlabel', -, hstep, -⟩ | ⟨-, hnone, -⟩
    · rw [hlabel, Option.some.injEq] at hlabel'
      subst hlabel'
      exact hstep
    · rw [hlabel] at hnone
      cases hnone
  state_of_none := by
    intro s a s' h hnone
    rcases Application.step_cases h with ⟨label, hlabel, -⟩ | ⟨-, -, -, -, hsame⟩
    · rw [hnone] at hlabel
      cases hlabel
    · exact hsame

/-- The server in the application. -/
def serverPart (lib : Libraries) (env : AuthEnv) (limits : TransportLimits) :
    System.Projection (applicationSystem lib env limits) (serverSystem lib limits) where
  state := Application.server
  label := Application.serverAction
  step_of_label := by
    intro s a s' action h haction
    rcases Application.step_cases h with ⟨-, -, hnone, -⟩ | ⟨action', -, haction', hstep, -⟩
    · rw [haction] at hnone
      cases hnone
    · rw [haction, Option.some.injEq] at haction'
      subst haction'
      exact hstep
  state_of_none := by
    intro s a s' h hnone
    rcases Application.step_cases h with ⟨-, -, -, -, hsame⟩ | ⟨action, -, haction, -⟩
    · exact hsame
    · rw [hnone] at haction
      cases haction

variable {t : Application} {tr : List (Application × ApplicationAction)}

/-- **A run of the application is a run of the accounts.** -/
theorem authRun_of_run (h : (applicationSystem lib env limits).Run (.new env limits) tr t) :
    (authSystem env).Run (.new env) ((accountsPart lib env limits).trace tr) t.auth :=
  (accountsPart lib env limits).run h

/-- **A run of the application is a run of the server.** -/
theorem serverRun_of_run (h : (applicationSystem lib env limits).Run (.new env limits) tr t) :
    (serverSystem lib limits).Run (.new limits) ((serverPart lib env limits).trace tr) t.server :=
  (serverPart lib env limits).run h

/-- **An identity that is bound was resolved by a request** that has ended with it. -/
theorem Application.exists_resolved_of_binding (h : s.step lib env a = some s') {cid : ConnId}
    {identity : AuthenticatedIdentity}
    (ha : s.serverAction a = some (.act cid (.resolved (.ok identity)))) :
    ∃ i th, s.auth.threads i = some th ∧ th.rest = .done (.ok (.resolved identity)) := by
  cases a with
  | auth | resolve => cases ha
  | server action =>
      cases ha
      simp [step, ServerAction.isResolved] at h
  | resolved cid' =>
      simp only [serverAction, Option.map_eq_some_iff, Option.bind_eq_some_iff] at ha
      obtain ⟨action, ⟨i, -, hresolution⟩, haction⟩ := ha
      cases haction
      unfold AuthPool.resolution at hresolution
      split at hresolution
      · rename_i request r seen hth
        cases hresolution
        exact ⟨i, _, hth, rfl⟩
      · cases hresolution
      · cases hresolution
      · cases hresolution

end Components

end EncryptChat
