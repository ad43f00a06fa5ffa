/-
**The refresh cookie of a browser.**

The refresh token travels in a cookie: a login and a refresh set it, the deletion of the account and
the logout are to clear it.  A route writes headers on the response object it is given, or on one
that it builds and returns, and only one of the two is sent.

Main definitions:

* `EncryptChat.SetCookie`, `EncryptChat.Jar` — cookies, and what a browser keeps of them;
* `EncryptChat.Handled` — what a route has done with its two response objects;
* `EncryptChat.loginRoute`, `refreshRoute`, `logoutRoute`, `deleteRoute` — the routes;
* `EncryptChat.browserSystem` — **the requests of one browser, one after the other**, with those of
  others in between;
* `EncryptChat.CookieFollows` — the cookie follows the session.

Main results:

* `EncryptChat.Browser.follows_of_exchange` — a request that is no logout keeps the cookie and the
  session together;
* `EncryptChat.refresh_cookie_follows` — **so does every exchange of every run but the logouts that
  succeed with a cookie in the jar**.
-/

import EncryptChat.StoredCredentials

set_option relaxedAutoImplicit false
set_option autoImplicit false

namespace EncryptChat

open Python Concurrent Transition

/-! ### Cookies -/

/-- A `Set-Cookie` header. -/
structure SetCookie where
  key : PyStr
  value : PyStr
  maxAge : ℕ
  path : PyStr
  httponly : Bool
  secure : Bool
  samesite : PyStr

/-- `REFRESH_COOKIE_NAME`. -/
def refreshCookieName : PyStr := py "ecapp_refresh"

/-- The path of the cookie. -/
def refreshCookiePath : PyStr := py "/auth"

/-- `_set_refresh_cookie(response, credentials, secure=secure)`. -/
def setRefreshCookie (credentials : IssuedCredentials) (secure : Bool) : SetCookie where
  key := refreshCookieName
  value := credentials.refreshToken
  maxAge := 60 * 60 * 24 * 14
  path := refreshCookiePath
  httponly := true
  secure := secure
  samesite := py "strict"

/-- `_clear_refresh_cookie(response)`: a cookie that has expired. -/
def clearRefreshCookie : SetCookie where
  key := refreshCookieName
  value := []
  maxAge := 0
  path := refreshCookiePath
  httponly := true
  secure := false
  samesite := py "strict"

/-- A cookie a browser keeps. -/
structure Cookie where
  key : PyStr
  path : PyStr
  value : PyStr

/-- The header is about this cookie. -/
def SetCookie.names (header : SetCookie) (cookie : Cookie) : Bool :=
  cookie.key == header.key && cookie.path == header.path

/-- The cookies a browser keeps for the server. -/
abbrev Jar : Type := List Cookie

namespace Jar

/-- A header replaces the cookie of its name and path; one that has expired removes it. -/
def accept (jar : Jar) (header : SetCookie) : Jar :=
  let others := jar.filter fun cookie => !header.names cookie
  if header.maxAge = 0 then others else others ++ [⟨header.key, header.path, header.value⟩]

/-- The headers of a response. -/
def receive (jar : Jar) (headers : List SetCookie) : Jar := headers.foldl accept jar

/-- The refresh cookie, as `request.cookies.get` finds it. -/
def refreshCookie (jar : Jar) : Option PyStr :=
  (jar.find? fun cookie => cookie.key == refreshCookieName && cookie.path == refreshCookiePath).map
    Cookie.value

@[simp] theorem receive_nil (jar : Jar) : jar.receive [] = jar := rfl

/-- Without the cookies a header is about, there is no refresh cookie. -/
theorem find_others (jar : Jar) {h : SetCookie} (hkey : h.key = refreshCookieName)
    (hpath : h.path = refreshCookiePath) :
    ((jar.filter fun cookie => !h.names cookie).find? fun cookie =>
      cookie.key == refreshCookieName && cookie.path == refreshCookiePath) = none := by
  rw [List.find?_eq_none]
  intro cookie hcookie hfound
  have hother := (List.mem_filter.1 hcookie).2
  rw [SetCookie.names, hkey, hpath, hfound] at hother
  cases hother

theorem refreshCookie_set (jar : Jar) (credentials : IssuedCredentials) (secure : Bool) :
    (jar.receive [setRefreshCookie credentials secure]).refreshCookie =
      some credentials.refreshToken := by
  have hothers := jar.find_others (h := setRefreshCookie credentials secure) rfl rfl
  change Option.map _ (List.find? _ (_ ++ _)) = _
  rw [List.find?_append, hothers]
  rfl

theorem refreshCookie_clear (jar : Jar) :
    (jar.receive [clearRefreshCookie]).refreshCookie = none :=
  congrArg (Option.map Cookie.value) (jar.find_others (h := clearRefreshCookie) rfl rfl)

end Jar

/-! ### Routes -/

/-- What a request comes to: the outcome of its handler, the headers set on the response object that
was injected into it, and those of the response object it returns, if it returns one. -/
structure Handled where
  outcome : Except AuthFailure AuthResponse
  injected : List SetCookie
  returned : Option (List SetCookie)

/-- The cookies that are sent: a response object that is returned is sent as it is, and an exception
is answered by another response altogether. -/
def Handled.sent (h : Handled) : List SetCookie :=
  match h.outcome with
  | .error _ => []
  | .ok _ => h.returned.getD h.injected

/-- The cookie of the credentials, where there are some. -/
def credentialsCookie (secure : Bool) : Except AuthFailure AuthResponse → List SetCookie
  | .ok response =>
      (response.credentials.map fun credentials => setRefreshCookie credentials secure).toList
  | .error _ => []

/-- `login`. -/
def loginRoute (secure : Bool) (outcome : Except AuthFailure AuthResponse) : Handled where
  outcome := outcome
  injected := credentialsCookie secure outcome
  returned := none

/-- `refresh`. -/
def refreshRoute (secure : Bool) (outcome : Except AuthFailure AuthResponse) : Handled where
  outcome := outcome
  injected := credentialsCookie secure outcome
  returned := none

/-- `logout`: the cookie is cleared on the injected response, and a new one is returned. -/
def logoutRoute (outcome : Except AuthFailure AuthResponse) : Handled where
  outcome := outcome
  injected := [clearRefreshCookie]
  returned := some []

/-- `delete_account`: the cookie is cleared on the response that is returned. -/
def deleteRoute (outcome : Except AuthFailure AuthResponse) : Handled where
  outcome := outcome
  injected := []
  returned := some [clearRefreshCookie]

/-- A request that is refused before its handler has run, or by it, without a database. -/
def refusedRoute (e : AuthError) : Handled := ⟨.error (.auth e), [], none⟩

/-! ### A browser -/

/-- What the page sends; the cookie goes with it by itself. -/
inductive BrowserRequest where
  | login (username password : PyStr)
  | refresh
  | logout (accessToken : PyStr)
  | deleteAccount (accessToken password : PyStr)

/-- The browser sends a request, which is served or turned away; another client is served; or the
browser drops its cookies. -/
inductive BrowserAction where
  | send (request : BrowserRequest) (choices : List AuthChoice)
  | turnedAway (request : BrowserRequest) (e : AuthError)
  | other (request : AuthRequest) (choices : List AuthChoice)
  | expire

/-- The store, how many requests have been served, and the jar. -/
structure Browser where
  auth : AuthState
  served : ℕ := 0
  jar : Jar := []

namespace Browser

/-- A request to the service, from its start to its end. -/
def serve (env : AuthEnv) (s : Browser) (request : AuthRequest) (choices : List AuthChoice) :
    Option (AuthState × Except AuthFailure AuthResponse) :=
  (authCode env request).eval (authExec env s.served) choices s.auth

/-- The routes. -/
def respond (env : AuthEnv) (secure : Bool) (s : Browser) (choices : List AuthChoice) :
    BrowserRequest → Option (AuthState × Handled)
  | .login username password =>
      (s.serve env (.login username password) choices).map fun out =>
        (out.1, loginRoute secure out.2)
  | .refresh =>
      match s.jar.refreshCookie with
      -- no cookie, or an empty one
      | none | some [] =>
          some (s.auth, refusedRoute ⟨.required, 401, some (py "missing refresh cookie")⟩)
      | some presented =>
          (s.serve env (.refresh presented) choices).map fun out =>
            (out.1, refreshRoute secure out.2)
  | .logout accessToken =>
      (s.serve env (.logout accessToken) choices).map fun out => (out.1, logoutRoute out.2)
  | .deleteAccount accessToken password =>
      (s.serve env (.deleteAccount accessToken password) choices).map fun out =>
        (out.1, deleteRoute out.2)

/-- What the browser is answered, where it has sent something. -/
def exchange (env : AuthEnv) (secure : Bool) (s : Browser) :
    BrowserAction → Option (AuthState × Handled)
  | .send request choices => s.respond env secure choices request
  | .turnedAway _ e => some (s.auth, refusedRoute e)
  | .other _ _ | .expire => none

/-- The jar after an answer. -/
def jarAfter (s : Browser) (h : Handled) : Jar := s.jar.receive h.sent

/-- One step. -/
def step (env : AuthEnv) (secure : Bool) (s : Browser) : BrowserAction → Option Browser
  | .other request choices =>
      (s.serve env request choices).map fun out => { s with auth := out.1, served := s.served + 1 }
  | .expire => some { s with jar := [] }
  | action => (s.exchange env secure action).map fun out =>
      { auth := out.1, served := s.served + 1, jar := s.jarAfter out.2 }

end Browser

/-- **The requests of one browser, one after the other.** -/
def browserSystem (env : AuthEnv) (secure : Bool) : System Browser BrowserAction where
  init := fun s => s = { auth := .new env }
  step := Browser.step env secure

/-! ### The cookie and the session -/

/-- **The cookie follows the session**, over one exchange. -/
structure CookieFollows (env : AuthEnv) (outcome : Except AuthFailure AuthResponse) (jar jar' : Jar)
    (d : Database) : Prop where
  loggedOut : ∀ identity, outcome = .ok (.loggedOut identity) → jar'.refreshCookie = none
  deleted : ∀ identity, outcome = .ok (.deleted identity) → jar'.refreshCookie = none
  issued : ∀ response credentials, outcome = .ok response →
    response.credentials = some credentials → ∃ token, jar'.refreshCookie = some token ∧
      (∃ session ∈ d.sessions, session.id = credentials.sessionId) ∧
        ∀ session ∈ d.sessions, session.id = credentials.sessionId →
          session.refreshTokenHash = env.sha256 token
  failed : ∀ e, outcome = .error e → jar' = jar

/-- The cookie follows the session over what the browser is answered. -/
def Browser.Follows (env : AuthEnv) (secure : Bool) (s : Browser) (a : BrowserAction) : Prop :=
  ∀ auth h, s.exchange env secure a = some (auth, h) →
    CookieFollows env h.outcome s.jar (s.jarAfter h) auth.committed

/-- The browser asks for a logout while its jar has a refresh cookie, and the service grants it. -/
def Browser.LogsOutWithCookie (env : AuthEnv) (s : Browser) : BrowserAction → Prop
  | .send (.logout accessToken) choices => s.jar.refreshCookie ≠ none ∧
      ∃ auth response, s.serve env (.logout accessToken) choices = some (auth, .ok response)
  | _ => False

namespace Browser

variable {env : AuthEnv} {secure : Bool} {s s' : Browser} {a : BrowserAction}

/-- A failure is answered without a cookie. -/
theorem follows_of_error {h : Handled} {e : AuthFailure} (hout : h.outcome = .error e)
    (d : Database) : CookieFollows env h.outcome s.jar (s.jarAfter h) d := by
  have hjar : s.jarAfter h = s.jar := by rw [jarAfter, Handled.sent, hout, Jar.receive_nil]
  rw [hout, hjar]
  refine ⟨?_, ?_, ?_, fun _ _ => rfl⟩
  · rintro _ ⟨⟩
  · rintro _ ⟨⟩
  · rintro _ _ ⟨⟩

/-- What a route that signs in leaves in the jar. -/
theorem follows_of_credentials (hwf : s.auth.WF env) {request : AuthRequest}
    {choices : List AuthChoice} {auth : AuthState} {response : AuthResponse}
    {c : IssuedCredentials} (hserve : s.serve env request choices = some (auth, .ok response))
    (hc : response.credentials = some c) :
    CookieFollows env (.ok response) s.jar
      (s.jar.receive (credentialsCookie secure (.ok response))) auth.committed := by
  have hsent : credentialsCookie secure (.ok response) = [setRefreshCookie c secure] := by
    rw [credentialsCookie, hc]
    rfl
  have hholds := holdsToken_of_eval hserve hc
  rw [hsent]
  refine ⟨?_, ?_, ?_, ?_⟩
  · rintro identity ⟨⟩
    cases hc
  · rintro identity ⟨⟩
    cases hc
  · rintro response' c' ⟨⟩ hc'
    rw [hc, Option.some.injEq] at hc'
    subst hc'
    have hrow := hholds
    obtain ⟨session, hsession, hid, -⟩ := hrow
    exact ⟨c.refreshToken, s.jar.refreshCookie_set c secure, ⟨session, hsession, hid⟩,
      fun row hrow hrowId => hholds.hash_eq (hwf.eval hserve).committed hrow hrowId⟩
  · rintro e ⟨⟩

/-- What a login or a refresh leaves in the jar. -/
theorem follows_of_signIn (hwf : s.auth.WF env) {request : AuthRequest}
    (hsigns : request.signsIn) {choices : List AuthChoice} {auth : AuthState}
    {outcome : Except AuthFailure AuthResponse}
    (hserve : s.serve env request choices = some (auth, outcome)) :
    CookieFollows env outcome s.jar
      (s.jarAfter ⟨outcome, credentialsCookie secure outcome, none⟩) auth.committed := by
  cases outcome with
  | error e => exact follows_of_error (h := ⟨.error e, _, _⟩) rfl auth.committed
  | ok response =>
      have hkind := answeredBy_of_eval hserve
      cases request with
      | register | resolve | logout | deleteAccount => cases hsigns
      | login | refresh =>
          cases response with
          | loggedIn c | refreshed c => exact follows_of_credentials hwf hserve rfl
          | registered | resolved | loggedOut | deleted => cases hkind

/-- What the deletion of the account leaves in the jar. -/
theorem follows_of_delete {accessToken password : PyStr} {choices : List AuthChoice}
    {auth : AuthState} {outcome : Except AuthFailure AuthResponse}
    (hserve : s.serve env (.deleteAccount accessToken password) choices = some (auth, outcome)) :
    CookieFollows env outcome s.jar (s.jarAfter (deleteRoute outcome)) auth.committed := by
  cases outcome with
  | error e => exact follows_of_error (h := deleteRoute (.error e)) rfl auth.committed
  | ok response =>
      have hkind := answeredBy_of_eval hserve
      cases response with
      | deleted identity =>
          exact ⟨fun _ _ => s.jar.refreshCookie_clear, fun _ _ => s.jar.refreshCookie_clear,
            by rintro _ _ ⟨⟩ ⟨⟩, by rintro _ ⟨⟩⟩
      | registered | loggedIn | resolved | refreshed | loggedOut => cases hkind

/-- What a logout leaves in the jar: what it has found there. -/
theorem jarAfter_logoutRoute (outcome : Except AuthFailure AuthResponse) :
    s.jarAfter (logoutRoute outcome) = s.jar := by
  cases outcome <;> rfl

/-- **A request that is no logout, or one that fails or finds no cookie, keeps the cookie and the
session together.** -/
theorem follows_of_exchange (hwf : s.auth.WF env) (hlogout : ¬ s.LogsOutWithCookie env a) :
    s.Follows env secure a := by
  intro auth h hexchange
  cases a with
  | turnedAway request e =>
      cases hexchange
      exact follows_of_error (h := refusedRoute e) rfl _
  | other | expire => cases hexchange
  | send request choices =>
      cases request with
      | login username password =>
          obtain ⟨out, hserve, hout⟩ := Option.map_eq_some_iff.1 hexchange
          cases hout
          exact follows_of_signIn hwf (by trivial) hserve
      | refresh =>
          simp only [exchange, respond] at hexchange
          split at hexchange
          · cases hexchange
            exact follows_of_error (h := refusedRoute _) rfl _
          · cases hexchange
            exact follows_of_error (h := refusedRoute _) rfl _
          · obtain ⟨out, hserve, hout⟩ := Option.map_eq_some_iff.1 hexchange
            cases hout
            exact follows_of_signIn hwf (by trivial) hserve
      | logout accessToken =>
          obtain ⟨⟨auth', outcome⟩, hserve, hout⟩ := Option.map_eq_some_iff.1 hexchange
          cases hout
          cases outcome with
          | error e => exact follows_of_error (h := logoutRoute (.error e)) rfl _
          | ok response =>
              have hnone : s.jar.refreshCookie = none :=
                by_contra fun hcookie => hlogout ⟨hcookie, auth', response, hserve⟩
              have hkind := answeredBy_of_eval hserve
              rw [jarAfter_logoutRoute]
              refine ⟨fun _ _ => hnone, fun _ _ => hnone, ?_, by rintro _ ⟨⟩⟩
              rintro _ c ⟨⟩ hc
              cases response with
              | loggedIn | refreshed => cases hkind
              | registered | resolved | loggedOut | deleted => cases hc
      | deleteAccount accessToken password =>
          obtain ⟨out, hserve, hout⟩ := Option.map_eq_some_iff.1 hexchange
          cases hout
          exact follows_of_delete hserve

/-- **A logout that succeeds with a cookie in the jar** leaves it there. -/
theorem not_follows_of_logout (hlogout : s.LogsOutWithCookie env a) :
    ¬ s.Follows env secure a := by
  intro hfollows
  cases a with
  | turnedAway | other | expire => cases hlogout
  | send request choices =>
      cases request with
      | login | refresh | deleteAccount => cases hlogout
      | logout accessToken =>
          obtain ⟨hcookie, auth, response, hserve⟩ := hlogout
          have hstays := hfollows auth (logoutRoute (.ok response))
            (Option.map_eq_some_iff.2 ⟨_, hserve, rfl⟩)
          have hkind := answeredBy_of_eval hserve
          cases response with
          | loggedOut identity =>
              have hnone := hstays.loggedOut identity rfl
              rw [jarAfter_logoutRoute] at hnone
              exact hcookie hnone
          | registered | loggedIn | resolved | refreshed | deleted => cases hkind

/-- The invariant of the store. -/
theorem wf_step (hwf : s.auth.WF env) (hstep : (browserSystem env secure).step s a = some s') :
    s'.auth.WF env := by
  have hexchange : ∀ out, s.exchange env secure a = some out → out.1.WF env := by
    intro out hout
    cases a with
    | turnedAway =>
        cases hout
        exact hwf
    | other | expire => cases hout
    | send request choices =>
        cases request with
        | login | logout | deleteAccount =>
            obtain ⟨served, hserve, rfl⟩ := Option.map_eq_some_iff.1 hout
            exact hwf.eval hserve
        | refresh =>
            simp only [exchange, respond] at hout
            split at hout
            · cases hout
              exact hwf
            · cases hout
              exact hwf
            · obtain ⟨served, hserve, rfl⟩ := Option.map_eq_some_iff.1 hout
              exact hwf.eval hserve
  cases a with
  | other request choices =>
      obtain ⟨served, hserve, rfl⟩ := Option.map_eq_some_iff.1 hstep
      exact hwf.eval hserve
  | expire | turnedAway =>
      cases hstep
      exact hwf
  | send request choices =>
      obtain ⟨out, hout, rfl⟩ := Option.map_eq_some_iff.1 hstep
      exact hexchange out hout

end Browser

/-- **The cookie and the session in every run.**  The cookie follows the session over an exchange
exactly if this is no logout that succeeds with a refresh cookie in the jar: there the header that
clears the cookie is on the response object that is not sent. -/
theorem refresh_cookie_follows {env : AuthEnv} {secure : Bool}
    {tr : List (Browser × BrowserAction)} {t : Browser}
    (h : (browserSystem env secure).Run { auth := .new env } tr t) :
    ∀ e ∈ tr, e.1.Follows env secure e.2 ↔ ¬ e.1.LogsOutWithCookie env e.2 := by
  rintro ⟨s, a⟩ he
  obtain ⟨tr₁, tr₂, s', -, hbefore, -, -⟩ := h.of_mem he
  have hwf : s.auth.WF env :=
    hbefore.invariant (P := fun s => s.auth.WF env) (fun _ _ _ => Browser.wf_step)
      (AuthState.wf_new env)
  exact ⟨fun hfollows hlogout => Browser.not_follows_of_logout hlogout hfollows,
    Browser.follows_of_exchange hwf⟩

/-! ### Two sittings of one browser -/

/-- What is drawn for the request `i`. -/
def drawnFor (i : ℕ) : List AuthChoice :=
  List.replicate 9 { id := hexId i, token := urlsafeToken i } ++
    List.replicate 3 { id := hexId (i + 1), token := urlsafeToken (i + 1) }

/-- `alice` registers elsewhere and logs in. -/
def aliceSignsIn : List BrowserAction :=
  [.other (.register (py "alice") samplePassword) (drawnFor 0),
    .send (.login (py "alice") samplePassword) (drawnFor 1)]

/-- She refreshes her session, and deletes the account. -/
def aliceDeletes : List BrowserAction :=
  aliceSignsIn ++ [.send .refresh (drawnFor 2),
    .send (.deleteAccount (aliceToken 1) samplePassword) (drawnFor 3)]

/-- She logs out. -/
def aliceLogsOut : BrowserAction := .send (.logout (aliceToken 1)) (drawnFor 2)

/-- The account is gone, and so is the cookie. -/
def cookieCleared (s : Browser) : Bool :=
  s.auth.committed.users.isEmpty && s.jar.refreshCookie.isNone

theorem refresh_cookie_follows_alice :
    ∃ tr t, (browserSystem (sampleEnv .instants) true).Run { auth := .new (sampleEnv .instants) } tr
        t ∧ t.jar.refreshCookie = none ∧
      ∀ e ∈ tr, e.1.Follows (sampleEnv .instants) true e.2 := by
  have hexec : ((browserSystem (sampleEnv .instants) true).exec
      { auth := .new (sampleEnv .instants) } aliceDeletes).map cookieCleared = some true := by
    decide +kernel
  obtain ⟨t, -, hrun, hcleared⟩ := System.exists_run_of_exec hexec
  refine ⟨_, t, hrun, ?_, fun e he => (refresh_cookie_follows hrun e he).2 ?_⟩
  · simp only [cookieCleared, Bool.and_eq_true, Option.isNone_iff_eq_none] at hcleared
    exact hcleared.2
  · obtain ⟨s, a⟩ := e
    have ha := System.mem_of_mem_traceOf he
    simp only [aliceDeletes, aliceSignsIn, List.mem_append, List.mem_cons, List.not_mem_nil,
      or_false] at ha
    rcases ha with (rfl | rfl) | rfl | rfl <;> exact id

/-- Her jar has a cookie, and her logout succeeds. -/
def logsOutSignedIn (s : Browser) : Bool :=
  s.jar.refreshCookie.isSome &&
    ((s.serve (sampleEnv .instants) (.logout (aliceToken 1)) (drawnFor 2)).any fun out =>
      out.2 matches .ok _)

/-- **A logout leaves the cookie in the jar.** -/
theorem logout_leaves_cookie :
    ¬ ∀ tr t, (browserSystem (sampleEnv .instants) true).Run { auth := .new (sampleEnv .instants) }
      tr t → ∀ e ∈ tr, e.1.Follows (sampleEnv .instants) true e.2 := by
  intro hall
  have hexec : ((browserSystem (sampleEnv .instants) true).exec
      { auth := .new (sampleEnv .instants) } aliceSignsIn).map logsOutSignedIn = some true := by
    decide +kernel
  obtain ⟨s, -, hrun, hsignedIn⟩ := System.exists_run_of_exec hexec
  simp only [logsOutSignedIn, Bool.and_eq_true, Option.isSome_iff_ne_none] at hsignedIn
  obtain ⟨hcookie, hanswer⟩ := hsignedIn
  obtain ⟨⟨auth, outcome⟩, hserve, hok⟩ := (Option.any_eq_true _ _).1 hanswer
  cases outcome with
  | error e => cases hok
  | ok response =>
      have hlogout : s.LogsOutWithCookie (sampleEnv .instants) aliceLogsOut :=
        ⟨hcookie, auth, response, hserve⟩
      have hstep : (browserSystem (sampleEnv .instants) true).step s aliceLogsOut = some
          ⟨auth, s.served + 1, s.jarAfter (logoutRoute (.ok response))⟩ :=
        Option.map_eq_some_iff.2
          ⟨_, Option.map_eq_some_iff.2 ⟨_, hserve, rfl⟩, rfl⟩
      exact Browser.not_follows_of_logout hlogout
        (hall _ _ (hrun.snoc hstep) _ (List.mem_append_right _ (List.mem_singleton_self _)))

end EncryptChat
