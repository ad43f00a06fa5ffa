/-
**The accounts behind connections.**

The name of an account comes in two forms: as it was typed, less the white space around it, and
normalized.  A connection is bound to the first, and sends and receives as it; the policy has been
checked on the second, and the wire admits no uppercase letter.

Main definitions:

* `EncryptChat.CanSpeak` — an envelope passes the schema and the sender check on a connection;
* `EncryptChat.ReachedLive` — messages to a name are routed to a connection, and not queued.

Main results:

* `EncryptChat.account_of_bound` — the identity of a connection is that of an account;
* `EncryptChat.registered_account_speaks_iff` — **a registered account can speak and be addressed
  exactly when its name was typed in canonical form**.
-/

import EncryptChat.AccountNames
import EncryptChat.ReceiptFlow
import EncryptChat.SessionAuthority

set_option relaxedAutoImplicit false
set_option autoImplicit false

namespace EncryptChat

open Python Concurrent Transition ConnectionManager

/-! ### The account a connection is bound to -/

section Bound

variable {lib : Libraries} {env : AuthEnv} {limits : TransportLimits} {t : Application}
  {tr : List (Application × ApplicationAction)}

/-- A step of the accounts makes the committed database later. -/
theorem AuthPool.later_of_step {p p' : AuthPool} {label : AuthLabel} (hwf : p.shared.WF env)
    (h : p.step (authExec env) (authCode env) label = some p') :
    p.shared.committed.Later p'.shared.committed := by
  cases label with
  | start i request =>
      obtain ⟨-, hshared, -⟩ := Pool.step_start (authExec env) (authCode env) h
      rw [hshared]
      exact .refl _
  | step i c =>
      obtain ⟨request, op, next, seen, s, answer, -, hexec, hshared, -⟩ :=
        Pool.step_step (authExec env) (authCode env) h
      rw [hshared]
      exact AuthState.later_of_effect hwf (authEffect hexec)

/-- **The identity of a connection is that of an account** that was created. -/
theorem account_of_bound (h : (applicationSystem lib env limits).Run (.new env limits) tr t) :
    ∀ cid c, t.server.manager.contexts cid = some c → ∀ userId name, c.userId = some userId →
      c.accountUsername = some name → (userId, name) ∈ t.auth.shared.committed.accounts := by
  induction h with
  | nil => simp [Application.new, ServerState.new, ConnectionManager.new]
  | @snoc s s' tr a hrun hstep ih =>
      intro cid c' hc' userId name huser hname
      rcases Application.step_cases hstep with ⟨label, -, -, hauth, hserver⟩ |
        ⟨action, -, haction, hserver, hauth⟩
      · rw [hserver] at hc'
        have hlater := AuthPool.later_of_step (wf_of_run (authRun_of_run hrun)) hauth
        exact hlater.accounts (ih cid c' hc' userId name huser hname)
      rw [hauth]
      have hinv := inv_of_run (serverRun_of_run hrun)
      cases hc : s.server.manager.contexts cid with
      | none =>
          -- a connection that has just arrived has no identity
          have hnew := (hinv.identity_of_new hserver hc' hc).2
          have hbound := ((hinv.step hserver).wf.context cid c' hc').bound.2.1
          rw [hnew, huser] at hbound
          cases hbound
      | some c =>
          obtain ⟨d, hd, hsame | ⟨-, identity, rfl, hbound⟩⟩ := hinv.identity_step hserver hc
          · rw [hc'] at hd
            cases hd
            have huser' : c'.userId = c.userId := congrArg (fun i => i.2.1) hsame
            have hname' : c'.accountUsername = c.accountUsername :=
              congrArg (fun i => i.2.2.1) hsame
            exact ih cid c hc userId name (huser' ▸ huser) (hname' ▸ hname)
          · rw [hc'] at hd
            cases hd
            obtain ⟨i, th, hth, hrest⟩ := Application.exists_resolved_of_binding hstep haction
            have huser' : c'.userId = some identity.userId := congrArg (fun i => i.2.1) hbound
            have hname' : c'.accountUsername = some identity.username :=
              congrArg (fun i => i.2.2.1) hbound
            rw [huser, Option.some.injEq] at huser'
            rw [hname, Option.some.injEq] at hname'
            rw [huser', hname']
            exact account_of_resolved (authRun_of_run hrun) hth hrest

/-- **The connections of a registered account** go by the name that was typed. -/
theorem routingIdentity_of_registered
    (h : (applicationSystem lib env limits).Run (.new env limits) tr t) {i : ℕ} {th : AuthThread}
    (hth : t.auth.threads i = some th) {user : User}
    (hrest : th.rest = .done (.ok (.registered user))) {cid : ConnId} {c : ConnectionContext}
    (hc : t.server.manager.contexts cid = some c) (huser : c.userId = some user.id) :
    ∃ username password, th.request = .register username password ∧
      validateUsername env.unicode username = .ok user.usernameNormalized ∧
      c.authenticated = true ∧ c.routingIdentity = strip username := by
  have hwf := (inv_of_run (serverRun_of_run h)).wf.context cid c hc
  have hauth : c.authenticated = true := by rw [hwf.bound.2.1, huser, Option.isSome_some]
  have hname := hwf.accountUsername_eq hauth
  have haccount := account_of_bound h cid c hc _ _ huser hname
  obtain ⟨username, password, hrequest, hcreated⟩ :=
    account_of_registered (authRun_of_run h) hth hrest
  refine ⟨username, password, hrequest, hcreated.valid, hauth, ?_⟩
  -- an id belongs to one account only
  have hnodup := (wf_of_run (authRun_of_run h)).committed.accounts_nodup
  have hsame := List.inj_on_of_nodup_map hnodup haccount hcreated.account rfl
  rw [← hcreated.name]
  exact congrArg Prod.snd hsame

end Bound

/-! ### Names on the wire -/

/-- A stripped name that the wire admits is made of identifier characters: the newline the pattern
lets pass at the end has been stripped. -/
theorem isCanonical_of_transportIdentifier {raw : PyStr}
    (h : transportIdentifier (strip raw) = true) : isCanonical (strip raw) = true := by
  simp only [transportIdentifier, identifierMatch, Bool.and_eq_true, Bool.or_eq_true] at h
  rcases h.2 with hfull | ⟨hlast, -⟩
  · cases hs : strip raw with
    | nil => rfl
    | cons x xs =>
        rw [hs] at hfull
        simp only [identifierFullmatch, Bool.and_eq_true] at hfull
        simp only [isCanonical, List.all_cons, Bool.and_eq_true]
        exact ⟨isIdentifierChar_of_isLowerAlnum hfull.1.1, hfull.2⟩
  · rw [Option.any_eq_true] at hlast
    obtain ⟨x, hx, hnewline⟩ := hlast
    obtain ⟨hne, rfl⟩ := List.mem_getLast?_eq_getLast hx
    have hspace : ¬ isSpace ((strip raw).getLast hne) = true :=
      List.rdropWhile_last_not isSpace (raw.dropWhile isSpace) hne
    refine absurd ?_ hspace
    have hval : ((strip raw).getLast hne).val = 10 := by simpa [isChar] using hnewline
    rw [isSpace, hval]
    rfl

/-- **What the wire admits of the names of accounts.** -/
theorem transportIdentifier_strip_iff {uni : Unicode} (huni : uni.Lawful) {raw n : PyStr}
    (h : validateUsername uni raw = .ok n) :
    transportIdentifier (strip raw) = true ↔ usernameFullmatch (strip raw) = true := by
  constructor
  · intro hwire
    exact (RegisteredName.fullmatch_of_canonical huni h
      (isCanonical_of_transportIdentifier hwire)).2
  · exact transportIdentifier_of_fullmatch

/-! ### Speaking and being addressed -/

/-- What is used of the schema library: it accepts some UUID, and some timestamp with an offset. -/
structure Libraries.AcceptsFields (lib : Libraries) : Prop where
  uuid : ∃ value id, lib.uuidField value = some id
  timestamp : ∃ value timestamp, lib.datetimeField value = some timestamp ∧ timestamp.isAware = true

/-- The connection can send: some envelope for a message passes every check of `_validate_inbound`
and the sender check. -/
def CanSpeak (lib : Libraries) (c : ConnectionContext) : Prop :=
  ∃ parsed envelope, validateDict lib c parsed = (some envelope, []) ∧
    envelope.type = .messageSend ∧ envelope.sender = c.routingIdentity

/-- Messages of others to the name, as far as they can be serialized, are routed to the connection,
which has them if it takes another message, and none is queued. -/
def ReachedLive (lib : Libraries) (s : ServerState) (cid : ConnId) (name : PyStr) : Prop :=
  ∀ cid' rawText now clock c' envelope s', cid' ≠ cid →
    s.step lib (.act cid' (.frame rawText now clock)) = some s' →
    RoutesFrame lib s cid' rawText now c' envelope name s' →
      cid ∈ s.manager.connectionsFor name ∧
      (∀ k, s'.manager.offlineQueue.queued k = s.manager.offlineQueue.queued k) ∧
      ∀ c, s.manager.contexts cid = some c → c.HasRoom → ∃ c₁, s'.manager.contexts cid = some c₁ ∧
        receiptOf c' envelope name s.nextRef ∈ c₁.receipts

/-- The envelope of a message, but for the fields the schema library parses. -/
def speech (sender : PyStr) (id timestamp : Json) : Dict :=
  [(py "version", .str protocolVersion), (py "message_id", id),
    (py "type", .str (py "message.send")), (py "sender", .str sender), (py "timestamp", timestamp)]

/-- The envelope of a message under a name the wire admits passes the schema. -/
theorem modelValidate_speech {lib : Libraries} {sender : PyStr} {id value : Json} {uuid : Uuid}
    {timestamp : Datetime} (hsender : transportIdentifier sender = true)
    (hid : lib.uuidField id = some uuid) (hvalue : lib.datetimeField value = some timestamp)
    (haware : timestamp.isAware = true) :
    InboundEnvelope.modelValidate lib (speech sender id value) =
      some ⟨uuid, .messageSend, sender, none, timestamp, []⟩ := by
  have hfields : ((speech sender id value).all fun item =>
      InboundEnvelope.fields.contains item.1) = true := rfl
  have hversion : InboundEnvelope.isString protocolVersion
      (dictGet (speech sender id value) (py "version")) = true := rfl
  have hidGet : dictGet (speech sender id value) (py "message_id") = some id := rfl
  have htype : (dictGet (speech sender id value) (py "type")).bind InboundEnvelope.typeField =
      some .messageSend := rfl
  have hsenderGet : dictGet (speech sender id value) (py "sender") = some (.str sender) := rfl
  have hrecipient : dictGet (speech sender id value) (py "recipient") = none := rfl
  have hvalueGet : dictGet (speech sender id value) (py "timestamp") = some value := rfl
  have hpayload : dictGet (speech sender id value) (py "payload") = none := rfl
  have hname : InboundEnvelope.identifierField (.str sender) = some sender := if_pos hsender
  simp only [InboundEnvelope.modelValidate, hfields, hversion, hidGet, htype, hsenderGet,
    hrecipient, hvalueGet, hpayload, Option.bind_some, hid, hvalue, hname,
    InboundEnvelope.recipientField, InboundEnvelope.payloadField]
  simp [guard, haware]

/-- **A connection speaks when the wire admits its name.** -/
theorem canSpeak_iff {lib : Libraries} (hlib : lib.AcceptsFields) {c : ConnectionContext}
    (hauth : c.authenticated = true) :
    CanSpeak lib c ↔ transportIdentifier c.routingIdentity = true := by
  constructor
  · rintro ⟨parsed, envelope, hvalid, -, hsender⟩
    rcases verdict_validateDict lib c parsed with ⟨code, id, hrej⟩ | ⟨envelope', heq, hmodel, -⟩
    · rw [hvalid] at hrej
      cases hrej
    · rw [hvalid] at heq
      cases heq
      rw [← hsender]
      exact InboundEnvelope.sender_of_modelValidate hmodel
  · intro hname
    obtain ⟨id, uuid, hid⟩ := hlib.uuid
    obtain ⟨value, timestamp, hvalue, haware⟩ := hlib.timestamp
    refine ⟨speech c.routingIdentity id value,
      ⟨uuid, .messageSend, c.routingIdentity, none, timestamp, []⟩, ?_, rfl, rfl⟩
    have hmodel := modelValidate_speech hname hid hvalue haware
    have hversion : InboundEnvelope.isString protocolVersion
        (dictGet (speech c.routingIdentity id value) (py "version")) = true := rfl
    have htype : (dictGet (speech c.routingIdentity id value) (py "type")).bind
        InboundEnvelope.typeField = some .messageSend := rfl
    simp only [validateDict, hversion, Bool.true_eq_false, if_false, htype, validateTyped, hauth,
      false_and, hmodel]
    exact if_neg (by decide)

/-- A message is placed on every connection of its recipient that takes one. -/
theorem RoutesFrame.delivers {lib : Libraries} {s s' : ServerState} {cid : ConnId}
    {rawText name : PyStr} {now : ℚ} {c : ConnectionContext} {envelope : InboundEnvelope}
    (h : RoutesFrame lib s cid rawText now c envelope name s') (hwf : s.manager.WF)
    {cid' : ConnId} (htarget : cid' ∈ s.manager.connectionsFor name)
    {c₀ : ConnectionContext} (hc₀ : s.manager.contexts cid' = some c₀) (hroom : c₀.HasRoom) :
    ∃ c₁, s'.manager.contexts cid' = some c₁ ∧
      receiptOf c envelope name s.nextRef ∈ c₁.receipts := by
  obtain ⟨c₁, hc₁, hreceipts⟩ := h.receipts hwf hc₀
  rw [if_pos (mem_takers.2 ⟨htarget, c₀, hc₀, hroom⟩)] at hreceipts
  refine ⟨c₁, hc₁, ?_⟩
  rw [hreceipts]
  exact List.mem_append_right _ (List.mem_singleton_self _)

/-- **A registered connection is reached under its own name.** -/
theorem reachedLive_routingIdentity {lib : Libraries} {s : ServerState} (hwf : s.manager.WF)
    {cid : ConnId} {c : ConnectionContext} (hc : s.manager.contexts cid = some c)
    (hlive : cid ∈ s.manager.connections) : ReachedLive lib s cid c.routingIdentity := by
  intro cid' rawText now clock c' envelope s' hne hstep hroutes
  have htarget : cid ∈ s.manager.connectionsFor c.routingIdentity :=
    mem_connectionsFor.2 ⟨(hwf.indexed cid _).2 ⟨hlive, c, hc, rfl⟩, hlive⟩
  refine ⟨htarget, ?_, fun c₀ hc₀ hroom => ?_⟩
  · refine hroutes.queued.resolve_right fun hqueues => ?_
    have hconn := (hwf.isConnected_iff c.routingIdentity).2 fun hnil =>
      List.not_mem_nil (hnil ▸ htarget)
    rw [hqueues.1] at hconn
    cases hconn
  · exact hroutes.delivers hwf htarget hc₀ hroom

/-- **A registered account can speak and be addressed exactly when its name was typed in canonical
form.**  In every run of the application, take a registration that has succeeded and a live
connection that is bound to the account.  The name the connection goes by is an identifier of the
wire, an envelope passes the schema and the sender check on it, and messages of others to the
normalized name are routed to it and not queued, exactly when the name that was typed, less the
white space around it, satisfies the policy as it stands. -/
theorem registered_account_speaks_iff {lib : Libraries} {env : AuthEnv} {limits : TransportLimits}
    (huni : env.unicode.Lawful) (hlib : lib.AcceptsFields) {t : Application}
    {tr : List (Application × ApplicationAction)}
    (h : (applicationSystem lib env limits).Run (.new env limits) tr t) {i : ℕ} {th : AuthThread}
    (hth : t.auth.threads i = some th) {user : User}
    (hrest : th.rest = .done (.ok (.registered user))) {cid : ConnId} {c : ConnectionContext}
    (hlive : cid ∈ t.server.manager.connections) (hc : t.server.manager.contexts cid = some c)
    (huser : c.userId = some user.id) :
    ∃ username password, th.request = .register username password ∧
      (transportIdentifier c.routingIdentity = true ∧ CanSpeak lib c ∧
          ReachedLive lib t.server cid user.usernameNormalized ↔
        usernameFullmatch (strip username) = true) := by
  obtain ⟨username, password, hrequest, hvalid, hauth, hname⟩ :=
    routingIdentity_of_registered h hth hrest hc huser
  refine ⟨username, password, hrequest, ?_⟩
  rw [canSpeak_iff hlib hauth, hname, ← transportIdentifier_strip_iff huni hvalid]
  constructor
  · exact fun hspeaks => hspeaks.1
  · intro hwire
    refine ⟨hwire, hwire, ?_⟩
    -- a canonical name is its own normalized form
    have hsame : user.usernameNormalized = strip username :=
      (RegisteredName.fullmatch_of_canonical huni hvalid
        (isCanonical_of_transportIdentifier hwire)).1
    rw [hsame, ← hname]
    exact reachedLive_routingIdentity (inv_of_run (serverRun_of_run h)).wf hc hlive

/-! ### A name with a capital letter -/

/-- A sample token inside a JSON string. -/
def escapedToken (token : PyStr) : PyStr :=
  token.flatMap fun c =>
    if c = 0 then py "\\u0000" else if c = 1 then py "\\u0001" else [c]

/-- `auth.authenticate` with a token. -/
def tokenText (token : PyStr) : PyStr :=
  frameText (py "auth.authenticate") (py "me")
    (py "\",\"payload\":\x7b" ++ py "\"access_token\":\"" ++ escapedToken token ++ py "\"\x7d\x7d")

/-- The token of the account of the request `i`, in the session of the request `j`. -/
def sessionToken (i j : ℕ) : PyStr :=
  issueAccessToken sampleJwt (sampleEnv .instants).config (hexId i) (hexId j) (hexId j) (.utc 0)

/-- The sample parsers, on frames with the given tokens and on other texts. -/
def tokenLibraries (tokens : List PyStr) : Libraries :=
  { sampleLibraries with
    loads := fun raw =>
      match tokens.find? fun token => tokenText token == raw with
      | some token => .value (.dict (frameDict (py "auth.authenticate") (py "me")
          [(py "payload", .dict [(py "access_token", .str token)])]))
      | none => sampleLibraries.loads raw }

/-- A connection arrives. -/
def arrives (cid : ConnId) : List ApplicationAction :=
  [.server (.connect cid cid none 0), .server (.act cid (.accepted none))]

/-- A connection presents a token, which is resolved by the request `i`. -/
def presents (cid : ConnId) (i : ℕ) (token : PyStr) : List ApplicationAction :=
  [.server (.act cid (.frame (tokenText token) 0 (.utc 0))), .resolve cid i] ++
    List.replicate 6 (.auth (.step i {})) ++ [.resolved cid]

/-- Two accounts are registered under these names, and log in. -/
def accountsNamed (first second : PyStr) : List ApplicationAction :=
  (requestOf 0 4 0 (.register first samplePassword) ++
    requestOf 1 9 0 (.login first samplePassword) ++
    requestOf 2 4 0 (.register second samplePassword) ++
    requestOf 3 9 0 (.login second samplePassword)).map .auth

/-- `alice` and `bob` register and log in. -/
def twoAccounts : List ApplicationAction := accountsNamed (py "alice") (py "bob")

/-- `alice` sends the sample message. -/
def aliceWrites : List ApplicationAction := [.server (.act aliceId (.frame sendText 0 (.utc 0)))]

theorem lawful_sampleEnv (backend : Backend) : (sampleEnv backend).unicode.Lawful where
  casefold_canonical := by
    intro s hs
    have hfix : ∀ c ∈ s, (if inRange 'A' 'Z' c then Fin.ofNat 0x110000 (c.val + 32) else c) = c := by
      intro c hc
      have hchar := List.all_eq_true.1 hs c hc
      refine if_neg ?_
      simp only [isIdentifierChar, isLowerAlnum, inRange, isChar, Bool.or_eq_true, Bool.and_eq_true,
        decide_eq_true_eq, beq_iff_eq] at hchar ⊢
      have hA : 'A'.toNat = 65 := rfl
      have hZ : 'Z'.toNat = 90 := rfl
      have ha : 'a'.toNat = 97 := rfl
      have h0 : '0'.toNat = 48 := rfl
      have h9 : '9'.toNat = 57 := rfl
      have hdot : '.'.toNat = 46 := rfl
      have hunder : '_'.toNat = 95 := rfl
      have hdash : '-'.toNat = 45 := rfl
      omega
    change asciiLower s = s
    exact (List.map_congr_left hfix).trans (List.map_id s)
  nfkc_canonical := fun _ _ => rfl

/-- The accounts are registered, `alice` connects, the other one connects, and `alice` writes to
`bob`. -/
def aliceWritesTo (name : PyStr) : List ApplicationAction :=
  accountsNamed (py "alice") name ++ arrives aliceId ++ presents aliceId 4 (sessionToken 0 1) ++
    arrives bobId ++ presents bobId 5 (sessionToken 2 3) ++ aliceWrites

/-- The parsers on the frames of these runs. -/
def accountLibraries : Libraries := tokenLibraries [sessionToken 0 1, sessionToken 2 3]

theorem acceptsFields_accountLibraries : accountLibraries.AcceptsFields where
  uuid := ⟨.str sampleId, 1, by decide +kernel⟩
  timestamp := ⟨.str sampleTime, .utc 1767225600000000, by decide +kernel, rfl⟩

/-- The request has registered this account, as it is stored, and the connection is bound to it. -/
def isRegisteredAs (t : Application) (i : ℕ) (cid : ConnId) (normalized : PyStr) : Bool :=
  match t.auth.threads i with
  | some ⟨_, .done (.ok (.registered user)), _⟩ =>
      decide (user.usernameNormalized = normalized) && decide (cid ∈ t.server.manager.connections) &&
        (t.server.manager.contexts cid).any fun c => c.userId == some user.id
  | _ => false

theorem exists_of_isRegisteredAs {t : Application} {i : ℕ} {cid : ConnId} {normalized : PyStr}
    (h : isRegisteredAs t i cid normalized = true) :
    ∃ th user c, t.auth.threads i = some th ∧ th.rest = .done (.ok (.registered user)) ∧
      user.usernameNormalized = normalized ∧ cid ∈ t.server.manager.connections ∧
      t.server.manager.contexts cid = some c ∧ c.userId = some user.id := by
  unfold isRegisteredAs at h
  split at h
  · rename_i request user seen hth
    simp only [Bool.and_eq_true, decide_eq_true_eq, Option.any_eq_true, beq_iff_eq] at h
    obtain ⟨⟨hname, hlive⟩, c, hc, huser⟩ := h
    exact ⟨_, user, c, hth, rfl, hname, hlive, hc, huser⟩
  · cases h

/-- The account that was registered as `bob` speaks, and is addressed as `bob`. -/
theorem registered_account_speaks_bob :
    ∃ tr t c, (applicationSystem accountLibraries (sampleEnv .instants) {}).Run
        (.new (sampleEnv .instants) {}) tr t ∧ t.server.manager.contexts bobId = some c ∧
      CanSpeak accountLibraries c ∧ ReachedLive accountLibraries t.server bobId (py "bob") := by
  have hexec : ((applicationSystem accountLibraries (sampleEnv .instants) {}).exec
      (.new (sampleEnv .instants) {}) (aliceWritesTo (py "bob"))).map (fun t =>
        isRegisteredAs t 2 bobId (py "bob") && (t.auth.threads 2).any fun th =>
          match th.request with
          | .register username _ => usernameFullmatch (strip username)
          | _ => false) = some true := by
    decide +kernel
  obtain ⟨t, -, hrun, hp⟩ := System.exists_run_of_exec hexec
  rw [Bool.and_eq_true, Option.any_eq_true] at hp
  obtain ⟨th, user, c, hth, hrest, hname, hlive, hc, huser⟩ := exists_of_isRegisteredAs hp.1
  obtain ⟨th', hth', hmatch⟩ := hp.2
  obtain ⟨username, password, hrequest, hiff⟩ :=
    registered_account_speaks_iff (lawful_sampleEnv .instants) acceptsFields_accountLibraries hrun
      hth hrest hlive hc huser
  rw [hth, Option.some.injEq] at hth'
  rw [← hth', hrequest] at hmatch
  exact ⟨_, t, c, hrun, hc, hname ▸ (hiff.2 hmatch).2⟩

/-- **A registered account that cannot speak**: it is registered as `Bob`, its connection goes by
that name, which is no identifier of the wire, and a message to `bob` is queued while the connection
is live. -/
theorem registered_account_is_mute :
    ∃ tr t th user c, (applicationSystem accountLibraries (sampleEnv .instants) {}).Run
        (.new (sampleEnv .instants) {}) tr t ∧
      t.auth.threads 2 = some th ∧ th.rest = .done (.ok (.registered user)) ∧
      bobId ∈ t.server.manager.connections ∧ t.server.manager.contexts bobId = some c ∧
      c.userId = some user.id ∧ transportIdentifier c.routingIdentity = false ∧
      ¬ CanSpeak accountLibraries c ∧ user.usernameNormalized = py "bob" ∧
      t.server.manager.offlineQueue.queued (py "bob") ≠ [] := by
  have hexec : ((applicationSystem accountLibraries (sampleEnv .instants) {}).exec
      (.new (sampleEnv .instants) {}) (aliceWritesTo (py "Bob"))).map (fun t =>
        isRegisteredAs t 2 bobId (py "bob") && ((t.server.manager.contexts bobId).any fun c =>
          c.authenticated && !transportIdentifier c.routingIdentity) &&
        !(t.server.manager.offlineQueue.queued (py "bob")).isEmpty) = some true := by
    decide +kernel
  obtain ⟨t, -, hrun, hp⟩ := System.exists_run_of_exec hexec
  simp only [Bool.and_eq_true, Option.any_eq_true, Bool.not_eq_true', List.isEmpty_eq_false_iff]
    at hp
  obtain ⟨⟨hregistered, c', hc', hauth, hwire⟩, hqueued⟩ := hp
  obtain ⟨th, user, c, hth, hrest, hname, hlive, hc, huser⟩ := exists_of_isRegisteredAs hregistered
  rw [hc, Option.some.injEq] at hc'
  subst hc'
  refine ⟨_, t, th, user, c, hrun, hth, hrest, hlive, hc, huser, hwire, ?_, hname, hqueued⟩
  rw [canSpeak_iff acceptsFields_accountLibraries hauth, hwire]
  exact Bool.false_ne_true

end EncryptChat
