import DealershipAgent.Api.Sessions
import DealershipAgent.Interact.Gate

/-!
# Authentication

`api/auth.py`, and `POST /chat` behind it. `decode` is the call of `jwt.decode`, and `truncate` is `int`
of a float.

* `getCurrentIdentity`: what the process makes of a bearer token, by the key that it has cached.
* `Authentic`: what a token says whose identity was accepted; `Authentic.arrives`: the tool server reads
  that identity, when its session id passes the environment.
* `handlerOf`: the handler of an accepted token, whose session id may be no text.
* `edge_authenticated`: the handlers run as those of the customers whose tokens were verified, all of
  them with one key.
* `edge_provenance`: where the messages of a turn come from, by the tokens.
-/

namespace DealershipAgent

open Py Json Interact RowSecurity

/-! ## Tokens -/

/-- The settings for tokens (`config.py`). -/
structure JwtSettings where
  jwtPublicKeyPath : Str
  jwtAlgorithm : Str := "RS256"
  jwtIssuer : Str := "dealership-agent"
  jwtAudience : Str := "dealership-agent-api"

/-- An exception of `jwt.decode`: a `JWTError` or another one. -/
inductive DecodeError where
  | jwtError (e : Exc)
  | other (e : Exc)

/-- `jwt.decode(token, key, algorithms=.., audience=.., issuer=..)`, at a time. -/
abbrev JwtDecode (F : Type) : Type :=
  Timestamp → Str → Str → List Str → Str → Str → Except DecodeError (List (Str × Json F))

/-- `_unauthorized` -/
def unauthorized (detail : Str) : ApiError := .http 401 detail

/-- `_load_public_key`, where `file` is what reading the file gives now. A key that was read once is
kept by `lru_cache`; an exception is not. -/
def loadPublicKey (path : Str) (file : Except Exc Str) (cached : Option Str) : Except Exc Str :=
  match cached with
  | some key => .ok key
  | none =>
    if path.isEmpty then
      .error ⟨.runtimeError,
        "JWT_PUBLIC_KEY_PATH is not set - cannot verify tokens without a public key."⟩
    else file

/-- The `RequestIdentity` of a token. Its session id is the claim itself, which nothing checks to be a
`str`. -/
structure TokenIdentity (F : Type) where
  sessionId : Json F
  customerId : Int

/-- The identity that a turn is run for. For a session id that is no text there is no turn. -/
def TokenIdentity.identity {F : Type} (accepted : TokenIdentity F) : RequestIdentity where
  sessionId := match accepted.sessionId with
    | .string s => s
    | _ => []
  customerId := some accepted.customerId

theorem TokenIdentity.identity_sessionId {F : Type} {accepted : TokenIdentity F} {s : Str}
    (h : accepted.sessionId = .string s) : accepted.identity.sessionId = s := by
  simp [TokenIdentity.identity, h]

section Verify

variable {F : Type} [PyFloat F] [Unicode] (settings : JwtSettings) (decode : JwtDecode F)
  (truncate : F → Except Exc Int)

omit [PyFloat F] in
/-- `int(v)` -/
def intOf : Json F → Except Exc Int
  | .string s => intOrRaise s
  | .int i => .ok i
  | .bool b => .ok (if b then 1 else 0)
  | .float x => truncate x
  | v => .error ⟨.typeError, text [
      "int() argument must be a string, a bytes-like object or a real number, not '"] ++
      v.typeName ++ str "'"⟩

/-- What `verify_token` makes of the claims, with a new UUID. -/
def identityOf (claims : List (Str × Json F)) (uuid : Str) : Except ApiError (TokenIdentity F) :=
  let subject := dictGet claims "sub"
  if !subject.truthy then .error (unauthorized "Token is missing a subject claim")
  else match intOf truncate subject with
    | .error e =>
      if e.kind = .typeError || e.kind = .valueError then
        .error (unauthorized "Token subject claim is not a valid customer id")
      else .error (.code e)
    | .ok customerId =>
      .ok { sessionId := (dictGet claims "session_id").orElse (.string uuid), customerId := customerId }

/-- `verify_token`, and the cached key after it. -/
def verifyToken (now : Timestamp) (file : Except Exc Str) (uuid token : Str) (cached : Option Str) :
    Except ApiError (TokenIdentity F) × Option Str :=
  match loadPublicKey settings.jwtPublicKeyPath file cached with
  | .error e => (.error (if e.kind = .runtimeError then unauthorized e.text else .code e), cached)
  | .ok publicKey =>
    let claims := decode now token publicKey [settings.jwtAlgorithm] settings.jwtAudience
      settings.jwtIssuer
    (match claims with
      | .error (.jwtError _) => .error (unauthorized "Invalid or expired token")
      | .error (.other e) => .error (.code e)
      | .ok claims => identityOf truncate claims uuid,
    some publicKey)

/-- `get_current_identity` -/
def getCurrentIdentity (now : Timestamp) (file : Except Exc Str) (uuid : Str) (credentials : Option Str)
    (cached : Option Str) : Except ApiError (TokenIdentity F) × Option Str :=
  match credentials with
  | none => (.error (unauthorized "Missing bearer token"), cached)
  | some token => verifyToken settings decode truncate now file uuid token cached

/-- What a token says that was accepted. -/
inductive Authentic (publicKey token : Str) : TokenIdentity F → Prop
  | mk {now : Timestamp} {claims : List (Str × Json F)} {uuid : Str} {customerId : Int} :
      decode now token publicKey [settings.jwtAlgorithm] settings.jwtAudience settings.jwtIssuer =
        .ok claims →
      (dictGet claims "sub").truthy = true → intOf truncate (dictGet claims "sub") = .ok customerId →
      uuid ≠ [] → Authentic publicKey token
        { sessionId := (dictGet claims "session_id").orElse (.string uuid), customerId := customerId }

variable {settings decode truncate} {now : Timestamp} {file : Except Exc Str} {uuid : Str}
  {credentials cached : Option Str} {accepted : TokenIdentity F} {publicKey token : Str}

theorem identityOf_ok {claims : List (Str × Json F)} (h : identityOf truncate claims uuid = .ok accepted) :
    ∃ customerId, (dictGet claims "sub").truthy = true ∧
      intOf truncate (dictGet claims "sub") = .ok customerId ∧
      accepted = { sessionId := (dictGet claims "session_id").orElse (.string uuid),
                   customerId := customerId } := by
  unfold identityOf at h
  simp only at h
  by_cases hs : (dictGet claims "sub").truthy = true
  · rw [if_neg (by simp [hs])] at h
    cases hc : intOf truncate (dictGet claims "sub") with
    | error e =>
      rw [hc] at h
      simp only at h
      split at h <;> cases h
    | ok customerId =>
      rw [hc] at h
      cases h
      exact ⟨customerId, hs, rfl, rfl⟩
  · rw [if_pos (by simpa using hs)] at h
    cases h

/-- An identity is accepted by the key that is cached from then on. -/
theorem getCurrentIdentity_ok (huuid : uuid ≠ [])
    (h : (getCurrentIdentity settings decode truncate now file uuid credentials cached).1 =
      .ok accepted) : ∃ token publicKey, credentials = some token ∧
      (getCurrentIdentity settings decode truncate now file uuid credentials cached).2 =
        some publicKey ∧ Authentic settings decode truncate publicKey token accepted := by
  cases credentials with
  | none => cases h
  | some token =>
    unfold getCurrentIdentity verifyToken at h ⊢
    simp only at h ⊢
    cases hkey : loadPublicKey settings.jwtPublicKeyPath file cached with
    | error e => rw [hkey] at h; cases h
    | ok publicKey =>
      rw [hkey] at h
      simp only at h
      cases hd : decode now token publicKey [settings.jwtAlgorithm] settings.jwtAudience
          settings.jwtIssuer with
      | error e => cases e <;> rw [hd] at h <;> cases h
      | ok claims =>
        rw [hd] at h
        obtain ⟨customerId, hs, hc, rfl⟩ := identityOf_ok h
        exact ⟨token, publicKey, rfl, rfl, .mk hd hs hc huuid⟩

/-- A cached key stays. -/
theorem getCurrentIdentity_cached (now : Timestamp) (file : Except Exc Str) (uuid : Str)
    (credentials : Option Str) (publicKey : Str) :
    (getCurrentIdentity settings decode truncate now file uuid credentials (some publicKey)).2 =
      some publicKey := by
  cases credentials <;> rfl

/-- A session id that is a text is no empty one. -/
theorem Authentic.sessionId_ne_nil (h : Authentic settings decode truncate publicKey token accepted)
    {s : Str} (hs : accepted.sessionId = .string s) : s ≠ [] := by
  cases h with
  | @mk _ claims uuid _ hd hsub hc huuid =>
    rintro rfl
    have hs : (dictGet claims "session_id").orElse (.string uuid) = .string [] := hs
    unfold orElse at hs
    split at hs
    · next htruthy =>
      rw [hs] at htruthy
      cases htruthy
    · cases hs
      exact huuid rfl

/-- The tool server that an accepted identity starts reads its customer. -/
theorem Authentic.served (h : Authentic settings decode truncate publicKey token accepted) {s : Str}
    (hs : accepted.sessionId = .string s) {getDefaultEnvironment : Environ → EnvDict}
    (hd : Inherited getDefaultEnvironment) {parent : Environ} {served : Option RequestIdentity}
    (hchild : identityInChild getDefaultEnvironment parent accepted.identity = .ok served) :
    ∃ session, served = some { sessionId := session, customerId := some accepted.customerId } := by
  have hid := TokenIdentity.identity_sessionId hs
  obtain ⟨session, hserved, -⟩ :=
    identityInChild_served hd (hid ▸ h.sessionId_ne_nil hs) rfl hchild
  exact ⟨session, hserved⟩

/-- Where its session id passes the environment, the tool server reads the accepted identity. -/
theorem Authentic.arrives (h : Authentic settings decode truncate publicKey token accepted) {s : Str}
    (hs : accepted.sessionId = .string s) {getDefaultEnvironment : Environ → EnvDict}
    (hd : Inherited getDefaultEnvironment) (parent : Environ) (hpass : Passes s)
    (hwrite : WritableId accepted.identity) :
    identityInChild getDefaultEnvironment parent accepted.identity = .ok (some accepted.identity) := by
  have hid := TokenIdentity.identity_sessionId hs
  exact identityInChild_authenticated hd (hid ▸ h.sessionId_ne_nil hs) (hid ▸ hpass) hwrite rfl

/-! ## Minted tokens -/

omit [PyFloat F] [Unicode] in
/-- The claims of `mint_dev_token.py`. -/
def mintClaims (settings : JwtSettings) (customerId : Int) (sessionId : Str) (now : Timestamp)
    (expiresMinutes : Int) : List (Str × Json F) :=
  [("sub", .string (intRepr customerId)), ("session_id", .string sessionId),
    ("iss", .string settings.jwtIssuer), ("aud", .string settings.jwtAudience), ("iat", .int now),
    ("exp", .int (now + expiresMinutes * 60))]

/-- A minted token that is decoded to its claims is accepted for its customer and session, up to the
digits that `int` reads. -/
theorem verifyToken_minted {customerId : Int} {sessionId : Str} {minted : Timestamp}
    {expiresMinutes : Int} (hkey : loadPublicKey settings.jwtPublicKeyPath file cached = .ok publicKey)
    (hsession : sessionId ≠ []) (hdigits : (natRepr customerId.natAbs).length ≤ intMaxStrDigits)
    (hd : decode now token publicKey [settings.jwtAlgorithm] settings.jwtAudience settings.jwtIssuer =
      .ok (mintClaims settings customerId sessionId minted expiresMinutes)) :
    verifyToken settings decode truncate now file uuid token cached =
      (.ok { sessionId := .string sessionId, customerId := customerId }, some publicKey) := by
  have hsub : dictGet (mintClaims (F := F) settings customerId sessionId minted expiresMinutes) "sub" =
      .string (intRepr customerId) := rfl
  have hid : dictGet (mintClaims (F := F) settings customerId sessionId minted expiresMinutes)
      "session_id" = .string sessionId := rfl
  have hint : intOrRaise (intRepr customerId) = .ok customerId :=
    intOrRaise_strOfInt (strOfInt_eq_ok.mpr ⟨hdigits, rfl⟩)
  unfold verifyToken
  rw [hkey]
  simp only [hd]
  unfold identityOf
  simp [hsub, hid, truthy, orElse, intOf, hint, intRepr_ne_nil, hsession]

end Verify

/-! ## Whom a handler asks for -/

/-- The request is made for the identity. -/
def ApiRequest.isFor (identity : RequestIdentity) : ApiRequest → Prop
  | .checkRate key => key = rateKey identity.customerId
  | .loadConversation c _ => identity.customerId = some c
  | .createConversation c => identity.customerId = some c
  | .runTurn identity' _ => identity' = identity
  | .appendMessages c _ _ => identity.customerId = some c

/-- A handler asks for its own identity only. -/
theorem ChatTrace.isFor {T F : Type} [PyFloat F] {identity : RequestIdentity} {request : ChatRequest}
    {tr : List (ApiEvent T F)} {q : Handler T F ChatResponse} (h : ChatTrace identity request tr q) :
    ∀ ev ∈ tr, ev.req.isFor identity := by
  have hopened : ∀ {c conversationId ref prior} {ev : ApiEvent T F}, identity.customerId = some c →
      Opened c request ev conversationId ref prior → ev.req.isFor identity := by
    intro c conversationId ref prior ev hc ho
    cases ho <;> exact hc
  have hnot : ∀ {c} {ev : ApiEvent T F} {e}, identity.customerId = some c → NotOpened c request ev e →
      ev.req.isFor identity := by
    intro c ev e hc ho
    cases ho <;> exact hc
  cases h with
  | rejected rate hc ho => simpa using ⟨rfl, hnot hc ho⟩
  | running rate hc ho => simpa using ⟨rfl, hopened hc ho⟩
  | failed rate x e hc ho => simpa using ⟨rfl, hopened hc ho, rfl⟩
  | appending rate hc ho htext => simpa using ⟨rfl, hopened hc ho, rfl⟩
  | ended rate x hc ho htext hret hasks => simpa using ⟨rfl, hopened hc ho, rfl, hc⟩
  | _ => simp [ApiRequest.isFor]

def ApiRequest.isTurn : ApiRequest → Bool
  | .runTurn _ _ => true
  | _ => false

/-! ## The endpoint -/

section Edge

variable {N T F : Type} [PyFloat F]

/-- `chat` of an accepted token. A session id that is no text fails in `open_mcp_session`, where Pydantic
checks the environment of the server. -/
def handlerOf (wholeSeconds : T → Int) (accepted : TokenIdentity F) (request : ChatRequest) :
    Handler T F ChatResponse :=
  match accepted.sessionId with
  | .string _ => chat wholeSeconds accepted.identity request
  | _ => (chat wholeSeconds accepted.identity request).cutAt ApiRequest.isTurn
      (.turn (.code ⟨.other "ValidationError", []⟩))

theorem cuts_handlerOf (wholeSeconds : T → Int) (accepted : TokenIdentity F) (request : ChatRequest) :
    Cuts (handlerOf wholeSeconds accepted request) (chat wholeSeconds accepted.identity request) := by
  unfold handlerOf
  split
  · exact .refl _
  · exact cuts_cutAt _ _ _

/-- A handler that runs a turn has a session id that is a text. -/
theorem leads_handlerOf {wholeSeconds : T → Int} {accepted : TokenIdentity F} {request : ChatRequest}
    {tr : List (ApiEvent T F)} {q : Handler T F ChatResponse}
    (h : Leads (handlerOf wholeSeconds accepted request) tr q) {ev : ApiEvent T F} (hev : ev ∈ tr)
    (hturn : ev.req.isTurn = true) : ∃ s, accepted.sessionId = .string s := by
  unfold handlerOf at h
  split at h
  · next s hs => exact ⟨s, hs⟩
  · cases hturn.symm.trans (leads_cutAt h ev hev)

/-- The handlers of accepted tokens. -/
def handlers (wholeSeconds : T → Int) (requests : N → TokenIdentity F × ChatRequest)
    (store : ConversationStore) :
    System N ConversationStore ApiRequest (ApiAnswer T F) ApiError ChatResponse where
  store := store
  client n := handlerOf wholeSeconds (requests n).1 (requests n).2

variable [Unicode]

/-- Authentication with the cached key, at any time, whatever the key file has then. -/
inductive Authenticates (settings : JwtSettings) (decode : JwtDecode F)
    (truncate : F → Except Exc Int) : Gate (Option Str) (Option Str) ApiError (TokenIdentity F)
  | mk {cached credentials : Option Str} (now : Timestamp) (file : Except Exc Str) {uuid : Str} :
      uuid ≠ [] → Authenticates settings decode truncate cached credentials
        (getCurrentIdentity settings decode truncate now file uuid credentials cached).1
        (getCurrentIdentity settings decode truncate now file uuid credentials cached).2

abbrev EdgeAnswer (T F : Type) : Option Str ⊕ ApiRequest → Type :=
  GateAns (Option Str) (ApiAnswer T F) ApiError (TokenIdentity F)

/-- The requests to the endpoint, each with its bearer token, before any of their steps. -/
def edge (wholeSeconds : T → Int) (requests : N → Option Str × ChatRequest) (store : ConversationStore) :
    System N (Option Str × ConversationStore) (Option Str ⊕ ApiRequest) (EdgeAnswer T F) ApiError
      ChatResponse where
  store := (none, store)
  client n := gated (requests n).1 fun accepted => handlerOf wholeSeconds accepted (requests n).2

variable [DecidableEq N] {pg : Postgres} {faults : Bool} {settings : JwtSettings} {decode : JwtDecode F}
  {truncate : F → Except Exc Int} {wholeSeconds : T → Int} {requests : N → Option Str × ChatRequest}
  {store₀ : ConversationStore} {h : List (Event (N × (Option Str ⊕ ApiRequest)) fun r => EdgeAnswer T F r.2)}
  {sys : System N (Option Str × ConversationStore) (Option Str ⊕ ApiRequest) (EdgeAnswer T F) ApiError
    ChatResponse}

/-- The identities that were accepted, by the cached key. -/
def AcceptedBy (settings : JwtSettings) (decode : JwtDecode F) (truncate : F → Except Exc Int)
    (h : List (Event (N × (Option Str ⊕ ApiRequest)) fun r => EdgeAnswer T F r.2)) (cached : Option Str) :
    Prop :=
  ∀ n credentials accepted, ⟨(n, .inl credentials), .ok accepted⟩ ∈ h →
    ∃ token publicKey, credentials = some token ∧ cached = some publicKey ∧
      Authentic settings decode truncate publicKey token accepted

omit [DecidableEq N] in
theorem AcceptedBy.step {n : N} {r : Option Str ⊕ ApiRequest} {x : EdgeAnswer T F r}
    {state state' : Option Str × ConversationStore}
    (ha : AcceptedBy settings decode truncate h state.1)
    (hserve : Gated (Authenticates settings decode truncate) (ChatService pg faults) state ⟨r, x⟩ state') :
    AcceptedBy settings decode truncate (h ++ [⟨(n, r), x⟩]) state'.1 := by
  intro m credentials accepted hev
  cases hserve with
  | @service cached s s' r x hserve =>
    refine ha m credentials accepted ((List.mem_append.mp hev).resolve_right fun hlast => ?_)
    cases List.mem_singleton.mp hlast
  | gate hgate =>
    cases hgate with
    | mk now file huuid =>
      rcases List.mem_append.mp hev with hold | hnew
      · obtain ⟨token, publicKey, rfl, hcached, hverified⟩ := ha m credentials accepted hold
        refine ⟨token, publicKey, rfl, ?_, hverified⟩
        obtain rfl := hcached
        exact getCurrentIdentity_cached ..
      · injection List.mem_singleton.mp hnew with hreq hans
        cases hreq
        exact getCurrentIdentity_ok huuid hans.symm

/-- Every identity that was accepted in a run was verified with the same key. -/
theorem edge_key (hr : SharedRun (Gated (Authenticates settings decode truncate) (ChatService pg faults))
    (edge wholeSeconds requests store₀) h sys) :
    ∃ publicKey, ∀ n accepted, Passed (fun n => (requests n).1) h n accepted →
      ∃ token, (requests n).1 = some token ∧
        Authentic settings decode truncate publicKey token accepted := by
  have haccepted : AcceptedBy settings decode truncate h sys.store.1 :=
    hr.invariant (I := fun h state => AcceptedBy settings decode truncate h state.1)
      (fun n credentials accepted hev => by cases hev)
      fun h s n r x s' ha hserve => ha.step hserve
  cases hcached : sys.store.1 with
  | none =>
    refine ⟨[], fun n accepted hpassed => ?_⟩
    obtain ⟨token, publicKey, -, hkey, -⟩ := haccepted n _ accepted hpassed
    cases hcached.symm.trans hkey
  | some publicKey =>
    refine ⟨publicKey, fun n accepted hpassed => ?_⟩
    obtain ⟨token, publicKey', htoken, hkey, hverified⟩ := haccepted n _ accepted hpassed
    cases hcached.symm.trans hkey
    exact ⟨token, htoken, hverified⟩

variable {n : N}

omit [Unicode] in
/-- What the handlers of accepted tokens do, the handlers of their identities can do. -/
theorem handlers_chats {accepted : N → TokenIdentity F} {request : N → ChatRequest}
    {h : List (Event (N × ApiRequest) fun r => ApiAnswer T F r.2)}
    {sys : System N ConversationStore ApiRequest (ApiAnswer T F) ApiError ChatResponse}
    (hr : SharedRun (ChatService pg faults)
      (handlers wholeSeconds (fun n => (accepted n, request n)) store₀) h sys) :
    ∃ sys', SharedRun (ChatService pg faults)
      (chats wholeSeconds (fun n => ((accepted n).identity, request n)) store₀) h sys' := by
  obtain ⟨sys', hr', -⟩ := hr.uncut fun n => cuts_handlerOf wholeSeconds (accepted n) (request n)
  exact ⟨sys', hr'⟩

/-- Behind the authentication the requests are a run of the handlers of the verified tokens, and what a
request asks for there it asks for the customer of its token. -/
theorem edge_handlers
    (hr : SharedRun (Gated (Authenticates settings decode truncate) (ChatService pg faults))
      (edge wholeSeconds requests store₀) h sys) :
    ∃ (publicKey : Str) (accepted : N → TokenIdentity F)
      (sys' : System N ConversationStore ApiRequest (ApiAnswer T F) ApiError ChatResponse),
      SharedRun (ChatService pg faults)
        (handlers wholeSeconds (fun n => (accepted n, (requests n).2)) store₀) (insideOf h) sys' ∧
      sys'.store = sys.store.2 ∧
      ∀ n (ev : ApiEvent T F), ev.tag n ∈ insideOf h →
        (∃ token, (requests n).1 = some token ∧
          Authentic settings decode truncate publicKey token (accepted n)) ∧
        ev.req.isFor (accepted n).identity ∧
        (ev.req.isTurn = true → ∃ s, (accepted n).sessionId = .string s) := by
  obtain ⟨publicKey, hkey⟩ := edge_key hr
  have : Nonempty (TokenIdentity F) := ⟨⟨.null, 0⟩⟩
  obtain ⟨accepted, haccepted⟩ := SharedRun.identities hr
  obtain ⟨sys', hinside, hstore, -, hpassed⟩ := SharedRun.inside hr haccepted
  have hhandlers : SharedRun (ChatService pg faults)
      (handlers wholeSeconds (fun n => (accepted n, (requests n).2)) store₀) (insideOf h) sys' := hinside
  obtain ⟨sys'', hchats⟩ := handlers_chats hhandlers
  refine ⟨publicKey, accepted, sys', hhandlers, hstore, fun n ev hev => ?_⟩
  obtain ⟨token, htoken, hverified⟩ := hkey n _ (hpassed n ev hev)
  have hmem : ev ∈ Graph.traceOf n (insideOf h) := Graph.mem_traceOf.mpr hev
  exact ⟨⟨token, htoken, hverified⟩, (chats_trace hchats n).isFor ev hmem,
    leads_handlerOf (hhandlers.leads n) hmem⟩

/-- However the requests go on side by side, whatever their tokens, and whatever the key file has at any
time: behind the authentication they are a run of the handlers of the tokens that were verified, with the
same conversations in the end. A request does anything there, from its rate check on, only when its own
bearer token was verified, with the one key of the process; all that it asks for is asked for the customer
of that token; and it asks for a turn only when the session id of the token is a text. The tool server of
that turn reads the customer of the token, if it starts, and reads the whole identity if the session id
passes the environment. -/
theorem edge_authenticated
    (hr : SharedRun (Gated (Authenticates settings decode truncate) (ChatService pg faults))
      (edge wholeSeconds requests store₀) h sys) :
    ∃ (publicKey : Str) (accepted : N → TokenIdentity F)
      (sys' : System N ConversationStore ApiRequest (ApiAnswer T F) ApiError ChatResponse),
      SharedRun (ChatService pg faults)
        (handlers wholeSeconds (fun n => (accepted n, (requests n).2)) store₀) (insideOf h) sys' ∧
      sys'.store = sys.store.2 ∧
      ∀ n (ev : ApiEvent T F), ev.tag n ∈ insideOf h →
        (∃ token, (requests n).1 = some token ∧
          Authentic settings decode truncate publicKey token (accepted n)) ∧
        ev.req.isFor (accepted n).identity ∧
        (ev.req.isTurn = true → ∃ s, (accepted n).sessionId = .string s ∧
          ∀ getDefaultEnvironment parent, Inherited getDefaultEnvironment →
            (∀ served, identityInChild getDefaultEnvironment parent (accepted n).identity = .ok served →
              ∃ session, served =
                some { sessionId := session, customerId := some (accepted n).customerId }) ∧
            (Passes s → WritableId (accepted n).identity →
              identityInChild getDefaultEnvironment parent (accepted n).identity =
                .ok (some (accepted n).identity))) := by
  obtain ⟨publicKey, accepted, sys', hhandlers, hstore, hevents⟩ := edge_handlers hr
  refine ⟨publicKey, accepted, sys', hhandlers, hstore, fun n ev hev => ?_⟩
  obtain ⟨⟨token, htoken, hverified⟩, hfor, htext⟩ := hevents n ev hev
  refine ⟨⟨token, htoken, hverified⟩, hfor, fun hturn => ?_⟩
  obtain ⟨s, hs⟩ := htext hturn
  exact ⟨s, hs, fun _ parent hd => ⟨fun served hchild => hverified.served hs hd hchild,
    fun hpass hwrite => hverified.arrives hs hd parent hpass hwrite⟩⟩

/-- Where a message that is shown to a turn of the request `n` can come from, after the events `h`, when
the token of the request is of the customer `c`: from the request, from a conversation of the customer
that was there at first, or from an exchange of a request whose token is of the same customer. -/
inductive TokenSource (settings : JwtSettings) (decode : JwtDecode F) (truncate : F → Except Exc Int)
    (requests : N → Option Str × ChatRequest) (store₀ : ConversationStore) (publicKey : Str) (c : Int)
    (h : List (Event (N × ApiRequest) fun r => ApiAnswer T F r.2)) (n : N) : Message → Prop
  | own : TokenSource settings decode truncate requests store₀ publicKey c h n
      ⟨.user, (requests n).2.message⟩
  | stored {row : Conversation} {message : Message} : row ∈ store₀.db.conversations →
      row.customerId = c → message.columns ∈ history store₀.db row.id →
      TokenSource settings decode truncate requests store₀ publicKey c h n message
  | exchanged {m : N} {token answer : Str} {accepted : TokenIdentity F} {conversationId : Int}
      {message : Message} : (requests m).1 = some token →
      Authentic settings decode truncate publicKey token accepted → accepted.customerId = c →
      (m, conversationId, exchange (requests m).2 answer) ∈ appends h →
      message ∈ exchange (requests m).2 answer →
      TokenSource settings decode truncate requests store₀ publicKey c h n message

/-- The messages of a turn come from requests whose tokens are of the customer of its own token, all of
them verified with one key, or were that customer's before. -/
theorem edge_provenance {identity : RequestIdentity} {messages : List Message}
    {x : Except Raised (GraphState F)} (h₀ : InOrder store₀) (hkeyed : Keyed store₀.db)
    (hr : SharedRun (Gated (Authenticates settings decode truncate) (ChatService pg faults))
      (edge wholeSeconds requests store₀) h sys)
    (hturn : (⟨.runTurn identity messages, x⟩ : ApiEvent T F).tag n ∈ insideOf h) :
    ∃ publicKey token accepted, (requests n).1 = some token ∧
      Authentic settings decode truncate publicKey token accepted ∧
      accepted.sessionId = .string identity.sessionId ∧
      identity.customerId = some accepted.customerId ∧
      ∀ message ∈ messages, TokenSource settings decode truncate requests store₀ publicKey
        accepted.customerId (insideOf h) n message := by
  obtain ⟨publicKey, accepted, sys', hinside, -, hevents⟩ := edge_handlers hr
  obtain ⟨⟨token, htoken, hverified⟩, hfor, htext⟩ := hevents n _ hturn
  obtain rfl : identity = (accepted n).identity := hfor
  obtain ⟨s, hs⟩ := htext rfl
  obtain ⟨before, after, hsplit⟩ := List.append_of_mem hturn
  obtain ⟨sys'', hchats⟩ := handlers_chats hinside
  rw [hsplit] at hchats
  obtain ⟨-, ⟨c, hc⟩, hsource⟩ := prompt_provenance h₀ hkeyed hchats
  obtain rfl : (accepted n).customerId = c := Option.some.inj hc
  refine ⟨publicKey, token, accepted n, htoken, hverified, by
    rw [hs, TokenIdentity.identity_sessionId hs], rfl, fun message hmessage => ?_⟩
  cases hsource message hmessage with
  | own => exact .own
  | stored hrow hcustomer hmem => exact .stored hrow (Option.some.inj hcustomer.symm) hmem
  | @exchanged m conversationId prior result answer message hsame hasked htext happend hmem =>
    obtain ⟨⟨token', htoken', hverified'⟩, -⟩ := hevents m _ (hsplit ▸ List.mem_append_left _ hasked)
    have happend' : (m, conversationId, exchange (requests m).2 answer) ∈ appends (insideOf h) := by
      rw [hsplit, appends, List.filterMap_append]
      exact List.mem_append_left _ happend
    exact .exchanged htoken' hverified' (Option.some.inj hsame) happend' hmem

end Edge

/-! ## Three requests -/

def shopJwtSettings : JwtSettings where
  jwtPublicKeyPath := "dev_keys/dev_jwt_public.pem"

/-- A decoder that knows two tokens of customer 7: a minted one, and one whose session id is a number. -/
def decodeSeven : JwtDecode FloatText := fun _ token _ _ _ _ =>
  if token = "seven" then .ok (mintClaims shopJwtSettings 7 "s-1" 0 30)
  else if token = "numbered" then .ok [("sub", .string "7"), ("session_id", .int 1)]
  else .error (.jwtError ⟨.other "JWTError", "Signature verification failed."⟩)

def tokenRequests : Fin 3 → Option Str × ChatRequest
  | 0 => (none, ⟨"Two", some "conv-1"⟩)
  | 1 => (some "seven", ⟨"One", some "conv-1"⟩)
  | 2 => (some "numbered", ⟨"Three", some "conv-1"⟩)

/-- The request with the minted token comes to its turn. The one without a token is refused, and the one
with the numbered session is let in, loads its conversation and fails before its turn. -/
theorem token_run : ∃ (h : List (Event (Fin 3 × (Option Str ⊕ ApiRequest)) fun r =>
      EdgeAnswer Int FloatText r.2))
    (sys : System (Fin 3) (Option Str × ConversationStore) (Option Str ⊕ ApiRequest)
      (EdgeAnswer Int FloatText) ApiError ChatResponse),
    SharedRun (Gated (@Authenticates FloatText _ asciiUnicode shopJwtSettings decodeSeven
      fun _ => .ok 0) (ChatService asciiPostgres false)) (edge id tokenRequests talkStore) h sys ∧
    (⟨.runTurn ⟨"s-1", some 7⟩ [⟨.user, "One"⟩], .ok (talkResult true [])⟩ :
      ApiEvent Int FloatText).tag 1 ∈ insideOf h ∧
    sys.client 0 = .raise (unauthorized "Missing bearer token") ∧
    sys.client 2 = .raise (.turn (.code ⟨.other "ValidationError", []⟩)) := by
  let _ := asciiUnicode
  have hload : ChatService asciiPostgres false talkStore (⟨.loadConversation 7 "conv-1",
      .ok (some (1, []))⟩ : ApiEvent Int FloatText) talkStore := talk_loads ▸ .loadConversation
  have huuid : str "0" ≠ [] := by decide
  have h₀ : SharedRun (Gated (Authenticates shopJwtSettings decodeSeven fun _ => .ok 0)
      (ChatService (T := Int) (F := FloatText) asciiPostgres false))
      (edge id tokenRequests talkStore) [] (edge id tokenRequests talkStore) := .start
  have h₁ := h₀.ask (n := 0) rfl (.gate (.mk 0 (.ok "PEM") huuid))
  have h₂ := h₁.ask (n := 2) rfl (.gate (.mk 0 (.ok "PEM") huuid))
  have h₃ := h₂.ask (n := 1) rfl (.gate (.mk 0 (.ok "PEM") huuid))
  have h₄ := h₃.ask (n := 2) rfl (.service (.checkRate ⟨true, 0⟩))
  have h₅ := h₄.ask (n := 1) rfl (.service (.checkRate ⟨true, 0⟩))
  have h₆ := h₅.ask (n := 2) rfl (.service hload)
  have h₇ := h₆.ask (n := 1) rfl (.service hload)
  have h₈ := h₇.ask (n := 1) rfl
    (.service (.runTurn (.ok (talkResult true [])) ⟨rfl, rfl, rfl, rfl⟩))
  exact ⟨_, _, h₈, mem_insideOf.mpr (List.mem_append_right _ List.mem_cons_self), rfl, rfl⟩

/-- The turn is of the customer that the token was minted for, and so is its tool server. -/
theorem token_authenticated : ∃ publicKey,
    @Authentic FloatText _ asciiUnicode shopJwtSettings decodeSeven (fun _ => .ok 0) publicKey "seven"
      ⟨.string "s-1", 7⟩ ∧
    @identityInChild asciiUnicode posixDefaultEnvironment [] ⟨"s-1", some 7⟩ =
      .ok (some ⟨"s-1", some 7⟩) := by
  obtain ⟨h, sys, hr, hturn, -⟩ := token_run
  obtain ⟨publicKey, accepted, sys', -, -, hevents⟩ := @edge_authenticated _ _ _ _ asciiUnicode _ _ _
    _ _ _ _ _ _ _ _ hr
  obtain ⟨⟨token, htoken, hverified⟩, hfor, hserved⟩ := hevents 1 _ hturn
  cases htoken
  obtain ⟨s, hs, hchild⟩ := hserved rfl
  have hidentity : (⟨"s-1", some 7⟩ : RequestIdentity) = (accepted 1).identity := hfor
  obtain rfl : "s-1" = s :=
    (congrArg RequestIdentity.sessionId hidentity).trans (TokenIdentity.identity_sessionId hs)
  have haccepted : accepted 1 = ⟨.string "s-1", 7⟩ := by
    have hc : some 7 = some (accepted 1).customerId := congrArg RequestIdentity.customerId hidentity
    rw [← hs, Option.some.inj hc]
  have hwrite : WritableId (accepted 1).identity := by
    rw [← hidentity]
    intro c hc
    cases hc
    decide
  have harrives := (hchild _ [] posixDefaultEnvironment_inherited).2 (passes_of_ascii (by decide)) hwrite
  rw [← hidentity] at harrives
  exact ⟨publicKey, haccepted ▸ hverified, harrives⟩

/-- Its message is its own. -/
theorem token_provenance : ∃ (publicKey : Str)
    (h : List (Event (Fin 3 × ApiRequest) fun r => ApiAnswer Int FloatText r.2)),
    @TokenSource _ _ _ _ asciiUnicode shopJwtSettings decodeSeven (fun _ => .ok 0) tokenRequests
      talkStore publicKey 7 h 1 ⟨.user, "One"⟩ := by
  obtain ⟨h, sys, hr, hturn, -⟩ := token_run
  obtain ⟨publicKey, token, accepted, -, -, -, hc, hsource⟩ := @edge_provenance _ _ _ _ asciiUnicode _ _
    _ _ _ _ _ _ _ _ _ _ _ _ _ talk_keyed.1 talk_keyed.2 hr hturn
  rw [← Option.some.inj hc] at hsource
  exact ⟨publicKey, insideOf h, hsource _ List.mem_cons_self⟩

end DealershipAgent
