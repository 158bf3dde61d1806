import EsphomeMcp.OAuth.Refresh
import EsphomeMcp.OAuth.TokenBody
import EsphomeMcp.Webhook.World

/-!
# The scoped OAuth views

`AutoApproveAuthorizeView.get`, `AutoApproveTokenView.post` and `AutoApproveRevokeView.post`,
with what `oauth_ha_auth` decides for them. In ha_auth mode a request is sent on to core, by a
redirect that leaves it to the client or by a POST of the relay session; in none mode it is
answered from the PKCE code store.
-/

namespace EsphomeMcp.OAuth

open Py Py.Prog

/-! ## Commands -/

/-- What the views read of the cfg dict. -/
structure OAuthCfg where
  resourceServer : Option Webhook.ResourceServer
  autoapproveProvider : Option Webhook.AutoApproveProvider
  session : Option Webhook.SessionId
  cimdSession : Option Webhook.SessionId
  dcrSigningKey : Option Bytes

/-- The part of the forwarding cfg that the views read. -/
def oauthCfg (cfg : Webhook.Cfg) : OAuthCfg where
  resourceServer := cfg.resourceServer
  autoapproveProvider := cfg.autoapproveProvider
  session := some cfg.session
  cimdSession := cfg.cimdSession
  dcrSigningKey := cfg.dcrSigningKey

/-- An ha_auth configuration with a key. -/
def haModeCfg (dcrSigningKey : Bytes) : Webhook.Cfg where
  webhookId := "hook"
  targetUrl := "http://127.0.0.1:9583/private_x"
  session := 0
  cimdSession := some 1
  authMode := Webhook.webhookAuthHa
  resourceServer := some ⟨"hook"⟩
  autoapproveProvider := none
  dcrSigningKey := some dcrSigningKey

/-- What core answered, its body read. -/
structure CoreAnswer where
  status : ℕ
  body : Bytes
  contentType : Str
deriving DecidableEq

/-- The commands of a view: the CIMD lookup, a POST of the relay session to a path of core, and
those of the live provider. -/
inductive ViewCmd where
  | fetchCimdRedirects (clientId : Str)
  | post (session : Webhook.SessionId) (path : Str) (data : MultiDict)
  | issueCode (redirectUri codeChallenge : Str)
  | consumeCode (code redirectUri codeVerifier : Str)
  | issueAccessToken

/-- Their answers. -/
@[reducible] def ViewCmd.Ans : ViewCmd → Type
  | .fetchCimdRedirects _ => Option (List Str)
  | .post _ _ _ => CoreAnswer
  | .issueCode _ _ => Option Str
  | .consumeCode _ _ _ => Bool
  | .issueAccessToken => Str

/-- The commands of a view, as a signature. -/
abbrev viewSignature : Signature := ⟨ViewCmd, ViewCmd.Ans⟩

/-- A coroutine of a view. -/
abbrev ViewProg (α : Type) := Prog viewSignature OAuthError α

/-- One command of a view with what came back. -/
abbrev ViewEvent := Event viewSignature OAuthError

/-- `await` of one command. -/
def await (c : ViewCmd) : ViewProg c.Ans := @perform viewSignature OAuthError c

/-- A call that awaits nothing. -/
def pureCall {α : Type} (x : Except PyError α) : ViewProg α := ofExcept (x.mapError .py)

/-- `fetch_cimd_redirects`, looked up by the cfg's own session. -/
def lookupRedirects (clientId : Str) : ViewProg (Option (List Str)) :=
  await (.fetchCimdRedirects clientId)

/-! ## Responses -/

/-- The target of a redirect. -/
inductive Location where
  /-- A path, as it is. -/
  | path (target : Str)
  /-- `yarl.URL(target).with_query(params)`. -/
  | withQuery (target : Str) (params : MultiDict)
  /-- `yarl.URL(target).update_query(params)`. -/
  | updateQuery (target : Str) (params : List (Str × Str))
deriving DecidableEq

/-- `web.Response`. -/
inductive Response where
  | json (status : ℕ) (headers : List (Str × Str)) (payload : Json)
  | redirect (status : ℕ) (headers : List (Str × Str)) (location : Location)
  | relay (status : ℕ) (headers : List (Str × Str)) (body : Bytes) (contentType : Str)

/-- `_TOKEN_RESPONSE_HEADERS`. -/
def tokenResponseHeaders : List (Str × Str) :=
  [(str "Cache-Control", str "no-store"), (str "Pragma", str "no-cache")]

/-- `_REVOKE_RETRY_AFTER`. -/
def revokeRetryAfter : Str := str "5"

/-- `ACCESS_TOKEN_TTL`. -/
def accessTokenTtl : ℤ := 60 * 60

/-- `_json_not_found`. -/
def jsonNotFound : Response := .json 404 [] (.dict [("error", .lit "not_found")])

/-- `_json_error`. -/
def jsonError (error : String) (status : ℕ) (description : Option String) : Response :=
  .json status tokenResponseHeaders (.dict (("error", .lit error) ::
    description.toList.map fun text => ("error_description", .lit text)))

/-- `_unavailable`. -/
def unavailable (description : String) (revocation : Bool) : Response :=
  .json 503 (tokenResponseHeaders ++
      if revocation then [(str "Retry-After", revokeRetryAfter)] else [])
    (.dict [("error", .lit "temporarily_unavailable"), ("error_description", .lit description)])

/-- `_redirect_with`, which raises what `yarl` raises. -/
def redirectWith [Runtime] (redirectUri : Str) (params : List (Str × Str)) :
    Except PyError Response :=
  if yarlReads redirectUri params then .ok (.redirect 302 [] (.updateQuery redirectUri params))
  else .error .value

/-- A 307 into core, which has the client repeat its request there. -/
def redirectIntoCore (path : Str) : Response :=
  .redirect 307 [(str "Cache-Control", str "no-store")] (.path path)

/-! ## Revocation -/

/-- `MAX_REVOKE_ENVELOPE_LEN`. -/
def maxRevokeEnvelopeLen : ℕ := 4096

section

variable [Runtime]

/-- What `core_token_for_revocation` reads out of an envelope that does not verify. -/
def unverifiedToken (token : Str) : Option Str :=
  if maxRevokeEnvelopeLen < token.length then none
  else
    match rpartition (ch '.') (token.drop refreshEnvelopePrefix.length) with
    | none => none
    | some (body, _) =>
      if body = [] then none
      else
        match (b64urlDecode body).map loadsBytes with
        | some (.ok (.obj payload)) =>
          match dictGet payload (str "t") with
          | .str t => some t
          | _ => none
        | _ => none

/-- `core_token_for_revocation`. -/
def coreTokenForRevocation (signingKey : Option Bytes) (token : Str) :
    Except PyError (Option Str) :=
  match signingKey with
  | none => .ok none
  | some signingKey =>
    if startsWith token refreshEnvelopePrefix then do
      match ← unwrapRefreshToken signingKey token none with
      | .opened coreRefreshToken _ => return some coreRefreshToken
      | _ => return unverifiedToken token
    else .ok none

/-- `_revoke_rewrite`, with the form it leaves behind. -/
def revokeRewrite (dcrKey : Option Bytes) (form : MultiDict) : Except PyError (Bool × MultiDict) :=
  match dcrKey with
  | none => .ok (false, form)
  | some key => do
    match ← coreTokenForRevocation (some key) (form.getD (str "token")) with
    | none => return (false, form)
    | some coreRefreshToken => return (true, form.replace (str "token") coreRefreshToken)

/-! ## The identity of a request -/

/-- The client id to present to core and whether proxying is forced, or a response. -/
inductive Resolved where
  | identity (forwardId : Str) (proxyRequired : Bool)
  | response (r : Response)

/-- `_envelope_identity`, with the form it leaves behind. -/
def envelopeIdentity (dcrKey : Option Bytes) (form : MultiDict) (clientId : Str) :
    Except PyError (Option Resolved × MultiDict) :=
  match dcrKey with
  | none => .ok (none, form)
  | some key => do
    match ← unwrapRefreshToken key (form.getD refreshTokenKey) (some clientId) with
    | .opened coreRefreshToken forwardId =>
      return (some (.identity forwardId true), form.replace refreshTokenKey coreRefreshToken)
    | .invalid =>
      return (some (.response (jsonError "invalid_grant" 400 (some
        ("re-authorize: this refresh token could not be verified against this server's " ++
          "current signing key")))), form)
    | .absent => return (none, form)

/-- `_pre_envelope_refresh_identity`. -/
def preEnvelopeRefreshIdentity (cfg : OAuthCfg) (dcrKey : Option Bytes) (clientId : Str) :
    ViewProg Resolved := do
  match ← translatedClientIdForRefresh lookupRedirects cfg.cimdSession.isSome dcrKey clientId with
  | .unreproducible =>
    return .response (jsonError "invalid_grant" 400 (some
      ("re-authorize once: this refresh token predates the signed identity envelope, and its " ++
        "client's registration names no single reproducible web origin to re-derive it from")))
  | .passthrough => return .identity clientId false
  | .origin translated => return .identity translated false

/-- `_code_leg_forces_proxy`. -/
def codeLegForcesProxy (cfg : OAuthCfg) (dcrKey : Option Bytes) (clientId : Str) :
    ViewProg Bool :=
  match dcrKey with
  | none => return false
  | some key =>
    match urlparse clientId with
    | none => return false
    | some parsed =>
      if parsed.scheme ≠ str "https" then return false
      else do
        let disposition ←
          translatedClientIdForRefresh lookupRedirects cfg.cimdSession.isSome (some key) clientId
        return disposition = .unreproducible

/-- `_ha_auth_forward_identity`, with the form it leaves behind. -/
def haAuthForwardIdentity (cfg : OAuthCfg) (form : MultiDict) (clientId : Str)
    (dcrKey : Option Bytes) : ViewProg (Resolved × MultiDict) :=
  let grantType := form.getD (str "grant_type")
  let redirectUri := form.getD (str "redirect_uri")
  if form.lookup (str "action") = some (str "revoke") then do
    let (changed, form) ← pureCall (revokeRewrite dcrKey form)
    return (.identity clientId changed, form)
  else do
    match ← pureCall (if grantType = str "refresh_token" then envelopeIdentity dcrKey form clientId
        else .ok (none, form)) with
    | (some resolved, form) => return (resolved, form)
    | (none, form) =>
      if clientId = [] then return (.identity clientId false, form)
      else if grantType = str "refresh_token" && redirectUri = [] then do
        return (← preEnvelopeRefreshIdentity cfg dcrKey clientId, form)
      else do
        let forwardId ← resolveForwardClientId lookupRedirects cfg.cimdSession.isSome dcrKey
          clientId redirectUri
        if grantType = str "authorization_code" && forwardId = clientId then do
          return (.identity clientId (← codeLegForcesProxy cfg dcrKey clientId), form)
        else return (.identity forwardId false, form)

/-! ## Forwarding -/

/-- Whether a forwarded form is a revocation. -/
def isRevocation (path : Str) (form : MultiDict) : Bool :=
  path = str "/auth/revoke" || form.lookup (str "action") = some (str "revoke")

/-- `_forward_to_core`: core's answer, or a response. -/
def forwardToCore (cfg : OAuthCfg) (path : Str) (form : MultiDict) :
    ViewProg (CoreAnswer ⊕ Response) :=
  match cfg.session with
  | none => return .inr (unavailable "token forwarding is not available" (isRevocation path form))
  | some session => do
    match ← attempt (await (.post session path form)) with
    | .ok answer =>
      return .inl { answer with
        contentType :=
          if answer.contentType = [] then str "application/json" else answer.contentType }
    | .error .timeout | .error .client =>
      return .inr (unavailable "core did not answer the token request" (isRevocation path form))
    | .error e => raise e

/-- `_proxy_token_to_core`. -/
def proxyTokenToCore (cfg : OAuthCfg) (form : MultiDict) (forwardId clientId : Str)
    (dcrKey : Option Bytes) : ViewProg Response := do
  match ← forwardToCore cfg (str "/auth/token") form with
  | .inr response => return response
  | .inl answer => do
    let body ← pureCall <|
      match dcrKey with
      | some key =>
        if answer.status = 200 && form.lookup (str "action") ≠ some (str "revoke") then
          rewriteTokenResponseBody key answer.body forwardId clientId
        else .ok answer.body
      | none => .ok answer.body
    return .relay answer.status tokenResponseHeaders body answer.contentType

/-- `AutoApproveTokenView._ha_auth_token`; the form is `none` where `read_form` fails. -/
def haAuthToken (cfg : OAuthCfg) (form : Option MultiDict) : ViewProg Response :=
  match form with
  | none => return jsonError "invalid_request" 400 none
  | some form => do
    let clientId := form.getD (str "client_id")
    match ← haAuthForwardIdentity cfg form clientId cfg.dcrSigningKey with
    | (.response response, _) => return response
    | (.identity forwardId proxyRequired, form) =>
      if forwardId = clientId && !proxyRequired then return redirectIntoCore (str "/auth/token")
      else
        proxyTokenToCore cfg (form.replace (str "client_id") forwardId) forwardId clientId
          cfg.dcrSigningKey

/-! ## The views -/

/-- `AutoApproveAuthorizeView._ha_auth_authorize`. -/
def haAuthAuthorize (cfg : OAuthCfg) (query : MultiDict) : ViewProg Response := do
  let clientId := query.getD (str "client_id")
  let forwardId ← resolveForwardClientId lookupRedirects cfg.cimdSession.isSome cfg.dcrSigningKey
    clientId (query.getD (str "redirect_uri"))
  let params := if forwardId = clientId then query else query.replace (str "client_id") forwardId
  return .redirect 302 [] (.withQuery (str "/auth/authorize") params)

/-- `_PKCE_CHALLENGE_RE.fullmatch(code_challenge)`. -/
def pkceChallengeRe (codeChallenge : Str) : Bool :=
  codeChallenge.length = 43 && codeChallenge.all isB64urlDigit

/-- `_validate_autoapprove_authorize`. -/
def validateAutoapproveAuthorize (query : MultiDict) : Option Response :=
  if query.getD (str "response_type") ≠ str "code" then
    some (jsonError "unsupported_response_type" 400 none)
  else if query.getD (str "code_challenge_method") ≠ str "S256" then
    some (jsonError "invalid_request" 400 (some "code_challenge_method must be S256"))
  else if !pkceChallengeRe (query.getD (str "code_challenge")) then
    some (jsonError "invalid_request" 400 (some "invalid code_challenge (43-char base64url)"))
  else if !isValidRedirectUri (query.getD (str "redirect_uri")) then
    some (jsonError "invalid_request" 400 (some "invalid redirect_uri"))
  else none

/-- `AutoApproveAuthorizeView.get`; `issuer` is what `_issuer_for` makes of the request. -/
def authorizeGet (cfg : Option OAuthCfg) (query : MultiDict) (issuer : Str) : ViewProg Response :=
  match cfg with
  | none => return jsonNotFound
  | some cfg =>
    if cfg.resourceServer.isSome then haAuthAuthorize cfg query
    else if cfg.autoapproveProvider.isNone then return jsonNotFound
    else
      match validateAutoapproveAuthorize query with
      | some error => return error
      | none => do
        let redirectUri := query.getD (str "redirect_uri")
        let state := query.getD (str "state")
        match ← await (.issueCode redirectUri (query.getD (str "code_challenge"))) with
        | none =>
          pureCall <| redirectWith redirectUri [(str "error", str "temporarily_unavailable"),
            (str "state", state), (str "iss", issuer)]
        | some code =>
          pureCall <| redirectWith redirectUri ([(str "code", code), (str "iss", issuer)] ++
            if state = [] then [] else [(str "state", state)])

/-- The none-mode half of `AutoApproveTokenView.post`. -/
def autoapproveToken (form : Option MultiDict) : ViewProg Response :=
  match form with
  | none => return jsonError "invalid_request" 400 none
  | some form =>
    let code := form.getD (str "code")
    let redirectUri := form.getD (str "redirect_uri")
    let codeVerifier := form.getD (str "code_verifier")
    if form.getD (str "grant_type") ≠ str "authorization_code" then
      return jsonError "unsupported_grant_type" 400 none
    else if code = [] || redirectUri = [] || codeVerifier = [] then
      return jsonError "invalid_request" 400 none
    else do
      if !(← await (.consumeCode code redirectUri codeVerifier)) then
        return jsonError "invalid_grant" 400 none
      else do
        let token ← await .issueAccessToken
        return .json 200 tokenResponseHeaders (.dict [("access_token", .str token),
          ("token_type", .lit "Bearer"), ("expires_in", .int accessTokenTtl)])

/-- `AutoApproveTokenView.post`. -/
def tokenPost (cfg : Option OAuthCfg) (form : Option MultiDict) : ViewProg Response :=
  match cfg with
  | none => return jsonNotFound
  | some cfg =>
    if cfg.resourceServer.isSome then haAuthToken cfg form
    else if cfg.autoapproveProvider.isNone then return jsonNotFound
    else autoapproveToken form

/-- `AutoApproveRevokeView.post`. -/
def revokePost (cfg : Option OAuthCfg) (form : Option MultiDict) : ViewProg Response :=
  match cfg with
  | none => return jsonNotFound
  | some cfg =>
    if cfg.resourceServer.isNone then return jsonNotFound
    else
      match form with
      | none => return jsonError "invalid_request" 400 none
      | some form => do
        match ← pureCall (revokeRewrite cfg.dcrSigningKey form) with
        | (false, _) => return redirectIntoCore (str "/auth/revoke")
        | (true, form) =>
          match ← forwardToCore cfg (str "/auth/revoke") form with
          | .inr response => return response
          | .inl answer =>
            return .relay answer.status tokenResponseHeaders answer.body answer.contentType

/-! ## What a forward sends -/

omit [Runtime] in
@[simp] theorem pureCall_ok {α : Type} (a : α) : pureCall (.ok a) = .ret a := rfl

omit [Runtime] in
@[simp] theorem pureCall_error {α : Type} (e : PyError) :
    (pureCall (.error e) : ViewProg α) = .raise (.py e) := rfl

/-- A response of the component's own, and not a redirect. -/
def Response.IsAnswer : Response → Prop
  | .redirect _ _ _ => False
  | _ => True

omit [Runtime] in
/-- A forward with a session is one POST, answered by core or by the component itself. -/
theorem runs_forwardToCore {cfg : OAuthCfg} {session : Webhook.SessionId} {path : Str}
    {form : MultiDict} {tr : List ViewEvent} {out : Except OAuthError (CoreAnswer ⊕ Response)}
    (hsession : cfg.session = some session) (h : Runs (forwardToCore cfg path form) tr out) :
    ∃ r, tr = [⟨.post session path form, r⟩] ∧
      ∀ response, out = .ok (.inr response) → response.IsAnswer := by
  simp only [forwardToCore, hsession, bind_eq] at h
  rcases runs_bind_iff.mp h with ⟨a, tr₁, tr₂, h₁, h₂, rfl⟩ | ⟨e, h₁, rfl⟩
  · obtain ⟨r, hr, he⟩ := runs_attempt_iff.mp h₁
    obtain rfl := Except.ok.inj he
    obtain rfl := runs_perform_iff.mp hr
    cases a with
    | ok answer =>
      obtain ⟨rfl, rfl⟩ := runs_ret_iff.mp h₂
      exact ⟨_, rfl, nofun⟩
    | error e =>
      refine ⟨.error e, ?_⟩
      cases e with
      | timeout | client =>
        obtain ⟨rfl, rfl⟩ := runs_ret_iff.mp h₂
        refine ⟨rfl, ?_⟩
        rintro response hout
        obtain rfl := Sum.inr.inj (Except.ok.inj hout)
        trivial
      | py | os | deadline | other =>
        obtain ⟨rfl, rfl⟩ := runs_raise_iff.mp h₂
        exact ⟨rfl, nofun⟩
  · obtain ⟨r, -, he⟩ := runs_attempt_iff.mp h₁
    cases he

/-- A proxied token request is one POST, and its answer is no redirect. -/
theorem runs_proxyTokenToCore {cfg : OAuthCfg} {session : Webhook.SessionId} {form : MultiDict}
    {forwardId clientId : Str} {dcrKey : Option Bytes} {tr : List ViewEvent}
    {out : Except OAuthError Response} (hsession : cfg.session = some session)
    (h : Runs (proxyTokenToCore cfg form forwardId clientId dcrKey) tr out) :
    ∃ r, tr = [⟨.post session (str "/auth/token") form, r⟩] ∧
      ∀ response, out = .ok response → response.IsAnswer := by
  simp only [proxyTokenToCore, bind_eq] at h
  rcases runs_bind_iff.mp h with ⟨a, tr₁, tr₂, h₁, h₂, rfl⟩ | ⟨e, h₁, rfl⟩
  · obtain ⟨r, rfl, hanswer⟩ := runs_forwardToCore hsession h₁
    cases a with
    | inr response =>
      obtain ⟨rfl, rfl⟩ := runs_ret_iff.mp h₂
      refine ⟨r, rfl, fun response' hout => ?_⟩
      obtain rfl := Except.ok.inj hout
      exact hanswer response rfl
    | inl answer =>
      rcases runs_bind_iff.mp h₂ with ⟨body, tr₃, tr₄, h₃, h₄, rfl⟩ | ⟨e, h₃, rfl⟩
      · obtain ⟨rfl, -⟩ := runs_ofExcept_iff.mp h₃
        obtain ⟨rfl, rfl⟩ := runs_ret_iff.mp h₄
        refine ⟨r, rfl, fun response hout => ?_⟩
        obtain rfl := Except.ok.inj hout
        trivial
      · obtain ⟨rfl, -⟩ := runs_ofExcept_iff.mp h₃
        exact ⟨r, rfl, nofun⟩
  · obtain ⟨r, rfl, -⟩ := runs_forwardToCore hsession h₁
    exact ⟨r, rfl, nofun⟩

end

end EsphomeMcp.OAuth
