import EsphomeMcp.OAuth.Register
import EsphomeMcp.OAuth.Views
import EsphomeMcp.Webhook.Forward
import EsphomeMcp.Webhook.Lifecycle

/-!
# The anonymous views

The discovery documents of `mcp_webhook.py`, and with them every view that is served without a
login. In none mode the webhook id is the only credential there is, so no anonymous answer may
depend on it: two none-mode configurations that differ in nothing but the id, and the target URL
with the secret path in it, answer every request alike. The one exception is the path-scoped
document, whose caller has to name the id to be served.
-/

namespace EsphomeMcp.OAuth

open Py Py.Prog Webhook

/-! ## The documents -/

/-- `oauth_issuer`. -/
def oauthIssuer (base : Str) : Str := base ++ oauthBase

/-- `_authorization_server_document`. -/
def authorizationServerDocument (base : Str) : Json :=
  .dict [("issuer", .str (base ++ oauthBase)),
    ("authorization_endpoint", .str (base ++ oauthBase ++ str "/authorize")),
    ("token_endpoint", .str (base ++ oauthBase ++ str "/token")),
    ("registration_endpoint", .str (base ++ oauthBase ++ str "/register")),
    ("revocation_endpoint", .str (base ++ oauthBase ++ str "/revoke")),
    ("revocation_endpoint_auth_methods_supported", .arr [.lit "none"]),
    ("response_types_supported", .arr [.lit "code"]),
    ("grant_types_supported", .arr [.lit "authorization_code", .lit "refresh_token"]),
    ("code_challenge_methods_supported", .arr [.lit "S256"]),
    ("token_endpoint_auth_methods_supported", .arr [.lit "none"]),
    ("client_id_metadata_document_supported", .bool true)]

/-- `_none_mode_authorization_server_document`. -/
def noneModeAuthorizationServerDocument (base : Str) : Json :=
  .dict [("issuer", .str (oauthIssuer base)),
    ("authorization_response_iss_parameter_supported", .bool true),
    ("authorization_endpoint", .str (base ++ oauthBase ++ str "/authorize")),
    ("token_endpoint", .str (base ++ oauthBase ++ str "/token")),
    ("registration_endpoint", .str (base ++ oauthBase ++ str "/register")),
    ("response_types_supported", .arr [.lit "code"]),
    ("grant_types_supported", .arr [.lit "authorization_code"]),
    ("code_challenge_methods_supported", .arr [.lit "S256"]),
    ("token_endpoint_auth_methods_supported", .arr [.lit "none"]),
    ("client_id_metadata_document_supported", .bool true)]

/-- `_protected_resource_document`. -/
def protectedResourceDocument (webhookId base : Str) : Json :=
  .dict [("resource", .str (base ++ str "/api/webhook/" ++ webhookId)),
    ("authorization_servers", .arr [.str (base ++ oauthBase)]),
    ("bearer_methods_supported", .arr [.lit "header"]),
    ("resource_documentation", .lit "https://github.com/kingpanther13/esphome-mcp")]

/-! ## The live registration -/

/-- `active_auth_mode`. -/
def activeAuthMode (cfg : Option Cfg) : Option Str :=
  match cfg with
  | none => none
  | some cfg =>
    if cfg.resourceServer.isSome then some webhookAuthHa
    else if cfg.autoapproveProvider.isSome then some webhookAuthNone
    else none

/-- `_active_webhook_id`. -/
def activeWebhookId (cfg : Option Cfg) : Option Str :=
  if activeAuthMode cfg = none then none else cfg.map (·.webhookId)

/-! ## The discovery views -/

section

variable [Runtime]

/-- `issuer_for_request`. -/
def issuerForRequest (request : Request) : Str := oauthIssuer (buildBaseUrl request)

/-- `_ProtectedResourceMetadataView.get`. -/
def protectedResourceGet (cfg : Option Cfg) (request : Request) : Response :=
  if activeAuthMode cfg ≠ some webhookAuthHa then jsonNotFound
  else
    match activeWebhookId cfg with
    | none => jsonNotFound
    | some webhookId =>
      .json 200 [] (protectedResourceDocument webhookId (buildBaseUrl request))

/-- `_AuthorizationServerMetadataView.get`, which the four well-known views inherit. -/
def authorizationServerGet (cfg : Option Cfg) (request : Request) : Response :=
  match activeAuthMode cfg with
  | none => jsonNotFound
  | some mode =>
    let base := buildBaseUrl request
    if mode = webhookAuthNone then .json 200 [] (noneModeAuthorizationServerDocument base)
    else .json 200 [] (authorizationServerDocument base)

/-- `_WellKnownProtectedResourceView.get`. -/
def wellKnownProtectedResourceGet (cfg : Option Cfg) (request : Request) (webhookId : Str) :
    Response :=
  match activeWebhookId cfg with
  | none => jsonNotFound
  | some activeId =>
    if webhookId ≠ activeId then jsonNotFound
    else .json 200 [] (protectedResourceDocument activeId (buildBaseUrl request))

/-! ## Every anonymous view -/

/-- The URLs of the authorization-server metadata. -/
inductive MetadataUrl where
  | scoped
  | wellKnownRfc8414
  | wellKnownOidcPrefixed
  | wellKnownOidcSuffixed
  | wellKnownSuffixed
deriving DecidableEq

/-- A request to an anonymous view, with what the view reads of it. -/
inductive AnonymousRequest where
  | protectedResource (request : Request)
  | authorizationServer (url : MetadataUrl) (request : Request)
  | wellKnownProtectedResource (request : Request) (webhookId : Str)
  | authorize (request : Request) (query : MultiDict)
  | token (form : Option MultiDict)
  | revoke (form : Option MultiDict)
  /-- The registration view reads the clock twice. -/
  | register (content : StreamReader) (mintedAt issuedAt : UnixTime)

/-- What the view of a request answers under the cfg in `hass.data`. -/
def respond (cfg : Option Cfg) : AnonymousRequest → ViewProg Response
  | .protectedResource request => return protectedResourceGet cfg request
  | .authorizationServer _ request => return authorizationServerGet cfg request
  | .wellKnownProtectedResource request webhookId =>
    return wellKnownProtectedResourceGet cfg request webhookId
  | .authorize request query =>
    authorizeGet (cfg.map oauthCfg) query (issuerForRequest request)
  | .token form => tokenPost (cfg.map oauthCfg) form
  | .revoke form => revokePost (cfg.map oauthCfg) form
  | .register content mintedAt issuedAt =>
    let response := registerPost cfg content mintedAt issuedAt
    return .json response.status [] (.obj response.payload)

/-! ## What is not disclosed -/

/-- A cfg of none mode. -/
def NoneMode (cfg : Cfg) : Prop := cfg.authMode = webhookAuthNone ∧ cfg.resourceServer = none

/-- Two cfgs that differ in the webhook id and the target URL, and the secret path in it, only. -/
structure SameButId (cfg cfg' : Cfg) : Prop where
  session : cfg'.session = cfg.session
  cimdSession : cfg'.cimdSession = cfg.cimdSession
  authMode : cfg'.authMode = cfg.authMode
  resourceServer : cfg'.resourceServer = cfg.resourceServer
  autoapproveProvider : cfg'.autoapproveProvider = cfg.autoapproveProvider
  dcrSigningKey : cfg'.dcrSigningKey = cfg.dcrSigningKey

/-- Whatever is drawn and whatever the clock says, the same response. -/
def AnswersAlike (cfg cfg' : Cfg) (request : AnonymousRequest) : Prop :=
  ∀ tr out, Runs (respond (some cfg) request) tr out ↔ Runs (respond (some cfg') request) tr out

/-- The path of a request names a webhook id. -/
def NamesId (webhookId : Str) : AnonymousRequest → Prop
  | .wellKnownProtectedResource _ named => named = webhookId
  | _ => False

/-- What is published in none mode has no resource server. -/
theorem noneMode_of_reaches {w : World} {live : Option RegisterArgs} (h : Reaches w live)
    {cfg : Cfg} (hcfg : w.cfg = some cfg) (hmode : cfg.authMode = webhookAuthNone) :
    NoneMode cfg := by
  obtain ⟨args, hlive, -, -⟩ := h.holds.published cfg hcfg
  exact ⟨hmode, (h.holds.noneAuth cfg args hcfg hlive hmode).1⟩

variable {cfg cfg' : Cfg}

omit [Runtime] in
theorem SameButId.activeAuthMode_eq (h : SameButId cfg cfg') :
    activeAuthMode (some cfg') = activeAuthMode (some cfg) := by
  simp only [activeAuthMode, h.resourceServer, h.autoapproveProvider]

omit [Runtime] in
theorem SameButId.oauthCfg_eq (h : SameButId cfg cfg') : oauthCfg cfg' = oauthCfg cfg := by
  simp only [oauthCfg, h.session, h.cimdSession, h.resourceServer, h.autoapproveProvider,
    h.dcrSigningKey]

omit [Runtime] in
/-- The plain document is for ha_auth only. -/
theorem NoneMode.activeAuthMode_ne (h : NoneMode cfg) :
    activeAuthMode (some cfg) ≠ some webhookAuthHa := by
  intro he
  simp only [activeAuthMode, h.2, Option.isSome_none, Bool.false_eq_true, if_false] at he
  split_ifs at he
  exact absurd he (by decide)

theorem protectedResourceGet_noneMode (h : NoneMode cfg) (request : Request) :
    protectedResourceGet (some cfg) request = jsonNotFound := by
  rw [protectedResourceGet, if_pos h.activeAuthMode_ne]

theorem SameButId.authorizationServerGet_eq (h : SameButId cfg cfg') (request : Request) :
    authorizationServerGet (some cfg') request = authorizationServerGet (some cfg) request := by
  rw [authorizationServerGet, authorizationServerGet, h.activeAuthMode_eq]

/-- A path that names another id is not found, whether or not a mode is live. -/
theorem wellKnownProtectedResourceGet_of_ne {webhookId : Str} (h : webhookId ≠ cfg.webhookId)
    (request : Request) :
    wellKnownProtectedResourceGet (some cfg) request webhookId = jsonNotFound := by
  rw [wellKnownProtectedResourceGet, activeWebhookId]
  split_ifs
  · rfl
  · simp only [Option.map_some, ne_eq, h, not_false_eq_true, if_true]

theorem SameButId.registerPost_eq (h : SameButId cfg cfg') (content : StreamReader)
    (mintedAt issuedAt : UnixTime) :
    registerPost (some cfg') content mintedAt issuedAt =
      registerPost (some cfg) content mintedAt issuedAt := by
  have hgrants : activeGrantTypes (some cfg') = activeGrantTypes (some cfg) := by
    simp only [activeGrantTypes, Option.bind_some, h.resourceServer]
  have hkey : activeDcrKey (some cfg') = activeDcrKey (some cfg) := h.dcrSigningKey
  simp only [registerPost, registrationResponse, hgrants, hkey]

/-- Two none-mode cfgs that differ in the webhook id and the target URL only answer every request
alike, unless its own path names one of the two ids. -/
theorem respond_eq (h : SameButId cfg cfg') (hmode : NoneMode cfg) {request : AnonymousRequest}
    (hname : ¬NamesId cfg.webhookId request) (hname' : ¬NamesId cfg'.webhookId request) :
    respond (some cfg') request = respond (some cfg) request := by
  have hmode' : NoneMode cfg' := ⟨h.authMode.trans hmode.1, h.resourceServer.trans hmode.2⟩
  cases request with
  | protectedResource request =>
    simp only [respond, protectedResourceGet_noneMode hmode, protectedResourceGet_noneMode hmode']
  | authorizationServer url request => simp only [respond, h.authorizationServerGet_eq]
  | wellKnownProtectedResource request webhookId =>
    simp only [respond, wellKnownProtectedResourceGet_of_ne hname request,
      wellKnownProtectedResourceGet_of_ne hname' request]
  | authorize request query => simp only [respond, Option.map_some, h.oauthCfg_eq]
  | token form => simp only [respond, Option.map_some, h.oauthCfg_eq]
  | revoke form => simp only [respond, Option.map_some, h.oauthCfg_eq]
  | register content mintedAt issuedAt => simp only [respond, h.registerPost_eq]

/-- In none mode the webhook id is not disclosed: no anonymous answer tells two configurations
apart that differ in the id and the target URL only, unless the path of the request itself names
one of the two ids. -/
theorem respond_undisclosed (h : SameButId cfg cfg') (hmode : NoneMode cfg)
    {request : AnonymousRequest} (hname : ¬NamesId cfg.webhookId request)
    (hname' : ¬NamesId cfg'.webhookId request) : AnswersAlike cfg cfg' request := by
  intro tr out
  rw [respond_eq h hmode hname hname']

end

/-- A none-mode configuration with its provider. -/
def noneLiveCfg (webhookId : Str) : Cfg :=
  { noneModeCfg with webhookId := webhookId, autoapproveProvider := some {} }

theorem respond_undisclosed_guess :
    letI := asciiRuntime
    AnswersAlike (noneLiveCfg (str "hook")) (noneLiveCfg (str "other"))
      (.wellKnownProtectedResource ⟨str "GET", str "https", []⟩ (str "guess")) := by
  let := asciiRuntime
  have hhook : str "guess" ≠ str "hook" := by decide
  have hother : str "guess" ≠ str "other" := by decide
  have hsame : SameButId (noneLiveCfg (str "hook")) (noneLiveCfg (str "other")) :=
    ⟨rfl, rfl, rfl, rfl, rfl, rfl⟩
  exact respond_undisclosed hsame ⟨rfl, rfl⟩ hhook hother

end EsphomeMcp.OAuth
