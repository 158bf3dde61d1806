import EsphomeMcp.Python.Number
import EsphomeMcp.Webhook.World

/-!
# Registering and unregistering the webhook

`async_register_webhook` and `async_unregister_webhook` with the surfaces they bind. A bind
step that mutates the cfg dict returns the cfg it leaves behind.
-/

namespace EsphomeMcp.Webhook

open Py Py.Prog

/-! ## Views -/

/-- `_metadata_views`. -/
def metadataViews : List View :=
  [⟨oauthBase ++ str "/protected-resource", "esphome_mcp:oauth:protected-resource"⟩,
    ⟨oauthBase ++ str "/authorization-server", "esphome_mcp:oauth:authorization-server"⟩,
    ⟨"/.well-known/oauth-protected-resource/api/webhook/\x7bwebhook_id\x7d",
      "esphome_mcp:oauth:wellknown-protected-resource"⟩,
    ⟨str "/.well-known/oauth-authorization-server" ++ oauthBase,
      "esphome_mcp:oauth:wellknown-as-rfc8414"⟩,
    ⟨str "/.well-known/openid-configuration" ++ oauthBase,
      "esphome_mcp:oauth:wellknown-oidc-prefixed"⟩,
    ⟨oauthBase ++ str "/.well-known/openid-configuration",
      "esphome_mcp:oauth:wellknown-oidc-suffixed"⟩,
    ⟨oauthBase ++ str "/.well-known/oauth-authorization-server",
      "esphome_mcp:oauth:wellknown-as-suffixed"⟩]

/-- The views of `bind_autoapprove_views`. -/
def autoapproveViews : List View :=
  [⟨oauthBase ++ str "/authorize", "esphome_mcp:oauth:autoapprove-authorize"⟩,
    ⟨oauthBase ++ str "/token", "esphome_mcp:oauth:autoapprove-token"⟩,
    ⟨oauthBase ++ str "/revoke", "esphome_mcp:oauth:autoapprove-revoke"⟩]

/-- The view of `bind_dcr_view`. -/
def dcrViews : List View := [⟨oauthBase ++ str "/register", "esphome_mcp:oauth:dcr-register"⟩]

/-- The views of a bundle. -/
def Bundle.views : Bundle → List View
  | metadata => metadataViews
  | autoapprove => autoapproveViews
  | dcr => dcrViews

/-- `hass.http.register_view` of each view in turn. -/
def registerViews : List View → Coro Unit
  | [] => return ()
  | v :: vs => do
    await (.registerView v)
    registerViews vs

/-- Bind a bundle at most once per HA session; its flag is set after its last view. -/
def bindBundle (bundle : Bundle) : Coro Unit := do
  if ← await (.viewsRegistered bundle) then return ()
  else do
    registerViews bundle.views
    await (.setViewsRegistered bundle)

/-- `_register_metadata_views`. -/
def registerMetadataViews : Coro Unit := bindBundle .metadata

/-- `bind_autoapprove_views`. -/
def bindAutoapproveViews : Coro Unit := bindBundle .autoapprove

/-- `bind_dcr_view`. -/
def bindDcrView : Coro Unit := bindBundle .dcr

/-! ## Surfaces -/

/-- `bytes.fromhex(key)`. -/
def parseKey (key : Str) : Except Err Bytes :=
  (fromHex key).mapError fun i =>
    .exn .value (str "non-hexadecimal number found in fromhex() arg at position " ++ natRepr i)

/-- `if dcr_signing_key: cfg[CFG_DCR_SIGNING_KEY] = bytes.fromhex(dcr_signing_key)`. -/
def setSigningKey (cfg : Cfg) (dcrSigningKey : Option Str) : Except Err Cfg :=
  match dcrSigningKey with
  | some (c :: key) => (parseKey (c :: key)).map fun k => { cfg with dcrSigningKey := some k }
  | _ => .ok cfg

/-- `_bind_ha_auth_surface`, which fails closed. -/
def bindHaAuthSurface (cfg : Cfg) (webhookId : Str) (dcrSigningKey : Option Str) : Coro Cfg := do
  registerMetadataViews
  bindAutoapproveViews
  bindDcrView
  ofExcept (setSigningKey { cfg with resourceServer := some ⟨webhookId⟩ } dcrSigningKey)

/-- `_bind_none_surface`, which fails open: whatever raises, it raises before the first
assignment to the cfg. -/
def bindNoneSurface (cfg : Cfg) (dcrSigningKey : Option Str) : Coro Cfg :=
  except Err.isException (do
      registerMetadataViews
      bindAutoapproveViews
      bindDcrView
      let cfg ← ofExcept (setSigningKey cfg dcrSigningKey)
      return { cfg with autoapproveProvider := some {} })
    fun _ => return cfg

/-! ## Registering -/

/-- What `async_register_webhook` is called with; the webhook id is the entry's, if it has
one. -/
structure RegisterArgs where
  webhookId : Option Str
  port : ℤ
  secretPath : Str
  authMode : Str
  dcrSigningKey : Option Str

/-- The cfg of a registration before its surface is bound. -/
def initialCfg (args : RegisterArgs) (webhookId : Str) (session : SessionId)
    (cimdSession : Option SessionId) : Cfg where
  webhookId := webhookId
  targetUrl := str "http://127.0.0.1:" ++ intRepr args.port ++ args.secretPath
  session := session
  cimdSession := cimdSession
  authMode := args.authMode
  resourceServer := none
  autoapproveProvider := none
  dcrSigningKey := none

/-- `if session is not None: await session.close()`. -/
def closeIfOpen : Option SessionId → Coro Unit
  | some session => await (.closeSession session)
  | none => return ()

/-- The clean-up of a registration that failed. -/
def discard (webhookId : Str) (session : SessionId) (cimdSession : Option SessionId) :
    Coro Unit := do
  suppress Err.isException (await (.asyncUnregister webhookId))
  suppress Err.isException (await (.closeSession session))
  suppress Err.isException (closeIfOpen cimdSession)

/-- The second session of a `ha_auth` registration; the first is closed when it fails. -/
def openCimd (authMode : Str) (session : SessionId) : Coro (Option SessionId) :=
  if authMode = webhookAuthHa then
    except Err.isException (do return some (← await .openCimdSession)) fun e => do
      await (.closeSession session)
      .raise e
  else return none

section

variable [Runtime]

/-- `async_register_webhook`. -/
def asyncRegisterWebhook (args : RegisterArgs) : Coro Unit :=
  -- An unknown mode is refused: no mode but `none` may forward without a token.
  if args.authMode ∉ [webhookAuthNone, webhookAuthHa] then
    .raise (.exn .value (str "Unknown webhook auth mode: " ++ Runtime.repr (.str args.authMode)))
  else
    match args.webhookId with
    | none => .raise (.exn .key "'webhook_id'")
    | some webhookId => do
      await (.asyncUnregister webhookId)
      let session ← await .openSession
      let cimdSession ← openCimd args.authMode session
      let cfg := initialCfg args webhookId session cimdSession
      let cfg ← except Err.isException (do
          await (.asyncRegister webhookId)
          if args.authMode = webhookAuthHa then bindHaAuthSurface cfg webhookId args.dcrSigningKey
          else bindNoneSurface cfg args.dcrSigningKey)
        fun e => do
          discard webhookId session cimdSession
          .raise e
      await (.publish cfg)

end

/-- `if webhook_id: async_unregister(hass, webhook_id)`. -/
def unregisterId (webhookId : Str) : Coro Unit :=
  if webhookId = [] then return () else await (.asyncUnregister webhookId)

/-- `async_unregister_webhook`. -/
def asyncUnregisterWebhook : Coro Unit := do
  match ← await .popCfg with
  | none => return ()
  | some cfg => do
    unregisterId cfg.webhookId
    await (.closeSession cfg.session)
    closeIfOpen cfg.cimdSession

end EsphomeMcp.Webhook
