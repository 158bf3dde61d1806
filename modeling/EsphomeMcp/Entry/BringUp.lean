import EsphomeMcp.Python.IpAddress
import EsphomeMcp.Python.Url
import EsphomeMcp.Server.Ready
import EsphomeMcp.Webhook.EntrySecrets
import EsphomeMcp.Webhook.Lifecycle

/-!
# The config entry's server

`embedded_setup.py` and `embedded_entry.py`: a setup fills in the secrets, binds the views and
schedules the bring-up; the bring-up starts a manager, registers the webhook and tells where to
connect; an unload stops what is there. What they share with Home Assistant is a world over the
one of the webhook. A call of another module is one command, which does in the world below what
that module's own program can do there.
-/

namespace EsphomeMcp.Entry

open Py Py.Prog Webhook

/-! ## The entry -/

/-- The options `_normalize` carries over as they are. -/
structure Settings where
  serverPort : Option ℤ
  bindHost : Option Str
  webhookAuth : Option Str
  enableWebhook : Option Bool
  enablePersistentNotification : Option Bool
deriving DecidableEq

/-- The config entry with all its options. -/
structure ServerEntry where
  entry : Webhook.Entry
  settings : Settings
deriving DecidableEq

/-- `DEFAULT_SERVER_PORT`. -/
def defaultServerPort : ℤ := 9590

/-- `BIND_HOST_ALL`, which is `DEFAULT_BIND_HOST`. -/
def bindHostAll : Str := "0.0.0.0"

namespace Settings

/-- `int(entry.options.get(OPT_SERVER_PORT, DEFAULT_SERVER_PORT))`. -/
def port (settings : Settings) : ℤ := settings.serverPort.getD defaultServerPort

/-- `str(entry.options.get(OPT_BIND_HOST, DEFAULT_BIND_HOST))`. -/
def host (settings : Settings) : Str := settings.bindHost.getD bindHostAll

/-- `str(entry.options.get(OPT_WEBHOOK_AUTH, WEBHOOK_AUTH_NONE))`. -/
def authMode (settings : Settings) : Str := settings.webhookAuth.getD webhookAuthNone

/-- `bool(entry.options.get(OPT_ENABLE_WEBHOOK, True))`. -/
def webhookEnabled (settings : Settings) : Bool := settings.enableWebhook.getD true

/-- `bool(entry.options.get(OPT_ENABLE_PERSISTENT_NOTIFICATION, True))`. -/
def notifies (settings : Settings) : Bool := settings.enablePersistentNotification.getD true

end Settings

/-! ## Commands -/

/-- An exception that leaves one of these functions. -/
inductive EntryErr where
  | server (err : Server.EmbeddedServerError)
  | py (err : Webhook.Err)
deriving DecidableEq

/-- An `EmbeddedServerManager`, by the order in which they were made, with its port. -/
structure Manager where
  id : ℕ
  port : ℤ
deriving DecidableEq

/-- `homeassistant.components.cloud`: not there, not logged in, or the base of its URL. -/
inductive Cloud where
  | absent
  | notAvailable
  | base (url : Str)

/-- What Home Assistant knows of its own addresses. -/
structure Network where
  cloud : Cloud
  /-- `get_url(hass, allow_external=False, prefer_external=False)`, if there is one. -/
  localBase : Option Str
  /-- What `urlparse` says of a base it cannot parse. -/
  urlErrorText : Str

/-- The identity of a scheduled bring-up: not started yet, or done. -/
inductive Task where
  | pending
  | done
deriving DecidableEq

/-- What the module asks of Home Assistant and of the other modules. -/
inductive EntryCmd where
  /-- The entry as it is. -/
  | entry
  /-- `hass.config_entries.async_update_entry(entry, ..)`. -/
  | updateEntry (entry : Webhook.Entry)
  /-- `_register_metadata_views`, `bind_autoapprove_views` or `bind_dcr_view`. -/
  | bindBundle (bundle : Bundle)
  /-- `domain_data[DATA_LAST_OPTIONS] = dict(entry.options)`. -/
  | putLastOptions (options : Webhook.Options × Settings)
  | popLastOptions
  /-- `entry.async_create_background_task(..)`, kept as `DATA_BRINGUP_TASK`. -/
  | createTask
  | popTask
  /-- `task.cancel()` and `await task`. -/
  | cancelTask
  /-- `ir.async_delete_issue(hass, DOMAIN, issue_id)`. -/
  | deleteIssue (issueId : Str)
  /-- `ir.async_create_issue(hass, DOMAIN, issue_id, ..)`. -/
  | createIssue (issueId detail : Str)
  /-- `EmbeddedServerManager(hass, entry)`. -/
  | newManager
  | putManager (manager : Manager)
  | popManager
  /-- `manager.async_start()`. -/
  | asyncStart (manager : Manager)
  /-- `manager.async_stop()`. -/
  | asyncStop (manager : Manager)
  /-- `async_register_webhook`. -/
  | registerWebhook (args : RegisterArgs)
  /-- `async_unregister_webhook`. -/
  | unregisterWebhook
  /-- The addresses `build_connect_urls` asks for. -/
  | network
  /-- `persistent_notification.async_create(hass, message, ..)`. -/
  | createNotification (message : Str)
  /-- `persistent_notification.async_dismiss(hass, _NOTIFICATION_ID)`. -/
  | dismissNotification

/-- The type of what a command returns. -/
@[reducible] def EntryCmd.Ans : EntryCmd → Type
  | entry => ServerEntry
  | popTask => Option Task
  | newManager => Manager
  | popManager => Option Manager
  | network => Network
  | _ => Unit

/-- The commands with their answers. -/
@[reducible] def EntrySig : Signature := ⟨EntryCmd, EntryCmd.Ans⟩

/-- A coroutine of the module. -/
abbrev EntryProg (α : Type) := Prog EntrySig EntryErr α

/-- Issue a command. -/
def await (c : EntryCmd) : EntryProg c.Ans := @perform EntrySig EntryErr c

/-- `isinstance(err, Exception)`. -/
def EntryErr.isException : EntryErr → Bool
  | server _ => true
  | py err => err.isException

/-- `isinstance(err, asyncio.CancelledError)`. -/
def EntryErr.isCancelled : EntryErr → Bool
  | py (.exn .cancelled _) => true
  | _ => false

/-- `with suppress(Kind): p`, the kind given as a predicate. -/
def suppress (kind : EntryErr → Bool) (p : EntryProg Unit) : EntryProg Unit :=
  tryCatch p fun e => if kind e then return () else .raise e

/-! ## Connect URLs -/

section

variable [Runtime]

/-- `_direct_url_host`. -/
def directUrlHost (host : Option Str) : Str :=
  match host with
  | none | some [] => "<home-assistant-ip>"
  | some host =>
    match ipAddress host with
    | some (.v6 _ _) => ch '[' :: (host ++ [ch ']'])
    | _ => host

/-- A value in an f-string. -/
def textOf (value : Option Str) : Str := value.getD "None"

/-- `f"{base}/api/webhook/{webhook_id}"`. -/
def webhookUrl (base : Str) (webhookId : Option Str) : Str :=
  base ++ str "/api/webhook/" ++ textOf webhookId

/-- `build_connect_urls`. -/
def buildConnectUrls (net : Network) (entry : ServerEntry) (webhookEnabled : Bool) :
    Except EntryErr (List Str) := do
  let webhookId := if webhookEnabled then entry.entry.data.webhookId else none
  let external :=
    if webhookEnabled then rstrip (· = ch '/') (entry.entry.options.externalUrl.getD []) else []
  let urls := if external = [] then [] else [webhookUrl external webhookId]
  let urls :=
    match net.cloud with
    | .base cloudBase =>
      if isMissing webhookId then urls else urls ++ [webhookUrl cloudBase webhookId]
    | _ => urls
  let (localHost, urls) ←
    match net.localBase with
    | none => pure (none, urls)
    | some localBase =>
      match urlparse localBase with
      | none => .error (.py (.exn .value net.urlErrorText))
      | some parsed => pure (parsed.hostname,
          if isMissing webhookId then urls else urls ++ [webhookUrl localBase webhookId])
  let urls :=
    if urls = [] && !isMissing webhookId then
      [str "/api/webhook/" ++ textOf webhookId ++ str "  (prefix with your Home Assistant URL)"]
    else urls
  if entry.settings.host = bindHostAll && !isMissing entry.entry.data.secretPath then
    return urls ++ [str "http://" ++ directUrlHost localHost ++ ch ':' :: intRepr entry.settings.port ++
      textOf entry.entry.data.secretPath ++ str " (direct access)"]
  else return urls

/-- `auth_note`. -/
def authNote (authMode : Str) (webhookEnabled : Bool) : Str :=
  if !webhookEnabled then "Webhook access is disabled (local-only mode)."
  else if authMode = webhookAuthNone then
    "The webhook URL is the shared secret (no bearer required)."
  else "Clients authenticate with a Home Assistant administrator account (ha_auth)."

/-- The text of the notification. -/
def connectMessage (authMode : Str) (webhookEnabled : Bool) : Str :=
  str ("The ESPHome MCP server is running inside Home Assistant.\n\n" ++
    "Manage server and connection settings from " ++
    "[Settings > Devices & services](/config/integrations/integration/esphome_mcp), " ++
    "then select Configure.\n\n" ++
    "The connect URL is shown there and in the Home Assistant log. The Configure " ++
    "screen is administrator-only because the secret URL is a credential in the " ++
    "default mode.\n\n") ++ authNote authMode webhookEnabled ++ [ch '\n']

/-- `_surface_connect_urls`, less what it logs. -/
def surfaceConnectUrls (entry : ServerEntry) (authMode : Str) (webhookEnabled : Bool) :
    EntryProg Unit := do
  let net ← await .network
  let _ ← ofExcept (buildConnectUrls net entry webhookEnabled)
  if entry.settings.notifies then
    await (.createNotification (connectMessage authMode webhookEnabled))
  else await .dismissNotification

/-! ## Bring-up and teardown -/

/-- `ISSUE_PACKAGE_FAILED`. -/
def issuePackageFailed : Str := "server_package_import_failed"

/-- `ISSUE_RESTART_REQUIRED`. -/
def issueRestartRequired : Str := "server_restart_required"

/-- `ISSUE_START_FAILED`. -/
def issueStartFailed : Str := "server_start_failed"

/-- `_ISSUE_IDS`. -/
def issueIds : List Str := [issuePackageFailed, issueRestartRequired, issueStartFailed]

/-- `_ISSUE_BY_KIND`. -/
def issueByKind : Server.FailureKind → Str
  | .package => issuePackageFailed
  | .restart => issueRestartRequired
  | .start => issueStartFailed

/-- The loop of `_clear_issues`. -/
def deleteIssues : List Str → EntryProg Unit
  | [] => return ()
  | issueId :: ids => do
    await (.deleteIssue issueId)
    deleteIssues ids

/-- `_clear_issues`. -/
def clearIssues : EntryProg Unit := deleteIssues issueIds

/-- `async_teardown_server`. -/
def asyncTeardownServer : EntryProg Unit := do
  await .unregisterWebhook
  match ← await .popManager with
  | some manager => await (.asyncStop manager)
  | none => pure ()
  await .dismissNotification

/-- `entry.data[key]`. -/
def item (value : Option Str) (key : String) : Except EntryErr Str :=
  match value with
  | some value => .ok value
  | none => .error (.py (.exn .key (str "'" ++ str key ++ str "'")))

/-- What the bring-up does with a server that has started. -/
def exposeServer (manager : Manager) : EntryProg Unit := do
  let entry ← await .entry
  let authMode := entry.settings.authMode
  let secretPath ← ofExcept (item entry.entry.data.secretPath "secret_path")
  let webhookEnabled := entry.settings.webhookEnabled
  if webhookEnabled then
    let dcrSigningKey ← ofExcept (item entry.entry.data.dcrSigningKey "dcr_signing_key")
    await (.registerWebhook ⟨entry.entry.data.webhookId, manager.port, secretPath, authMode,
      some dcrSigningKey⟩)
  surfaceConnectUrls entry authMode webhookEnabled

/-- The `try` block of the bring-up. -/
def startServer (manager : Manager) : EntryProg Unit := do
  await (.asyncStart manager)
  exposeServer manager

/-- What the bring-up does with an exception. -/
def bringUpFailed : EntryErr → EntryProg Unit
  | .py (.exn .cancelled text) => do
    asyncTeardownServer
    .raise (.py (.exn .cancelled text))
  | .server err => do
    suppress EntryErr.isException asyncTeardownServer
    await (.createIssue (issueByKind err.kind) err.message)
  | .py (.exn _ text) => do
    suppress EntryErr.isException asyncTeardownServer
    await (.createIssue (issueByKind .start) text)
  | e => .raise e

/-- `async_bring_up_server`. -/
def asyncBringUpServer : EntryProg Unit := do
  clearIssues
  let manager ← await .newManager
  await (.putManager manager)
  tryCatch (startServer manager) bringUpFailed

/-- `async_remove_server`. -/
def asyncRemoveServer : EntryProg Unit := do
  clearIssues
  await .dismissNotification

/-! ## Setup and unload -/

/-- `_prebind_oauth_views`. -/
def prebindOauthViews (settings : Settings) : EntryProg Unit :=
  if !settings.webhookEnabled then return ()
  else if settings.authMode ∉ [webhookAuthNone, webhookAuthHa] then return ()
  else
    tryCatch (do
        await (.bindBundle .metadata)
        await (.bindBundle .autoapprove)
        await (.bindBundle .dcr))
      fun e =>
        if e.isException && settings.authMode ≠ webhookAuthHa then return () else .raise e

/-- `async_setup_server_entry`. -/
def asyncSetupServerEntry (draws : Draws) : EntryProg Unit := do
  let before ← await .entry
  await (.updateEntry (ensureSecrets draws before.entry))
  let entry ← await .entry
  prebindOauthViews entry.settings
  await (.putLastOptions (entry.entry.options, entry.settings))
  await .createTask

/-- `async_unload_server_entry`. -/
def asyncUnloadServerEntry : EntryProg Unit := do
  match ← await .popTask with
  | some .pending => suppress EntryErr.isCancelled (await .cancelTask)
  | _ => pure ()
  asyncTeardownServer
  await .popLastOptions

end

end EsphomeMcp.Entry
