import EsphomeMcp.Python.Bytes
import EsphomeMcp.Python.MultiDict
import EsphomeMcp.Python.World

/-!
# The webhook's world

What `mcp_webhook.py` shares with Home Assistant: the published forwarding cfg, the webhook
registry, the aiohttp sessions, the bound HTTP views with their bind-once flags, and the
requests that have left for the loopback server. `handle` says what each command the module
issues may do there. Core's token validator, the request body and the upstream response are
free to answer anything or to raise.
-/

namespace EsphomeMcp.Webhook

open Py Py.Prog

/-! ## Data -/

/-- An `aiohttp.ClientSession`. -/
abbrev SessionId := ℕ

/-- `ResourceServer`, less its reference to `hass`. -/
structure ResourceServer where
  webhookId : Str
deriving DecidableEq

/-- The `AutoApproveProvider` object. -/
structure AutoApproveProvider where
deriving DecidableEq

/-- The forwarding cfg, `hass.data[DOMAIN][DATA_WEBHOOK]`. -/
structure Cfg where
  webhookId : Str
  targetUrl : Str
  session : SessionId
  cimdSession : Option SessionId
  authMode : Str
  resourceServer : Option ResourceServer
  autoapproveProvider : Option AutoApproveProvider
  dcrSigningKey : Option Bytes
deriving DecidableEq

/-- `WEBHOOK_AUTH_NONE`. -/
def webhookAuthNone : Str := "none"

/-- `WEBHOOK_AUTH_HA`. -/
def webhookAuthHa : Str := "ha_auth"

/-- `OAUTH_BASE`. -/
def oauthBase : Str := "/api/esphome_mcp/oauth"

/-- An HTTP view, by the attributes `register_view` binds it under. -/
structure View where
  url : Str
  name : Str
deriving DecidableEq

/-- The three bundles of views, each with a bind-once flag in `hass.data`. -/
inductive Bundle where
  | metadata
  | autoapprove
  | dcr
deriving DecidableEq

/-- An incoming request, less its body. -/
structure Request where
  method : Str
  scheme : Str
  headers : CIMultiDict

/-- A request to the loopback server. -/
structure Outgoing where
  session : SessionId
  method : Str
  url : Str
  headers : CIMultiDict
  body : Option Bytes
deriving DecidableEq

/-- A user, as `getattr` reads one: an attribute that is missing counts as false. -/
structure User where
  isActive : Bool
  isAdmin : Bool
  systemGenerated : Bool
deriving DecidableEq

/-- What core's validator finds: nothing, or a token with the user it has, if any. -/
abbrev Validation := Option (Option User)

/-- What calling core's validator returns. -/
inductive Validating where
  | result (v : Validation)
  /-- An awaitable. -/
  | awaitable (id : ℕ)

/-- The status and headers of an upstream response. -/
structure Upstream where
  status : ℕ
  headers : CIMultiDict

/-! ## Commands -/

/-- The exceptions the module tells apart. -/
inductive ErrKind where
  | value
  | key
  /-- `aiohttp.ClientError`. -/
  | client
  /-- `ConnectionResetError`. -/
  | connectionReset
  /-- `aiohttp.ClientConnectionResetError`, which is both of them. -/
  | clientConnectionReset
  /-- `asyncio.CancelledError`, which is no `Exception`. -/
  | cancelled
  | other
deriving DecidableEq

/-- An exception with `str(err)`, or the mark of a stream that was cut off before it ended. -/
inductive Err where
  | exn (kind : ErrKind) (text : Str)
  | diverged
deriving DecidableEq

instance : Inhabited Err := ⟨.diverged⟩

/-- `isinstance(err, Exception)`. -/
def Err.isException : Err → Bool
  | exn .cancelled _ => false
  | exn _ _ => true
  | diverged => false

/-- `isinstance(err, aiohttp.ClientError)`. -/
def Err.isClientError : Err → Bool
  | exn .client _ => true
  | exn .clientConnectionReset _ => true
  | _ => false

/-- `isinstance(err, ConnectionResetError)`. -/
def Err.isConnectionReset : Err → Bool
  | exn .connectionReset _ => true
  | exn .clientConnectionReset _ => true
  | _ => false

/-- What the module asks of Home Assistant and aiohttp. -/
inductive Cmd where
  /-- The cfg in `hass.data`, or `None` when there is none. -/
  | activeWebhookCfg
  /-- `hass.auth.async_validate_access_token(token)`. -/
  | asyncValidateAccessToken (token : Str)
  /-- Awaiting what it returned. -/
  | awaitValidation (id : ℕ)
  /-- `request.read()`. -/
  | readBody
  /-- `session.request(..)`, up to the response headers. -/
  | sessionRequest (request : Outgoing)
  /-- `response.prepare(request)` of a streamed response. -/
  | prepare (status : ℕ) (headers : CIMultiDict)
  /-- The next chunk of `upstream_resp.content.iter_any()`. -/
  | nextChunk
  | writeChunk (chunk : Bytes)
  | writeEof
  /-- `upstream_resp.read()`. -/
  | readUpstream
  /-- `webhook.async_unregister(hass, webhook_id)`. -/
  | asyncUnregister (webhookId : Str)
  /-- `webhook.async_register(hass, DOMAIN, .., webhook_id, _async_handle_webhook, ..)`. -/
  | asyncRegister (webhookId : Str)
  /-- `aiohttp.ClientSession(timeout=_CLIENT_TIMEOUT)`. -/
  | openSession
  /-- `aiohttp.ClientSession(connector=aiohttp.TCPConnector(limit=..))`. -/
  | openCimdSession
  | closeSession (session : SessionId)
  /-- A bundle's bind-once flag. -/
  | viewsRegistered (bundle : Bundle)
  | registerView (view : View)
  | setViewsRegistered (bundle : Bundle)
  /-- `hass.data.setdefault(DOMAIN, {})[DATA_WEBHOOK] = cfg`. -/
  | publish (cfg : Cfg)
  /-- `domain_data.pop(DATA_WEBHOOK, None)`. -/
  | popCfg

/-- The type of what a command returns. -/
@[reducible] def Cmd.Ans : Cmd → Type
  | activeWebhookCfg => Option Cfg
  | asyncValidateAccessToken _ => Validating
  | awaitValidation _ => Validation
  | readBody => Bytes
  | sessionRequest _ => Upstream
  | prepare _ _ => Unit
  | nextChunk => Option Bytes
  | writeChunk _ => Unit
  | writeEof => Unit
  | readUpstream => Bytes
  | asyncUnregister _ => Unit
  | asyncRegister _ => Unit
  | openSession => SessionId
  | openCimdSession => SessionId
  | closeSession _ => Unit
  | viewsRegistered _ => Bool
  | registerView _ => Unit
  | setViewsRegistered _ => Unit
  | publish _ => Unit
  | popCfg => Option Cfg

/-- The commands with their answers. -/
@[reducible] def Sig : Signature := ⟨Cmd, Cmd.Ans⟩

/-- A coroutine of the module. -/
abbrev Coro (α : Type) := Prog Sig Err α

/-- One command with its answer. -/
abbrev Event := Py.Event Sig Err

/-- Issue a command. -/
def await (c : Cmd) : Coro c.Ans := @perform Sig Err c

/-- `try: p except Kind as err: h(err)`, the kind given as a predicate. -/
def except {α : Type} (kind : Err → Bool) (p : Coro α) (h : Err → Coro α) : Coro α :=
  tryCatch p fun e => if kind e then h e else .raise e

/-- `with suppress(Kind): p`. -/
def suppress (kind : Err → Bool) (p : Coro Unit) : Coro Unit := except kind p fun _ => pure ()

/-! ## The world -/

/-- What outlives one call. -/
structure World where
  /-- `hass.data[DOMAIN].get(DATA_WEBHOOK)`. -/
  cfg : Option Cfg
  /-- The webhook ids registered for `_async_handle_webhook`. -/
  webhooks : List Str
  openSessions : List SessionId
  closedSessions : List SessionId
  views : List View
  /-- The bundles whose bind-once flag is set. -/
  viewFlags : List Bundle
  /-- What has been sent to the loopback server. -/
  sent : List Outgoing
deriving DecidableEq

/-- Home Assistant before the integration is set up. -/
def World.init : World := ⟨none, [], [], [], [], [], []⟩

/-- A world in which a session has been opened. -/
def World.opened (w : World) (s : SessionId) : World :=
  { w with openSessions := s :: w.openSessions }

/-- A world in which a session has been closed. -/
def World.closed (w : World) (s : SessionId) : World :=
  { w with openSessions := w.openSessions.filter (· ≠ s), closedSessions := s :: w.closedSessions }

/-- A session there has not been before. -/
def World.freshSession (w : World) : SessionId :=
  (w.openSessions ++ w.closedSessions).foldr max 0 + 1

theorem World.freshSession_not_mem (w : World) :
    w.freshSession ∉ w.openSessions ++ w.closedSessions := by
  have hle (l : List ℕ) : ∀ s ∈ l, s ≤ l.foldr max 0 := by
    induction l with
    | nil => nofun
    | cons a l ih =>
      intro s hs
      rcases List.mem_cons.mp hs with rfl | hs
      · exact le_max_left _ _
      · exact (ih s hs).trans (le_max_right _ _)
  intro h
  exact absurd (hle _ _ h) (Nat.not_succ_le_self _)

/-- A call that is not awaited may fail, but only an await is cancelled. -/
def fails {α : Type} (r : Except Err α) : Prop := ∃ e, r = .error e ∧ e.isException

/-- Opening a session may fail; a session that opens is none there has been before. -/
def opens (w : World) (r : Except Err SessionId) (w' : World) : Prop :=
  (∃ s, r = .ok s ∧ s ∉ w.openSessions ∧ s ∉ w.closedSessions ∧ w' = w.opened s) ∨
  (fails r ∧ w' = w)

/-- What each command may do. -/
def handle (w : World) : (c : Cmd) → Except Err c.Ans → World → Prop
  | .activeWebhookCfg, r, w' => r = .ok w.cfg ∧ w' = w
  | .asyncValidateAccessToken _, _, w' => w' = w
  | .awaitValidation _, _, w' => w' = w
  | .readBody, _, w' => w' = w
  -- A closed session never sends; an open one may fail before or after it has sent.
  | .sessionRequest o, r, w' =>
    ((∃ e, r = .error e) ∧ w' = w) ∨
    (o.session ∈ w.openSessions ∧ w' = { w with sent := w.sent ++ [o] })
  | .prepare _ _, _, w' => w' = w
  | .nextChunk, _, w' => w' = w
  | .writeChunk _, _, w' => w' = w
  | .writeEof, _, w' => w' = w
  | .readUpstream, _, w' => w' = w
  | .asyncUnregister i, r, w' =>
    r = .ok () ∧ w' = { w with webhooks := w.webhooks.filter (· ≠ i) }
  | .asyncRegister i, r, w' =>
    (r = .ok () ∧ i ∉ w.webhooks ∧ w' = { w with webhooks := i :: w.webhooks }) ∨
    (fails r ∧ w' = w)
  | .openSession, r, w' => opens w r w'
  | .openCimdSession, r, w' => opens w r w'
  | .closeSession s, r, w' => w' = w.closed s ∨ ((∃ e, r = .error e) ∧ w' = w)
  | .viewsRegistered b, r, w' => r = .ok (decide (b ∈ w.viewFlags)) ∧ w' = w
  | .registerView v, r, w' =>
    (w' = { w with views := v :: w.views } ∧ (r = .ok () ∨ fails r)) ∨ (fails r ∧ w' = w)
  | .setViewsRegistered b, r, w' => r = .ok () ∧ w' = { w with viewFlags := b :: w.viewFlags }
  | .publish cfg, r, w' => r = .ok () ∧ w' = { w with cfg := some cfg }
  | .popCfg, r, w' => r = .ok w.cfg ∧ w' = { w with cfg := none }

end EsphomeMcp.Webhook
