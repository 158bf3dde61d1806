import EsphomeMcp.Webhook.World

/-!
# Forwarding a webhook request

`_async_handle_webhook` with its auth gate: read the published cfg, validate the bearer token
when the cfg has a resource server, read the body, send it to the loopback server and relay
the answer. A streamed answer ends only when the upstream ends it, so it is followed for a
given number of chunks.
-/

namespace EsphomeMcp.Webhook

open Py Py.Prog

/-- `_STRIPPED_REQUEST_HEADERS`. -/
def strippedRequestHeaders : List Str :=
  ["host", "content-length", "transfer-encoding", "connection", "cookie", "authorization"]

/-- `_ALLOWED_CONTENT_TYPES`. -/
def allowedContentTypes : List Str := ["application/json", "text/event-stream", "text/plain"]

/-- The payload of a response. -/
inductive Payload where
  | text (text : Str)
  | bytes (body : Bytes)
  /-- The payload was written to the prepared response. -/
  | streamed
deriving DecidableEq

/-- A `web.StreamResponse`. -/
structure Response where
  status : ℕ
  headers : CIMultiDict
  payload : Payload
deriving DecidableEq

section

variable [Runtime]

/-- `_build_base_url`. -/
def buildBaseUrl (request : Request) : Str :=
  let host := match request.headers.get? "X-Forwarded-Host" with
    | some (c :: host) => c :: host
    | _ => request.headers.getD "Host" []
  let scheme := request.headers.getD "X-Forwarded-Proto" request.scheme
  scheme ++ str "://" ++ host

/-- `_build_unauthorized_response`. -/
def buildUnauthorizedResponse (request : Request) : Response :=
  let metadataUrl := buildBaseUrl request ++ oauthBase ++ str "/protected-resource"
  ⟨401, [("WWW-Authenticate",
    str "Bearer realm=\"ESPHome MCP\", resource_metadata=\"" ++ metadataUrl ++ str "\"")],
    .text "Unauthorized"⟩

/-- The token of an `Authorization: Bearer` header, when there is one that is not empty. -/
def bearerToken (request : Request) : Option Str :=
  let header := request.headers.getD "Authorization" []
  if startsWith (lower header) "bearer " then
    let token := strip (header.drop 7)
    if token = [] then none else some token
  else none

/-- The users `validate_request` lets in: active human administrators. -/
def userAllowed (user : User) : Bool :=
  if user.systemGenerated then false
  else if !user.isActive then false
  else user.isAdmin

/-- `ResourceServer.validate_request`. -/
def validateRequest (request : Request) : Coro Bool :=
  match bearerToken request with
  | none => return false
  | some token => do
    let result : Except Err Validation ← except Err.isException (do
        match ← await (.asyncValidateAccessToken token) with
        | .result v => return .ok v
        | .awaitable i => return .ok (← await (.awaitValidation i)))
      fun e => return .error e
    match result with
    | .ok (some (some user)) => return userAllowed user
    | _ => return false

/-- `_check_webhook_auth`: the 401 challenge, or nothing when the request passes. -/
def checkWebhookAuth (request : Request) (cfg : Cfg) : Coro (Option Response) :=
  match cfg.resourceServer with
  | none => return none
  | some _ => do
    if ← validateRequest request then return none
    else return some (buildUnauthorizedResponse request)

/-- The headers that are forwarded upstream: a dict, so a name that is repeated in the same spelling
keeps its last value. -/
def forwardHeaders (request : Request) : List (Str × Str) :=
  dictUpdate [] (request.headers.filter fun h => lower h.1 ∉ strippedRequestHeaders)

/-- What is sent to the loopback server. -/
def outgoing (request : Request) (cfg : Cfg) (body : Bytes) : Outgoing :=
  ⟨cfg.session, request.method, cfg.targetUrl, forwardHeaders request,
    if body = [] then none else some body⟩

/-- The response headers before the content type is settled. -/
def relayHeaders (upstream : Upstream) : CIMultiDict :=
  [(str "Cache-Control", str "no-cache, no-transform"),
    (str "Content-Encoding", str "identity")] ++
  match upstream.headers.get? "Mcp-Session-Id" with
  | some (c :: session) => [("Mcp-Session-Id", c :: session)]
  | _ => []

/-- `async for chunk in upstream_resp.content.iter_any()`, for at most `fuel` chunks. -/
def relayChunks : ℕ → Coro Unit
  | 0 => .raise .diverged
  | fuel + 1 => do
    match ← await .nextChunk with
    | none => return ()
    | some chunk => do
      await (.writeChunk chunk)
      relayChunks fuel

/-- The body of `async with session.request(..) as upstream_resp`. -/
def relay (fuel : ℕ) (upstream : Upstream) : Coro Response := do
  let contentType := upstream.headers.getD "Content-Type" []
  if contains "text/event-stream" contentType then do
    let headers := relayHeaders upstream ++
      [(str "Content-Type", str "text/event-stream"), (str "X-Accel-Buffering", str "no")]
    await (.prepare upstream.status headers)
    -- The headers are out, so an upstream that drops now ends the stream and is no 502.
    except Err.isClientError (relayChunks fuel) fun _ => return ()
    suppress Err.isConnectionReset (await .writeEof)
    return ⟨upstream.status, headers, .streamed⟩
  else do
    let contentType :=
      if allowedContentTypes.any fun ct => contains ct contentType then contentType
      else str "application/json"
    let body ← await .readUpstream
    return ⟨upstream.status, relayHeaders upstream ++ [(str "Content-Type", contentType)],
      .bytes body⟩

/-- Sending a request upstream and relaying the answer, with the two error responses. -/
def forward (fuel : ℕ) (o : Outgoing) : Coro Response :=
  tryCatch (do
      let upstream ← await (.sessionRequest o)
      relay fuel upstream)
    fun e =>
      if e.isClientError then return ⟨502, [], .text "ESPHome MCP server unavailable"⟩
      else if e.isException then return ⟨500, [], .text "ESPHome MCP server internal error"⟩
      else .raise e

/-- `_async_handle_webhook`. -/
def asyncHandleWebhook (fuel : ℕ) (request : Request) : Coro Response := do
  match ← await .activeWebhookCfg with
  | none => return ⟨503, [], .text "ESPHome MCP server is not available"⟩
  | some cfg => do
    match ← checkWebhookAuth request cfg with
    | some response => return response
    | none => do
      let body ← await .readBody
      forward fuel (outgoing request cfg body)

end

end EsphomeMcp.Webhook
