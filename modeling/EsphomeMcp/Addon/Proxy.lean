import EsphomeMcp.Addon.Route

/-!
# Proxied calls

A plain HTTP request or a WebSocket conversation with the add-on, through `_route_for_addon`.
The WebSocket loop ends only by a message limit, a deadline or the add-on, so it is followed
for a given number of receives.
-/

namespace EsphomeMcp.Addon

open Py Py.Prog

/-- `_MAX_RESPONSE_SIZE`. -/
def maxResponseSize : ℕ := 50 * 1024

/-- `_MAX_WS_MESSAGES`. -/
def maxWsMessages : ℕ := 1000

/-- `s[n:]` of a sequence. -/
def sliceFrom {α : Type} (n : ℤ) (l : List α) : List α :=
  if 0 ≤ n then l.drop n.toNat else l.drop (l.length - n.natAbs)

/-- `s[:n]` of a sequence. -/
def sliceTo {α : Type} (n : ℤ) (l : List α) : List α :=
  if 0 ≤ n then l.take n.toNat else l.take (l.length - n.natAbs)

/-- `_debug_headers`: the session cookie is redacted. -/
def debugHeaders (headers : Headers) : Headers :=
  if dictHas headers "Cookie" then dictSet "Cookie" "ingress_session=**REDACTED**" headers
  else headers

/-- Headers as a JSON dict. -/
def headersJson (headers : Headers) : Json := .obj (headers.map fun h => (h.1, .str h.2))

section

variable [Runtime]

/-- `response.headers.get(name, "")`, without regard to case. -/
def HttpHead.header (head : HttpHead) (name : Str) : Str :=
  ((head.headers.find? fun h => lower h.1 = lower name).map Prod.snd).getD []

/-- A JSON failure as the exception the callers do not catch. -/
def jsonErr : JsonError → Err
  | .value => .exn .other "malformed JSON"
  | .recursion => .exn .recursion "maximum recursion depth exceeded"

/-- `json.loads(text)` with `except ValueError: text`. -/
def loadsOrText (text : Str) : Except Err Json :=
  match loads text with
  | .ok j => .ok j
  | .error .value => .ok (.str text)
  | .error .recursion => .error (jsonErr .recursion)

/-- `_parse_http_body`. -/
def parseHttpBody (contentType : Str) (body : Bytes) : Except Err Json :=
  let text := decodeUtf8Replace body
  if contains "application/json" contentType then loadsOrText text else .ok (.str text)

/-- `_truncate_response`. -/
def truncateResponse (data : Json) : Except Err (Json × Bool) :=
  match data with
  | .str s =>
    if s.length ≤ maxResponseSize then .ok (data, false)
    else .ok (.str (s.take maxResponseSize), true)
  | _ => do
    let serialized ← (dumps .spaced data).mapError jsonErr
    if serialized.length ≤ maxResponseSize then .ok (data, false)
    else .ok (.dict [("error", .lit "RESPONSE_TOO_LARGE"),
      ("message", .lit "Response exceeds 50KB.")], true)

/-- The HTTP arguments of a proxied call. -/
structure HttpArgs where
  path : Str
  method : Str
  /-- A dict, a list, a string or `None`. -/
  body : Json
  port : Option ℤ
  debug : Bool
  requestHeaders : Option Headers

/-- The headers and the body of a proxied request. -/
def httpPayload (args : HttpArgs) (routeHeaders : Headers) : Headers × HttpBody :=
  let headers := match args.requestHeaders with
    | some (h :: hs) => dictUpdate (h :: hs) routeHeaders
    | _ => routeHeaders
  match args.body with
  | .str text =>
    (if dictHas headers "Content-Type" then headers
      else dictSet "Content-Type" "application/json" headers, .data text)
  | .obj d => (headers, .json (.obj d))
  | .arr l => (headers, .json (.arr l))
  | _ => (headers, .none)

/-- The payload of an answered HTTP call. -/
def httpResult (args : HttpArgs) (slug : Str) (addon : Dict) (url : Str) (headers : Headers)
    (head : HttpHead) (data : Json) (truncated : Bool) : Dict :=
  [(str "success", Json.bool (head.status < 400)), (str "status_code", .int head.status),
    (str "response", data), (str "content_type", .str (head.header "Content-Type")),
    (str "addon_name", dictGet addon "name"), (str "slug", .str slug)] ++
  (if truncated then [(str "truncated", .bool true)] else []) ++
  (if args.debug then [(str "_debug", Json.dict [("url", .str url),
    ("request_headers", headersJson (debugHeaders headers)),
    ("response_headers", headersJson head.headers)])] else []) ++
  (if 400 ≤ head.status then
    [(str "error", .str (str "ESPHome add-on API returned HTTP " ++ natRepr head.status))] else [])

/-- `_call_addon_http`. -/
def callAddonHttp (hass : Hass) (addon : Dict) (slug : Str) (args : HttpArgs) : Coro Dict := do
  match normalizePath args.path with
  | none => return error "Path contains '..' traversal component." "invalid_path" []
  | some normalized =>
    match ← routeForAddon hass addon normalized args.port false with
    | .error payload => return payload
    | .ok (url, routeHeaders) =>
      let (headers, body) := httpPayload args routeHeaders
      let exchange : Coro Dict := do
        let head ← await (.request (upper args.method) url headers body)
        let raw ← await .readBody
        let parsed ← ofExcept (parseHttpBody (head.header "Content-Type") raw)
        let (data, truncated) ← ofExcept (truncateResponse parsed)
        return httpResult args slug addon url headers head data truncated
      tryCatch exchange fun
        | .exn .timeout _ =>
          return error (str "Timed out calling ESPHome add-on endpoint " ++
            Runtime.repr (.str args.path) ++ str ".") "timeout" [("slug", .str slug)]
        | .exn .client text =>
          return error (str "Failed to connect to ESPHome add-on endpoint " ++
            Runtime.repr (.str args.path) ++ str ".") "connection_failed"
            [("details", .str text), ("slug", .str slug)]
        | e => .raise e

/-! ## WebSocket -/

/-- `_collect_ws`, from the messages so far, for at most `fuel` receives. -/
def collectWs (limit : ℕ) (deadline : ℚ) (waitForClose : Bool) :
    ℕ → List Json → Coro (List Json × Str)
  | 0, _ => .raise .diverged
  | fuel + 1, messages => do
    if limit ≤ messages.length then return (messages, "message_limit")
    let now ← await .time
    let remaining := deadline - now
    if remaining ≤ 0 then return (messages, "timeout")
    let recvTimeout := if waitForClose then remaining else min remaining 2
    match ← attempt (await (.receive recvTimeout)) with
    | .error (.exn .timeout _) => return (messages, if waitForClose then "timeout" else "silence")
    | .error e => .raise e
    | .ok (.text data) => do
      let message ← ofExcept (loadsOrText data)
      collectWs limit deadline waitForClose fuel (messages ++ [message])
    | .ok .binary => collectWs limit deadline waitForClose fuel messages
    | .ok .close => return (messages, "server_closed")
    | .ok .closed => return (messages, "server_closed")
    | .ok .error => return (messages, "error")
    | .ok .other => collectWs limit deadline waitForClose fuel messages

/-- The WebSocket arguments of a proxied call. -/
structure WsArgs where
  path : Str
  /-- A dict, a list, a string or `None`. -/
  body : Json
  port : Option ℤ
  timeout : ℤ
  debug : Bool
  waitForClose : Bool
  messageLimit : Option ℤ
  messageOffset : ℤ

/-- How many messages to collect. -/
def WsArgs.limit (args : WsArgs) : ℕ :=
  let messageLimit := match args.messageLimit with
    | some n => if n = 0 then (maxWsMessages : ℤ) else n
    | none => maxWsMessages
  min maxWsMessages (max 0 (messageLimit + args.messageOffset)).toNat

/-- `json.dumps(body)`, or the body itself when it is a string. -/
def outboundText (body : Json) : Except Err Str :=
  match body with
  | .str text => .ok text
  | _ => (dumps .spaced body).mapError jsonErr

/-- Send the body, if there is one. -/
def sendBody (body : Json) : Coro Unit :=
  if body = .null then return ()
  else do
    let outbound ← ofExcept (outboundText body)
    await (.sendStr outbound)

/-- The payload of a finished WebSocket call. -/
def wsResult (args : WsArgs) (slug : Str) (addon : Dict) (url : Str) (headers : Headers)
    (messages : List Json) (closedBy : Str) : Dict :=
  let offset := sliceFrom args.messageOffset messages
  let sliced := match args.messageLimit with
    | some n => sliceTo n offset
    | none => offset
  success [("messages", .arr sliced), ("message_count", .int sliced.length),
    ("closed_by", .str closedBy), ("addon_name", dictGet addon "name"), ("slug", .str slug)] ++
  (if args.debug then [(str "_debug", Json.dict [("url", .str url),
    ("request_headers", headersJson (debugHeaders headers)), ("body", args.body)])] else [])

/-- `_call_addon_ws`. -/
def callAddonWs (fuel : ℕ) (hass : Hass) (addon : Dict) (slug : Str) (args : WsArgs) :
    Coro Dict := do
  match normalizePath args.path with
  | none => return error "Path contains '..' traversal component." "invalid_path" []
  | some normalized =>
    match ← routeForAddon hass addon normalized args.port true with
    | .error payload => return payload
    | .ok (url, headers) =>
      let conversation : Coro (List Json × Str) := do
        await (.wsConnect url headers)
        sendBody args.body
        let start ← await .time
        collectWs args.limit (start + args.timeout) args.waitForClose fuel []
      let collected : Coro Dict := do
        let (messages, closedBy) ← conversation
        return wsResult args slug addon url headers messages closedBy
      tryCatch collected fun
        | .exn .timeout _ =>
          return error (str "Timed out connecting to ESPHome add-on WebSocket " ++
            Runtime.repr (.str args.path) ++ str ".") "timeout" [("slug", .str slug)]
        | .exn .client text =>
          return error (str "Failed to connect to ESPHome add-on WebSocket " ++
            Runtime.repr (.str args.path) ++ str ".") "connection_failed"
            [("details", .str text), ("slug", .str slug)]
        | e => .raise e

end

end EsphomeMcp.Addon
