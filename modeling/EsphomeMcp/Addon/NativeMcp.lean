import EsphomeMcp.Addon.Manage

/-!
# The native MCP client

`_native_device_builder` opens a stateless JSON-RPC conversation with the add-on on every call:
`initialize`, the `initialized` notification, the pages of `tools/list`, and then at most one
`tools/call`. A `_NativeMCPError` never leaves the function, so it is the error side of a
request's result here.
-/

namespace EsphomeMcp.Addon

open Py Py.Prog

/-- `_MAX_NATIVE_RESPONSE_SIZE`. -/
def maxNativeResponseSize : ℕ := 2 * 1024 * 1024

/-- `_NATIVE_PROTOCOL_VERSIONS`. -/
def nativeProtocolVersions : List Str := ["2025-06-18", "2025-11-25"]

/-- The JSON-RPC body of a request; a notification has no id. -/
def rpcBody (method : Str) (params : Json) : Dict :=
  [(str "jsonrpc", .lit "2.0"), (str "method", .str method), (str "params", params)] ++
    if method = str "notifications/initialized" then [] else [(str "id", .str method)]

/-- A reply that is a JSON-RPC envelope for `body`, with either a result or an error. -/
def isEnvelope (body payload : Dict) : Bool :=
  dictGet payload "jsonrpc" = .lit "2.0" ∧ dictGet payload "id" = dictGet body "id" ∧
    dictHas payload "result" ≠ dictHas payload "error"

/-- The error for a response that is no usable JSON-RPC reply. -/
def protocolError (message : Str) : Dict := error message "native_protocol_error" []

/-- Read the body in chunks, up to the size limit. -/
def readNative (raw : Bytes) : Coro (Except Dict Bytes) :=
  .call .readChunk fun
    | .error e => .raise e
    | .ok [] => .ret (.ok raw)
    | .ok (b :: chunk) =>
      if maxNativeResponseSize < (raw ++ b :: chunk).length then
        .ret (.error (error "Native MCP response exceeded 2 MiB; use narrower tool arguments."
          "native_response_too_large" []))
      else readNative (raw ++ b :: chunk)
termination_by maxNativeResponseSize + 1 - raw.length
decreasing_by
  simp only [List.length_append, List.length_cons] at *
  omega

/-- Reading the body asks for chunks only. -/
theorem issues_readNative {P : Cmd → Prop} (hread : P .readChunk) (raw : Bytes) :
    Issues P (readNative raw) := by
  induction raw using readNative.induct with
  | case1 raw ih =>
    rw [readNative]
    refine ⟨hread, fun r => ?_⟩
    rcases r with e | _ | ⟨b, chunk⟩
    · trivial
    · trivial
    · simp only
      by_cases hlarge : maxNativeResponseSize < (raw ++ b :: chunk).length
      · rw [if_pos hlarge]
        trivial
      · rw [if_neg hlarge]
        exact ih b chunk hlarge

section

variable [Runtime]

/-- What a complete response body says. -/
def nativeResult (body : Dict) (raw : Bytes) : Except Err (Except Dict Dict) :=
  match loadsBytes raw with
  | .error .value => .ok (.error (protocolError "Native MCP returned malformed JSON."))
  | .error .recursion => .error (jsonErr .recursion)
  | .ok (.obj payload) =>
    if !isEnvelope body payload then
      .ok (.error (protocolError "Native MCP returned an invalid JSON-RPC envelope."))
    else if dictHas payload "error" then
      .ok (.error (error "Native MCP rejected the request." "native_rpc_error"
        [("native_error", dictGet payload "error")]))
    else
      match dictGet payload "result" with
      | .obj result => .ok (.ok result)
      | _ => .ok (.error (protocolError "Native MCP returned an invalid result."))
  | .ok _ => .ok (.error (protocolError "Native MCP returned an invalid JSON-RPC envelope."))

/-- `_native_mcp_request`. -/
def nativeMcpRequest (url : Str) (headers : Headers) (method : Str) (params : Json) :
    Coro (Except Dict Dict) := do
  let body := rpcBody method params
  let head ← await (.request "POST" url headers (.json (.obj body)))
  if (head.status = 404 ∨ head.status = 405) ∧ method = str "initialize" then
    return .error (error
      (str "This Device Builder has no native /api/mcp endpoint. Update the add-on " ++
        str "or use the existing ESPHome tools.") "native_mcp_unavailable" [])
  if method = str "notifications/initialized" ∧ head.status = 202 then return .ok []
  if head.status ≠ 200 then
    return .error (error (str "Native MCP returned HTTP " ++ natRepr head.status ++ str ".")
      "native_http_error" [("status_code", .int head.status)])
  if !contains "application/json" (lower (head.header "Content-Type")) then
    return .error (protocolError "Native MCP did not return JSON.")
  match ← readNative [] with
  | .error payload => return .error payload
  | .ok raw => ofExcept (nativeResult body raw)

/-- An entry of a tool catalog. -/
def isToolEntry (entry : Json) : Bool :=
  entry.isDict ∧ (entry.get "name").isStr ∧ (entry.get "inputSchema").isDict

/-- The parameters of a `tools/list` request. -/
def listParams : Option Str → Json
  | none => .obj []
  | some cursor => .dict [("cursor", .str cursor)]

/-- The pages of the catalog, at most `fuel` more of them: the tools, or the error payload. -/
def listTools (url : Str) (headers : Headers) :
    ℕ → Option Str → List Str → ℕ → List Json → Coro (Except Dict (List Json))
  | 0, _, _, _, _ => return .error (protocolError "Native catalog exceeded 20 pages.")
  | fuel + 1, cursor, cursors, totalSize, tools => do
    match ← nativeMcpRequest url headers "tools/list" (listParams cursor) with
    | .error payload => return .error payload
    | .ok page =>
      match dictGet page "tools" with
      | .arr entries =>
        if !entries.all isToolEntry then
          return .error (protocolError "Invalid native tool catalog.")
        let text ← ofExcept ((dumps .spaced (.arr entries)).mapError jsonErr)
        if maxNativeResponseSize < totalSize + text.length then
          return .error (error "Native tool catalog exceeded 2 MiB." "native_response_too_large" [])
        match dictGet page "nextCursor" with
        | .null => return .ok (tools ++ entries)
        | .str (c :: next) =>
          if c :: next ∈ cursors then
            return .error (protocolError "Invalid native catalog cursor.")
          listTools url headers fuel (some (c :: next)) (cursors ++ [c :: next])
            (totalSize + text.length) (tools ++ entries)
        | _ => return .error (protocolError "Invalid native catalog cursor.")
      | _ => return .error (protocolError "Invalid native tool catalog.")

/-- The `initialize` parameters. -/
def initializeParams : Json :=
  .dict [("protocolVersion", .lit "2025-11-25"), ("capabilities", .obj []),
    ("clientInfo", .dict [("name", .lit "esphome-mcp"), ("version", .lit "1")])]

/-- The protocol version of a supported `initialize` result. -/
def supportedProtocol (initialized : Dict) : Option Str :=
  match dictGet initialized "protocolVersion" with
  | .str protocol =>
    if protocol ∈ nativeProtocolVersions ∧ (dictGet initialized "capabilities").isDict ∧
      ((dictGet initialized "capabilities").get "tools").isDict ∧
      (dictGet initialized "serverInfo").isDict then some protocol
    else none
  | _ => none

/-- An item of a tool result's content. -/
def isContentItem (item : Json) : Bool :=
  item.isDict ∧ (item.get "type").isStr ∧ (item.get "type" = .lit "text" → (item.get "text").isStr)

/-- `result.get("isError", False)`. -/
def isErrorField (result : Dict) : Json := (dictGet? result "isError").getD (.bool false)

/-- A well-formed `tools/call` result. -/
def isToolResult (result : Dict) : Bool :=
  match dictGet result "content" with
  | .arr content => (isErrorField result).isBool ∧ content.all isContentItem
  | _ => false

/-- The arguments of `_native_device_builder`. -/
structure NativeArgs where
  slug : Option Str
  tool : Option Str
  arguments : Json
  call : Bool
  timeout : ℤ

/-- The requested tool as a JSON value. -/
def NativeArgs.toolJson (args : NativeArgs) : Json := args.tool.elim .null .str

/-- The parameters of the tool call. -/
def NativeArgs.callParams (args : NativeArgs) : Json :=
  .dict [("name", args.toolJson), ("arguments", args.arguments.orElse (.obj []))]

/-- The entries a run is about: all of them, or those with the requested name. -/
def selectTools (tool : Option Str) (tools : List Json) : List Json :=
  tools.filter fun entry => tool.all fun name => entry.get "name" = .str name

/-- The fields every successful reply carries. -/
def NativeArgs.metadata (args : NativeArgs) (addon initialized : Dict) (protocol : Str) :
    List (String × Json) :=
  [("source", .lit "native_mcp"),
    ("slug", (dictGet addon "slug").orElse (args.slug.elim .null .str)),
    ("server_info", dictGet initialized "serverInfo"), ("protocol_version", .str protocol)]

/-- The fields a failed tool call adds to its reply. -/
def toolErrorFields : List (String × Json) :=
  [("error_code", .lit "native_tool_error"),
    ("error", .lit "Native tool failed; see result.content for details.")]

/-- The reply to a tool call. -/
def toolResponse (args : NativeArgs) (fields : List (String × Json)) (result : Dict) : Dict :=
  let failed := (isErrorField result).truthy
  let reply := fields ++ [("tool", args.toolJson), ("result", .obj result)] ++
    if failed then toolErrorFields else []
  (str "success", .bool !failed) :: reply.map fun p => (str p.1, p.2)

/-- Invoke the tool. -/
def callTool (url : Str) (headers : Headers) (args : NativeArgs) (fields : List (String × Json)) :
    Coro Dict := do
  match ← nativeMcpRequest url headers "tools/call" args.callParams with
  | .error payload => return payload
  | .ok result =>
    if !isToolResult result then return protocolError "Invalid native tool result."
    return toolResponse args fields result

/-- The part of a run behind a complete catalog. -/
def useCatalog (url : Str) (headers : Headers) (args : NativeArgs) (fields : List (String × Json))
    (tools : List Json) : Coro Dict :=
  let selected := selectTools args.tool tools
  if args.tool.isSome ∧ selected = [] then
    return error (str "Native tool " ++ Runtime.repr args.toolJson ++
      str " is not available on this Device Builder.") "native_tool_unavailable" []
  else if !args.call then
    return success (fields ++ [("tools", .arr selected), ("count", .int selected.length)])
  else callTool url headers args fields

/-- The conversation with the add-on, from the first request on. -/
def converse (url : Str) (headers : Headers) (args : NativeArgs) (addon : Dict) : Coro Dict := do
  match ← nativeMcpRequest url headers "initialize" initializeParams with
  | .error payload => return payload
  | .ok initialized =>
    match supportedProtocol initialized with
    | none => return protocolError "Unsupported native MCP initialization."
    | some protocol =>
      let headers := dictSet "MCP-Protocol-Version" protocol headers
      match ← nativeMcpRequest url headers "notifications/initialized" (.obj []) with
      | .error payload => return payload
      | .ok _ =>
        match ← listTools url headers 20 none [] 0 [] with
        | .error payload => return payload
        | .ok tools => useCatalog url headers args (args.metadata addon initialized protocol) tools

/-- What `_native_device_builder` does under its timeout. -/
def nativeBody (hass : Hass) (args : NativeArgs) : Coro Dict := do
  let resolved ← resolveEsphomeAddon args.slug
  if !isSuccess resolved then return resolved
  match dictGet resolved "addon" with
  | .obj addon =>
    if dictGet addon "state" ≠ .lit "started" then
      return error "ESPHome add-on is not running." "addon_not_running" []
    match ← routeForAddon hass addon "api/mcp" none false with
    | .error payload => return payload
    | .ok (url, headers) =>
      converse url (dictSet "Accept" "application/json, text/event-stream" headers) args addon
  | _ => throwErr .attribute "object has no attribute 'get'"

/-- The error for a run that ran out of time. -/
def nativeTimeout : Dict :=
  error (str "Native MCP timed out. A submitted write may have completed; read back " ++
    str "its state before retrying.") "timeout" []

/-- What becomes of an exception: `asyncio.timeout` makes its own cancellation a `TimeoutError`. -/
def nativeHandler : Err → Coro Dict
  | .exn .cancelled text => do
    if ← await .expired then return nativeTimeout else throwErr .cancelled text
  | .exn .timeout _ => return nativeTimeout
  | .exn .client _ =>
    return error "Native MCP connection failed. Read back any submitted write before retrying."
      "connection_failed" []
  | e => .raise e

/-- `_native_device_builder`. -/
def nativeDeviceBuilder (hass : Hass) (args : NativeArgs) : Coro Dict :=
  if ¬(1 ≤ args.timeout ∧ args.timeout ≤ 1800) then
    return error "timeout must be between 1 and 1800 seconds." "invalid_args" []
  else if args.call ∧ args.tool.all (fun tool => strip tool = []) then
    return error "A native tool name is required." "invalid_args" []
  else if args.arguments ≠ .null ∧ !args.arguments.isDict then
    return error "arguments must be an object." "invalid_args" []
  else tryCatch (nativeBody hass args) nativeHandler

end

end EsphomeMcp.Addon
