import EsphomeMcp.Addon.NativeMcp

/-!
# Device Builder commands

One command over Device Builder's multiplexed WebSocket, and the request/response wrappers
around it. The receive loop ends by a message limit, a deadline, the socket or a frame, and
frames of other conversations count for none of these, so it is followed for a given number of
receives.
-/

namespace EsphomeMcp.Addon

open Py Py.Prog

/-- The id of the command in a conversation. -/
def commandId : Str := "esp-mcp-1"

/-- `_DEVICE_BUILDER_STOPPABLE_STREAMS`. -/
def stoppableStreams : List Str := ["devices/logs", "devices/subscribe_reachability"]

/-- A Device Builder command with its options. -/
structure WsCommand where
  command : Str
  args : Dict
  timeout : ℤ
  debug : Bool
  stream : Bool
  messageLimit : Option ℤ

/-- The frame that carries a command. -/
def WsCommand.payload (c : WsCommand) : Json :=
  .dict [("command", .str c.command), ("message_id", .str commandId), ("args", .obj c.args)]

/-- `min(_MAX_WS_MESSAGES, message_limit or _MAX_WS_MESSAGES)`. -/
def WsCommand.collectedLimit (c : WsCommand) : ℤ :=
  let messageLimit := match c.messageLimit with
    | some n => if n = 0 then (maxWsMessages : ℤ) else n
    | none => maxWsMessages
  min maxWsMessages messageLimit

/-- What a conversation has collected. -/
structure WsState where
  serverInfo : Json
  messages : List Json
  events : List Json
  terminalEvent : Json
  result : Json
  commandMessageCount : ℕ
  closeReason : Str

/-- A conversation that has received nothing. -/
def WsState.start : WsState := ⟨.null, [], [], .null, .null, 0, "timeout"⟩

/-- What one frame does to the conversation. -/
inductive FrameStep where
  | next (st : WsState)
  | stop (st : WsState)
  | fail (payload : Dict)

section

variable [Runtime]

/-- The error for a frame with an `error_code`. -/
def commandError (command : Str) (serverInfo : Json) (data : Dict) : Dict :=
  [(str "success", .bool false),
    (str "error_code",
      .str (strOf ((dictGet data "error_code").orElse (.lit "command_failed")))),
    (str "error", (dictGet data "details").orElse (.str (command ++ str " failed."))),
    (str "command", .str command), (str "server_info", serverInfo)]

/-- The body of the receive loop for one parsed frame. -/
def handleFrame (c : WsCommand) (st : WsState) (data : Json) : Except Err FrameStep :=
  let st := { st with messages := st.messages ++ [data] }
  match data with
  | .obj d =>
    if dictGet d "message_id" ≠ .str commandId then .ok (.next st)
    else
      let st := { st with commandMessageCount := st.commandMessageCount + 1 }
      if dictHas d "error_code" then .ok (.fail (commandError c.command st.serverInfo d))
      else if dictHas d "event" then
        let st := { st with events := st.events ++ [data] }
        if !(dictGet d "event").isHashable then .error (.exn .type "unhashable type")
        else if dictGet d "event" = .lit "result" then
          .ok (.stop { st with terminalEvent := data, closeReason := "event_result" })
        else .ok (.next st)
      else if dictHas d "result" then
        let st := { st with result := dictGet d "result", closeReason := "result" }
        .ok (if c.stream then .next st else .stop st)
      else .ok (.next st)
  | _ => .ok (.next st)

/-- The receive loop, for at most `fuel` receives. -/
def receiveLoop (c : WsCommand) (deadline : ℚ) : ℕ → WsState → Coro (Except Dict WsState)
  | 0, _ => .raise .diverged
  | fuel + 1, st => do
    if c.collectedLimit ≤ st.commandMessageCount then return .ok st
    let now ← await .time
    let remaining := deadline - now
    if remaining ≤ 0 then return .ok st
    match ← attempt (await (.receive (if c.stream then remaining else min remaining 10))) with
    | .error (.exn .timeout _) => return .ok { st with closeReason := "silence" }
    | .error e => .raise e
    | .ok (.text text) => do
      let data ← ofExcept (loadsOrText text)
      match ← ofExcept (handleFrame c st data) with
      | .next st => receiveLoop c deadline fuel st
      | .stop st => return .ok st
      | .fail payload => return .error payload
    | .ok .close => return .ok { st with closeReason := "server_closed" }
    | .ok .closed => return .ok { st with closeReason := "server_closed" }
    | .ok .error => return .ok { st with closeReason := "error" }
    | .ok .binary => receiveLoop c deadline fuel st
    | .ok .other => receiveLoop c deadline fuel st

/-- The close reason of a conversation that used up its messages. -/
def limitReached (c : WsCommand) (st : WsState) : WsState :=
  if c.collectedLimit ≤ st.commandMessageCount ∧ st.closeReason ≠ str "event_result" ∧
    st.closeReason ≠ str "result" then { st with closeReason := "message_limit" }
  else st

/-- The first frame: server info, or anything else that does not end the conversation. -/
def receiveServerInfo (c : WsCommand) (slug : Str) : Coro (Except Dict WsState) := do
  match ← attempt (await (.receive (min (c.timeout : ℚ) 10))) with
  | .error (.exn .timeout _) =>
    return .error (error "Timed out waiting for ESPHome Device Builder server info." "timeout"
      [("slug", .str slug)])
  | .error e => .raise e
  | .ok (.text text) => do
    let data ← ofExcept (loadsOrText text)
    let st := { WsState.start with messages := [data] }
    if !data.has "server_version" then return .ok st
    if (data.get "requires_auth").truthy then
      return .error (error
        (str "ESPHome Device Builder requires its own auth; " ++
          str "the ingress route did not arrive as trusted.") "device_builder_auth_required"
        [("server_info", data)])
    return .ok { st with serverInfo := data }
  | .ok .close =>
    return .error (error "ESPHome Device Builder closed before server info." "connection_closed"
      [("slug", .str slug)])
  | .ok .closed =>
    return .error (error "ESPHome Device Builder closed before server info." "connection_closed"
      [("slug", .str slug)])
  | .ok .error =>
    return .error (error "ESPHome Device Builder WebSocket failed before server info."
      "connection_failed" [("slug", .str slug)])
  | .ok .binary => return .ok .start
  | .ok .other => return .ok .start

/-- Stop a stream that Device Builder would go on with. -/
def sendStop (c : WsCommand) : Coro Unit :=
  if c.stream ∧ c.command ∈ stoppableStreams then do
    let text ← ofExcept ((dumps .spaced (.dict [("command", .lit "devices/stop_stream"),
      ("message_id", .lit "esp-mcp-stop"),
      ("args", .dict [("stream_id", .str commandId)])])).mapError jsonErr)
    await (.sendStr text)
  else return ()

/-- Send the command, collect the frames and close the socket. -/
def exchangeCommand (fuel : ℕ) (c : WsCommand) (st : WsState) : Coro (Except Dict WsState) := do
  let text ← ofExcept ((dumps .spaced c.payload).mapError jsonErr)
  await (.sendStr text)
  let start ← await .time
  match ← receiveLoop c (start + c.timeout) fuel st with
  | .error payload => return .error payload
  | .ok st => do
    sendStop c
    await .wsClose
    return .ok (limitReached c st)

/-- The debug part of a response. -/
def wsDebug (c : WsCommand) (url : Str) (headers : Headers) (st : WsState) : Json :=
  .dict [("url", .str url), ("request_headers", headersJson (debugHeaders headers)),
    ("server_info", st.serverInfo), ("message_count", .int st.messages.length),
    ("command_message_count", .int st.commandMessageCount),
    ("stop_stream_sent", .bool (c.stream ∧ c.command ∈ stoppableStreams)),
    ("messages", .arr st.messages)]

/-- The response of a conversation that was not refused. -/
def wsResponse (c : WsCommand) (slug url : Str) (headers : Headers) (st : WsState) : Dict :=
  success ([("command", .str c.command), ("result", st.result), ("events", .arr st.events),
    ("terminal_event", st.terminalEvent), ("closed_by", .str st.closeReason),
    ("slug", .str slug)] ++ if c.debug then [("_debug", wsDebug c url headers st)] else [])

/-- What becomes of an exception of the conversation. -/
def wsHandler (c : WsCommand) (slug : Str) : Err → Coro Dict
  | .exn .timeout _ =>
    return error (str "Timed out calling ESPHome Device Builder command " ++
      Runtime.repr (.str c.command) ++ str ".") "timeout" [("slug", .str slug)]
  | .exn .client text =>
    return error (str "Failed to connect to ESPHome Device Builder command " ++
      Runtime.repr (.str c.command) ++ str ".") "connection_failed"
      [("details", .str text), ("slug", .str slug)]
  | e => .raise e

/-- The conversation over an open route. -/
def converseWs (fuel : ℕ) (c : WsCommand) (slug url : Str) (headers : Headers) : Coro Dict := do
  await (.wsConnect url headers)
  match ← receiveServerInfo c slug with
  | .error payload => return payload
  | .ok st =>
    match ← exchangeCommand fuel c st with
    | .error payload => return payload
    | .ok st => return wsResponse c slug url headers st

/-- `_call_device_builder_ws_command`. -/
def callDeviceBuilderWsCommand (fuel : ℕ) (hass : Hass) (addon : Dict) (slug : Str)
    (c : WsCommand) : Coro Dict := do
  match ← routeForAddon hass addon "ws" none true with
  | .error payload => return payload
  | .ok (url, headers) => tryCatch (converseWs fuel c slug url headers) (wsHandler c slug)

/-- `_device_builder_command`. -/
def deviceBuilderCommand (fuel : ℕ) (hass : Hass) (slug : Option Str) (c : WsCommand) :
    Coro Dict := do
  let resolved ← resolveEsphomeAddon slug
  if !isSuccess resolved then return resolved
  match dictGet resolved "addon" with
  | .obj addon =>
    let resolvedSlug := strOf ((dictGet addon "slug").orElse (.str (slug.getD [])))
    if dictGet addon "state" ≠ .lit "started" then
      return error (str "ESPHome add-on is not running (state: " ++
        strOf (dictGet addon "state") ++ str ").") "addon_not_running" [("slug", .str resolvedSlug)]
    callDeviceBuilderWsCommand fuel hass addon resolvedSlug c
  | _ => throwErr .attribute "object has no attribute 'get'"

end

end EsphomeMcp.Addon
