import EsphomeMcp.Addon.DeviceBuilder

/-!
# Request/response tools

The wrappers around one Device Builder command that do not stream. Each sends its own command
and turns a successful response into its own payload.
-/

namespace EsphomeMcp.Addon

open Py Py.Prog

/-- `_bounded_limit` with its default arguments. -/
def boundedLimit (limit : ℤ) : ℕ := if limit ≤ 0 then 100 else min limit.toNat 500

/-- The items `for x in value` goes through. -/
def iterItems : Json → Except Err (List Json)
  | .arr items => .ok items
  | .str s => .ok (s.map fun c => .str [c])
  | .obj d => .ok (d.map fun f => .str f.1)
  | _ => .error (.exn .type "object is not iterable")

/-- `response.get("result") or []`, when it is a list. -/
def resultList (response : Dict) : Option (List Json) :=
  match (dictGet response "result").orElse (.arr []) with
  | .arr items => some items
  | _ => none

/-- An optional argument as a JSON value. -/
def optionJson {α : Type} (f : α → Json) : Option α → Json
  | some a => f a
  | none => .null

/-- A command without streaming. -/
def requestCommand (command : Str) (args : Dict) (timeout : ℤ) (debug : Bool) : WsCommand :=
  ⟨command, args, timeout, debug, false, none⟩

section

variable [Runtime]

/-- `_text_matches`. -/
def textMatches (item : Json) (query : Option Str) : Except Err Bool :=
  match query with
  | some (c :: q) => do
    let haystack ← (dumps .spaced item).mapError jsonErr
    return contains (lower (c :: q)) (lower haystack)
  | _ => .ok true

/-- The listed dicts that match the query and pass a further test. -/
def selectDevices (query : Option Str) (keep : Json → Bool) : List Json → Except Err (List Json)
  | [] => .ok []
  | device :: devices => do
    let selected ← if device.isDict then textMatches device query else .ok false
    let rest ← selectDevices query keep devices
    return if selected ∧ keep device then device :: rest else rest

/-- A command whose successful response `finish` turns into the reply. -/
def requestThen (fuel : ℕ) (hass : Hass) (slug : Option Str) (c : WsCommand)
    (finish : Dict → Except Err Dict) : Coro Dict := do
  let response ← deviceBuilderCommand fuel hass slug c
  if !isSuccess response then return response
  ofExcept (finish response)

/-- The filters of `list_device_builder_devices`. -/
structure DeviceFilter where
  query : Option Str
  state : Option Str
  includeImportable : Bool
  limit : ℤ

/-- `state_filter is None or str(device.get("state")).lower() == state_filter`. -/
def DeviceFilter.keeps (f : DeviceFilter) (device : Json) : Bool :=
  match f.state with
  | some (c :: state) => lower (strOf (device.get "state")) = lower (c :: state)
  | _ => true

/-- The reply to a device list. -/
def finishDevices (f : DeviceFilter) (debug : Bool) (response : Dict) : Except Err Dict :=
  match dictGet response "result" with
  | .obj result => do
    let listed ← iterItems ((dictGet? result "configured").getD (.arr []))
    let selected ← selectDevices f.query f.keeps listed
    let configured := selected.take (boundedLimit f.limit)
    let importable ← if f.includeImportable then do
        let listed ← iterItems ((dictGet? result "importable").getD (.arr []))
        let selected ← selectDevices f.query (fun _ => true) listed
        .ok [("importable_count", Json.int selected.length),
          ("importable", .arr (selected.take (boundedLimit f.limit)))]
      else .ok []
    .ok (success ([("configured_count", .int configured.length), ("configured", .arr configured)] ++
      importable ++
      if debug ∧ dictHas response "_debug" then [("_debug", dictGet response "_debug")] else []))
  | _ => .ok (error "Device Builder returned malformed devices/list result." "error" [])

/-- `list_device_builder_devices`. -/
def listDeviceBuilderDevices (fuel : ℕ) (hass : Hass) (slug : Option Str) (f : DeviceFilter)
    (timeout : ℤ) (debug : Bool) : Coro Dict :=
  requestThen fuel hass slug (requestCommand "devices/list" [] timeout debug) (finishDevices f debug)

/-- The arguments of `search_device_builder_yaml`. -/
structure YamlQuery where
  query : Str
  maxResults : ℤ
  caseSensitive : Bool
  contextLines : Option ℤ

/-- The `args` of a YAML search. -/
def YamlQuery.args (q : YamlQuery) : Dict :=
  [(str "query", .str q.query), (str "max_results", .int (max 1 (min q.maxResults 200))),
    (str "case_sensitive", .bool q.caseSensitive),
    (str "context_lines", optionJson .int q.contextLines)]

/-- The reply to a YAML search. -/
def finishSearch (response : Dict) : Except Err Dict :=
  match resultList response with
  | some found => .ok (success [("count", .int found.length), ("matches", .arr found)])
  | none => .ok (error "Device Builder returned malformed yaml/search result." "error" [])

/-- `search_device_builder_yaml`. -/
def searchDeviceBuilderYaml (fuel : ℕ) (hass : Hass) (slug : Option Str) (q : YamlQuery)
    (timeout : ℤ) (debug : Bool) : Coro Dict :=
  requestThen fuel hass slug (requestCommand "yaml/search" q.args timeout debug) finishSearch

/-- The WebSocket route of `read_device_builder_config`. -/
def readConfigOverWs (fuel : ℕ) (hass : Hass) (slug : Option Str) (configuration : Str)
    (timeout : ℤ) (debug : Bool) : Coro Dict :=
  requestThen fuel hass slug
    (requestCommand "devices/get_config" [(str "configuration", .str configuration)] timeout debug)
    fun response => .ok (success [("configuration", .str configuration),
      ("content", dictGet response "result")])

/-- A bare `.yaml` file name, which the native route takes. -/
def isNativeConfiguration (configuration : Str) : Bool :=
  endsWith configuration ".yaml" ∧ ch '/' ∉ configuration ∧ ch '\\' ∉ configuration

/-- `read_device_builder_config`: the native route first, where it applies. -/
def readDeviceBuilderConfig (fuel : ℕ) (hass : Hass) (slug : Option Str) (configuration : Str)
    (timeout : ℤ) (debug : Bool) : Coro Dict := do
  if !isNativeConfiguration configuration then
    readConfigOverWs fuel hass slug configuration timeout debug
  else
    let native ← nativeDeviceBuilder hass
      ⟨slug, some "get_config", .dict [("configuration", .str configuration)], true, timeout⟩
    if isSuccess native then
      match (dictGet native "result").get "content" with
      | .arr [item] =>
        if item.get "type" ≠ .lit "text" then
          return error "Native get_config returned unexpected content." "native_protocol_error" []
        return success [("configuration", .str configuration), ("content", item.get "text")]
      | _ => return error "Native get_config returned unexpected content." "native_protocol_error" []
    else if dictGet native "error_code" ≠ .lit "native_mcp_unavailable" ∧
        dictGet native "error_code" ≠ .lit "native_tool_unavailable" then return native
    else readConfigOverWs fuel hass slug configuration timeout debug

/-- `write_device_builder_config`. -/
def writeDeviceBuilderConfig (fuel : ℕ) (hass : Hass) (slug : Option Str)
    (configuration content : Str) (allowWipe : Bool) (timeout : ℤ) (debug : Bool) : Coro Dict :=
  requestThen fuel hass slug
    (requestCommand "devices/update_config" [(str "configuration", .str configuration),
      (str "content", .str content), (str "allow_wipe", .bool allowWipe)] timeout debug)
    fun _ => .ok (success [("configuration", .str configuration), ("message", .lit "Config updated.")])

/-- `queue_device_builder_firmware_job`. -/
def queueDeviceBuilderFirmwareJob (fuel : ℕ) (hass : Hass) (slug : Option Str) (command : Str)
    (args : Dict) (timeout : ℤ) (debug : Bool) : Coro Dict :=
  requestThen fuel hass slug (requestCommand command args timeout debug)
    fun response => .ok (success [("job", dictGet response "result")])

/-- The reply to a job list. -/
def finishJobs (limit : ℤ) (response : Dict) : Except Err Dict :=
  match resultList response with
  | some jobs =>
    let bounded := jobs.take (boundedLimit limit)
    .ok (success [("count", .int bounded.length), ("jobs", .arr bounded)])
  | none => .ok (error "Device Builder returned malformed firmware/get_jobs result." "error" [])

/-- `list_device_builder_firmware_jobs`. -/
def listDeviceBuilderFirmwareJobs (fuel : ℕ) (hass : Hass) (slug : Option Str)
    (status configuration : Option Str) (limit timeout : ℤ) (debug : Bool) : Coro Dict :=
  let args := (status.map fun s => (str "status", Json.str s)).toList ++
    (configuration.map fun s => (str "configuration", Json.str s)).toList
  requestThen fuel hass slug (requestCommand "firmware/get_jobs" args timeout debug)
    (finishJobs limit)

/-- `get_device_builder_firmware_job`. -/
def getDeviceBuilderFirmwareJob (fuel : ℕ) (hass : Hass) (slug : Option Str) (jobId : Str)
    (timeout : ℤ) (debug : Bool) : Coro Dict :=
  requestThen fuel hass slug
    (requestCommand "firmware/get_job" [(str "job_id", .str jobId)] timeout debug)
    fun response => .ok (success [("found", .bool (dictGet response "result" ≠ .null)),
      ("job", dictGet response "result")])

end

end EsphomeMcp.Addon
