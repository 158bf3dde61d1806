import EsphomeMcp.Addon.ManageChanges

/-!
# The tools that reach the add-on

Fourteen of the MCP tools call the add-on. Each is announced with hints about what it does to the
add-on, and runs one of the helpers of `addon_tools.py` with arguments of its own.

* `Tool` lists these tools with their arguments and defaults, `Tool.hints` is how they are announced.
* `Tool.Asks` is the one change a tool is called for, built from its arguments and, for
  `esp_manage_addon`, from what was answered before it.
* `tool_changes` says that no run of a tool changes more than that, or anything else.
-/

namespace EsphomeMcp.Server

open Py Py.Prog Addon

/-- The device states `esp_dashboard_devices` filters by. -/
inductive DeviceState where
  | unknown
  | online
  | offline

/-- The name of a device state. -/
def DeviceState.name : DeviceState → Str
  | unknown => "unknown"
  | online => "online"
  | offline => "offline"

/-- The job states `esp_firmware_jobs` filters by. -/
inductive JobStatus where
  | queued
  | running
  | completed
  | failed
  | cancelled

/-- The name of a job state. -/
def JobStatus.name : JobStatus → Str
  | queued => "queued"
  | running => "running"
  | completed => "completed"
  | failed => "failed"
  | cancelled => "cancelled"

/-- The tools that reach the add-on, with their arguments. -/
inductive Tool where
  | nativeTools (tool slug : Option Str := none) (timeout : ℤ := 60)
  | nativeCall (name : Str) (arguments : Option Dict := none) (slug : Option Str := none)
      (timeout : ℤ := 60)
  | manageAddon (args : ManageArgs)
  | dashboardDevices (slug query : Option Str := none) (state : Option DeviceState := none)
      (includeImportable : Bool := true) (limit : ℤ := 100) (timeout : ℤ := 60)
      (debug : Bool := false)
  | searchYaml (query : Str) (slug : Option Str := none) (maxResults : ℤ := 50)
      (caseSensitive : Bool := false) (contextLines : Option ℤ := none) (timeout : ℤ := 60)
      (debug : Bool := false)
  | getYaml (configuration : Str) (slug : Option Str := none) (timeout : ℤ := 60)
      (debug : Bool := false)
  | updateYaml (configuration content : Str) (slug : Option Str := none) (allowWipe : Bool := false)
      (timeout : ℤ := 60) (debug : Bool := false)
  | validateYaml (configuration : Str) (slug : Option Str := none) (showSecrets : Bool := false)
      (messageLimit : ℤ := 200) (timeout : ℤ := 300) (debug : Bool := false)
  | deviceLogs (configuration : Str) (slug : Option Str := none) (port : Str := "OTA")
      (noStates : Bool := false) (messageLimit : ℤ := 120) (timeout : ℤ := 60)
      (debug : Bool := false)
  | compileFirmware (configuration : Str) (slug : Option Str := none) (forceLocal : Bool := false)
      (timeout : ℤ := 60) (debug : Bool := false)
  | installFirmware (configuration : Str) (slug : Option Str := none) (port : Str := "OTA")
      (forceLocal bootloader : Bool := false) (timeout : ℤ := 60) (debug : Bool := false)
  | firmwareJobs (slug : Option Str := none) (status : Option JobStatus := none)
      (configuration : Option Str := none) (limit : ℤ := 50) (timeout : ℤ := 60)
      (debug : Bool := false)
  | getFirmwareJob (jobId : Str) (slug : Option Str := none) (timeout : ℤ := 60)
      (debug : Bool := false)
  | followFirmwareJob (jobId : Str) (slug : Option Str := none) (messageLimit : ℤ := 500)
      (timeout : ℤ := 1800) (debug : Bool := false)

/-- The annotations of a tool. -/
structure ToolHints where
  readOnly : Bool
  destructive : Bool
  idempotent : Bool

/-- How the tools are announced. -/
def Tool.hints : Tool → ToolHints
  | nativeTools .. => ⟨true, false, true⟩
  | nativeCall .. => ⟨false, true, false⟩
  | manageAddon .. => ⟨false, true, false⟩
  | dashboardDevices .. => ⟨true, false, true⟩
  | searchYaml .. => ⟨true, false, true⟩
  | getYaml .. => ⟨true, false, true⟩
  | updateYaml .. => ⟨false, true, false⟩
  | validateYaml .. => ⟨true, false, true⟩
  | deviceLogs .. => ⟨true, false, false⟩
  | compileFirmware .. => ⟨false, true, false⟩
  | installFirmware .. => ⟨false, true, false⟩
  | firmwareJobs .. => ⟨true, false, true⟩
  | getFirmwareJob .. => ⟨true, false, true⟩
  | followFirmwareJob .. => ⟨true, false, false⟩

/-- The arguments of `firmware/compile`. -/
def compileArgs (configuration : Str) (forceLocal : Bool) : Dict :=
  [(str "configuration", .str configuration), (str "force_local", .bool forceLocal)]

/-- The arguments of `firmware/install`. -/
def installArgs (configuration port : Str) (forceLocal bootloader : Bool) : Dict :=
  [(str "configuration", .str configuration), (str "port", .str port),
    (str "force_local", .bool forceLocal), (str "bootloader", .bool bootloader)]

/-- The arguments of `devices/update_config`. -/
def updateArgs (configuration content : Str) (allowWipe : Bool) : Dict :=
  [(str "configuration", .str configuration), (str "content", .str content),
    (str "allow_wipe", .bool allowWipe)]

section

variable [Runtime]

/-- `native_device_builder_tools`. -/
def nativeDeviceBuilderTools (hass : Hass) (slug tool : Option Str) (timeout : ℤ) : Coro Dict :=
  nativeDeviceBuilder hass ⟨slug, tool, .null, false, timeout⟩

/-- `call_native_device_builder_tool`. -/
def callNativeDeviceBuilderTool (hass : Hass) (name : Str) (arguments : Option Dict)
    (slug : Option Str) (timeout : ℤ) : Coro Dict :=
  nativeDeviceBuilder hass ⟨slug, some name, optionJson .obj arguments, true, timeout⟩

/-- The body of a tool. -/
def Tool.run (fuel : ℕ) (hass : Hass) : Tool → Coro Dict
  | nativeTools tool slug timeout => nativeDeviceBuilderTools hass slug tool timeout
  | nativeCall name arguments slug timeout =>
    callNativeDeviceBuilderTool hass name arguments slug timeout
  | manageAddon args => manageEsphomeAddon fuel hass args
  | dashboardDevices slug query state includeImportable limit timeout debug =>
    listDeviceBuilderDevices fuel hass slug
      ⟨query, state.map DeviceState.name, includeImportable, limit⟩ timeout debug
  | searchYaml query slug maxResults caseSensitive contextLines timeout debug =>
    searchDeviceBuilderYaml fuel hass slug ⟨query, maxResults, caseSensitive, contextLines⟩ timeout
      debug
  | getYaml configuration slug timeout debug =>
    readDeviceBuilderConfig fuel hass slug configuration timeout debug
  | updateYaml configuration content slug allowWipe timeout debug =>
    writeDeviceBuilderConfig fuel hass slug configuration content allowWipe timeout debug
  | validateYaml configuration slug showSecrets messageLimit timeout debug =>
    runDeviceBuilderStream fuel hass slug "devices/validate"
      [(str "configuration", .str configuration), (str "show_secrets", .bool showSecrets)]
      timeout debug messageLimit
  | deviceLogs configuration slug port noStates messageLimit timeout debug =>
    runDeviceBuilderStream fuel hass slug "devices/logs"
      [(str "configuration", .str configuration), (str "port", .str port),
        (str "no_states", .bool noStates)]
      timeout debug messageLimit
  | compileFirmware configuration slug forceLocal timeout debug =>
    queueDeviceBuilderFirmwareJob fuel hass slug "firmware/compile"
      (compileArgs configuration forceLocal) timeout debug
  | installFirmware configuration slug port forceLocal bootloader timeout debug =>
    queueDeviceBuilderFirmwareJob fuel hass slug "firmware/install"
      (installArgs configuration port forceLocal bootloader) timeout debug
  | firmwareJobs slug status configuration limit timeout debug =>
    listDeviceBuilderFirmwareJobs fuel hass slug (status.map JobStatus.name) configuration limit
      timeout debug
  | getFirmwareJob jobId slug timeout debug =>
    getDeviceBuilderFirmwareJob fuel hass slug jobId timeout debug
  | followFirmwareJob jobId slug messageLimit timeout debug =>
    followDeviceBuilderFirmwareJob fuel hass slug jobId messageLimit timeout debug

/-- The text of a Device Builder command. -/
def IsCommand (command : Str) (args : Dict) (c : Cmd) : Prop :=
  ∃ text, c = .sendStr text ∧
    dumps .spaced (commandFrame command (.str commandId) (.obj args)) = .ok text

/-- The change a tool is called for, after the exchanges `tr`. -/
def Tool.Asks (hass : Hass) (tr : List Exchange) : Tool → Cmd → Prop
  | nativeCall name arguments slug timeout =>
    IsNativeCall ⟨slug, some name, optionJson .obj arguments, true, timeout⟩
  | manageAddon args => args.Asks hass tr
  | updateYaml configuration content _ allowWipe _ _ =>
    IsCommand "devices/update_config" (updateArgs configuration content allowWipe)
  | compileFirmware configuration _ forceLocal _ _ =>
    IsCommand "firmware/compile" (compileArgs configuration forceLocal)
  | installFirmware configuration _ port forceLocal bootloader _ _ =>
    IsCommand "firmware/install" (installArgs configuration port forceLocal bootloader)
  | _ => fun _ => False

/-- A tool that is announced as reading is called for no change. -/
theorem Tool.not_asks_of_readOnly {tool : Tool} (h : tool.hints.readOnly = true) (hass : Hass)
    (tr : List Exchange) (c : Cmd) : ¬tool.Asks hass tr c := by
  cases tool with
  | nativeCall | manageAddon | updateYaml | compileFirmware | installFirmware => cases h
  | _ => exact id

/-- A wrapper around a reading command changes nothing. -/
theorem changesOnce_reading {Q : Cmd → Prop} {c : WsCommand} (hc : c.command ∈ readingCommands)
    (fuel : ℕ) (hass : Hass) (slug : Option Str) (finish : Dict → Except Err Dict) :
    ChangesOnce Q (requestThen fuel hass slug c finish) :=
  changesOnce_requestThen
    (fun _ htext hchanges => absurd hchanges (not_changes_of_reading hc htext)) fuel hass slug finish

/-- A wrapper around any other command changes what its frame asks for. -/
theorem changesOnce_command (command : Str) (args : Dict) (timeout : ℤ) (debug : Bool) (fuel : ℕ)
    (hass : Hass) (slug : Option Str) (finish : Dict → Except Err Dict) :
    ChangesOnce (IsCommand command args)
      (requestThen fuel hass slug (requestCommand command args timeout debug) finish) :=
  changesOnce_requestThen (fun text htext _ => ⟨text, rfl, htext⟩) fuel hass slug finish

/-- Reading a configuration changes nothing over either route. -/
theorem changesOnce_readDeviceBuilderConfig {Q : Cmd → Prop} (fuel : ℕ) (hass : Hass)
    (slug : Option Str) (configuration : Str) (timeout : ℤ) (debug : Bool) :
    ChangesOnce Q (readDeviceBuilderConfig fuel hass slug configuration timeout debug) := by
  have hws : ChangesOnce Q (readConfigOverWs fuel hass slug configuration timeout debug) :=
    changesOnce_reading (c := requestCommand _ _ _ _) (show str "devices/get_config" ∈ _ by decide)
      fuel hass slug _
  unfold readDeviceBuilderConfig
  refine Once.ite hws (Once.bind_right ?_ fun native => ?_)
  · refine (changesOnce_nativeDeviceBuilder (Q := fun _ => False) ?_ hass).issues fun _ => id
    rintro - c ⟨url, headers, rfl⟩ hchanges
    -- the tool that is called reads
    refine hchanges.2 (.inr ⟨?_, ?_⟩)
    · simp [rpcBody, dictGet, dictGet?_cons]
      rfl
    · simp [rpcBody, dictGet, dictGet?_cons, NativeArgs.callParams, NativeArgs.toolJson, Json.dict]
      rfl
  · refine Once.ite ?_ (Once.ite trivial hws)
    split
    · exact Once.ite trivial trivial
    · trivial

/-- A tool changes at most once, and what it is called for. -/
theorem Tool.changesAfter (tool : Tool) (fuel : ℕ) (hass : Hass) :
    ChangesAfter (fun tr => tool.Asks hass tr) [] (tool.run fuel hass) := by
  have hfixed {tool : Tool} {p : Coro Dict} {Q : Cmd → Prop}
      (hQ : ∀ tr c, Q c → tool.Asks hass tr c) (hp : ChangesOnce Q p) :
      ChangesAfter (fun tr => tool.Asks hass tr) [] p := hp.after hQ
  cases tool with
  | nativeTools =>
    exact hfixed (Q := fun _ => False) nofun (changesOnce_nativeDeviceBuilder nofun hass)
  | nativeCall =>
    exact hfixed (fun _ _ => id) (changesOnce_nativeDeviceBuilder (fun _ _ hc _ => hc) hass)
  | manageAddon => exact changesAfter_manageEsphomeAddon fuel hass _
  | getYaml =>
    exact hfixed (Q := fun _ => False) nofun (changesOnce_readDeviceBuilderConfig fuel hass _ _ _ _)
  | updateYaml | compileFirmware | installFirmware =>
    exact hfixed (fun _ _ => id) (changesOnce_command _ _ _ _ fuel hass _ _)
  | _ =>
    refine hfixed (Q := fun _ => False) nofun (changesOnce_reading ?_ fuel hass _ _)
    simp only [requestCommand, streamCommand]
    decide

/-- In every run of a tool, whatever the add-on and the Supervisor answer, there is at most one
change, it is the one that the tool is called for after what was answered so far, and a tool that is
announced as reading makes none. -/
theorem tool_changes {tool : Tool} {fuel : ℕ} {hass : Hass} {tr : List Exchange}
    {out : Except Err Dict} (h : Runs (tool.run fuel hass) tr out) :
    (tool.hints.readOnly = true → ∀ ev ∈ tr, ¬Changes ev.cmd) ∧
      (∀ before ev rest, tr = before ++ ev :: rest → Changes ev.cmd →
        tool.Asks hass before ev.cmd) ∧
      tr.Pairwise fun ev ev' => ¬(Changes ev.cmd ∧ Changes ev'.cmd) := by
  obtain ⟨hasks, hpair⟩ := (tool.changesAfter fuel hass).of_runs h
  refine ⟨fun hread ev hev hchanges => ?_, hasks, hpair⟩
  obtain ⟨before, rest, hsplit⟩ := List.append_of_mem hev
  exact Tool.not_asks_of_readOnly hread hass before _ (hasks before ev rest hsplit hchanges)

end

/-- A request that `esp_manage_addon` passes on through ingress. -/
def renameKitchen : Tool :=
  .manageAddon ⟨some "esphome", none, some "/rename", "post", .dict [("name", .lit "kitchen")], false,
    true, none, 0, ⟨none, none, none, none, none⟩, none, 60, false, none⟩

/-- An exchange for a request. -/
def isRequest : Exchange → Bool
  | ⟨.request .., _⟩ => true
  | _ => false

/-- The request to an add-on that does not answer it. -/
def renameRun : List Exchange × Except Err Dict :=
  exec silentAddon (@Tool.run asciiRuntime 2 ⟨none⟩ renameKitchen) []

theorem requests_renameRun : renameRun.1.any isRequest = true := by decide +kernel

/-- A request that is passed on is made once. -/
theorem tool_changes_renameKitchen :
    letI := asciiRuntime
    ∃ tr out, Runs (renameKitchen.run 2 ⟨none⟩) tr out ∧ (∃ ev ∈ tr, isRequest ev = true) ∧
      (∀ before ev rest, tr = before ++ ev :: rest → Changes ev.cmd →
        renameKitchen.Asks ⟨none⟩ before ev.cmd) ∧
      tr.Pairwise fun ev ev' => ¬(Changes ev.cmd ∧ Changes ev'.cmd) := by
  let := asciiRuntime
  obtain ⟨tr, hrun, htr⟩ := runs_exec silentAddon (renameKitchen.run 2 ⟨none⟩) []
  have hrequests := requests_renameRun
  rw [renameRun, htr, List.nil_append, List.any_eq_true] at hrequests
  obtain ⟨-, hasks, hpair⟩ := tool_changes hrun
  exact ⟨tr, _, hrun, hrequests, hasks, hpair⟩

end EsphomeMcp.Server
