import EsphomeMcp.Addon.IngressSecrecy
import EsphomeMcp.Addon.StreamOutput
import EsphomeMcp.Python.Once

/-!
# What a call changes

`Changes` are the commands that may change an add-on, its configurations or a device: a Supervisor
POST other than a new ingress session, an HTTP request other than a GET and the native requests
that only look, and a WebSocket text that is no frame of a reading command. Every function that
talks to the add-on issues at most one of them, and one that was asked for.
-/

namespace EsphomeMcp.Addon

open Py Py.Prog

/-! ## Definitions -/

/-- The commands of Device Builder that leave configurations, devices and jobs as they are. -/
def readingCommands : List Str :=
  ["devices/list", "devices/get_config", "devices/validate", "devices/logs",
    "devices/stop_stream", "yaml/search", "firmware/get_jobs", "firmware/get_job",
    "firmware/follow_job"]

/-- The frame of a command. -/
def commandFrame (command : Str) (messageId args : Json) : Json :=
  .dict [("command", .str command), ("message_id", messageId), ("args", args)]

/-- The native requests that open a conversation and list the tools. -/
def lookingMethods : List Str := ["initialize", "notifications/initialized", "tools/list"]

/-- A native request that only looks: those, or a call of the tool that reads a configuration. -/
def IsNativeRead : HttpBody → Prop
  | .json body => (∃ method ∈ lookingMethods, body.get "method" = .str method) ∨
      body.get "method" = .lit "tools/call" ∧ (body.get "params").get "name" = .lit "get_config"
  | _ => False

section

variable [Runtime]

/-- A text that is the frame of a reading command. -/
def IsReadingText (text : Str) : Prop :=
  ∃ command ∈ readingCommands, ∃ messageId args,
    dumps .spaced (commandFrame command messageId args) = .ok text

/-- The commands that may change something. -/
def Changes : Cmd → Prop
  | .sendCommand endpoint method _ _ => method ≠ lower (str "GET") ∧
      ¬(endpoint = str "/ingress/session" ∧ method = lower (str "POST"))
  | .request method _ _ body => method ≠ str "GET" ∧ ¬IsNativeRead body
  | .sendStr text => ¬IsReadingText text
  | _ => False

/-- At most one change, and one that is asked for. -/
abbrev ChangesOnce {α : Type} (Q : Cmd → Prop) (p : Coro α) : Prop := Once Changes Q p

/-- At most one change, and one that is asked for after what was exchanged before it. -/
abbrev ChangesAfter {α : Type} (R : List Exchange → Cmd → Prop) (past : List Exchange)
    (p : Coro α) : Prop := OnceAfter Changes R past p

/-- No change. -/
abbrev ChangesNothing {α : Type} (p : Coro α) : Prop := Issues (fun c => ¬Changes c) p

/-! ## The Supervisor -/

/-- A read changes nothing. -/
theorem not_changes_of_isRead {c : Cmd} (h : IsRead c) : ¬Changes c := by
  cases c with
  | sendCommand endpoint method data timeout => exact fun hc => hc.1 h
  | component => exact id
  | _ => exact h.elim

/-- Minting a session is no change of an add-on. -/
theorem not_changes_of_session {c : Cmd} (h : IsSupervisorCall "/ingress/session" "POST" c) :
    ¬Changes c := by
  cases c with
  | sendCommand endpoint method data timeout => exact fun hc => hc.2 h
  | component => exact id
  | _ => exact h.elim

/-- Finding the add-on only reads. -/
theorem changesNothing_resolveEsphomeAddon (slug : Option Str) :
    ChangesNothing (resolveEsphomeAddon slug) :=
  (issues_resolveEsphomeAddon slug).mono fun _ => not_changes_of_isRead

/-- Making a route reads, and mints a session at most. -/
theorem changesNothing_routeForAddon (hass : Hass) (addon : Dict) (path : Str) (port : Option ℤ)
    (websocket : Bool) : ChangesNothing (routeForAddon hass addon path port websocket) :=
  issues_routeForAddon id (fun _ => not_changes_of_session) hass addon path port websocket

/-! ## Device Builder commands -/

omit [Runtime] in
theorem eq_ok_of_mapError {x : Except JsonError Str} {text : Str}
    (h : x.mapError jsonErr = .ok text) : x = .ok text := by
  cases x with
  | ok a => simpa [Except.mapError] using h
  | error e => simp [Except.mapError] at h

/-- The stop that ends a stream takes effect on the stream alone. -/
theorem changesNothing_sendStop (c : WsCommand) : ChangesNothing (sendStop c) := by
  unfold sendStop
  refine Issues.ite ?_ trivial
  obtain ⟨text, htext⟩ := exists_stopText
  rw [htext]
  refine Issues.perform fun hchanges => hchanges ?_
  exact ⟨"devices/stop_stream", by decide, _, _, eq_ok_of_mapError htext⟩

/-- The one text that is sent is the payload of the command. -/
theorem changesOnce_exchangeCommand {Q : Cmd → Prop} {c : WsCommand}
    (hsend : ∀ text, dumps .spaced c.payload = .ok text → Changes (.sendStr text) →
      Q (.sendStr text)) (fuel : ℕ) (st : WsState) :
    ChangesOnce Q (exchangeCommand fuel c st) := by
  refine Once.ofExcept_bind fun text htext => ?_
  refine Once.bind_left (Once.perform (hsend text (eq_ok_of_mapError htext))) fun _ => ?_
  -- behind the command there is nothing but the stop of its own stream
  refine Issues.bind (Issues.perform id) fun start => ?_
  refine Issues.bind (issues_receiveLoop id (fun _ => id) _ _ _ _) fun st => ?_
  cases st with
  | error payload => trivial
  | ok st =>
    exact Issues.bind (changesNothing_sendStop c) fun _ => Issues.bind (Issues.perform id)
      fun _ => trivial

/-- A command changes at most what its own frame asks for. -/
theorem changesOnce_deviceBuilderCommand {Q : Cmd → Prop} {c : WsCommand}
    (hsend : ∀ text, dumps .spaced c.payload = .ok text → Changes (.sendStr text) →
      Q (.sendStr text)) (fuel : ℕ) (hass : Hass) (slug : Option Str) :
    ChangesOnce Q (deviceBuilderCommand fuel hass slug c) := by
  unfold deviceBuilderCommand
  refine Once.bind_right (changesNothing_resolveEsphomeAddon _) fun resolved => ?_
  refine Once.ite trivial ?_
  split
  · refine Once.ite trivial ?_
    refine Once.bind_right (changesNothing_routeForAddon _ _ _ _ _) fun route => ?_
    cases route with
    | error payload => trivial
    | ok route =>
      refine Once.tryCatch ?_ fun e => ?_
      · refine Once.bind_right (Issues.perform id) fun _ => ?_
        refine Once.bind_right (issues_receiveServerInfo (fun _ => id) _ _) fun st => ?_
        cases st with
        | error payload => trivial
        | ok st =>
          refine Once.bind_left (changesOnce_exchangeCommand hsend fuel st) fun st => ?_
          cases st <;> trivial
      · unfold wsHandler
        split <;> trivial
  · trivial

theorem changesOnce_requestThen {Q : Cmd → Prop} {c : WsCommand}
    (hsend : ∀ text, dumps .spaced c.payload = .ok text → Changes (.sendStr text) →
      Q (.sendStr text)) (fuel : ℕ) (hass : Hass) (slug : Option Str)
    (finish : Dict → Except Err Dict) : ChangesOnce Q (requestThen fuel hass slug c finish) := by
  refine Once.bind_left (changesOnce_deviceBuilderCommand hsend fuel hass slug) fun response => ?_
  exact Issues.ite trivial (Issues.ofExcept _)

/-- The frame of a reading command is no change. -/
theorem not_changes_of_reading {c : WsCommand} (hc : c.command ∈ readingCommands) {text : Str}
    (htext : dumps .spaced c.payload = .ok text) : ¬Changes (.sendStr text) :=
  fun hchanges => hchanges ⟨c.command, hc, _, _, htext⟩

/-! ## Native requests -/

/-- One request of the native client. -/
theorem changesOnce_nativeMcpRequest {Q : Cmd → Prop} {url method : Str} {headers : Headers}
    {params : Json}
    (hQ : Changes (.request "POST" url headers (.json (.obj (rpcBody method params)))) →
      Q (.request "POST" url headers (.json (.obj (rpcBody method params))))) :
    ChangesOnce Q (nativeMcpRequest url headers method params) := by
  refine Once.bind_left (Once.perform hQ) fun head => ?_
  refine Issues.ite trivial (Issues.ite trivial (Issues.ite trivial (Issues.ite trivial ?_)))
  refine Issues.bind (issues_readNative id []) fun r => ?_
  cases r with
  | error payload => trivial
  | ok raw => exact Issues.ofExcept _

/-- A request that only looks changes nothing. -/
theorem changesNothing_nativeMcpRequest {url method : Str} {headers : Headers} {params : Json}
    (hmethod : method ∈ lookingMethods) :
    ChangesNothing (nativeMcpRequest url headers method params) := by
  have hread : IsNativeRead (.json (.obj (rpcBody method params))) := by
    refine .inl ⟨method, hmethod, ?_⟩
    simp [rpcBody, dictGet, dictGet?_cons]
  refine Issues.bind (Issues.perform fun hchanges => hchanges.2 hread) fun head => ?_
  refine Issues.ite trivial (Issues.ite trivial (Issues.ite trivial (Issues.ite trivial ?_)))
  refine Issues.bind (issues_readNative id []) fun r => ?_
  cases r with
  | error payload => trivial
  | ok raw => exact Issues.ofExcept _

/-- Listing the tools changes nothing, over however many pages. -/
theorem changesNothing_listTools (url : Str) (headers : Headers) (fuel : ℕ) (cursor : Option Str)
    (cursors : List Str) (totalSize : ℕ) (tools : List Json) :
    ChangesNothing (listTools url headers fuel cursor cursors totalSize tools) := by
  induction fuel generalizing cursor cursors totalSize tools with
  | zero => trivial
  | succ fuel ih =>
    refine Issues.bind (changesNothing_nativeMcpRequest (by decide)) fun page => ?_
    cases page with
    | error payload => trivial
    | ok page =>
      simp only
      split
      · refine Issues.ite trivial (Issues.bind (Issues.ofExcept _) fun text => ?_)
        refine Issues.ite trivial ?_
        split
        · trivial
        · exact Issues.ite trivial (ih _ _ _ _)
        · trivial
      · trivial

/-- The call of a native tool, over some route. -/
def IsNativeCall (args : NativeArgs) (c : Cmd) : Prop :=
  ∃ url headers, c = .request "POST" url headers (.json (.obj (rpcBody "tools/call" args.callParams)))

/-- A conversation with the native server changes at most what the called tool changes. -/
theorem changesOnce_converse {Q : Cmd → Prop} {args : NativeArgs}
    (hcall : args.call = true → ∀ c, IsNativeCall args c → Changes c → Q c) (url : Str)
    (headers : Headers) (addon : Dict) : ChangesOnce Q (converse url headers args addon) := by
  have hlooks {method : Str} {url : Str} {headers : Headers} {params : Json}
      {f : Except Dict Dict → Coro Dict} (hmethod : method ∈ lookingMethods)
      (hf : ∀ r, ChangesOnce Q (f r)) :
      ChangesOnce Q (Prog.bind (nativeMcpRequest url headers method params) f) :=
    Once.bind_right (changesNothing_nativeMcpRequest hmethod) hf
  refine hlooks (by decide) fun initialized => ?_
  cases initialized with
  | error payload => trivial
  | ok initialized =>
    simp only
    split
    · trivial
    · refine hlooks (by decide) fun notified => ?_
      cases notified with
      | error payload => trivial
      | ok notified =>
        refine Once.bind_right (changesNothing_listTools _ _ _ _ _ _ _) fun tools => ?_
        cases tools with
        | error payload => trivial
        | ok tools =>
          unfold useCatalog
          simp only
          split_ifs with havailable hlist
          · trivial
          · trivial
          · have hargs : args.call = true := by simpa using hlist
            refine Once.bind_left (changesOnce_nativeMcpRequest
              (hcall hargs _ ⟨_, _, rfl⟩)) fun result => ?_
            cases result with
            | error payload => trivial
            | ok result => exact Issues.ite trivial trivial

/-- The native tool changes something by its one `tools/call`. -/
theorem changesOnce_nativeDeviceBuilder {Q : Cmd → Prop} {args : NativeArgs}
    (hcall : args.call = true → ∀ c, IsNativeCall args c → Changes c → Q c) (hass : Hass) :
    ChangesOnce Q (nativeDeviceBuilder hass args) := by
  unfold nativeDeviceBuilder nativeBody
  refine Once.ite trivial (Once.ite trivial (Once.ite trivial ?_))
  refine Once.tryCatch ?_ fun e => ?_
  · refine Once.bind_right (changesNothing_resolveEsphomeAddon _) fun resolved => ?_
    refine Once.ite trivial ?_
    split
    · refine Once.ite trivial ?_
      refine Once.bind_right (changesNothing_routeForAddon _ _ _ _ _) fun route => ?_
      cases route with
      | error payload => trivial
      | ok route => exact changesOnce_converse hcall _ _ _
    · trivial
  · unfold nativeHandler
    split
    · exact Issues.bind (Issues.perform id) fun expired => Issues.ite trivial trivial
    · trivial
    · trivial
    · trivial

end

end EsphomeMcp.Addon
