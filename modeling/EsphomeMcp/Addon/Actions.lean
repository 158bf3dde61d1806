import EsphomeMcp.Addon.Supervisor

/-!
# Lifecycle actions and configuration

The two kinds of Supervisor POST that change an add-on: a lifecycle action and an options
update.
-/

namespace EsphomeMcp.Addon

open Py Py.Prog

/-- An entry of `_ACTION_ENDPOINTS`: the template is `before{slug}after`. -/
structure ActionEndpoint where
  key : Str
  before : Str
  after : Str
  timeout : ℤ

/-- `_ACTION_ENDPOINTS`. -/
def actionEndpoints : List ActionEndpoint :=
  [⟨"install", "/store/addons/", "/install", 1800⟩,
    ⟨"update", "/store/addons/", "/update", 1800⟩,
    ⟨"rebuild", "/addons/", "/rebuild", 1800⟩,
    ⟨"start", "/addons/", "/start", 120⟩,
    ⟨"stop", "/addons/", "/stop", 60⟩,
    ⟨"restart", "/addons/", "/restart", 120⟩,
    ⟨"uninstall", "/addons/", "/uninstall", 120⟩]

/-- `sorted(_ACTION_ENDPOINTS)`. -/
def validActions : List Str :=
  ["install", "rebuild", "restart", "start", "stop", "uninstall", "update"]

/-- `endpoint_tmpl.format(slug=slug)`. -/
def ActionEndpoint.format (e : ActionEndpoint) (slug : Str) : Str := e.before ++ slug ++ e.after

/-- The endpoint of an options update. -/
def optionsEndpoint (slug : Str) : Str := str "/addons/" ++ slug ++ str "/options"

/-- `_merge_options`: a one-level merge of dict values. -/
def mergeOptions (base override : Dict) : Dict :=
  override.foldl
    (fun merged f =>
      match f.2, dictGet merged f.1 with
      | .obj value, .obj current => dictSet f.1 (.obj (dictUpdate current value)) merged
      | value, _ => dictSet f.1 value merged)
    base

/-- The arguments of an options update. -/
structure ConfigArgs where
  options : Option Dict
  network : Option Dict
  boot : Option Str
  autoUpdate : Option Bool
  watchdog : Option Bool

/-- A dict argument that is given and not empty. -/
def nonEmptyDict : Option Dict → Option Dict
  | some (f :: d) => some (f :: d)
  | _ => none

/-- `_build_config_payload`. -/
def buildConfigPayload (args : ConfigArgs) : Dict :=
  (((nonEmptyDict args.options).map fun d => (str "options", Json.obj d)).toList ++
    ((nonEmptyDict args.network).map fun d => (str "network", Json.obj d)).toList ++
    (args.boot.map fun s => (str "boot", Json.str s)).toList ++
    (args.autoUpdate.map fun b => (str "auto_update", Json.bool b)).toList ++
    (args.watchdog.map fun b => (str "watchdog", Json.bool b)).toList)

/-- The names a list-valued add-on schema allows; an unhashable name raises `TypeError`. -/
def allowedKeys : List Json → Except Err (List Json)
  | [] => .ok []
  | item :: schema => do
    let name? ← match item with
      | .obj d =>
        match dictGet? d "name" with
        | some name =>
          if name.isHashable then .ok (some name) else .error (.exn .type "unhashable type")
        | none => .ok none
      | _ => .ok none
    let rest ← allowedKeys schema
    return name?.toList ++ rest

/-- The options to submit and the caller's fields the add-on schema does not know. -/
def mergedOptions (addon options : Dict) : Except Err (Dict × List Str) := do
  let current := match dictGet addon "options" with
    | .obj d => d
    | _ => []
  let merged := mergeOptions current options
  match dictGet addon "schema" with
  | .arr schema =>
    let allowed ← allowedKeys schema
    let ignored := (options.map Prod.fst).filter fun key => Json.str key ∉ allowed
    return (merged.filter fun f => f.1 ∉ ignored, ignored)
  | _ => return (merged, [])

section

variable [Runtime]

/-- The key an action string names. -/
def actionKey (action : Str) : Str := strip (lower action)

/-- The endpoint an action key stands for. -/
def findAction (key : Str) : Option ActionEndpoint := actionEndpoints.find? fun e => e.key = key

/-- `_execute_action`. -/
def executeAction (slug action : Str) : Coro Dict := do
  let key := actionKey action
  match findAction key with
  | none =>
    return error (str "Invalid action " ++ Runtime.repr (.str action) ++ str ".") "invalid_action"
      [("valid_actions", .arr (validActions.map .str))]
  | some e =>
    let result ← supervisorApiCall (e.format slug) "POST" .null (some e.timeout)
    if !isSuccess result then return result
    return success [("action", .str key), ("slug", .str slug),
      ("message", .str (str "ESPHome add-on " ++ slug ++ str " " ++ key ++ str " completed."))]

/-- The reply to a submitted configuration. -/
def configResponse (slug : Str) (config : Dict) (ignored : List Str) : Dict :=
  let submitted := success [("slug", .str slug),
    ("submitted_fields", .arr (config.map fun f => .str f.1)),
    ("message", .str (str "Configuration updated for ESPHome add-on " ++ slug ++ str "."))]
  let pending :=
    if dictHas config "options" ∨ dictHas config "network" then
      dictSet "message" (.str (str "Configuration submitted for ESPHome add-on " ++ slug ++
          str ". Restart the add-on for options/network changes to take effect."))
        (dictSet "status" (.lit "pending_restart") submitted)
    else submitted
  if ignored = [] then pending
  else
    dictSet "warnings" (.arr [.str (natRepr ignored.length ++
        str " field(s) not in the add-on schema were ignored.")])
      (dictSet "ignored_fields" (.arr (ignored.map .str)) pending)

/-- The configuration to submit, its options merged, and the ignored fields. -/
def submittedConfig (addon config : Dict) : Except Err (Dict × List Str) :=
  match dictGet? config "options" with
  | some (.obj options) =>
    (mergedOptions addon options).map fun p => (dictSet "options" (.obj p.1) config, p.2)
  | _ => .ok (config, [])

/-- `_execute_config_update`. -/
def executeConfigUpdate (slug : Str) (addon config : Dict) : Coro Dict := do
  let submitted ← ofExcept (submittedConfig addon config)
  let result ← supervisorApiCall (optionsEndpoint slug) "POST" (.obj submitted.1) (some 30)
  if !isSuccess result then return result
  return configResponse slug submitted.1 submitted.2

end

end EsphomeMcp.Addon
