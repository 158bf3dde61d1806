import EsphomeMcp.Addon.Actions
import EsphomeMcp.Addon.Proxy
import EsphomeMcp.Python.ClientUrl

/-!
# Managing the ESPHome add-on

`manage_esphome_addon` resolves the add-on and then does one of three things: a lifecycle
action, an options update or a proxied call. The results are about the POSTs that change an
add-on: there is at most one, none when the kinds of argument are combined, and the endpoint
it addresses is that of one ESPHome add-on exactly when the slug it is built from is a single
path segment that an ESPHome record carries.
-/

namespace EsphomeMcp.Addon

open Py Py.Prog

/-- `sorted(_VALID_HTTP_METHODS)`. -/
def validHttpMethods : List Str := ["DELETE", "GET", "PATCH", "POST", "PUT"]

/-- The arguments of `manage_esphome_addon`. -/
structure ManageArgs where
  slug : Option Str
  action : Option Str
  path : Option Str
  method : Str
  body : Json
  websocket : Bool
  waitForClose : Bool
  messageLimit : Option ℤ
  messageOffset : ℤ
  config : ConfigArgs
  port : Option ℤ
  timeout : ℤ
  debug : Bool
  requestHeaders : Option Headers

/-- A slug argument that is given and not empty. -/
def ManageArgs.givenSlug (args : ManageArgs) : Option Str :=
  match args.slug with
  | some (c :: s) => some (c :: s)
  | _ => none

section

variable [Runtime]

/-- An install by explicit slug, which skips the metadata. -/
def ManageArgs.installSlug (args : ManageArgs) : Option Str :=
  if args.action.map actionKey = some (str "install") then args.givenSlug else none

/-- `addon.get("slug") or slug or ""`, as text. -/
def resolvedSlug (args : ManageArgs) (addon : Dict) : Str :=
  strOf ((dictGet addon "slug").orElse (.str (args.givenSlug.getD [])))

/-- The proxied-call mode of `manage_esphome_addon`. -/
def manageCall (fuel : ℕ) (hass : Hass) (args : ManageArgs) (slug : Str) (addon : Dict) :
    Coro Dict := do
  let path := match args.path with
    | some (c :: p) => c :: p
    | _ => str "/devices"
  if dictGet addon "state" ≠ .lit "started" then
    return error (str "ESPHome add-on is not running (state: " ++ strOf (dictGet addon "state") ++
      str ").") "addon_not_running" [("slug", .str slug)]
  if upper args.method ∉ validHttpMethods then
    return error (str "Invalid HTTP method " ++ Runtime.repr (.str args.method) ++ str ".")
      "invalid_method" [("valid_methods", .arr (validHttpMethods.map .str))]
  if args.websocket then
    callAddonWs fuel hass addon slug ⟨path, args.body, args.port, args.timeout, args.debug,
      args.waitForClose, args.messageLimit, args.messageOffset⟩
  else if args.messageLimit.isSome ∨ args.messageOffset ≠ 0 then
    return error "message_limit and message_offset apply only to websocket mode."
      "invalid_mode" []
  else
    callAddonHttp hass addon slug
      ⟨path, args.method, args.body, args.port, args.debug, args.requestHeaders⟩

/-- The error for an action given together with a path or configuration. -/
def combinedActionError : Dict :=
  error "action cannot be combined with path or config parameters." "invalid_mode" []

/-- `manage_esphome_addon`. -/
def manageEsphomeAddon (fuel : ℕ) (hass : Hass) (args : ManageArgs) : Coro Dict := do
  let config := buildConfigPayload args.config
  match args.installSlug with
  | some slug =>
    if args.path.isSome ∨ config ≠ [] then return combinedActionError
    if contains "esphome" (lower slug) then executeAction slug "install"
    else
      return error
        (str "Add-on slug " ++ Runtime.repr (.str slug) ++
          str " does not look like the ESPHome add-on.") "not_esphome_addon" [("slug", .str slug)]
  | none =>
    let resolved ← resolveEsphomeAddon args.slug
    if !isSuccess resolved then return resolved
    match dictGet resolved "addon" with
    | .obj addon =>
      let slug := resolvedSlug args addon
      match args.action.map actionKey with
      | some key =>
        if args.path.isSome ∨ config ≠ [] then return combinedActionError
        executeAction slug key
      | none =>
        if config ≠ [] then
          if args.path.isSome then
            return error "path cannot be combined with config parameters." "invalid_mode" []
          executeConfigUpdate slug addon config
        else manageCall fuel hass args slug addon
    | _ => throwErr .attribute "object has no attribute 'get'"

end

/-! ## What a run asks the Supervisor -/

/-- The endpoint of a POST that changes an add-on: any but the ingress session. -/
def addonPost? : Exchange → Option Str
  | ⟨.sendCommand endpoint method _ _, _⟩ =>
    if method = str "post" ∧ endpoint ≠ str "/ingress/session" then some endpoint else none
  | _ => none

/-- The POSTs of a run that change an add-on. -/
def addonPosts (tr : List Exchange) : List Str := tr.filterMap addonPost?

/-- An answered GET: its endpoint and the normalised answer. -/
def metadata? : Exchange → Option (Str × Json)
  | ⟨.sendCommand endpoint method _ _, .ok j⟩ =>
    if method = str "get" then some (endpoint, normalizeSupervisorPayload j) else none
  | _ => none

/-- The metadata the Supervisor gave in a run. -/
def metadata (tr : List Exchange) : List (Str × Json) := tr.filterMap metadata?

/-- A command that is no POST changing an add-on. -/
def IsHarmless (c : Cmd) : Prop := ∀ r, addonPost? ⟨c, r⟩ = none

theorem addonPosts_of_issues {α : Type} {p : Coro α} {tr : List Exchange} {out : Except Err α}
    (hp : Issues IsHarmless p) (h : Runs p tr out) : addonPosts tr = [] := by
  have hall := hp.of_runs h
  clear h
  induction tr with
  | nil => rfl
  | cons ev tr ih =>
    obtain ⟨c, r⟩ := ev
    have hc : addonPost? ⟨c, r⟩ = none := hall ⟨c, r⟩ List.mem_cons_self r
    rw [addonPosts, List.filterMap_cons, hc]
    exact ih fun ev hev => hall ev (List.mem_cons_of_mem _ hev)

section

variable [Runtime]

theorem lower_POST : lower (str "POST") = str "post" := by
  rw [Runtime.lower_of_ascii _ (List.all_eq_true.mp rfl)]
  rfl

theorem lower_GET : lower (str "GET") = str "get" := by
  rw [Runtime.lower_of_ascii _ (List.all_eq_true.mp rfl)]
  rfl

theorem isHarmless_of_isRead {c : Cmd} (h : IsRead c) : IsHarmless c := by
  intro r
  cases c with
  | sendCommand endpoint method data timeout =>
    have hm : method = str "get" := by rw [← lower_GET]; exact h
    rw [addonPost?, if_neg]
    rintro ⟨hp, -⟩
    rw [hm, str_inj] at hp
    exact absurd hp (by decide)
  | _ => rfl

theorem isHarmless_ingressSession {c : Cmd} (h : IsSupervisorCall "/ingress/session" "POST" c) :
    IsHarmless c := by
  intro r
  cases c with
  | sendCommand endpoint method data timeout =>
    rw [addonPost?, if_neg]
    rintro ⟨-, hp⟩
    exact hp h.1
  | _ => rfl

theorem issues_callAddonHttp (hass : Hass) (addon : Dict) (slug : Str) (args : HttpArgs) :
    Issues IsHarmless (callAddonHttp hass addon slug args) := by
  unfold callAddonHttp
  split
  · trivial
  · refine Issues.bind (issues_routeForAddon (fun _ => rfl)
      (fun _ => isHarmless_ingressSession) _ _ _ _ _) fun route => ?_
    split
    · trivial
    · refine Issues.tryCatch ?_ fun e => ?_
      · refine Issues.bind (Issues.perform fun _ => rfl) fun head => ?_
        refine Issues.bind (Issues.perform fun _ => rfl) fun raw => ?_
        refine Issues.bind (Issues.ofExcept _) fun parsed => ?_
        exact Issues.bind (Issues.ofExcept _) fun data => trivial
      · split <;> trivial

/-- The collecting loop reads the clock and receives. -/
theorem issues_collectWs {P : Cmd → Prop} (htime : P .time) (hreceive : ∀ t, P (.receive t))
    (limit : ℕ) (deadline : ℚ) (waitForClose : Bool) (fuel : ℕ) (messages : List Json) :
    Issues P (collectWs limit deadline waitForClose fuel messages) := by
  induction fuel generalizing messages with
  | zero => trivial
  | succ fuel ih =>
    unfold collectWs
    by_cases hlimit : limit ≤ messages.length
    · rw [if_pos hlimit]
      trivial
    · rw [if_neg hlimit]
      refine Issues.bind (Issues.perform htime) fun now => ?_
      by_cases hdead : deadline - now ≤ 0
      · simp only [if_pos hdead]
        trivial
      · simp only [if_neg hdead]
        refine Issues.bind (Issues.attempt (Issues.perform (hreceive _))) fun r => ?_
        split
        · trivial
        · trivial
        · exact Issues.bind (Issues.ofExcept _) fun message => ih _
        · exact ih _
        · trivial
        · trivial
        · trivial
        · exact ih _

/-- Sending the body sends at most one message. -/
theorem issues_sendBody {P : Cmd → Prop} (hsend : ∀ text, P (.sendStr text)) (body : Json) :
    Issues P (sendBody body) := by
  unfold sendBody
  split_ifs
  · trivial
  · exact Issues.bind (Issues.ofExcept _) fun _ => Issues.perform (hsend _)

theorem issues_callAddonWs (fuel : ℕ) (hass : Hass) (addon : Dict) (slug : Str) (args : WsArgs) :
    Issues IsHarmless (callAddonWs fuel hass addon slug args) := by
  unfold callAddonWs
  split
  · trivial
  · refine Issues.bind (issues_routeForAddon (fun _ => rfl)
      (fun _ => isHarmless_ingressSession) _ _ _ _ _) fun route => ?_
    split
    · trivial
    · refine Issues.tryCatch (Issues.bind ?_ fun p => trivial) fun e => ?_
      · refine Issues.bind (Issues.perform fun _ => rfl) fun _ => ?_
        refine Issues.bind (issues_sendBody (fun _ _ => rfl) _) fun _ => ?_
        refine Issues.bind (Issues.perform fun _ => rfl) fun start => ?_
        exact issues_collectWs (fun _ => rfl) (fun _ _ => rfl) _ _ _ _ _
      · split <;> trivial

theorem issues_manageCall (fuel : ℕ) (hass : Hass) (args : ManageArgs) (slug : Str) (addon : Dict) :
    Issues IsHarmless (manageCall fuel hass args slug addon) := by
  unfold manageCall
  simp only
  split_ifs
  · trivial
  · exact issues_callAddonWs _ _ _ _ _
  · trivial
  · exact issues_callAddonHttp _ _ _ _
  · trivial

end

end EsphomeMcp.Addon
