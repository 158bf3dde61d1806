import EsphomeMcp.Python.JsonText
import EsphomeMcp.Python.Program

/-!
# Supervisor calls

The add-on helpers as programs over what `addon_tools.py` awaits: Supervisor commands, the
list of users, HTTP requests and a WebSocket. The Home Assistant side and the add-on may
answer anything or raise anything.

This file holds the commands, the tool error payload and the helpers that talk to the
Supervisor only: reading add-on metadata and resolving the ESPHome add-on.
-/

namespace EsphomeMcp.Addon

open Py Py.Prog

/-! ## What the helpers await -/

/-- The exceptions the helpers tell apart. -/
inductive ErrKind where
  /-- `TimeoutError`. -/
  | timeout
  /-- `asyncio.CancelledError`, which is no `Exception`. -/
  | cancelled
  /-- `aiohttp.ClientError`. -/
  | client
  /-- `HassioAPIError`. -/
  | hassioApi
  | attribute
  | key
  | type
  | recursion
  | other
deriving DecidableEq

/-- An exception: its kind with `str(err)`, or the mark of a loop that was cut off before it
ended. -/
inductive Err where
  | exn (kind : ErrKind) (text : Str)
  | diverged

/-- `isinstance(err, Exception)`. -/
def Err.isException : Err → Bool
  | exn .cancelled _ => false
  | exn _ _ => true
  | diverged => false

/-- `str(err)`. -/
def Err.text : Err → Str
  | exn _ text => text
  | diverged => []

/-- Request headers, in insertion order. -/
abbrev Headers := List (Str × Str)

/-- What looking up HA's `hassio` client finds. -/
inductive Component where
  | notImportable
  | notLoaded
  | loaded

/-- A Home Assistant user. -/
structure User where
  id : Str
  isActive : Bool
  isAdmin : Bool
  systemGenerated : Bool

/-- The body of an outgoing HTTP request: `json=`, `data=` or neither. -/
inductive HttpBody where
  | none
  | json (value : Json)
  | data (text : Str)

/-- The status and headers of an HTTP response. -/
structure HttpHead where
  status : ℕ
  headers : Headers

/-- A received WebSocket message. -/
inductive WsMsg where
  | text (data : Str)
  | binary
  | close
  | closed
  | error
  /-- Any other type of message. -/
  | other

/-- What the helpers await. -/
inductive Cmd where
  /-- `hass.data.get(DATA_COMPONENT)`, after the import of the `hassio` integration. -/
  | component
  /-- `supervisor.send_command`. -/
  | sendCommand (endpoint method : Str) (payload : Json) (timeout : Option ℤ)
  /-- `hass.auth.async_get_users()`. -/
  | users
  /-- `session.request(..)`, up to the response headers. -/
  | request (method url : Str) (headers : Headers) (body : HttpBody)
  /-- `response.content.read(65536)`. -/
  | readChunk
  /-- `response.read()`. -/
  | readBody
  /-- `session.ws_connect(..)`. -/
  | wsConnect (url : Str) (headers : Headers)
  /-- `asyncio.wait_for(ws.receive(), timeout)`. -/
  | receive (timeout : ℚ)
  /-- `ws.send_str(text)`. -/
  | sendStr (text : Str)
  /-- `ws.close()`. -/
  | wsClose
  /-- The clock of the event loop. -/
  | time
  /-- Whether `asyncio.timeout` is what cancelled the body that just ended. -/
  | expired

/-- The type of what a command returns. -/
@[reducible] def Cmd.Ans : Cmd → Type
  | component => Component
  | sendCommand .. => Json
  | users => List User
  | request .. => HttpHead
  | readChunk => Bytes
  | readBody => Bytes
  | wsConnect .. => Unit
  | receive _ => WsMsg
  | sendStr _ => Unit
  | wsClose => Unit
  | time => ℚ
  | expired => Bool

/-- The commands with their answers. -/
abbrev addonSignature : Signature := ⟨Cmd, Cmd.Ans⟩

/-- A coroutine of `addon_tools.py`. -/
abbrev Coro (α : Type) := Prog addonSignature Err α

/-- One exchange of a run. -/
abbrev Exchange := Event addonSignature Err

/-- `await` of one command. -/
def await (c : Cmd) : Coro c.Ans := @perform addonSignature Err c

/-- `raise` of a Python exception. -/
def throwErr {α : Type} (kind : ErrKind) (text : Str) : Coro α := .raise (.exn kind text)

/-- What the modules need to know of the running Home Assistant besides what they await. -/
structure Hass where
  /-- `hass.http.server_port`, `none` when any part of it is missing. -/
  serverPort : Option ℕ

/-! ## Payloads -/

/-- `{"success": True, **fields}`. -/
def success (fields : List (String × Json)) : Dict :=
  (str "success", .bool true) :: fields.map fun p => (str p.1, p.2)

/-- `_error`: a stable tool error payload. -/
def error (message code : Str) (extra : List (String × Json)) : Dict :=
  [(str "success", .bool false), (str "error_code", .str code), (str "error", .str message)] ++
    extra.map fun p => (str p.1, p.2)

/-- `payload.get("success")`, as a condition. -/
def isSuccess (payload : Dict) : Bool := (dictGet payload "success").truthy

@[simp] theorem isSuccess_success (fields : List (String × Json)) :
    isSuccess (success fields) = true := by
  simp [isSuccess, success, dictGet, dictGet?_cons]

@[simp] theorem isSuccess_error (message code : Str) (extra : List (String × Json)) :
    isSuccess (error message code extra) = false := by
  simp [isSuccess, error, dictGet, dictGet?_cons]

@[simp] theorem dictGet_success_cons (k : String) (v : Json) (fields : List (String × Json))
    (hk : k ≠ "success") : dictGet (success ((k, v) :: fields)) k = v := by
  have hne : str k ≠ str "success" := by simpa using hk
  rw [success, List.map_cons, dictGet, dictGet?_cons, if_neg hne, dictGet?_cons, if_pos rfl]
  rfl

/-- `_normalize_supervisor_payload`. -/
def normalizeSupervisorPayload (payload : Json) : Json :=
  match payload with
  | .obj d =>
    if dictGet d "result" = .lit "ok" ∧ dictHas d "data" then dictGet d "data"
    else if dictHas d "data" ∧ d.all fun f => f.1 = str "result" ∨ f.1 = str "data" then
      dictGet d "data"
    else payload
  | _ => payload

/-- The Supervisor's envelope around a payload. -/
def supervisorAnswer (data : Json) : Json := .dict [("result", .lit "ok"), ("data", data)]

@[simp] theorem normalizeSupervisorPayload_answer (data : Json) :
    normalizeSupervisorPayload (supervisorAnswer data) = data := by
  simp [normalizeSupervisorPayload, supervisorAnswer, Json.dict, dictGet, dictHas, dictGet?_cons]

/-- A run that raised, or returned a payload without success. -/
def IsFailure (out : Except Err Dict) : Prop := ∀ d, out = .ok d → isSuccess d = false

theorem isFailure_error (e : Err) : IsFailure (.error e) := by
  intro d hd
  cases hd

theorem isFailure_ok {d : Dict} (h : isSuccess d = false) : IsFailure (.ok d) := by
  intro d' hd
  cases hd
  exact h

theorem runs_await_iff {c : Cmd} {tr : List Exchange} {out : Except Err c.Ans} :
    Runs (await c) tr out ↔ tr = [⟨c, out⟩] :=
  runs_perform_iff

section

variable [Runtime]

/-- `_supervisor_api_call`. -/
def supervisorApiCall (endpoint method : Str) (data : Json) (timeout : Option ℤ) : Coro Dict := do
  match ← await .component with
  | .notImportable =>
    return error "Home Assistant's hassio integration is not available." "supervisor_unavailable" []
  | .notLoaded =>
    return error
      "Supervisor is not loaded. This tool requires Home Assistant OS or Supervised."
      "supervisor_unavailable" []
  | .loaded =>
    match ← attempt (await (.sendCommand endpoint (lower method) data timeout)) with
    | .ok result => return success [("result", normalizeSupervisorPayload result)]
    | .error (.exn .hassioApi text) =>
      return error (str "Supervisor API call failed: " ++ endpoint) "supervisor_api_failed"
        [("details", .str text)]
    | .error e =>
      if e.isException then
        return error (str "Unexpected Supervisor API error calling " ++ endpoint)
          "supervisor_api_failed" [("details", .str e.text)]
      else .raise e

/-- `_supervisor_api_call` with its default arguments. -/
def supervisorGet (endpoint : Str) : Coro Dict := supervisorApiCall endpoint "GET" .null (some 30)

/-- The endpoint `_get_addon_info` reads. -/
def infoEndpoint (slug : Str) : Str := str "/addons/" ++ slug ++ str "/info"

/-- `_get_addon_info`. -/
def getAddonInfo (slug : Str) : Coro Dict := do
  let response ← supervisorGet (infoEndpoint slug)
  if !isSuccess response then return response
  match dictGet response "result" with
  | .obj addon => return success [("addon", .obj addon)]
  | _ => return error "Supervisor returned malformed add-on info." "bad_response" []

/-- `_list_addons`. -/
def listAddons : Coro Dict := do
  let response ← supervisorGet "/addons"
  if !isSuccess response then return response
  match (dictGet response "result").get "addons" with
  | .arr addons => return success [("addons", .arr addons)]
  | _ => return error "Supervisor returned malformed add-on list." "bad_response" []

/-- `str(addon.get(key) or "")`. -/
def textField (addon : Dict) (key : Str) : Str := strOf ((dictGet addon key).orElse (.lit ""))

/-- `_looks_like_esphome_addon` of a dict. -/
def looksLikeEsphomeAddon (addon : Dict) : Bool :=
  [str "slug", str "name", str "description", str "repository"].any fun key =>
    contains "esphome" (lower (textField addon key))

/-- `_looks_like_esphome_addon`: anything but a dict has no `get`. -/
def looksLike (addon : Json) : Except Err Bool :=
  match addon with
  | .obj d => .ok (looksLikeEsphomeAddon d)
  | _ => .error (.exn .attribute "object has no attribute 'get'")

/-- The listed add-ons that look like ESPHome. -/
def esphomeMatches : List Json → Except Err (List Json)
  | [] => .ok []
  | addon :: addons => do
    let found ← looksLike addon
    let rest ← esphomeMatches addons
    return if found then addon :: rest else rest

/-- The `{"slug": .., "name": ..}` summary of an ambiguous match. -/
def matchSummary (addon : Json) : Json :=
  .dict [("slug", addon.get "slug"), ("name", addon.get "name")]

/-- `_resolve_esphome_addon`. -/
def resolveEsphomeAddon (slug : Option Str) : Coro Dict := do
  match slug with
  | some (c :: s) =>
    let slug := c :: s
    let info ← getAddonInfo slug
    if !isSuccess info then return info
    let addon := dictGet info "addon"
    if ← ofExcept (looksLike addon) then return info
    return error
      (str "Add-on " ++ Runtime.repr (.str slug) ++ str " does not look like the ESPHome add-on.")
      "not_esphome_addon" [("slug", .str slug)]
  | _ =>
    let listed ← listAddons
    if !isSuccess listed then return listed
    match dictGet listed "addons" with
    | .arr addons =>
      let found ← ofExcept (esphomeMatches addons)
      match found with
      | [] =>
        return error
          "Could not auto-detect an installed ESPHome add-on. Pass slug explicitly."
          "esphome_addon_not_found" []
      | [addon] =>
        match addon.has "slug" with
        | true => getAddonInfo (strOf (addon.get "slug"))
        | false => throwErr .key "'slug'"
      | _ =>
        return error "Multiple ESPHome-looking add-ons found. Pass slug explicitly."
          "ambiguous_esphome_addon" [("matches", .arr (found.map matchSummary))]
    | _ => throwErr .type "object is not iterable"

/-! ## How the helpers end -/

/-- The exchange of one Supervisor command. -/
abbrev supervisorExchange (endpoint method : Str) (data : Json) (timeout : Option ℤ)
    (answer : Except Err Json) : Exchange :=
  ⟨.sendCommand endpoint (lower method) data timeout, answer⟩

/-- A Supervisor call looks up the client and sends at most the one command it is asked to;
it succeeds only with the Supervisor's own answer. -/
theorem runs_supervisorApiCall {endpoint method : Str} {data : Json} {timeout : Option ℤ}
    {tr : List Exchange} {out : Except Err Dict}
    (h : Runs (supervisorApiCall endpoint method data timeout) tr out) :
    (∃ r, tr = [⟨.component, r⟩] ∧ IsFailure out) ∨
    (∃ e, tr = [⟨.component, .ok .loaded⟩,
      supervisorExchange endpoint method data timeout (.error e)] ∧ IsFailure out) ∨
    (∃ j, tr = [⟨.component, .ok .loaded⟩,
      supervisorExchange endpoint method data timeout (.ok j)] ∧
      out = .ok (success [("result", normalizeSupervisorPayload j)])) := by
  unfold supervisorApiCall at h
  rcases runs_bind_iff.mp h with ⟨c, tr₁, tr₂, h₁, h₂, rfl⟩ | ⟨e, h₁, rfl⟩
  · obtain rfl := runs_await_iff.mp h₁
    cases c with
    | notImportable =>
      obtain ⟨rfl, rfl⟩ := runs_ret_iff.mp h₂
      exact .inl ⟨_, rfl, isFailure_ok (isSuccess_error _ _ _)⟩
    | notLoaded =>
      obtain ⟨rfl, rfl⟩ := runs_ret_iff.mp h₂
      exact .inl ⟨_, rfl, isFailure_ok (isSuccess_error _ _ _)⟩
    | loaded =>
      rcases runs_bind_iff.mp h₂ with ⟨r, tr₃, tr₄, h₃, h₄, rfl⟩ | ⟨e, h₃, rfl⟩
      · obtain ⟨r', h₃, hr⟩ := runs_attempt_iff.mp h₃
        obtain rfl := runs_await_iff.mp h₃
        cases hr
        cases r with
        | ok j =>
          obtain ⟨rfl, rfl⟩ := runs_ret_iff.mp h₄
          exact .inr (.inr ⟨j, rfl, rfl⟩)
        | error e =>
          refine .inr (.inl ⟨e, ?_⟩)
          have hfail : ∀ (m c : Str) x, Runs (ret (error m c x) : Coro Dict) tr₄ out →
              tr₄ = [] ∧ IsFailure out := by
            intro m c x hr
            obtain ⟨rfl, rfl⟩ := runs_ret_iff.mp hr
            exact ⟨rfl, isFailure_ok (isSuccess_error _ _ _)⟩
          have hraise : Runs (raise e : Coro Dict) tr₄ out → tr₄ = [] ∧ IsFailure out := by
            intro hr
            obtain ⟨rfl, rfl⟩ := runs_raise_iff.mp hr
            exact ⟨rfl, isFailure_error e⟩
          obtain ⟨rfl, hf⟩ : tr₄ = [] ∧ IsFailure out := by
            split at h₄
            · cases ‹Except.error e = Except.ok _›
            · exact hfail _ _ _ h₄
            · split_ifs at h₄
              · exact hfail _ _ _ h₄
              · cases ‹Except.error e = Except.error _›
                exact hraise h₄
          exact ⟨rfl, hf⟩
      · obtain ⟨r', -, hr⟩ := runs_attempt_iff.mp h₃
        cases hr
  · obtain rfl := runs_await_iff.mp h₁
    exact .inl ⟨_, rfl, isFailure_error e⟩

/-- A Supervisor call that succeeded. -/
theorem runs_supervisorApiCall_success {endpoint method : Str} {data : Json}
    {timeout : Option ℤ} {tr : List Exchange} {d : Dict}
    (h : Runs (supervisorApiCall endpoint method data timeout) tr (.ok d))
    (hd : isSuccess d = true) :
    ∃ j, tr = [⟨.component, .ok .loaded⟩,
      supervisorExchange endpoint method data timeout (.ok j)] ∧
      d = success [("result", normalizeSupervisorPayload j)] := by
  rcases runs_supervisorApiCall h with ⟨r, -, hf⟩ | ⟨e, -, hf⟩ | ⟨j, htr, hout⟩
  · simp [hf d rfl] at hd
  · simp [hf d rfl] at hd
  · exact ⟨j, htr, by simpa using hout⟩

/-- The command is part of a Supervisor call with the given endpoint and method. -/
def IsSupervisorCall (endpoint method : Str) : Cmd → Prop
  | .component => True
  | .sendCommand ep m _ _ => ep = endpoint ∧ m = lower method
  | _ => False

theorem issues_supervisorApiCall (endpoint method : Str) (data : Json) (timeout : Option ℤ) :
    Issues (IsSupervisorCall endpoint method)
      (supervisorApiCall endpoint method data timeout) := by
  refine Issues.bind (Issues.perform trivial) fun c => ?_
  cases c with
  | notImportable => trivial
  | notLoaded => trivial
  | loaded =>
    refine Issues.bind (Issues.attempt (Issues.perform ⟨rfl, rfl⟩)) fun r => ?_
    split
    · trivial
    · trivial
    · split_ifs <;> trivial

/-- Add-on info is a dict the Supervisor answered with. -/
theorem runs_getAddonInfo_success {slug : Str} {tr : List Exchange} {d : Dict}
    (h : Runs (getAddonInfo slug) tr (.ok d)) (hd : isSuccess d = true) :
    ∃ j a, tr = [⟨.component, .ok .loaded⟩,
        supervisorExchange (infoEndpoint slug) "GET" .null (some 30) (.ok j)] ∧
      normalizeSupervisorPayload j = .obj a ∧ d = success [("addon", .obj a)] := by
  unfold getAddonInfo at h
  rcases runs_bind_iff.mp h with ⟨r, tr₁, tr₂, h₁, h₂, rfl⟩ | ⟨e, -, he⟩
  · by_cases hr : isSuccess r = true
    · obtain ⟨j, rfl, rfl⟩ := runs_supervisorApiCall_success h₁ hr
      simp only [isSuccess_success, Bool.not_true, Bool.false_eq_true, if_false,
        dictGet_success_cons "result" _ _ (by decide)] at h₂
      cases hj : normalizeSupervisorPayload j with
      | obj a =>
        rw [hj] at h₂
        obtain ⟨rfl, hout⟩ := runs_ret_iff.mp h₂
        cases hout
        exact ⟨j, a, rfl, hj, rfl⟩
      | _ =>
        rw [hj] at h₂
        obtain ⟨-, hout⟩ := runs_ret_iff.mp h₂
        cases hout
        simp at hd
    · simp only [hr, Bool.not_false, if_true] at h₂
      obtain ⟨-, hout⟩ := runs_ret_iff.mp h₂
      cases hout
      exact absurd hd hr
  · cases he

/-- The exchanges of a successful `_get_addon_info`. -/
abbrev infoExchange (slug : Str) (answer : Json) : List Exchange :=
  [⟨.component, .ok .loaded⟩,
    supervisorExchange (infoEndpoint slug) "GET" .null (some 30) (.ok answer)]

/-- The exchanges of a successful `_list_addons`. -/
abbrev listExchange (answer : Json) : List Exchange :=
  [⟨.component, .ok .loaded⟩, supervisorExchange "/addons" "GET" .null (some 30) (.ok answer)]

theorem runs_listAddons_success {tr : List Exchange} {d : Dict} (h : Runs listAddons tr (.ok d))
    (hd : isSuccess d = true) :
    ∃ j addons, tr = listExchange j ∧
      (normalizeSupervisorPayload j).get "addons" = .arr addons ∧
      d = success [("addons", .arr addons)] := by
  unfold listAddons at h
  rcases runs_bind_iff.mp h with ⟨r, tr₁, tr₂, h₁, h₂, rfl⟩ | ⟨e, -, he⟩
  · by_cases hr : isSuccess r = true
    · obtain ⟨j, rfl, rfl⟩ := runs_supervisorApiCall_success h₁ hr
      simp only [isSuccess_success, Bool.not_true, Bool.false_eq_true, if_false,
        dictGet_success_cons "result" _ _ (by decide)] at h₂
      cases hj : (normalizeSupervisorPayload j).get "addons" with
      | arr addons =>
        rw [hj] at h₂
        obtain ⟨rfl, hout⟩ := runs_ret_iff.mp h₂
        cases hout
        exact ⟨j, addons, rfl, hj, rfl⟩
      | _ =>
        rw [hj] at h₂
        obtain ⟨-, hout⟩ := runs_ret_iff.mp h₂
        cases hout
        simp at hd
    · simp only [hr, Bool.not_false, if_true] at h₂
      obtain ⟨-, hout⟩ := runs_ret_iff.mp h₂
      cases hout
      exact absurd hd hr
  · cases he

/-- What `esphomeMatches` keeps is what looks like ESPHome. -/
theorem mem_esphomeMatches {addons found : List Json} (h : esphomeMatches addons = .ok found)
    (m : Json) : m ∈ found ↔ m ∈ addons ∧ looksLike m = .ok true := by
  induction addons generalizing found with
  | nil =>
    obtain rfl : found = [] := by simpa [esphomeMatches] using h.symm
    simp
  | cons addon addons ih =>
    obtain ⟨b, hb, h⟩ := except_bind_eq_ok h
    obtain ⟨rest, hrest, h⟩ := except_bind_eq_ok h
    obtain rfl : (if b then addon :: rest else rest) = found := Except.ok.inj h
    cases b with
    | true =>
      simp only [if_true, List.mem_cons, ih hrest]
      constructor
      · rintro (rfl | ⟨hm, hl⟩)
        · exact ⟨.inl rfl, hb⟩
        · exact ⟨.inr hm, hl⟩
      · rintro ⟨rfl | hm, hl⟩
        · exact .inl rfl
        · exact .inr ⟨hm, hl⟩
    | false =>
      simp only [Bool.false_eq_true, if_false, List.mem_cons, ih hrest]
      constructor
      · rintro ⟨hm, hl⟩
        exact ⟨.inr hm, hl⟩
      · rintro ⟨rfl | hm, hl⟩
        · rw [hb] at hl
          cases hl
        · exact ⟨hm, hl⟩

/-- An explicit slug resolves to the record its info endpoint gave, which looks like ESPHome. -/
theorem runs_resolveEsphomeAddon_given {c : CodePoint} {s : Str} {tr : List Exchange} {d : Dict}
    (h : Runs (resolveEsphomeAddon (some (c :: s))) tr (.ok d)) (hd : isSuccess d = true) :
    ∃ j a, tr = infoExchange (c :: s) j ∧ normalizeSupervisorPayload j = .obj a ∧
      looksLikeEsphomeAddon a = true ∧ d = success [("addon", .obj a)] := by
  unfold resolveEsphomeAddon at h
  rcases runs_bind_iff.mp h with ⟨r, tr₁, tr₂, h₁, h₂, rfl⟩ | ⟨e, -, he⟩
  · by_cases hr : isSuccess r = true
    · obtain ⟨j, a, rfl, hj, rfl⟩ := runs_getAddonInfo_success h₁ hr
      simp only [isSuccess_success, Bool.not_true, Bool.false_eq_true, if_false,
        dictGet_success_cons "addon" _ _ (by decide), looksLike, ofExcept_ok, bind_eq, bind_ret]
        at h₂
      split_ifs at h₂ with hlook
      · obtain ⟨rfl, hout⟩ := runs_ret_iff.mp h₂
        cases hout
        exact ⟨j, a, rfl, hj, hlook, rfl⟩
      · obtain ⟨-, hout⟩ := runs_ret_iff.mp h₂
        cases hout
        simp at hd
    · simp only [hr, Bool.not_false, if_true] at h₂
      obtain ⟨-, hout⟩ := runs_ret_iff.mp h₂
      cases hout
      exact absurd hd hr
  · cases he

/-- Without a slug, the only listed add-on that looks like ESPHome is read by its slug. -/
theorem runs_resolveEsphomeAddon_auto {slug : Option Str} (hslug : slug.getD [] = [])
    {tr : List Exchange} {d : Dict} (h : Runs (resolveEsphomeAddon slug) tr (.ok d))
    (hd : isSuccess d = true) :
    ∃ jl addons m j a, tr = listExchange jl ++ infoExchange (strOf (dictGet m "slug")) j ∧
      (normalizeSupervisorPayload jl).get "addons" = .arr addons ∧
      esphomeMatches addons = .ok [.obj m] ∧ dictHas m "slug" = true ∧
      normalizeSupervisorPayload j = .obj a ∧ d = success [("addon", .obj a)] := by
  unfold resolveEsphomeAddon at h
  split at h
  · simp at hslug
  · rcases runs_bind_iff.mp h with ⟨r, tr₁, tr₂, h₁, h₂, rfl⟩ | ⟨e, -, he⟩
    · by_cases hr : isSuccess r = true
      · obtain ⟨jl, addons, rfl, hjl, rfl⟩ := runs_listAddons_success h₁ hr
        simp only [isSuccess_success, Bool.not_true, Bool.false_eq_true, if_false,
          dictGet_success_cons "addons" _ _ (by decide)] at h₂
        rcases runs_bind_iff.mp h₂ with ⟨found, tr₃, tr₄, h₃, h₄, rfl⟩ | ⟨e, -, he⟩
        · obtain ⟨rfl, hfound⟩ := runs_ofExcept_iff.mp h₃
          match found, hfound, h₄ with
          | [], _, h₄ =>
            obtain ⟨-, hout⟩ := runs_ret_iff.mp h₄
            cases hout
            simp at hd
          | [m], hfound, h₄ =>
            simp only at h₄
            have hm := ((mem_esphomeMatches hfound.symm m).mp (by simp)).2
            cases hhas : m.has "slug" with
            | true =>
              rw [hhas] at h₄
              obtain ⟨j, a, rfl, hj, rfl⟩ := runs_getAddonInfo_success h₄ hd
              cases m with
              | obj m => exact ⟨jl, addons, m, j, a, rfl, hjl, hfound.symm, hhas, hj, rfl⟩
              | _ => simp [looksLike] at hm
            | false =>
              rw [hhas] at h₄
              obtain ⟨-, hout⟩ := runs_raise_iff.mp h₄
              cases hout
          | m :: m' :: ms, _, h₄ =>
            obtain ⟨-, hout⟩ := runs_ret_iff.mp h₄
            cases hout
            simp at hd
        · cases he
      · simp only [hr, Bool.not_false, if_true] at h₂
        obtain ⟨-, hout⟩ := runs_ret_iff.mp h₂
        cases hout
        exact absurd hd hr
    · cases he

/-! ## Runs that succeed -/

theorem exists_runs_supervisorApiCall (endpoint method : Str) (data : Json)
    (timeout : Option ℤ) (j : Json) :
    Runs (supervisorApiCall endpoint method data timeout)
      [⟨.component, .ok .loaded⟩, supervisorExchange endpoint method data timeout (.ok j)]
      (.ok (success [("result", normalizeSupervisorPayload j)])) := by
  unfold supervisorApiCall
  refine runs_bind_iff.mpr (.inl ⟨.loaded, _, _, runs_await_iff.mpr rfl, ?_, rfl⟩)
  refine runs_bind_iff.mpr (.inl ⟨.ok j, _, [], ?_, .ret _, (List.append_nil _).symm⟩)
  exact runs_attempt_iff.mpr ⟨.ok j, runs_await_iff.mpr rfl, rfl⟩

theorem exists_runs_getAddonInfo (slug : Str) (a : Dict) :
    Runs (getAddonInfo slug) (infoExchange slug (supervisorAnswer (.obj a)))
      (.ok (success [("addon", .obj a)])) := by
  unfold getAddonInfo
  refine runs_bind_iff.mpr (.inl ⟨_, _, [], exists_runs_supervisorApiCall _ _ _ _
    (supervisorAnswer (.obj a)), ?_, rfl⟩)
  simp only [isSuccess_success, Bool.not_true, Bool.false_eq_true, if_false,
    dictGet_success_cons "result" _ _ (by decide), normalizeSupervisorPayload_answer]
  exact .ret _

theorem exists_runs_resolveEsphomeAddon_given {c : CodePoint} {s : Str} {a : Dict}
    (hl : looksLikeEsphomeAddon a = true) :
    Runs (resolveEsphomeAddon (some (c :: s)))
      (infoExchange (c :: s) (supervisorAnswer (.obj a))) (.ok (success [("addon", .obj a)])) := by
  unfold resolveEsphomeAddon
  refine runs_bind_iff.mpr (.inl ⟨_, _, [], exists_runs_getAddonInfo (c :: s) a, ?_, rfl⟩)
  simp only [isSuccess_success, Bool.not_true, Bool.false_eq_true, if_false,
    dictGet_success_cons "addon" _ _ (by decide), looksLike, hl, ofExcept_ok, bind_eq, bind_ret,
    if_true]
  exact .ret _

theorem exists_runs_resolveEsphomeAddon_auto {slug : Option Str} (hslug : slug.getD [] = [])
    {payload : Json} {addons : List Json} {m a : Dict} (hp : payload.get "addons" = .arr addons)
    (hm : esphomeMatches addons = .ok [.obj m]) (hs : dictHas m "slug" = true) :
    Runs (resolveEsphomeAddon slug)
      (listExchange (supervisorAnswer payload) ++
        infoExchange (strOf (dictGet m "slug")) (supervisorAnswer (.obj a)))
      (.ok (success [("addon", .obj a)])) := by
  have hlist : Runs listAddons (listExchange (supervisorAnswer payload))
      (.ok (success [("addons", .arr addons)])) := by
    unfold listAddons
    refine runs_bind_iff.mpr (.inl ⟨_, _, [], exists_runs_supervisorApiCall _ _ _ _
      (supervisorAnswer payload), ?_, rfl⟩)
    simp only [isSuccess_success, Bool.not_true, Bool.false_eq_true, if_false,
      dictGet_success_cons "result" _ _ (by decide), normalizeSupervisorPayload_answer, hp]
    exact .ret _
  unfold resolveEsphomeAddon
  split
  · simp at hslug
  · refine runs_bind_iff.mpr (.inl ⟨_, _, _, hlist, ?_, rfl⟩)
    simp only [isSuccess_success, Bool.not_true, Bool.false_eq_true, if_false,
      dictGet_success_cons "addons" _ _ (by decide), hm, ofExcept_ok, bind_eq, bind_ret]
    have hhas : (Json.obj m).has "slug" = true := hs
    rw [hhas]
    exact exists_runs_getAddonInfo _ a

/-! ## Resolving only reads -/

/-- A lookup of the client, or a Supervisor GET. -/
def IsRead : Cmd → Prop
  | .component => True
  | .sendCommand _ m _ _ => m = lower "GET"
  | _ => False

theorem issues_supervisorGet (endpoint : Str) : Issues IsRead (supervisorGet endpoint) := by
  refine Issues.mono (fun c hc => ?_) (issues_supervisorApiCall endpoint "GET" .null (some 30))
  cases c with
  | sendCommand => exact hc.2
  | component => trivial
  | _ => exact hc

theorem issues_getAddonInfo (slug : Str) : Issues IsRead (getAddonInfo slug) := by
  refine Issues.bind (issues_supervisorGet _) fun response => ?_
  split_ifs
  · trivial
  · split <;> trivial

theorem issues_listAddons : Issues IsRead listAddons := by
  refine Issues.bind (issues_supervisorGet _) fun response => ?_
  split_ifs
  · trivial
  · split <;> trivial

theorem issues_resolveEsphomeAddon (slug : Option Str) :
    Issues IsRead (resolveEsphomeAddon slug) := by
  unfold resolveEsphomeAddon
  split
  · refine Issues.bind (issues_getAddonInfo _) fun info => ?_
    split_ifs
    · trivial
    · refine Issues.bind (Issues.ofExcept _) fun b => ?_
      split_ifs <;> trivial
  · refine Issues.bind issues_listAddons fun listed => ?_
    split_ifs
    · trivial
    · split
      · refine Issues.bind (Issues.ofExcept _) fun found => ?_
        split
        · trivial
        · split
          · exact issues_getAddonInfo _
          · trivial
        · trivial
      · trivial

end

end EsphomeMcp.Addon
