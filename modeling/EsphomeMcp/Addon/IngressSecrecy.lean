import EsphomeMcp.Addon.DeviceBuilderAnswers
import EsphomeMcp.Addon.IngressHeaders
import EsphomeMcp.Addon.ManagePosts
import EsphomeMcp.Python.TwoRuns

/-!
# The session token stays inside

Two runs of a call that see the same but for the token the Supervisor mints for the ingress
session. The token is put into the headers of requests and nowhere else, and what a result says of
these headers has the cookie redacted, so both runs end the same.
-/

namespace EsphomeMcp.Addon

open Py Py.Prog

section

variable [Runtime]

/-! ## What two runs see -/

/-- The command mints an ingress session. -/
def Mints : Cmd → Prop
  | .sendCommand endpoint method _ _ => endpoint = str "/ingress/session" ∧ method = lower "POST"
  | _ => False

/-- The Supervisor's answer has a session token. -/
def HasToken (answer : Json) : Prop :=
  ∃ session, session ≠ [] ∧ (normalizeSupervisorPayload answer).get "session" = .str session

/-- The same answer, or two tokens for a command that mints one. -/
def SeenAlike : Exchange → Exchange → Prop
  | ⟨.sendCommand endpoint method payload timeout, r⟩, ⟨.sendCommand _ _ _ _, r'⟩ =>
    r = r' ∨ (Mints (.sendCommand endpoint method payload timeout) ∧
      ∃ j j', r = .ok j ∧ r' = .ok j' ∧ HasToken j ∧ HasToken j')
  | ⟨.component, r⟩, ⟨.component, r'⟩ => r = r'
  | ⟨.users, r⟩, ⟨.users, r'⟩ => r = r'
  | ⟨.request .., r⟩, ⟨.request .., r'⟩ => r = r'
  | ⟨.readChunk, r⟩, ⟨.readChunk, r'⟩ => r = r'
  | ⟨.readBody, r⟩, ⟨.readBody, r'⟩ => r = r'
  | ⟨.wsConnect .., r⟩, ⟨.wsConnect .., r'⟩ => r = r'
  | ⟨.receive _, r⟩, ⟨.receive _, r'⟩ => r = r'
  | ⟨.sendStr _, r⟩, ⟨.sendStr _, r'⟩ => r = r'
  | ⟨.wsClose, r⟩, ⟨.wsClose, r'⟩ => r = r'
  | ⟨.time, r⟩, ⟨.time, r'⟩ => r = r'
  | ⟨.expired, r⟩, ⟨.expired, r'⟩ => r = r'
  | _, _ => True

/-- A command that mints nothing is answered the same. -/
theorem eq_of_seenAlike {c : Cmd} (hc : ¬Mints c) {r r' : Except Err c.Ans}
    (h : SeenAlike ⟨c, r⟩ ⟨c, r'⟩) : r = r' := by
  cases c with
  | sendCommand => exact h.resolve_right fun hmints => hc hmints.1
  | _ => exact h

/-- A coroutine that mints nothing ends the same in both runs. -/
theorem alike_self {α : Type} {p : Coro α} (h : Issues (fun c => ¬Mints c) p) :
    Alike SeenAlike (· = ·) p p :=
  Alike.refl (h.mono fun _ hc _ _ hseen => eq_of_seenAlike hc hseen) fun _ => rfl

/-- One command on each side. -/
theorem alike_await (c c' : Cmd) {Q : c.Ans → c'.Ans → Prop}
    (h : ∀ r r', SeenAlike ⟨c, r⟩ ⟨c', r'⟩ → OutcomesAlike Q r r') :
    Alike SeenAlike Q (await c) (await c') :=
  Alike.perform (S := addonSignature) h

/-- Two requests are answered the same, whatever they carry. -/
theorem alike_request (method url : Str) (headers : Headers) (body : HttpBody) (method' url' : Str)
    (headers' : Headers) (body' : HttpBody) :
    Alike SeenAlike (fun head head' : HttpHead => head = head')
      (await (.request method url headers body))
      (await (.request method' url' headers' body')) := by
  refine alike_await (.request _ _ _ _) (.request _ _ _ _) ?_
  rintro r r' rfl
  cases r <;> rfl

/-- Connecting is seen without its headers. -/
theorem alike_wsConnect (url : Str) (headers : Headers) (url' : Str) (headers' : Headers) :
    Alike SeenAlike (fun _ _ : Unit => True) (await (.wsConnect url headers))
      (await (.wsConnect url' headers')) := by
  refine alike_await (.wsConnect _ _) (.wsConnect _ _) ?_
  rintro r r' rfl
  cases r
  · rfl
  · trivial

theorem not_mints_of_isRead {c : Cmd} (h : IsRead c) : ¬Mints c := by
  cases c with
  | sendCommand endpoint method payload timeout =>
    rintro ⟨-, hpost⟩
    have hget : method = lower "GET" := h
    rw [hget, lower_GET, lower_POST, str_inj] at hpost
    exact absurd hpost (by decide)
  | _ => exact id

/-- A Supervisor call to any other endpoint mints nothing. -/
theorem not_mints_of_endpoint {endpoint method : Str} (hne : endpoint ≠ str "/ingress/session")
    {c : Cmd} (h : IsSupervisorCall endpoint method c) : ¬Mints c := by
  cases c with
  | sendCommand => exact fun hmints => hne (h.1.symm.trans hmints.1)
  | _ => exact id

/-! ## The session -/

/-- The answers to the command that mints the session. -/
def MintedAlike (d d' : Dict) : Prop :=
  d = d' ∨ ∃ j j', HasToken j ∧ HasToken j' ∧
    d = success [("result", normalizeSupervisorPayload j)] ∧
    d' = success [("result", normalizeSupervisorPayload j')]

/-- Two mints may return two sessions, and otherwise answer alike. -/
theorem alike_mintSession (data : Json) (timeout : Option ℤ) :
    Alike SeenAlike MintedAlike (supervisorApiCall "/ingress/session" "POST" data timeout)
      (supervisorApiCall "/ingress/session" "POST" data timeout) := by
  unfold supervisorApiCall
  refine Alike.bind (Q := Eq) (alike_self (Issues.perform id)) ?_
  rintro component _ rfl
  cases component with
  | notImportable => exact .ret (.inl rfl)
  | notLoaded => exact .ret (.inl rfl)
  | loaded =>
    refine Alike.bind (Q := OutcomesAlike fun j j' => j = j' ∨ (HasToken j ∧ HasToken j'))
      (Alike.attempt (alike_await (.sendCommand _ _ _ _) (.sendCommand _ _ _ _) ?_)) ?_
    · rintro r r' (rfl | ⟨-, j, j', rfl, rfl, hj, hj'⟩)
      · cases r with
        | ok j => exact .inl rfl
        | error e => rfl
      · exact .inr ⟨hj, hj'⟩
    · rintro (e | j) (e' | j') hout
      · obtain rfl : e = e' := hout
        refine Alike.mono (alike_self ?_) fun _ _ => .inl
        split
        · trivial
        · trivial
        · split_ifs <;> trivial
      · exact hout.elim
      · exact hout.elim
      · rcases hout with rfl | ⟨hj, hj'⟩
        · exact .ret (.inl rfl)
        · exact .ret (.inr ⟨j, j', hj, hj', rfl, rfl⟩)

/-- Two sessions, or the same failure. -/
def SessionsAlike (d d' : Dict) : Prop :=
  d = d' ∨ ∃ session session', d = success [("session", .str session)] ∧
    d' = success [("session", .str session')]

omit [Runtime] in
/-- What `_create_ingress_session` makes of a token. -/
theorem sessionOf_hasToken {answer : Json} (h : HasToken answer) :
    ∃ c s, (dictGet (success [("result", normalizeSupervisorPayload answer)]) "result").get
      "session" = .str (c :: s) := by
  obtain ⟨session, hne, hget⟩ := h
  obtain ⟨c, s, rfl⟩ := List.exists_cons_of_ne_nil hne
  exact ⟨c, s, by rw [dictGet_success_cons _ _ _ (by decide), hget]⟩

/-- What a mint made of its answer differs in the session alone. -/
theorem alike_createIngressSession :
    Alike SeenAlike SessionsAlike createIngressSession createIngressSession := by
  unfold createIngressSession
  have husers : Issues (fun c => ¬Mints c) ingressUserId :=
    Issues.bind (Issues.perform id) fun _ => trivial
  refine Alike.bind (alike_self husers) ?_
  rintro user _ rfl
  cases user with
  | none => exact .ret (.inl rfl)
  | some userId =>
    refine Alike.bind (alike_mintSession _ _) ?_
    rintro response response' (rfl | ⟨j, j', hj, hj', rfl, rfl⟩)
    · refine Alike.mono (alike_self ?_) fun _ _ => .inl
      split_ifs
      · trivial
      · split <;> trivial
    · obtain ⟨c, s, hs⟩ := sessionOf_hasToken hj
      obtain ⟨c', s', hs'⟩ := sessionOf_hasToken hj'
      simp only [isSuccess_success, Bool.not_true, Bool.false_eq_true, if_false, hs, hs']
      exact .ret (.inr ⟨_, _, rfl, rfl⟩)

/-! ## The route -/

/-- The same headers, or two session cookies. -/
def CookiesAlike (headers headers' : Headers) : Prop :=
  headers = headers' ∨ ∃ session session',
    headers = [(str "Cookie", str "ingress_session=" ++ session)] ∧
      headers' = [(str "Cookie", str "ingress_session=" ++ session')]

/-- The same refusal, or the same URL with headers that are alike. -/
inductive RoutesAlike : Except Dict (Str × Headers) → Except Dict (Str × Headers) → Prop
  | refused (payload : Dict) : RoutesAlike (.error payload) (.error payload)
  | route {url : Str} {headers headers' : Headers} : CookiesAlike headers headers' →
      RoutesAlike (.ok (url, headers)) (.ok (url, headers'))

omit [Runtime] in
theorem RoutesAlike.refl (route : Except Dict (Str × Headers)) : RoutesAlike route route := by
  cases route with
  | error payload => exact .refused payload
  | ok route => exact .route (.inl rfl)

/-- Two routes differ in the cookie at most. -/
theorem alike_routeForAddon (hass : Hass) (addon : Dict) (path : Str) (port : Option ℤ)
    (websocket : Bool) :
    Alike SeenAlike RoutesAlike (routeForAddon hass addon path port websocket)
      (routeForAddon hass addon path port websocket) := by
  unfold routeForAddon
  cases port with
  | some port =>
    simp only
    split_ifs <;> exact .ret (.refl _)
  | none =>
    simp only
    split_ifs
    · exact .ret (.refl _)
    · exact .ret (.refl _)
    · refine Alike.bind alike_createIngressSession ?_
      rintro d d' (rfl | ⟨session, session', rfl, rfl⟩)
      · split_ifs <;> exact .ret (.refl _)
      · simp only [isSuccess_success, Bool.not_true, Bool.false_eq_true, if_false,
          dictGet_success_cons "session" _ _ (by decide), strOf_str]
        exact .ret (.route (.inr ⟨session, session', rfl, rfl⟩))

/-! ## Proxied calls -/

omit [Runtime] in
/-- A redacted cookie says nothing of what it was. -/
theorem debugHeaders_dictSet (headers : Headers) (v : Str) :
    debugHeaders (dictSet (str "Cookie") v headers) =
      dictSet (str "Cookie") (str "ingress_session=**REDACTED**") headers := by
  rw [debugHeaders, if_pos, dictSet_dictSet]
  rw [dictHas, dictGet?_dictSet, if_pos rfl]
  rfl

omit [Runtime] in
/-- Merged with the caller's, two session cookies are redacted to the same headers. -/
theorem debugHeaders_httpPayload (args : HttpArgs) {headers headers' : Headers}
    (h : CookiesAlike headers headers') :
    debugHeaders (httpPayload args headers).1 = debugHeaders (httpPayload args headers').1 := by
  rcases h with rfl | ⟨session, session', rfl, rfl⟩
  · rfl
  have hset (cookie : Str) : dictHas (dictSet (str "Cookie") cookie args.callerHeaders)
      (str "Cookie") = true := by
    rw [dictHas, dictGet?_dictSet, if_pos rfl]
    rfl
  have hother (cookie : Str) : dictHas (dictSet (str "Cookie") cookie args.callerHeaders)
      (str "Content-Type") = dictHas args.callerHeaders (str "Content-Type") := by
    rw [dictHas, dictGet?_dictSet, if_neg (by decide), dictHas]
  rw [httpPayload_headers, httpPayload_headers]
  cases args.body with
  | str text =>
    simp only [hother]
    split_ifs
    · rw [debugHeaders_dictSet, debugHeaders_dictSet]
    · have hct (cookie : Str) : debugHeaders (dictSet (str "Content-Type") (str "application/json")
          (dictSet (str "Cookie") cookie args.callerHeaders)) =
          dictSet (str "Content-Type") (str "application/json")
            (dictSet (str "Cookie") (str "ingress_session=**REDACTED**") args.callerHeaders) := by
        rw [debugHeaders, if_pos, dictSet_comm (by decide) _ _ (hset cookie), dictSet_dictSet]
        rw [dictHas, dictGet?_dictSet, if_neg (by decide)]
        exact hset cookie
      rw [hct, hct]
  | _ =>
    simp only
    rw [debugHeaders_dictSet, debugHeaders_dictSet]

omit [Runtime] in
/-- The debug field redacts the one header the cookies differ in. -/
theorem debugHeaders_alike {headers headers' : Headers} (h : CookiesAlike headers headers') :
    debugHeaders headers = debugHeaders headers' := by
  rcases h with rfl | ⟨session, session', rfl, rfl⟩
  · rfl
  · rfl

/-- One HTTP call through the ingress, its answer, its errors and its debug field. -/
theorem alike_callAddonHttp (hass : Hass) (addon : Dict) (slug : Str) (args : HttpArgs) :
    Alike SeenAlike (· = ·) (callAddonHttp hass addon slug args)
      (callAddonHttp hass addon slug args) := by
  unfold callAddonHttp
  split
  · exact .ret rfl
  · refine Alike.bind (alike_routeForAddon _ _ _ _ _) ?_
    rintro _ _ (payload | @⟨url, headers, headers', hcookies⟩)
    · exact .ret rfl
    · have hdebug := debugHeaders_httpPayload args hcookies
      have hresult (head : HttpHead) (data : Json) (truncated : Bool) :
          httpResult args slug addon url (httpPayload args headers).1 head data truncated =
            httpResult args slug addon url (httpPayload args headers').1 head data truncated := by
        rw [httpResult, hdebug, ← httpResult]
      simp only [hresult]
      refine Alike.tryCatch (Alike.bind (alike_request _ _ _ _ _ _ _ _) ?_) fun e => alike_self ?_
      · rintro head _ rfl
        refine alike_self (Issues.bind (Issues.perform id) fun raw => ?_)
        refine Issues.bind (Issues.ofExcept _) fun parsed => ?_
        exact Issues.bind (Issues.ofExcept _) fun data => trivial
      · split <;> trivial

/-- One WebSocket call. -/
theorem alike_callAddonWs (fuel : ℕ) (hass : Hass) (addon : Dict) (slug : Str) (args : WsArgs) :
    Alike SeenAlike (· = ·) (callAddonWs fuel hass addon slug args)
      (callAddonWs fuel hass addon slug args) := by
  unfold callAddonWs
  split
  · exact .ret rfl
  · refine Alike.bind (alike_routeForAddon _ _ _ _ _) ?_
    rintro _ _ (payload | @⟨url, headers, headers', hcookies⟩)
    · exact .ret rfl
    · have hresult (messages : List Json) (closedBy : Str) :
          wsResult args slug addon url headers messages closedBy =
            wsResult args slug addon url headers' messages closedBy := by
        rw [wsResult, debugHeaders_alike hcookies, ← wsResult]
      simp only [hresult]
      refine Alike.tryCatch ?_ fun e => alike_self ?_
      · refine Alike.bind (Q := Eq) (Alike.bind (alike_wsConnect _ _ _ _) fun _ _ _ => ?_) ?_
        · refine alike_self (Issues.bind (issues_sendBody (fun _ => id) _) fun _ => ?_)
          refine Issues.bind (Issues.perform id) fun start => ?_
          exact issues_collectWs id (fun _ => id) _ _ _ _ _
        · rintro collected _ rfl
          exact .ret rfl
      · split <;> trivial

/-! ## Managing the add-on -/

/-- A lifecycle action mints no session. -/
theorem issues_executeAction (slug action : Str) :
    Issues (fun c => ¬Mints c) (executeAction slug action) := by
  unfold executeAction
  cases hfind : findAction (actionKey action) with
  | none =>
    simp only [hfind]
    trivial
  | some e =>
    simp only [hfind]
    have hmem : (e.before, e.after) ∈ postTemplates :=
      List.mem_cons_of_mem _ (List.mem_map.mpr ⟨e, List.mem_of_find?_eq_some hfind, rfl⟩)
    refine Issues.bind ((issues_supervisorApiCall _ _ _ _).mono fun c hc =>
      not_mints_of_endpoint (template_ne_session hmem slug) hc) fun result => ?_
    split_ifs <;> trivial

/-- Neither does an update of the options. -/
theorem issues_executeConfigUpdate (slug : Str) (addon config : Dict) :
    Issues (fun c => ¬Mints c) (executeConfigUpdate slug addon config) := by
  have hmem : (str "/addons/", str "/options") ∈ postTemplates := List.mem_cons_self
  refine Issues.bind (Issues.ofExcept _) fun submitted => ?_
  refine Issues.bind ((issues_supervisorApiCall _ _ _ _).mono fun c hc =>
    not_mints_of_endpoint (template_ne_session hmem slug) hc) fun result => ?_
  split_ifs <;> trivial

/-- What the tool does with an add-on once it is found. -/
theorem alike_manageCall (fuel : ℕ) (hass : Hass) (args : ManageArgs) (slug : Str) (addon : Dict) :
    Alike SeenAlike (· = ·) (manageCall fuel hass args slug addon)
      (manageCall fuel hass args slug addon) := by
  unfold manageCall
  simp only
  split_ifs
  · exact .ret rfl
  · exact alike_callAddonWs _ _ _ _ _
  · exact .ret rfl
  · exact alike_callAddonHttp _ _ _ _
  · exact .ret rfl

/-- Finding the add-on mints no session. -/
theorem alike_resolveEsphomeAddon (slug : Option Str) :
    Alike SeenAlike (· = ·) (resolveEsphomeAddon slug) (resolveEsphomeAddon slug) :=
  alike_self ((issues_resolveEsphomeAddon slug).mono fun _ => not_mints_of_isRead)

/-- The whole tool. -/
theorem alike_manageEsphomeAddon (fuel : ℕ) (hass : Hass) (args : ManageArgs) :
    Alike SeenAlike (· = ·) (manageEsphomeAddon fuel hass args)
      (manageEsphomeAddon fuel hass args) := by
  unfold manageEsphomeAddon
  cases args.installSlug with
  | some slug =>
    simp only
    split_ifs
    · exact .ret rfl
    · exact alike_self (issues_executeAction _ _)
    · exact .ret rfl
  | none =>
    refine Alike.bind (alike_resolveEsphomeAddon _) ?_
    rintro resolved _ rfl
    refine Alike.ite (.ret rfl) ?_
    cases dictGet resolved "addon" with
    | obj addon =>
      simp only
      cases args.action.map actionKey with
      | some key => exact Alike.ite (.ret rfl) (alike_self (issues_executeAction _ _))
      | none =>
        refine Alike.ite (Alike.ite (.ret rfl) ?_) (alike_manageCall _ _ _ _ _)
        exact alike_self (issues_executeConfigUpdate _ _ _)
    | _ => exact .raise _

/-! ## Device Builder commands -/

theorem issues_receiveLoop {P : Cmd → Prop} (htime : P .time) (hreceive : ∀ t, P (.receive t))
    (c : WsCommand) (deadline : ℚ) (fuel : ℕ) (st : WsState) :
    Issues P (receiveLoop c deadline fuel st) := by
  induction fuel generalizing st with
  | zero => trivial
  | succ fuel ih =>
    unfold receiveLoop
    refine Issues.ite trivial ?_
    refine Issues.bind (Issues.perform htime) fun now => ?_
    refine Issues.ite trivial ?_
    refine Issues.bind (Issues.attempt (Issues.perform (hreceive _))) fun r => ?_
    split
    · trivial
    · trivial
    · refine Issues.bind (Issues.ofExcept _) fun data => ?_
      refine Issues.bind (Issues.ofExcept _) fun step => ?_
      cases step with
      | next st => exact ih st
      | stop st => trivial
      | fail payload => trivial
    · trivial
    · trivial
    · trivial
    · exact ih st
    · exact ih st

theorem issues_exchangeCommand (fuel : ℕ) (c : WsCommand) (st : WsState) :
    Issues (fun c => ¬Mints c) (exchangeCommand fuel c st) := by
  have hstop : Issues (fun c => ¬Mints c) (sendStop c) := by
    unfold sendStop
    split_ifs
    · exact Issues.bind (Issues.ofExcept _) fun _ => Issues.perform id
    · trivial
  refine Issues.bind (Issues.ofExcept _) fun text => ?_
  refine Issues.bind (Issues.perform id) fun _ => ?_
  refine Issues.bind (Issues.perform id) fun start => ?_
  refine Issues.bind (issues_receiveLoop id (fun _ => id) _ _ _ _) fun st => ?_
  cases st with
  | error payload => trivial
  | ok st => exact Issues.bind hstop fun _ => Issues.bind (Issues.perform id) fun _ => trivial

/-- The conversation behind the connect does not look at the headers. -/
theorem alike_converseWs (fuel : ℕ) (c : WsCommand) (slug url : Str) {headers headers' : Headers}
    (h : CookiesAlike headers headers') :
    Alike SeenAlike (· = ·) (converseWs fuel c slug url headers)
      (converseWs fuel c slug url headers') := by
  have hresponse (st : WsState) : wsResponse c slug url headers st =
      wsResponse c slug url headers' st := by
    rw [wsResponse, wsDebug, debugHeaders_alike h, ← wsDebug, ← wsResponse]
  unfold converseWs
  simp only [hresponse]
  refine Alike.bind (alike_wsConnect _ _ _ _) fun _ _ _ => ?_
  refine alike_self (Issues.bind (issues_receiveServerInfo (fun _ => id) c slug) fun st => ?_)
  cases st with
  | error payload => trivial
  | ok st =>
    refine Issues.bind (issues_exchangeCommand fuel c st) fun st => ?_
    cases st <;> trivial

/-- A Device Builder command, route and conversation. -/
theorem alike_deviceBuilderCommand (fuel : ℕ) (hass : Hass) (slug : Option Str) (c : WsCommand) :
    Alike SeenAlike (· = ·) (deviceBuilderCommand fuel hass slug c)
      (deviceBuilderCommand fuel hass slug c) := by
  unfold deviceBuilderCommand
  refine Alike.bind (alike_resolveEsphomeAddon _) ?_
  rintro resolved _ rfl
  refine Alike.ite (.ret rfl) ?_
  cases dictGet resolved "addon" with
  | obj addon =>
    refine Alike.ite (.ret rfl) (Alike.bind (alike_routeForAddon _ _ _ _ _) ?_)
    rintro _ _ (payload | @⟨url, headers, headers', hcookies⟩)
    · exact .ret rfl
    · refine Alike.tryCatch (alike_converseWs _ _ _ _ hcookies) fun e => alike_self ?_
      unfold wsHandler
      split <;> trivial
  | _ => exact .raise _

/-! ## Native MCP calls -/

/-- A request of the native client carries the headers and returns none of them. -/
theorem alike_nativeMcpRequest (url : Str) (headers headers' : Headers) (method : Str)
    (params : Json) :
    Alike SeenAlike (· = ·) (nativeMcpRequest url headers method params)
      (nativeMcpRequest url headers' method params) := by
  unfold nativeMcpRequest
  refine Alike.bind (alike_request _ _ _ _ _ _ _ _) ?_
  rintro head _ rfl
  refine alike_self ?_
  refine Issues.ite trivial (Issues.ite trivial (Issues.ite trivial (Issues.ite trivial ?_)))
  refine Issues.bind (issues_readNative id []) fun r => ?_
  cases r with
  | error payload => trivial
  | ok raw => exact Issues.ofExcept _

/-- Page after page of the catalog. -/
theorem alike_listTools (url : Str) (headers headers' : Headers) (fuel : ℕ) (cursor : Option Str)
    (cursors : List Str) (totalSize : ℕ) (tools : List Json) :
    Alike SeenAlike (· = ·) (listTools url headers fuel cursor cursors totalSize tools)
      (listTools url headers' fuel cursor cursors totalSize tools) := by
  induction fuel generalizing cursor cursors totalSize tools with
  | zero => exact .ret rfl
  | succ fuel ih =>
    unfold listTools
    refine Alike.bind (alike_nativeMcpRequest _ _ _ _ _) ?_
    rintro (payload | page) _ rfl
    · exact .ret rfl
    simp only
    cases dictGet page "tools" with
    | arr entries =>
      simp only
      refine Alike.ite (.ret rfl) (Alike.bind (alike_self (Issues.ofExcept _)) ?_)
      rintro text _ rfl
      refine Alike.ite (.ret rfl) ?_
      cases dictGet page "nextCursor" with
      | null => exact .ret rfl
      | str next =>
        cases next with
        | nil => exact .ret rfl
        | cons c next =>
          exact Alike.ite (.ret rfl) (ih _ _ _ _)
      | _ => exact .ret rfl
    | _ => exact .ret rfl

theorem alike_useCatalog (url : Str) (headers headers' : Headers) (args : NativeArgs)
    (fields : List (String × Json)) (tools : List Json) :
    Alike SeenAlike (· = ·) (useCatalog url headers args fields tools)
      (useCatalog url headers' args fields tools) := by
  unfold useCatalog callTool
  simp only
  split_ifs
  · exact .ret rfl
  · exact .ret rfl
  · refine Alike.bind (alike_nativeMcpRequest _ _ _ _ _) ?_
    rintro (payload | result) _ rfl
    · exact .ret rfl
    · exact alike_self (Issues.ite trivial trivial)

/-- The native conversation from the handshake on. -/
theorem alike_converse (url : Str) (headers headers' : Headers) (args : NativeArgs) (addon : Dict) :
    Alike SeenAlike (· = ·) (converse url headers args addon)
      (converse url headers' args addon) := by
  unfold converse
  refine Alike.bind (alike_nativeMcpRequest _ _ _ _ _) ?_
  rintro (payload | initialized) _ rfl
  · exact .ret rfl
  simp only
  cases supportedProtocol initialized with
  | none => exact .ret rfl
  | some protocol =>
    simp only
    refine Alike.bind (alike_nativeMcpRequest _ _ _ _ _) ?_
    rintro (payload | notified) _ rfl
    · exact .ret rfl
    refine Alike.bind (alike_listTools _ _ _ _ _ _ _ _) ?_
    rintro (payload | tools) _ rfl
    · exact .ret rfl
    · exact alike_useCatalog _ _ _ _ _ _

theorem alike_nativeBody (hass : Hass) (args : NativeArgs) :
    Alike SeenAlike (· = ·) (nativeBody hass args) (nativeBody hass args) := by
  unfold nativeBody
  refine Alike.bind (alike_resolveEsphomeAddon _) ?_
  rintro resolved _ rfl
  refine Alike.ite (.ret rfl) ?_
  cases dictGet resolved "addon" with
  | obj addon =>
    refine Alike.ite (.ret rfl) (Alike.bind (alike_routeForAddon _ _ _ _ _) ?_)
    rintro _ _ (payload | @⟨url, headers, headers', -⟩)
    · exact .ret rfl
    · exact alike_converse _ _ _ _ _
  | _ => exact .raise _

/-- The native tool, with the deadline around it. -/
theorem alike_nativeDeviceBuilder (hass : Hass) (args : NativeArgs) :
    Alike SeenAlike (· = ·) (nativeDeviceBuilder hass args) (nativeDeviceBuilder hass args) := by
  unfold nativeDeviceBuilder
  refine Alike.ite (.ret rfl) (Alike.ite (.ret rfl) (Alike.ite (.ret rfl) ?_))
  refine Alike.tryCatch (alike_nativeBody hass args) fun e => alike_self ?_
  unfold nativeHandler
  split
  · exact Issues.bind (Issues.perform id) fun expired => Issues.ite trivial trivial
  · trivial
  · trivial
  · trivial

/-! ## Every call through ingress -/

/-- A call that may open an ingress session. -/
inductive IngressCall where
  | manage (args : ManageArgs)
  | command (slug : Option Str) (c : WsCommand)
  | native (args : NativeArgs)

/-- What the call runs. -/
def IngressCall.run (fuel : ℕ) (hass : Hass) : IngressCall → Coro Dict
  | .manage args => manageEsphomeAddon fuel hass args
  | .command slug c => deviceBuilderCommand fuel hass slug c
  | .native args => nativeDeviceBuilder hass args

/-- Each of the tools that go through the ingress. -/
theorem alike_run (fuel : ℕ) (hass : Hass) (call : IngressCall) :
    Alike SeenAlike (· = ·) (call.run fuel hass) (call.run fuel hass) := by
  cases call with
  | manage args => exact alike_manageEsphomeAddon fuel hass args
  | command slug c => exact alike_deviceBuilderCommand fuel hass slug c
  | native args => exact alike_nativeDeviceBuilder hass args

/-- Two runs of a call that see the same but for the session token end the same. -/
theorem run_hides_session (fuel : ℕ) (hass : Hass) (call : IngressCall) {tr tr' : List Exchange}
    {out out' : Except Err Dict} (hrun : Runs (call.run fuel hass) tr out)
    (hrun' : Runs (call.run fuel hass) tr' out') (hseen : TracesAlike SeenAlike tr tr') :
    out = out' :=
  outcomesAlike_eq_iff.mp ((alike_run fuel hass call).runs hrun hrun' hseen)

end

/-! ## Two runs of a native call -/

/-- An add-on that runs behind ingress. -/
def startedAddon : Dict :=
  [(str "slug", .lit "esphome"), (str "state", .lit "started"), (str "ingress", .bool true),
    (str "ingress_entry", .lit "/api/hassio_ingress/esphome")]

/-- A native call that gets its session and then runs into the timeout. -/
def nativeTimedOut (session : Str) : List Exchange :=
  letI := asciiRuntime
  [⟨.component, .ok .loaded⟩,
    supervisorExchange (infoEndpoint "esphome") "GET" .null (some 30)
      (.ok (supervisorAnswer (.obj startedAddon))),
    ⟨.users, .ok [⟨"admin", true, true, false⟩]⟩, ⟨.component, .ok .loaded⟩,
    supervisorExchange "/ingress/session" "POST" (.dict [("user_id", .lit "admin")]) (some 30)
      (.ok (.dict [("session", .str session)])),
    ⟨.request "POST" "http://127.0.0.1:8123/api/hassio_ingress/esphome/api/mcp"
      [(str "Cookie", str "ingress_session=" ++ session),
        (str "Accept", str "application/json, text/event-stream")]
      (.json (.obj (rpcBody "initialize" initializeParams))), .error (.exn .timeout [])⟩]

theorem runs_nativeTimedOut {session : Str} (h : session = "token" ∨ session = "other") :
    letI := asciiRuntime
    Runs (nativeDeviceBuilder ⟨none⟩ ⟨some "esphome", none, .null, false, 30⟩)
      (nativeTimedOut session) (.ok nativeTimeout) := by
  let := asciiRuntime
  have hstate : dictGet startedAddon "state" = .lit "started" := rfl
  have hlooks : looksLikeEsphomeAddon startedAddon = true := by decide
  have hbody : Runs (nativeBody ⟨none⟩ ⟨some "esphome", none, .null, false, 30⟩)
      (nativeTimedOut session) (.error (.exn .timeout [])) := by
    unfold nativeBody
    refine runs_bind_iff.mpr (.inl ⟨_, _, _,
      exists_runs_resolveEsphomeAddon_given hlooks, ?_, rfl⟩)
    simp only [isSuccess_success, Bool.not_true, Bool.false_eq_true, if_false,
      dictGet_success_cons "addon" _ _ (by decide), hstate, ne_eq, not_true_eq_false]
    refine .call _ (.call _ (.call _ ?_))
    rcases h with rfl | rfl
    · exact .call _ (.raise _)
    · exact .call _ (.raise _)
  unfold nativeDeviceBuilder
  rw [if_neg (by decide), if_neg (by decide), if_neg (by simp)]
  exact runs_tryCatch_iff.mpr (.inr ⟨_, _, _, hbody, .ret _, rfl⟩)

/-- Two tokens, and the same end. -/
theorem run_hides_session_timedOut :
    letI := asciiRuntime
    ∃ out out',
      Runs ((IngressCall.native ⟨some "esphome", none, .null, false, 30⟩).run 0 ⟨none⟩)
        (nativeTimedOut "token") out ∧
      Runs ((IngressCall.native ⟨some "esphome", none, .null, false, 30⟩).run 0 ⟨none⟩)
        (nativeTimedOut "other") out' ∧
      nativeTimedOut "token" ≠ nativeTimedOut "other" ∧ out = out' := by
  let := asciiRuntime
  have htoken : HasToken (.dict [("session", .lit "token")]) := ⟨"token", by decide, rfl⟩
  have hother : HasToken (.dict [("session", .lit "other")]) := ⟨"other", by decide, rfl⟩
  have hseen : TracesAlike SeenAlike (nativeTimedOut "token") (nativeTimedOut "other") :=
    ⟨rfl, .inl rfl, rfl, rfl, .inr ⟨⟨rfl, rfl⟩, _, _, rfl, rfl, htoken, hother⟩, rfl, trivial⟩
  have hne : nativeTimedOut "token" ≠ nativeTimedOut "other" := by
    intro h
    injection (List.cons.inj (List.cons.inj (List.cons.inj (List.cons.inj (List.cons.inj
      h).2).2).2).2).1 with _ hanswer
    injection congrArg (Json.get · "session") (Except.ok.inj hanswer) with htokens
    exact absurd (str_inj.mp htokens) (by decide)
  exact ⟨_, _, runs_nativeTimedOut (.inl rfl), runs_nativeTimedOut (.inr rfl), hne,
    run_hides_session 0 ⟨none⟩ (.native ⟨some "esphome", none, .null, false, 30⟩)
      (runs_nativeTimedOut (.inl rfl)) (runs_nativeTimedOut (.inr rfl)) hseen⟩

end EsphomeMcp.Addon
