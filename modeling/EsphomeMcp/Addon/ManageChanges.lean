import EsphomeMcp.Addon.Changes

/-!
# What `manage_esphome_addon` changes

The change is built from the arguments and from what was answered before it. An action and an options
update are posted for the slug that the arguments and the metadata make (`Target`). A proxied call
takes the route to that add-on, and a route through ingress the session that was opened for it.

* `ManageArgs.Asks` is the one change that a call is made for.
* `changesAfter_manageEsphomeAddon` says that every run makes that change or none.
-/

namespace EsphomeMcp.Addon

open Py Py.Prog

section

variable [Runtime]

/-! ## Definitions -/

/-- The Supervisor opened the ingress session. -/
def Opened (session : Str) (tr : List Exchange) : Prop :=
  ∃ data timeout j, supervisorExchange "/ingress/session" "POST" data timeout (.ok j) ∈ tr ∧
    (normalizeSupervisorPayload j).get "session" = .str session

/-- The route to a path of the add-on: its own address with the port that is given, or ingress with a
session that was opened. -/
inductive IsRoute (hass : Hass) (addon : Dict) (path : Str) (websocket : Bool)
    (tr : List Exchange) : Option ℤ → Str → Headers → Prop
  | direct (port : ℤ) : IsRoute hass addon path websocket tr (some port)
      ((if websocket then str "ws" else str "http") ++ str "://" ++
        strOf (dictGet addon "ip_address") ++ str ":" ++ intRepr port ++ str "/" ++ path) []
  | ingress {session : Str} : Opened session tr → IsRoute hass addon path websocket tr none
      (ingressBase hass websocket ++ strOf (dictGet addon "ingress_entry") ++ str "/" ++ path)
      [(str "Cookie", str "ingress_session=" ++ session)]

/-- The path of a proxied call. -/
def ManageArgs.callPath (args : ManageArgs) : Str :=
  match args.path with
  | some (c :: p) => c :: p
  | _ => str "/devices"

/-- The arguments of a proxied request. -/
def ManageArgs.httpArgs (args : ManageArgs) : HttpArgs :=
  ⟨args.callPath, args.method, args.body, args.port, args.debug, args.requestHeaders⟩

/-- The proxied call: the body over a WebSocket that was opened along the route, or one request. -/
def ManageArgs.Proxies (args : ManageArgs) (hass : Hass) (addon : Dict) (tr : List Exchange)
    (c : Cmd) : Prop :=
  ∃ path url headers, normalizePath args.callPath = some path ∧
    IsRoute hass addon path args.websocket tr args.port url headers ∧
    if args.websocket then (⟨.wsConnect url headers, .ok ()⟩ : Exchange) ∈ tr ∧
      ∃ text, outboundText args.body = .ok text ∧ c = .sendStr text
    else c = .request (upper args.method) url (httpPayload args.httpArgs headers).1
      (httpPayload args.httpArgs headers).2

/-- What the arguments ask for on the add-on with that record and slug: the action's POST, the POST of
the configuration they make, or the proxied call. -/
def ManageArgs.AsksOf (args : ManageArgs) (hass : Hass) (addon : Dict) (slug : Str)
    (tr : List Exchange) (c : Cmd) : Prop :=
  match args.action with
  | some action => ∃ e, findAction (actionKey (actionKey action)) = some e ∧
      c = .sendCommand (e.format slug) (lower (str "POST")) .null (some e.timeout)
  | none =>
    if buildConfigPayload args.config ≠ [] then
      ∃ submitted, submittedConfig addon (buildConfigPayload args.config) = .ok submitted ∧
        c = .sendCommand (optionsEndpoint slug) (lower (str "POST")) (.obj submitted.1) (some 30)
    else args.Proxies hass addon tr c

/-- The change `manage_esphome_addon` is called for, on the add-on that the metadata read first
names. -/
def ManageArgs.Asks (args : ManageArgs) (hass : Hass) (tr : List Exchange) (c : Cmd) : Prop :=
  ∃ records addon slug, records <+: metadata tr ∧ Target args records addon slug ∧
    args.AsksOf hass addon slug tr c

/-! ## Supervisor posts -/

/-- A call of the Supervisor is one command. -/
theorem changesOnce_supervisorApiCall {Q : Cmd → Prop} (endpoint method : Str) (data : Json)
    (timeout : Option ℤ) (hQ : Q (.sendCommand endpoint (lower method) data timeout)) :
    ChangesOnce Q (supervisorApiCall endpoint method data timeout) := by
  refine Once.bind_right (Issues.perform id) fun component => ?_
  cases component with
  | notImportable => trivial
  | notLoaded => trivial
  | loaded =>
    refine Once.bind_left (Once.attempt (Once.perform fun _ => hQ)) fun r => ?_
    split
    · trivial
    · trivial
    · exact Issues.ite trivial trivial

/-- An action changes at most what its endpoint stands for. -/
theorem changesOnce_executeAction {Q : Cmd → Prop} (slug action : Str)
    (hQ : ∀ e, findAction (actionKey action) = some e →
      Q (.sendCommand (e.format slug) (lower (str "POST")) .null (some e.timeout))) :
    ChangesOnce Q (executeAction slug action) := by
  unfold executeAction
  cases hfind : findAction (actionKey action) with
  | none =>
    simp only [hfind]
    trivial
  | some e =>
    simp only [hfind]
    refine Once.bind_left (changesOnce_supervisorApiCall _ _ _ _ (hQ e hfind)) fun result => ?_
    exact Issues.ite trivial trivial

/-- An options update changes at most the options, to what is made of the configuration. -/
theorem changesOnce_executeConfigUpdate {Q : Cmd → Prop} (slug : Str) (addon config : Dict)
    (hQ : ∀ submitted, submittedConfig addon config = .ok submitted →
      Q (.sendCommand (optionsEndpoint slug) (lower (str "POST")) (.obj submitted.1) (some 30))) :
    ChangesOnce Q (executeConfigUpdate slug addon config) := by
  refine Once.ofExcept_bind fun submitted hsubmitted => ?_
  refine Once.bind_left (changesOnce_supervisorApiCall _ _ _ _ (hQ _ hsubmitted)) fun result => ?_
  exact Issues.ite trivial trivial

/-! ## Routes -/

/-- A session token is the one in the Supervisor's answer. -/
theorem opened_of_runs {tr : List Exchange} {session : Str}
    (h : Runs createIngressSession tr (.ok (success [("session", .str session)]))) :
    Opened session tr := by
  have hfailed {p : Dict} {tr : List Exchange} (hp : isSuccess p = false)
      (hr : Runs (ret p : Coro Dict) tr (.ok (success [("session", .str session)]))) : False := by
    have hsame := Except.ok.inj (runs_ret_iff.mp hr).2
    rw [← hsame, isSuccess_success] at hp
    cases hp
  rcases runs_bind_iff.mp h with ⟨user, tr₁, tr₂, -, h₂, rfl⟩ | ⟨e, -, he⟩
  swap
  · cases he
  cases user with
  | none => exact (hfailed (isSuccess_error _ _ _) h₂).elim
  | some userId =>
    rcases runs_bind_iff.mp h₂ with ⟨response, tr₃, tr₄, h₃, h₄, rfl⟩ | ⟨e, -, he⟩
    swap
    · cases he
    split_ifs at h₄ with hresponse
    · exact (hfailed (by simpa using hresponse) h₄).elim
    rcases runs_supervisorApiCall h₃ with ⟨r, -, hfail⟩ | ⟨e, -, hfail⟩ | ⟨j, rfl, hok⟩
    · exact (hresponse (by simpa [IsFailure] using hfail)).elim
    · exact (hresponse (by simpa [IsFailure] using hfail)).elim
    obtain rfl := Except.ok.inj hok
    split at h₄
    · next c s hsession =>
      have hsame := Except.ok.inj (runs_ret_iff.mp h₄).2
      have htoken := congrArg (dictGet · "session") hsame
      simp only [dictGet_success_cons "session" _ _ (by decide), Json.str.injEq] at htoken
      rw [dictGet_success_cons "result" _ _ (by decide)] at hsession
      rw [htoken]
      refine ⟨.dict [("user_id", .str userId)], some 30, j, ?_, hsession⟩
      refine List.mem_append_right _ (List.mem_append_left _ ?_)
      exact List.mem_cons_of_mem _ (List.mem_singleton_self _)
    · exact (hfailed (isSuccess_error _ _ _) h₄).elim

/-- What a run of `route_for_addon` returned is the route of what it read. -/
theorem isRoute_of_runs {hass : Hass} {addon : Dict} {path : Str} {port : Option ℤ}
    {websocket : Bool} {tr : List Exchange} {url : Str} {headers : Headers}
    (h : Runs (routeForAddon hass addon path port websocket) tr (.ok (.ok (url, headers)))) :
    IsRoute hass addon path websocket tr port url headers := by
  cases port with
  | some port =>
    have hdirect : IsRoute hass addon path websocket tr (some port) _ _ := .direct port
    unfold routeForAddon at h
    simp only at h
    split_ifs at h with hip hws
    · cases (runs_ret_iff.mp h).2
    all_goals
      cases (runs_ret_iff.mp h).2
      simpa [hws] using hdirect
  | none =>
    obtain rfl := runs_routeForAddon h
    obtain ⟨session, hsession, rfl⟩ := runs_routeForAddon_session h
    exact .ingress (opened_of_runs hsession)

/-- A session that was minted stays one however the run goes on. -/
theorem Opened.mono {session : Str} {tr tr' : List Exchange} (h : Opened session tr)
    (hsub : tr ⊆ tr') : Opened session tr' := by
  obtain ⟨data, timeout, j, hmem, hsession⟩ := h
  exact ⟨data, timeout, j, hsub hmem, hsession⟩

theorem IsRoute.mono {hass : Hass} {addon : Dict} {path : Str} {port : Option ℤ} {websocket : Bool}
    {tr tr' : List Exchange} {url : Str} {headers : Headers}
    (h : IsRoute hass addon path websocket tr port url headers) (hsub : tr ⊆ tr') :
    IsRoute hass addon path websocket tr' port url headers := by
  cases h with
  | direct port => exact .direct port
  | ingress hopened => exact .ingress (hopened.mono hsub)

/-! ## Proxied calls -/

/-- A proxied request changes at most by itself, along the route that led there. -/
theorem changesAfter_callAddonHttp {R : List Exchange → Cmd → Prop} {past : List Exchange}
    (hass : Hass) (addon : Dict) (slug : Str) (args : HttpArgs)
    (hR : ∀ path tr url headers, normalizePath args.path = some path →
      IsRoute hass addon path false tr args.port url headers →
      R (past ++ tr) (.request (upper args.method) url (httpPayload args headers).1
        (httpPayload args headers).2)) :
    ChangesAfter R past (callAddonHttp hass addon slug args) := by
  unfold callAddonHttp
  cases hpath : normalizePath args.path with
  | none => trivial
  | some path =>
    refine OnceAfter.bind (changesNothing_routeForAddon _ _ _ _ _) fun route tr htr => ?_
    cases route with
    | error payload => trivial
    | ok route =>
      obtain ⟨url, headers⟩ := route
      have hasked := hR path tr url headers hpath (isRoute_of_runs htr)
      refine OnceAfter.tryCatch (OnceAfter.bind_left (OnceAfter.perform fun _ => hasked) ?_) ?_
      · intro head
        refine Issues.bind (Issues.perform id) fun raw => ?_
        refine Issues.bind (Issues.ofExcept _) fun parsed => ?_
        exact Issues.bind (Issues.ofExcept _) fun data => trivial
      · intro e
        split <;> trivial

/-- Sending the body changes at most by the text it is sent as. -/
theorem changesOnce_sendBody {Q : Cmd → Prop} (body : Json)
    (hQ : ∀ text, outboundText body = .ok text → Q (.sendStr text)) :
    ChangesOnce Q (sendBody body) := by
  unfold sendBody
  refine Once.ite trivial ?_
  exact Once.ofExcept_bind fun text htext => Once.perform fun _ => hQ text htext

/-- A proxied conversation changes at most by its first message, behind the connect. -/
theorem changesAfter_callAddonWs {R : List Exchange → Cmd → Prop} {past : List Exchange} (fuel : ℕ)
    (hass : Hass) (addon : Dict) (slug : Str) (args : WsArgs)
    (hR : ∀ path tr url headers text tr', normalizePath args.path = some path →
      IsRoute hass addon path true tr args.port url headers → outboundText args.body = .ok text →
      R (past ++ tr ++ [⟨.wsConnect url headers, .ok ()⟩] ++ tr') (.sendStr text)) :
    ChangesAfter R past (callAddonWs fuel hass addon slug args) := by
  unfold callAddonWs
  cases hpath : normalizePath args.path with
  | none => trivial
  | some path =>
    refine OnceAfter.bind (changesNothing_routeForAddon _ _ _ _ _) fun route tr htr => ?_
    cases route with
    | error payload => trivial
    | ok route =>
      obtain ⟨url, headers⟩ := route
      refine OnceAfter.tryCatch (OnceAfter.bind_left ?_ fun _ => trivial) ?_
      · refine OnceAfter.bind (Issues.perform id) fun u tr' htr' => ?_
        obtain rfl := runs_await_iff.mp htr'
        refine OnceAfter.bind_left ?_ fun _ => ?_
        · refine (changesOnce_sendBody (Q := fun c => ∃ text, outboundText args.body = .ok text ∧
            c = .sendStr text) args.body fun text htext => ⟨text, htext, rfl⟩).after ?_
          intro tr' c hc
          obtain ⟨text, htext, rfl⟩ := hc
          exact hR path tr url headers text tr' hpath (isRoute_of_runs htr) htext
        · refine Issues.bind (Issues.perform id) fun start => ?_
          exact issues_collectWs id (fun _ => id) _ _ _ _ _
      · intro e
        split <;> trivial

/-! ## The tool -/

omit [Runtime] in
theorem prefix_metadata_append (tr tr' : List Exchange) :
    metadata tr <+: metadata (tr ++ tr') := by
  rw [metadata_append]
  exact List.prefix_append _ _

/-- A proxied call makes no other change than the one it is called for. -/
theorem changesAfter_manageCall (fuel : ℕ) (hass : Hass) (args : ManageArgs) (slug : Str)
    (addon : Dict) (tr : List Exchange) :
    ChangesAfter (args.Proxies hass addon) tr (manageCall fuel hass args slug addon) := by
  unfold manageCall
  simp only
  split_ifs with hstate hmethod hws hlimit
  · trivial
  · refine changesAfter_callAddonWs _ _ _ _ _ ?_
    intro path tr' url headers text tr'' hpath hroute htext
    refine ⟨path, url, headers, hpath, ?_, ?_⟩
    · rw [hws]
      exact hroute.mono fun ev hev => by simp [hev]
    · rw [if_pos hws]
      exact ⟨by simp, text, htext, rfl⟩
  · trivial
  · refine changesAfter_callAddonHttp _ _ _ _ ?_
    intro path tr' url headers hpath hroute
    refine ⟨path, url, headers, hpath, ?_, ?_⟩
    · rw [Bool.not_eq_true] at hws
      rw [hws]
      exact hroute.mono (List.subset_append_right _ _)
    · rw [if_neg hws]
      rfl
  · trivial

/-- Whatever the Supervisor and the add-on answer, `manage_esphome_addon` makes no other change than
the one it is called for. -/
theorem changesAfter_manageEsphomeAddon (fuel : ℕ) (hass : Hass) (args : ManageArgs) :
    ChangesAfter (args.Asks hass) [] (manageEsphomeAddon fuel hass args) := by
  -- an action, for the add-on that was resolved before it
  have haction {action slug : Str} {addon : Dict} {past : List Exchange}
      (ha : args.action = some action) (htarget : Target args (metadata past) addon slug) :
      ChangesAfter (args.Asks hass) past (executeAction slug (actionKey action)) := by
    refine (changesOnce_executeAction (Q := fun c => ∃ e,
      findAction (actionKey (actionKey action)) = some e ∧
      c = .sendCommand (e.format slug) (lower (str "POST")) .null (some e.timeout)) slug _
      fun e he => ⟨e, he, rfl⟩).after ?_
    intro tr c hc
    refine ⟨_, addon, slug, prefix_metadata_append past tr, htarget, ?_⟩
    rw [ManageArgs.AsksOf, ha]
    exact hc
  unfold manageEsphomeAddon
  cases hinstall : args.installSlug with
  | some slug =>
    have hkey : args.action.map actionKey = some (str "install") := by
      unfold ManageArgs.installSlug at hinstall
      split_ifs at hinstall with hkey
      exact hkey
    obtain ⟨action, ha, hkey⟩ := Option.map_eq_some_iff.mp hkey
    simp only
    split_ifs with hcombined hlook
    · trivial
    · have htarget : Target args (metadata []) [] slug := .install slug hinstall hlook
      have hexecute := haction ha htarget
      rwa [hkey] at hexecute
    · trivial
  | none =>
    refine OnceAfter.bind (changesNothing_resolveEsphomeAddon _) fun resolved tr htr => ?_
    rw [List.nil_append]
    by_cases hsuccess : isSuccess resolved = true
    swap
    · simp only [hsuccess, Bool.not_false, if_true]
      trivial
    obtain ⟨addon, rfl, htarget⟩ := target_of_runs_resolve hinstall htr hsuccess
    simp only [isSuccess_success, Bool.not_true, Bool.false_eq_true, if_false,
      dictGet_success_cons "addon" _ _ (by decide)]
    cases ha : args.action with
    | some action => exact OnceAfter.ite trivial (haction ha htarget)
    | none =>
      simp only [Option.map_none]
      by_cases hconfig : buildConfigPayload args.config = []
      · rw [if_neg (not_not.mpr hconfig)]
        refine (changesAfter_manageCall fuel hass args _ addon tr).mono fun tr' c hc => ?_
        refine ⟨_, addon, _, prefix_metadata_append tr tr', htarget, ?_⟩
        rw [ManageArgs.AsksOf, ha]
        simp only [if_neg (not_not.mpr hconfig)]
        exact hc
      · rw [if_pos hconfig]
        refine OnceAfter.ite trivial ?_
        refine (changesOnce_executeConfigUpdate (Q := fun c => ∃ submitted,
          submittedConfig addon (buildConfigPayload args.config) = .ok submitted ∧
          c = .sendCommand (optionsEndpoint (resolvedSlug args addon)) (lower (str "POST"))
            (.obj submitted.1) (some 30)) _ _ _ fun submitted h => ⟨submitted, h, rfl⟩).after ?_
        intro tr' c hc
        refine ⟨_, addon, _, prefix_metadata_append tr tr', htarget, ?_⟩
        rw [ManageArgs.AsksOf, ha]
        simp only [if_pos hconfig]
        exact hc

end

end EsphomeMcp.Addon
