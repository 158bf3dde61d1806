import EsphomeMcp.Addon.CommandWire
import EsphomeMcp.Addon.NativeCalls

/-!
# When a config is read over the WebSocket

`read_device_builder_config` asks the native endpoint first and goes on to the WebSocket command
on two error codes only. The codes are strings: every other way a native run can fail has another
one, and the two stand for an endpoint that is not there and for a complete catalog without the
tool (`LacksCapability`). What the WebSocket command is on the wire is `IssuesCommand`.
-/

namespace EsphomeMcp.Addon

open Py Py.Prog

/-! ## Definitions -/

/-- The arguments of the native read of a config. -/
def getConfigArgs (slug : Option Str) (configuration : Str) (timeout : ℤ) : NativeArgs :=
  ⟨slug, some "get_config", .dict [("configuration", .str configuration)], true, timeout⟩

/-- One of the two error codes behind which the WebSocket command is tried. -/
def HasFallbackCode (payload : Dict) : Prop :=
  dictGet payload "error_code" = .lit "native_mcp_unavailable" ∨
    dictGet payload "error_code" = .lit "native_tool_unavailable"

section

variable [Runtime]

/-- The arguments passed their checks, and the exchanges `tr` found the running add-on and a route
to its native endpoint. -/
def Opens (hass : Hass) (args : NativeArgs) (url : Str) (headers : Headers)
    (tr : List Exchange) : Prop :=
  (1 ≤ args.timeout ∧ args.timeout ≤ 1800) ∧
  ¬(args.call ∧ args.tool.all fun tool => strip tool = []) ∧
  ¬(args.arguments ≠ .null ∧ !args.arguments.isDict) ∧
  ∃ resolved addon trResolve trRoute plain,
    Runs (resolveEsphomeAddon args.slug) trResolve (.ok resolved) ∧ isSuccess resolved = true ∧
    dictGet resolved "addon" = .obj addon ∧ dictGet addon "state" = .lit "started" ∧
    Runs (routeForAddon hass addon "api/mcp" none false) trRoute (.ok (.ok (url, plain))) ∧
    headers = dictSet "Accept" (str "application/json, text/event-stream") plain ∧
    tr = trResolve ++ trRoute

/-- The exchanges of a native run that found the capability missing. -/
inductive LacksCapability (hass : Hass) (args : NativeArgs) : List Exchange → Prop
  /-- `initialize` was answered with 404 or 405. -/
  | endpoint {url : Str} {headers : Headers} {lead : List Exchange} {head : HttpHead}
      (hopens : Opens hass args url headers lead) (hstatus : head.status = 404 ∨ head.status = 405) :
      LacksCapability hass args
        (lead ++ [rpcRequest url headers "initialize" initializeParams (.ok head)])
  /-- A complete catalog came in, and the tool is not in it. -/
  | tool {url protocol : Str} {headers : Headers} {lead trInit trNote trList : List Exchange}
      {initialized reply : Dict} {tools : List Json} (hopens : Opens hass args url headers lead)
      (hinit : Runs (nativeMcpRequest url headers "initialize" initializeParams) trInit
        (.ok (.ok initialized)))
      (hprotocol : supportedProtocol initialized = some protocol)
      (hnote : Runs (nativeMcpRequest url (dictSet "MCP-Protocol-Version" protocol headers)
        "notifications/initialized" (.obj [])) trNote (.ok (.ok reply)))
      (hlist : Runs (listTools url (dictSet "MCP-Protocol-Version" protocol headers) 20 none [] 0 [])
        trList (.ok (.ok tools)))
      (htool : args.tool.isSome = true) (hmissing : selectTools args.tool tools = []) :
      LacksCapability hass args (lead ++ (trInit ++ (trNote ++ trList)))

/-- The text of the command `devices/get_config`. -/
def getConfigText (configuration : Str) : Str :=
  dumpsText .spaced (.dict [("command", .lit "devices/get_config"), ("message_id", .str commandId),
    ("args", .dict [("configuration", .str configuration)])])

/-- The command goes on the wire behind the exchanges `lead`: none, or those of the native run. -/
structure IssuesBehind (hass : Hass) (slug : Option Str) (configuration : Str) (timeout : ℤ)
    (lead tr : List Exchange) : Prop where
  before : if isNativeConfiguration configuration then
      ∃ native, Runs (nativeDeviceBuilder hass (getConfigArgs slug configuration timeout)) lead
        (.ok native)
    else lead = []
  behind : ∃ rest, tr = lead ++ rest ∧
    IssuesCommand hass slug timeout (getConfigText configuration) rest

/-- What a run of `read_device_builder_config` does about the two routes. -/
structure ReadRun (hass : Hass) (slug : Option Str) (configuration : Str) (timeout : ℤ)
    (tr : List Exchange) (out : Except Err Dict) : Prop where
  /-- The command is issued for other names, and where the native run found nothing to call. -/
  issues : (∃ lead, IssuesBehind hass slug configuration timeout lead tr) ↔
    isNativeConfiguration configuration = false ∨
      ∃ lead, lead <+: tr ∧ LacksCapability hass (getConfigArgs slug configuration timeout) lead
  /-- Nothing else opens a WebSocket or sends a text. -/
  only : ∀ ev ∈ tr, isWs ev = true → ∃ lead rest, tr = lead ++ rest ∧ ev ∈ rest ∧
    IssuesBehind hass slug configuration timeout lead tr
  /-- Behind a native run it is issued only right behind the missing capability. -/
  absent : isNativeConfiguration configuration = true →
    ∀ lead, IssuesBehind hass slug configuration timeout lead tr →
      LacksCapability hass (getConfigArgs slug configuration timeout) lead
  /-- No tool call was sent before it. -/
  uncalled : ∀ lead, IssuesBehind hass slug configuration timeout lead tr →
    str "tools/call" ∉ rpcMethods lead
  /-- Any other failure of the native run ends the read, and is its outcome. -/
  unchanged : isNativeConfiguration configuration = true → ∀ lead native,
    Runs (nativeDeviceBuilder hass (getConfigArgs slug configuration timeout)) lead native →
      lead <+: tr → IsFailure native →
      ¬LacksCapability hass (getConfigArgs slug configuration timeout) lead →
      tr = lead ∧ out = native

end

/-! ## Error codes -/

/-- Two error codes send the caller to the other way of reading. -/
theorem hasFallbackCode_error {message code : Str} {extra : List (String × Json)} :
    HasFallbackCode (error message code extra) ↔
      code = str "native_mcp_unavailable" ∨ code = str "native_tool_unavailable" := by
  simp [HasFallbackCode, Json.lit, error, dictGet, dictGet?_cons]

/-- A payload that is no reason to try the WebSocket command. -/
def IsConclusive (out : Except Err Dict) : Prop := ∀ d, out = .ok d → ¬HasFallbackCode d

/-- A helper none of whose replies is a reason to try the WebSocket command. -/
def Conclusive (p : Coro Dict) : Prop := Spec p fun _ out => IsConclusive out

/-- A payload without such a code may be returned. -/
theorem Conclusive.ret {d : Dict} (h : ¬HasFallbackCode d) : Conclusive (ret d) := by
  refine spec_ret_iff.mpr fun d' hd => ?_
  cases hd
  exact h

theorem Conclusive.raise (e : Err) : Conclusive (raise e) :=
  spec_raise_iff.mpr fun _ hd => nomatch hd

theorem Conclusive.error {code : Str} (message : Str) (extra : List (String × Json))
    (h : code ≠ str "native_mcp_unavailable" ∧ code ≠ str "native_tool_unavailable") :
    Conclusive (Prog.ret (error message code extra)) :=
  .ret fun hcode => (hasFallbackCode_error.mp hcode).elim h.1 h.2

theorem Conclusive.success {fields : List (String × Json)}
    (h : dictGet (success fields) "error_code" = .null) : Conclusive (Prog.ret (success fields)) := by
  refine .ret fun hcode => ?_
  rw [HasFallbackCode, h] at hcode
  rcases hcode with hcode | hcode <;> cases hcode

/-- What comes before does not matter, only what is returned in the end. -/
theorem Conclusive.bind {α : Type} {p : Coro α} {f : α → Coro Dict} (h : ∀ a, Conclusive (f a)) :
    Conclusive (Prog.bind p f) := by
  refine Spec.bind (Q := fun _ _ => True) (fun _ _ _ => trivial) (fun a tr _ => ?_)
    (fun e tr _ d hd => nomatch hd)
  exact (h a).mono fun _ _ hout => hout

/-- A reply that is passed on is the reply of the helper. -/
theorem Conclusive.bind_reply {p : Coro Dict} {f : Dict → Coro Dict} (hp : Conclusive p)
    (h : ∀ d, ¬HasFallbackCode d → Conclusive (f d)) : Conclusive (Prog.bind p f) := by
  refine Spec.bind hp (fun d tr hd => ?_) (fun e tr _ d hd => nomatch hd)
  exact (h d (hd d rfl)).mono fun _ _ hout => hout

section

variable [Runtime]

theorem conclusive_supervisorApiCall (endpoint method : Str) (data : Json) (timeout : Option ℤ) :
    Conclusive (supervisorApiCall endpoint method data timeout) := by
  refine Conclusive.bind fun c => ?_
  cases c with
  | notImportable => exact Conclusive.error _ _ (by decide)
  | notLoaded => exact Conclusive.error _ _ (by decide)
  | loaded =>
    refine Conclusive.bind fun r => ?_
    split
    · exact Conclusive.success (by simp [success, dictGet, dictGet?_cons])
    · exact Conclusive.error _ _ (by decide)
    · split_ifs
      · exact Conclusive.error _ _ (by decide)
      · exact Conclusive.raise _

theorem conclusive_getAddonInfo (slug : Str) : Conclusive (getAddonInfo slug) := by
  refine Conclusive.bind_reply (conclusive_supervisorApiCall _ _ _ _) fun response hresponse => ?_
  split_ifs
  · exact Conclusive.ret hresponse
  · split
    · exact Conclusive.success (by simp [success, dictGet, dictGet?_cons])
    · exact Conclusive.error _ _ (by decide)

theorem conclusive_listAddons : Conclusive listAddons := by
  refine Conclusive.bind_reply (conclusive_supervisorApiCall _ _ _ _) fun response hresponse => ?_
  split_ifs
  · exact Conclusive.ret hresponse
  · split
    · exact Conclusive.success (by simp [success, dictGet, dictGet?_cons])
    · exact Conclusive.error _ _ (by decide)

/-- No payload of resolving the add-on has one. -/
theorem conclusive_resolveEsphomeAddon (slug : Option Str) : Conclusive (resolveEsphomeAddon slug) := by
  unfold resolveEsphomeAddon
  split
  · refine Conclusive.bind_reply (conclusive_getAddonInfo _) fun info hinfo => ?_
    split_ifs
    · exact Conclusive.ret hinfo
    · refine Conclusive.bind fun found => ?_
      split_ifs
      · exact Conclusive.ret hinfo
      · exact Conclusive.error _ _ (by decide)
  · refine Conclusive.bind_reply conclusive_listAddons fun listed hlisted => ?_
    split_ifs
    · exact Conclusive.ret hlisted
    · split
      · refine Conclusive.bind fun found => ?_
        split
        · exact Conclusive.error _ _ (by decide)
        · split
          · exact conclusive_getAddonInfo _
          · exact Conclusive.raise _
        · exact Conclusive.error _ _ (by decide)
      · exact Conclusive.raise _

theorem conclusive_createIngressSession : Conclusive createIngressSession := by
  refine Conclusive.bind fun userId => ?_
  split
  · exact Conclusive.error _ _ (by decide)
  · refine Conclusive.bind_reply (conclusive_supervisorApiCall _ _ _ _) fun response hresponse => ?_
    split_ifs
    · exact Conclusive.ret hresponse
    · split
      · exact Conclusive.success (by simp [success, dictGet, dictGet?_cons])
      · exact Conclusive.error _ _ (by decide)

/-- A helper none of whose error payloads is a reason to try the WebSocket command. -/
def ConclusiveErrors {α : Type} (p : Coro (Except Dict α)) : Prop :=
  Spec p fun _ out => ∀ payload, out = .ok (.error payload) → ¬HasFallbackCode payload

omit [Runtime] in
/-- The same of the errors that are returned in place of a value. -/
theorem ConclusiveErrors.bind {α β : Type} {p : Coro α} {f : α → Coro (Except Dict β)}
    (h : ∀ a, ConclusiveErrors (f a)) : ConclusiveErrors (Prog.bind p f) := by
  refine Spec.bind (Q := fun _ _ => True) (fun _ _ _ => trivial) (fun a tr _ => ?_)
    (fun e tr _ d hd => nomatch hd)
  exact (h a).mono fun _ _ hout => hout

omit [Runtime] in
/-- An error payload that is passed on is the one of the helper. -/
theorem ConclusiveErrors.bind_result {α β : Type} {p : Coro (Except Dict α)}
    {f : Except Dict α → Coro (Except Dict β)} (hp : ConclusiveErrors p)
    (h : ∀ r, (∀ payload, r = .error payload → ¬HasFallbackCode payload) → ConclusiveErrors (f r)) :
    ConclusiveErrors (Prog.bind p f) := by
  refine Spec.bind hp (fun r tr hr => ?_) (fun e tr _ d hd => nomatch hd)
  exact (h r fun payload hpayload => hr payload (congrArg Except.ok hpayload)).mono
    fun _ _ hout => hout

omit [Runtime] in
theorem ConclusiveErrors.ret {α : Type} {payload : Dict} (h : ¬HasFallbackCode payload) :
    ConclusiveErrors (Prog.ret (.error payload) : Coro (Except Dict α)) := by
  refine spec_ret_iff.mpr fun d' hd => ?_
  cases hd
  exact h

omit [Runtime] in
theorem ConclusiveErrors.error {α : Type} {code : Str} (message : Str) (extra : List (String × Json))
    (h : code ≠ str "native_mcp_unavailable" ∧ code ≠ str "native_tool_unavailable") :
    ConclusiveErrors (Prog.ret (.error (Addon.error message code extra)) : Coro (Except Dict α)) :=
  .ret fun hcode => (hasFallbackCode_error.mp hcode).elim h.1 h.2

omit [Runtime] in
theorem ConclusiveErrors.ok {α : Type} (a : α) :
    ConclusiveErrors (Prog.ret (.ok a) : Coro (Except Dict α)) :=
  spec_ret_iff.mpr fun _ hd => nomatch hd

/-- No route fails with one. -/
theorem conclusive_routeForAddon (hass : Hass) (addon : Dict) (path : Str) (port : Option ℤ)
    (websocket : Bool) : ConclusiveErrors (routeForAddon hass addon path port websocket) := by
  unfold routeForAddon
  cases port with
  | some port =>
    dsimp only
    split_ifs
    · exact ConclusiveErrors.error _ _ (by decide)
    all_goals exact ConclusiveErrors.ok _
  | none =>
    dsimp only
    split_ifs
    · exact ConclusiveErrors.error _ _ (by decide)
    · exact ConclusiveErrors.error _ _ (by decide)
    all_goals
      refine Spec.bind conclusive_createIngressSession (fun session tr hsession => ?_)
        (fun e tr _ d hd => nomatch hd)
      split_ifs
      · exact ConclusiveErrors.ret (hsession session rfl)
      · exact ConclusiveErrors.ok _

/-! ## Requests -/

omit [Runtime] in
/-- No answer that is read has one. -/
theorem conclusive_readNative (raw : Bytes) : ConclusiveErrors (readNative raw) := by
  induction raw using readNative.induct with
  | case1 raw ih =>
    rw [readNative]
    intro tr out h
    obtain ⟨r, tr', rfl, hr⟩ := runs_call_iff.mp h
    rcases r with e | chunk
    · obtain ⟨-, rfl⟩ := runs_raise_iff.mp hr
      intro d hd
      cases hd
    cases chunk with
    | nil =>
      obtain ⟨-, rfl⟩ := runs_ret_iff.mp hr
      intro d hd
      cases hd
    | cons b chunk =>
      simp only at hr
      split_ifs at hr with hsize
      · exact ConclusiveErrors.error _ _ (by decide) _ _ hr
      · exact ih b chunk hsize _ _ hr

/-- What a complete body says is never a reason to try the WebSocket command. -/
theorem nativeResult_conclusive {body payload : Dict} {raw : Bytes}
    (h : nativeResult body raw = .ok (.error payload)) : ¬HasFallbackCode payload := by
  have hother : ∀ {message code : Str} {extra : List (String × Json)},
      code ≠ str "native_mcp_unavailable" ∧ code ≠ str "native_tool_unavailable" →
      (Except.ok (.error (error message code extra)) : Except Err (Except Dict Dict)) =
        .ok (.error payload) → ¬HasFallbackCode payload := by
    intro message code extra hcode he
    cases he
    exact fun hc => (hasFallbackCode_error.mp hc).elim hcode.1 hcode.2
  unfold nativeResult at h
  split at h
  · exact hother (by decide) h
  · cases h
  · split_ifs at h
    · exact hother (by decide) h
    · exact hother (by decide) h
    · split at h
      · cases h
      · exact hother (by decide) h
  · exact hother (by decide) h

/-- A request is a reason to try the WebSocket command only when it is `initialize` and was
answered with 404 or 405, and then nothing else was exchanged. -/
theorem runs_nativeMcpRequest_fallback {url : Str} {headers : Headers} {method : Str}
    {params : Json} {tr : List Exchange} {payload : Dict}
    (h : Runs (nativeMcpRequest url headers method params) tr (.ok (.error payload)))
    (hcode : HasFallbackCode payload) :
    method = str "initialize" ∧ ∃ head : HttpHead, (head.status = 404 ∨ head.status = 405) ∧
      tr = [rpcRequest url headers method params (.ok head)] := by
  unfold nativeMcpRequest at h
  rcases runs_bind_iff.mp h with ⟨head, tr₁, tr₂, h₁, h₂, rfl⟩ | ⟨e, -, he⟩
  · obtain rfl := runs_await_iff.mp h₁
    split_ifs at h₂ with hmissing hnote hstatus hjson
    · obtain ⟨rfl, -⟩ := runs_ret_iff.mp h₂
      exact ⟨hmissing.2, head, hmissing.1, rfl⟩
    · exact absurd hcode (ConclusiveErrors.ok _ _ _ h₂ payload rfl)
    · exact absurd hcode (ConclusiveErrors.error _ _ (by decide) _ _ h₂ payload rfl)
    · exact absurd hcode (ConclusiveErrors.error _ _ (by decide) _ _ h₂ payload rfl)
    · refine absurd hcode ((?_ : ConclusiveErrors _) _ _ h₂ payload rfl)
      refine ConclusiveErrors.bind_result (conclusive_readNative []) fun r hr => ?_
      cases r with
      | error payload' => exact ConclusiveErrors.ret (hr payload' rfl)
      | ok raw =>
        refine spec_ofExcept_iff.mpr fun payload' hres => ?_
        exact nativeResult_conclusive hres
  · cases he

/-- Nor has any page of the catalog. -/
theorem conclusive_listTools (url : Str) (headers : Headers) (fuel : ℕ) (cursor : Option Str)
    (cursors : List Str) (size : ℕ) (tools : List Json) :
    ConclusiveErrors (listTools url headers fuel cursor cursors size tools) := by
  induction fuel generalizing cursor cursors size tools with
  | zero => exact ConclusiveErrors.error _ _ (by decide)
  | succ fuel ih =>
    have hpage : ConclusiveErrors (nativeMcpRequest url headers "tools/list" (listParams cursor)) := by
      intro tr out h payload hout hcode
      subst hout
      exact absurd (runs_nativeMcpRequest_fallback h hcode).1 (by decide)
    unfold listTools
    refine ConclusiveErrors.bind_result hpage fun r hr => ?_
    cases r with
    | error payload => exact ConclusiveErrors.ret (hr payload rfl)
    | ok page =>
      dsimp only
      split
      · split_ifs
        · exact ConclusiveErrors.error _ _ (by decide)
        · refine ConclusiveErrors.bind fun text => ?_
          split_ifs
          · exact ConclusiveErrors.error _ _ (by decide)
          · split
            · exact ConclusiveErrors.ok _
            · split_ifs
              · exact ConclusiveErrors.error _ _ (by decide)
              · exact ih _ _ _ _
            · exact ConclusiveErrors.error _ _ (by decide)
      · exact ConclusiveErrors.error _ _ (by decide)

/-! ## The native run -/

omit [Runtime] in
/-- Nor what a tool returns, once it has been called. -/
theorem not_hasFallbackCode_toolResponse (args : NativeArgs) (addon initialized : Dict)
    (protocol : Str) (result : Dict) :
    ¬HasFallbackCode (toolResponse args (args.metadata addon initialized protocol) result) := by
  have hcode : dictGet (toolResponse args (args.metadata addon initialized protocol) result)
      "error_code" = if (isErrorField result).truthy then .lit "native_tool_error" else .null := by
    unfold toolResponse
    dsimp only
    split_ifs <;>
      simp [NativeArgs.metadata, toolErrorFields, dictGet, dictGet?_cons]
  rw [HasFallbackCode, hcode]
  split_ifs <;> decide

/-- A payload behind a complete catalog is a reason to try the WebSocket command only when the tool
is missing, and then nothing else was exchanged. -/
theorem runs_useCatalog_fallback {url : Str} {headers : Headers} {args : NativeArgs}
    {addon initialized : Dict} {protocol : Str} {tools : List Json} {tr : List Exchange}
    {payload : Dict}
    (h : Runs (useCatalog url headers args (args.metadata addon initialized protocol) tools) tr
      (.ok payload)) (hfailed : isSuccess payload = false) (hcode : HasFallbackCode payload) :
    args.tool.isSome = true ∧ selectTools args.tool tools = [] ∧ tr = [] := by
  have hreply : ∀ {d : Dict} {tr}, Runs (Prog.ret d : Coro Dict) tr (.ok payload) → d = payload := by
    intro d tr hr
    cases (runs_ret_iff.mp hr).2
    rfl
  unfold useCatalog at h
  dsimp only at h
  split_ifs at h with hmissing hcall
  · exact ⟨hmissing.1, hmissing.2, (runs_ret_iff.mp h).1⟩
  · cases hreply h
    rw [isSuccess_success] at hfailed
    cases hfailed
  · refine absurd hcode ((?_ : Conclusive _) _ _ h payload rfl)
    have hrequest : ConclusiveErrors (nativeMcpRequest url headers "tools/call" args.callParams) := by
      intro tr out h payload hout hcode
      subst hout
      exact absurd (runs_nativeMcpRequest_fallback h hcode).1 (by decide)
    refine Spec.bind hrequest (fun r tr hr => ?_) (fun e tr _ d hd => nomatch hd)
    cases r with
    | error payload => exact Conclusive.ret (hr payload rfl)
    | ok result =>
      dsimp only
      split_ifs
      · exact Conclusive.error _ _ (by decide)
      · exact Conclusive.ret (not_hasFallbackCode_toolResponse _ _ _ _ _)

/-- A conversation is a reason to try the WebSocket command only when the capability is missing. -/
theorem runs_converse_fallback {hass : Hass} {args : NativeArgs} {url : Str} {headers : Headers}
    {addon : Dict} {lead tr : List Exchange} {payload : Dict}
    (hopens : Opens hass args url headers lead)
    (h : Runs (converse url headers args addon) tr (.ok payload))
    (hfailed : isSuccess payload = false) (hcode : HasFallbackCode payload) :
    LacksCapability hass args (lead ++ tr) := by
  have hreply : ∀ {d : Dict} {tr}, Runs (Prog.ret d : Coro Dict) tr (.ok payload) →
      tr = [] ∧ d = payload := by
    intro d tr hr
    obtain ⟨rfl, hd⟩ := runs_ret_iff.mp hr
    cases hd
    exact ⟨rfl, rfl⟩
  unfold converse at h
  rcases runs_bind_iff.mp h with ⟨r, trInit, tr₂, h₁, h₂, rfl⟩ | ⟨e, -, he⟩
  swap
  · cases he
  cases r with
  | error payload' =>
    obtain ⟨rfl, rfl⟩ := hreply h₂
    obtain ⟨-, head, hstatus, rfl⟩ := runs_nativeMcpRequest_fallback h₁ hcode
    exact .endpoint hopens hstatus
  | ok initialized =>
    dsimp only at h₂
    cases hprotocol : supportedProtocol initialized with
    | none =>
      rw [hprotocol] at h₂
      exact absurd hcode (Conclusive.error _ _ (by decide) _ _ h₂ payload rfl)
    | some protocol =>
      rw [hprotocol] at h₂
      rcases runs_bind_iff.mp h₂ with ⟨r, trNote, tr₄, h₃, h₄, rfl⟩ | ⟨e, -, he⟩
      swap
      · cases he
      cases r with
      | error payload' =>
        obtain ⟨rfl, rfl⟩ := hreply h₄
        exact absurd (runs_nativeMcpRequest_fallback h₃ hcode).1 (by decide)
      | ok reply =>
        rcases runs_bind_iff.mp h₄ with ⟨r, trList, tr₆, h₅, h₆, rfl⟩ | ⟨e, -, he⟩
        swap
        · cases he
        cases r with
        | error payload' =>
          obtain ⟨rfl, rfl⟩ := hreply h₆
          exact absurd hcode (conclusive_listTools _ _ _ _ _ _ _ _ _ h₅ _ rfl)
        | ok tools =>
          obtain ⟨htool, hmissing, rfl⟩ := runs_useCatalog_fallback h₆ hfailed hcode
          rw [List.append_nil]
          exact .tool hopens h₁ hprotocol h₃ h₅ htool hmissing

/-- A native run is a reason to try the WebSocket command only when the capability is missing. -/
theorem runs_nativeDeviceBuilder_fallback {hass : Hass} {args : NativeArgs} {tr : List Exchange}
    {payload : Dict} (h : Runs (nativeDeviceBuilder hass args) tr (.ok payload))
    (hfailed : isSuccess payload = false) (hcode : HasFallbackCode payload) :
    LacksCapability hass args tr := by
  unfold nativeDeviceBuilder at h
  split_ifs at h with htimeout htool harguments
  · exact absurd hcode (Conclusive.error _ _ (by decide) _ _ h payload rfl)
  · exact absurd hcode (Conclusive.error _ _ (by decide) _ _ h payload rfl)
  · rcases runs_tryCatch_iff.mp h with ⟨d, hbody, hd⟩ | ⟨e, tr₁, tr₂, -, h₂, rfl⟩
    · cases hd
      unfold nativeBody at hbody
      rcases runs_bind_iff.mp hbody with ⟨resolved, tr₁, tr₂, h₁, h₂, rfl⟩ | ⟨e, -, he⟩
      swap
      · cases he
      by_cases hresolved : isSuccess resolved = true
      · rw [if_neg (by simp [hresolved])] at h₂
        split at h₂
        · rename_i addon haddon
          split_ifs at h₂ with hstate
          · exact absurd hcode (Conclusive.error _ _ (by decide) _ _ h₂ payload rfl)
          · rcases runs_bind_iff.mp h₂ with ⟨route, tr₃, tr₄, h₃, h₄, rfl⟩ | ⟨e, -, he⟩
            swap
            · cases he
            cases route with
            | error payload' =>
              have hconclusive := conclusive_routeForAddon _ _ _ _ _ _ _ h₃ _ rfl
              exact absurd hcode (Conclusive.ret hconclusive _ _ h₄ payload rfl)
            | ok route =>
              rw [← List.append_assoc]
              refine runs_converse_fallback ⟨htimeout, htool, harguments, resolved, addon,
                tr₁, tr₃, route.2, h₁, hresolved, haddon, not_not.mp hstate, h₃, rfl, rfl⟩ h₄
                hfailed hcode
        · exact absurd hcode (Conclusive.raise _ _ _ h₂ payload rfl)
      · rw [if_pos (by simp [hresolved])] at h₂
        exact absurd hcode (Conclusive.ret (conclusive_resolveEsphomeAddon _ _ _ h₁ _ rfl) _ _ h₂
          payload rfl)
    · refine absurd hcode ((?_ : Conclusive (nativeHandler e)) _ _ h₂ payload rfl)
      unfold nativeHandler
      split
      · refine Conclusive.bind fun expired => ?_
        split_ifs
        · exact Conclusive.error _ _ (by decide)
        · exact Conclusive.raise _
      · exact Conclusive.error _ _ (by decide)
      · exact Conclusive.error _ _ (by decide)
      · exact Conclusive.raise _
  · exact absurd hcode (Conclusive.error _ _ (by decide) _ _ h payload rfl)

/-- What follows the opening is the conversation with the add-on. -/
theorem Opens.runs {hass : Hass} {args : NativeArgs} {url : Str} {headers : Headers}
    {lead : List Exchange} (h : Opens hass args url headers lead) :
    ∃ addon, ∀ tr payload, Runs (converse url headers args addon) tr (.ok payload) →
      Runs (nativeDeviceBuilder hass args) (lead ++ tr) (.ok payload) := by
  obtain ⟨htimeout, htool, harguments, resolved, addon, trResolve, trRoute, plain, hresolve,
    hresolved, haddon, hstate, hroute, rfl, rfl⟩ := h
  refine ⟨addon, fun tr payload hconverse => ?_⟩
  unfold nativeDeviceBuilder
  rw [if_neg (not_not.mpr htimeout), if_neg htool, if_neg harguments]
  refine runs_tryCatch_iff.mpr (.inl ⟨payload, ?_, rfl⟩)
  unfold nativeBody
  refine runs_bind_iff.mpr (.inl ⟨resolved, trResolve, trRoute ++ tr, hresolve, ?_,
    List.append_assoc _ _ _⟩)
  rw [if_neg (by simp [hresolved]), haddon]
  dsimp only
  rw [if_neg (not_not.mpr hstate)]
  exact runs_bind_iff.mpr (.inl ⟨.ok (url, plain), trRoute, tr, hroute, hconverse, rfl⟩)

/-- Nothing is requested before the session is open. -/
theorem Opens.rpcMethods {hass : Hass} {args : NativeArgs} {url : Str} {headers : Headers}
    {lead : List Exchange} (h : Opens hass args url headers lead) : rpcMethods lead = [] := by
  obtain ⟨-, -, -, resolved, addon, trResolve, trRoute, plain, hresolve, -, -, -, hroute, -, rfl⟩ := h
  rw [rpcMethods_append,
    rpcMethods_of_issues (Issues.mono (fun _ => isQuiet_of_isRead) (issues_resolveEsphomeAddon _))
      hresolve,
    rpcMethods_of_issues (issues_routeForAddon (fun _ => rfl)
      (fun _ => isQuiet_of_isSupervisorCall) _ _ _ _ _) hroute]
  rfl

/-- A missing capability is what the native run reports. -/
theorem LacksCapability.runs {hass : Hass} {args : NativeArgs} {tr : List Exchange}
    (h : LacksCapability hass args tr) :
    ∃ payload, Runs (nativeDeviceBuilder hass args) tr (.ok payload) ∧
      isSuccess payload = false ∧ HasFallbackCode payload := by
  cases h with
  | endpoint hopens hstatus =>
    obtain ⟨addon, hruns⟩ := hopens.runs
    refine ⟨error (str "This Device Builder has no native /api/mcp endpoint. Update the add-on " ++
      str "or use the existing ESPHome tools.") "native_mcp_unavailable" [], hruns _ _ ?_,
      isSuccess_error _ _ _, hasFallbackCode_error.mpr (.inl rfl)⟩
    unfold converse
    refine runs_bind_iff.mpr (.inl ⟨.error _, _, [], ?_, .ret _, (List.append_nil _).symm⟩)
    unfold nativeMcpRequest
    refine runs_bind_iff.mpr (.inl ⟨_, _, [], runs_await_iff.mpr rfl, ?_, rfl⟩)
    rw [if_pos ⟨hstatus, rfl⟩]
    exact .ret _
  | tool hopens hinit hprotocol hnote hlist htool hmissing =>
    obtain ⟨addon, hruns⟩ := hopens.runs
    refine ⟨error (str "Native tool " ++ Runtime.repr args.toolJson ++
      str " is not available on this Device Builder.") "native_tool_unavailable" [], hruns _ _ ?_,
      isSuccess_error _ _ _, hasFallbackCode_error.mpr (.inr rfl)⟩
    unfold converse
    refine runs_bind_iff.mpr (.inl ⟨_, _, _, hinit, ?_, rfl⟩)
    dsimp only
    rw [hprotocol]
    refine runs_bind_iff.mpr (.inl ⟨_, _, _, hnote, ?_, rfl⟩)
    refine runs_bind_iff.mpr (.inl ⟨_, _, [], hlist, ?_, (List.append_nil _).symm⟩)
    unfold useCatalog
    dsimp only
    rw [if_pos ⟨htool, hmissing⟩]
    exact .ret _

/-- A missing capability on the wire: `initialize` is answered with 404 or 405 and is the only
request, or the requests end with a complete catalog that does not have the tool. -/
theorem LacksCapability.wire {hass : Hass} {args : NativeArgs} {tr : List Exchange}
    (h : LacksCapability hass args tr) :
    (∃ url headers lead head, tr = lead ++
        [rpcRequest url headers "initialize" initializeParams (.ok head)] ∧
      rpcMethods lead = [] ∧ (head.status = 404 ∨ head.status = 405)) ∨
    ∃ url headers tools tool, Prepared url headers tr tools ∧ args.tool = some tool ∧
      ∀ entry ∈ tools, entry.get "name" ≠ .str tool := by
  cases h with
  | endpoint hopens hstatus => exact .inl ⟨_, _, _, _, rfl, hopens.rpcMethods, hstatus⟩
  | tool hopens hinit hprotocol hnote hlist htool hmissing =>
    obtain ⟨tool, htool⟩ := Option.isSome_iff_exists.mp htool
    obtain ⟨pages, hcatalog, rfl, rfl⟩ := runs_listTools_catalog hlist
    refine .inr ⟨_, _, _, tool, ⟨_, _, _, pages, _, _, _, _, ?_, hopens.rpcMethods,
      (runs_nativeMcpRequest hinit).accepted _ rfl, hprotocol, rfl,
      (runs_nativeMcpRequest hnote).accepted _ rfl, hcatalog, rfl⟩, htool, fun entry hentry hname => ?_⟩
    · simp only [List.append_assoc]
    · rw [htool, selectTools, List.filter_eq_nil_iff] at hmissing
      exact hmissing entry hentry (by simp [hname])

/-- Where the capability is missing no tool has been called. -/
theorem LacksCapability.rpcMethods {hass : Hass} {args : NativeArgs} {tr : List Exchange}
    (h : LacksCapability hass args tr) : str "tools/call" ∉ rpcMethods tr := by
  rcases h.wire with ⟨url, headers, lead, head, rfl, hlead, -⟩ | ⟨url, headers, tools, tool, hprep, -⟩
  · rw [rpcMethods_append, hlead, rpcMethods_cons_request]
    decide
  · exact hprep.rpcMethods

/-! ## The read -/

/-- The text that asks for a configuration. -/
theorem dumps_getConfig (configuration : Str) (timeout : ℤ) (debug : Bool) :
    dumps .spaced (requestCommand "devices/get_config"
      [(str "configuration", .str configuration)] timeout debug).payload =
      .ok (getConfigText configuration) := by
  rw [dumps, if_pos]
  · rfl
  · show Json.depth (.obj [_, _, (_, .obj [(_, .str configuration)])]) ≤ recursionLimit
    have hlimit := Runtime.recursionLimit_pos
    simp only [Json.depth, Json.depthFields]
    omega

/-- The WebSocket route of the read is its command on the wire. -/
theorem issuesCommand_of_readConfig {fuel : ℕ} {hass : Hass} {slug : Option Str}
    {configuration : Str} {timeout : ℤ} {debug : Bool} {tr : List Exchange} {out : Except Err Dict}
    (h : Runs (readConfigOverWs fuel hass slug configuration timeout debug) tr out) :
    IssuesCommand hass slug timeout (getConfigText configuration) tr := by
  have htext := dumps_getConfig configuration timeout debug
  rcases runs_bind_iff.mp h with ⟨response, tr₁, tr₂, h₁, h₂, rfl⟩ | ⟨e, h₁, rfl⟩
  · have hrest : tr₂ = [] := by
      dsimp only at h₂
      split_ifs at h₂ <;> exact (runs_ret_iff.mp h₂).1
    rw [hrest, List.append_nil]
    exact issuesCommand_of_runs rfl htext h₁
  · exact issuesCommand_of_runs rfl htext h₁

/-- A run of the read is a run of the command, or a native run with the command behind it where the
error code asks for it. -/
theorem runs_readDeviceBuilderConfig {fuel : ℕ} {hass : Hass} {slug : Option Str}
    {configuration : Str} {timeout : ℤ} {debug : Bool} {tr : List Exchange} {out : Except Err Dict}
    (h : Runs (readDeviceBuilderConfig fuel hass slug configuration timeout debug) tr out) :
    (isNativeConfiguration configuration = false ∧
      Runs (readConfigOverWs fuel hass slug configuration timeout debug) tr out) ∨
    isNativeConfiguration configuration = true ∧ ∃ lead native,
      Runs (nativeDeviceBuilder hass (getConfigArgs slug configuration timeout)) lead native ∧
      ((∃ payload rest, native = .ok payload ∧ isSuccess payload = false ∧
          HasFallbackCode payload ∧ tr = lead ++ rest ∧
          Runs (readConfigOverWs fuel hass slug configuration timeout debug) rest out) ∨
        (∀ payload, native = .ok payload → isSuccess payload = false → ¬HasFallbackCode payload) ∧
          tr = lead ∧ (IsFailure native → out = native)) := by
  unfold readDeviceBuilderConfig at h
  cases hname : isNativeConfiguration configuration with
  | false =>
    rw [if_pos (by simp [hname])] at h
    exact .inl ⟨rfl, h⟩
  | true =>
    rw [if_neg (by simp [hname])] at h
    refine .inr ⟨rfl, ?_⟩
    rcases runs_bind_iff.mp h with ⟨payload, lead, rest, h₁, h₂, rfl⟩ | ⟨e, h₁, rfl⟩
    swap
    · exact ⟨tr, .error e, h₁, .inr ⟨fun _ hp => (nomatch hp), rfl, fun _ => rfl⟩⟩
    refine ⟨lead, .ok payload, h₁, ?_⟩
    cases hsuccess : isSuccess payload with
    | true =>
      rw [if_pos hsuccess] at h₂
      have hrest : rest = [] := by
        split at h₂
        · split_ifs at h₂ <;> exact (runs_ret_iff.mp h₂).1
        · exact (runs_ret_iff.mp h₂).1
      subst hrest
      refine .inr ⟨fun payload' hp hfailed => ?_, List.append_nil _, fun hfail => ?_⟩
      · cases hp
        rw [hsuccess] at hfailed
        cases hfailed
      · have hfailed := hfail payload rfl
        rw [hsuccess] at hfailed
        cases hfailed
    | false =>
      rw [if_neg (by simp [hsuccess])] at h₂
      by_cases hcode : HasFallbackCode payload
      · rw [if_neg (fun hn => hcode.elim hn.1 hn.2)] at h₂
        exact .inl ⟨payload, rest, rfl, hsuccess, hcode, rfl, h₂⟩
      · rw [if_pos (not_or.mp hcode)] at h₂
        obtain ⟨rfl, rfl⟩ := runs_ret_iff.mp h₂
        refine .inr ⟨fun payload' hp _ => ?_, List.append_nil _, fun _ => rfl⟩
        cases hp
        exact hcode

end

/-- An add-on that is running and has no native endpoint, and then stays silent. -/
def oldAddon (past : List Exchange) : (c : Cmd) → Except Err c.Ans
  | .request .. => .ok ⟨404, []⟩
  | c => silentAddon past c

/-- The read of a config from it. -/
def readKitchen : Coro Dict :=
  @readDeviceBuilderConfig asciiRuntime 2 ⟨none⟩ (some (str "esphome")) "kitchen.yaml" 60 false

theorem sends_readKitchen : (exec oldAddon readKitchen []).1.any isSend = true := by decide +kernel

end EsphomeMcp.Addon
