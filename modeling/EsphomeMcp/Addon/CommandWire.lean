import EsphomeMcp.Addon.ReceiveLoop

/-!
# A Device Builder command on the wire

What a command without a stream puts on the wire (`IssuesCommand`): the Supervisor is asked for the
add-on and its route, one WebSocket is opened there, its first message is waited for, and then the
one text with the command goes out. `issuesCommand_of_runs` says so of every run, whatever is
answered, and `isWs_of_native` that a native run does nothing of the kind.
-/

namespace EsphomeMcp.Addon

open Py Py.Prog

/-! ## Definitions -/

/-- A WebSocket that is opened, or a text that is sent over it. -/
def isWs : Exchange → Bool
  | ⟨.wsConnect _ _, _⟩ => true
  | ⟨.sendStr _, _⟩ => true
  | _ => false

/-- A command that neither opens a WebSocket nor sends a text. -/
def IsNoWs (c : Cmd) : Prop := ∀ r, isWs ⟨c, r⟩ = false

section

variable [Runtime]

/-- The first message lets the conversation go on: it is no timeout, no error and no close, and it
does not ask for an authentication of its own. -/
def Greets : Delivery → Prop
  | .ok (.text text) => ∃ data, loadsOrText text = .ok data ∧
      ¬(data.has "server_version" = true ∧ (data.get "requires_auth").truthy = true)
  | .ok .binary => True
  | .ok .other => True
  | _ => False

/-- The exchanges find the running add-on and a route to its WebSocket. -/
def FindsSocket (hass : Hass) (slug : Option Str) (url : Str) (headers : Headers)
    (tr : List Exchange) : Prop :=
  ∃ resolved addon trResolve trRoute, Runs (resolveEsphomeAddon slug) trResolve (.ok resolved) ∧
    isSuccess resolved = true ∧ dictGet resolved "addon" = .obj addon ∧
    dictGet addon "state" = .lit "started" ∧
    Runs (routeForAddon hass addon "ws" none true) trRoute (.ok (.ok (url, headers))) ∧
    tr = trResolve ++ trRoute

/-- What a command whose text is `text` puts on the wire. -/
inductive IssuesCommand (hass : Hass) (slug : Option Str) (timeout : ℤ) (text : Str) :
    List Exchange → Prop
  /-- The Supervisor was asked, and nobody else: there is no running add-on, or no route to it. -/
  | unreachable {tr : List Exchange} (hasked : tr ≠ []) (hquiet : ∀ ev ∈ tr, isWs ev = false)
      (hfound : ∀ url headers lead, FindsSocket hass slug url headers lead → ¬lead <+: tr) :
      IssuesCommand hass slug timeout text tr
  /-- The add-on did not take the connection. -/
  | unconnected {url : Str} {headers : Headers} {lead : List Exchange} (e : Err)
      (hfinds : FindsSocket hass slug url headers lead) :
      IssuesCommand hass slug timeout text (lead ++ [⟨.wsConnect url headers, .error e⟩])
  /-- The first message ended the conversation. -/
  | ungreeted {url : Str} {headers : Headers} {lead : List Exchange} {r : Delivery}
      (hfinds : FindsSocket hass slug url headers lead) (hgreets : ¬Greets r) :
      IssuesCommand hass slug timeout text
        (lead ++ [⟨.wsConnect url headers, .ok ()⟩, ⟨.receive (min (timeout : ℚ) 10), r⟩])
  /-- The text went out, and no other did. -/
  | sent {url : Str} {headers : Headers} {lead rest : List Exchange} {r : Delivery}
      {answer : Except Err Unit} (hfinds : FindsSocket hass slug url headers lead)
      (hgreets : Greets r) (hrest : ∀ ev ∈ rest, isWs ev = false) :
      IssuesCommand hass slug timeout text
        (lead ++ ⟨.wsConnect url headers, .ok ()⟩ :: ⟨.receive (min (timeout : ℚ) 10), r⟩ ::
          ⟨.sendStr text, answer⟩ :: rest)

end

/-! ## Who opens a WebSocket -/

theorem IssuesCommand.ne_nil [Runtime] {hass : Hass} {slug : Option Str} {timeout : ℤ} {text : Str}
    {tr : List Exchange} (h : IssuesCommand hass slug timeout text tr) : tr ≠ [] := by
  cases h with
  | unreachable hasked => exact hasked
  | unconnected | ungreeted | sent => simp

/-- A text that is sent goes over the socket. -/
theorem isWs_of_isSend {ev : Exchange} (h : isSend ev = true) : isWs ev = true := by
  obtain ⟨c, r⟩ := ev
  cases c with
  | sendStr => rfl
  | _ => cases h

/-- A program that uses no socket leaves none in its runs. -/
theorem isWs_of_issues {α : Type} {p : Coro α} {tr : List Exchange} {out : Except Err α}
    (hp : Issues IsNoWs p) (h : Runs p tr out) : ∀ ev ∈ tr, isWs ev = false :=
  fun ev hev => hp.of_runs h ev hev ev.answer

section

variable [Runtime]

theorem isNoWs_of_isRead {c : Cmd} (h : IsRead c) : IsNoWs c := by
  intro r
  cases c with
  | wsConnect | sendStr => cases h
  | _ => rfl

theorem isNoWs_of_isSupervisorCall {endpoint method : Str} {c : Cmd}
    (h : IsSupervisorCall endpoint method c) : IsNoWs c := by
  intro r
  cases c with
  | wsConnect | sendStr => cases h
  | _ => rfl

/-- Finding the add-on uses none. -/
theorem isWs_of_resolve {slug : Option Str} {tr : List Exchange} {out : Except Err Dict}
    (h : Runs (resolveEsphomeAddon slug) tr out) : ∀ ev ∈ tr, isWs ev = false :=
  isWs_of_issues (Issues.mono (fun _ => isNoWs_of_isRead) (issues_resolveEsphomeAddon _)) h

/-- Making the route uses none. -/
theorem isWs_of_route {hass : Hass} {addon : Dict} {path : Str} {port : Option ℤ} {websocket : Bool}
    {tr : List Exchange} {out : Except Err (Except Dict (Str × Headers))}
    (h : Runs (routeForAddon hass addon path port websocket) tr out) :
    ∀ ev ∈ tr, isWs ev = false :=
  isWs_of_issues (issues_routeForAddon (fun _ => rfl) (fun _ => isNoWs_of_isSupervisorCall)
    _ _ _ _ _) h

/-- So nothing is exchanged over a socket before it is connected. -/
theorem FindsSocket.isWs {hass : Hass} {slug : Option Str} {url : Str} {headers : Headers}
    {tr : List Exchange} (h : FindsSocket hass slug url headers tr) : ∀ ev ∈ tr, isWs ev = false := by
  obtain ⟨resolved, addon, trResolve, trRoute, hresolve, -, -, -, hroute, rfl⟩ := h
  exact List.forall_mem_append.mpr ⟨isWs_of_resolve hresolve, isWs_of_route hroute⟩

/-- A text that goes out is the command's. -/
theorem IssuesCommand.cmd_of_isSend {hass : Hass} {slug : Option Str} {timeout : ℤ} {text : Str}
    {tr : List Exchange} (h : IssuesCommand hass slug timeout text tr) {ev : Exchange}
    (hev : ev ∈ tr) (hsend : isSend ev = true) : ev.cmd = .sendStr text := by
  have hquiet {tr : List Exchange} (htr : ∀ ev ∈ tr, isWs ev = false) (hmem : ev ∈ tr) :
      ev.cmd = .sendStr text := by
    have hws := isWs_of_isSend hsend
    rw [htr ev hmem] at hws
    cases hws
  cases h with
  | unreachable _ htr => exact hquiet htr hev
  | unconnected e hfinds =>
    rcases List.mem_append.mp hev with hmem | hmem
    · exact hquiet hfinds.isWs hmem
    · rw [List.mem_singleton.mp hmem] at hsend
      cases hsend
  | ungreeted hfinds =>
    simp only [List.mem_append, List.mem_cons, List.not_mem_nil, or_false] at hev
    rcases hev with hmem | rfl | rfl
    · exact hquiet hfinds.isWs hmem
    · cases hsend
    · cases hsend
  | sent hfinds _ hrest =>
    simp only [List.mem_append, List.mem_cons] at hev
    rcases hev with hmem | rfl | rfl | rfl | hmem
    · exact hquiet hfinds.isWs hmem
    · cases hsend
    · cases hsend
    · rfl
    · exact hquiet hrest hmem

/-- The native client speaks HTTP. -/
theorem issues_nativeMcpRequest (url : Str) (headers : Headers) (method : Str) (params : Json) :
    Issues IsNoWs (nativeMcpRequest url headers method params) := by
  unfold nativeMcpRequest
  refine Issues.bind (Issues.perform fun _ => rfl) fun head => ?_
  split_ifs
  · trivial
  · trivial
  · trivial
  · trivial
  · refine Issues.bind (issues_readNative (fun _ => rfl) []) fun r => ?_
    split
    · trivial
    · exact Issues.ofExcept _

theorem issues_listTools (url : Str) (headers : Headers) (fuel : ℕ) (cursor : Option Str)
    (cursors : List Str) (size : ℕ) (tools : List Json) :
    Issues IsNoWs (listTools url headers fuel cursor cursors size tools) := by
  induction fuel generalizing cursor cursors size tools with
  | zero => trivial
  | succ fuel ih =>
    rw [listTools]
    refine Issues.bind (issues_nativeMcpRequest _ _ _ _) fun r => ?_
    split
    · trivial
    split
    · split_ifs
      · trivial
      refine Issues.bind (Issues.ofExcept _) fun text => ?_
      split_ifs
      · trivial
      split
      · trivial
      · split_ifs
        · trivial
        · exact ih _ _ _ _
      · trivial
    · trivial

/-- Its whole conversation does. -/
theorem issues_converse (url : Str) (headers : Headers) (args : NativeArgs) (addon : Dict) :
    Issues IsNoWs (converse url headers args addon) := by
  unfold converse
  refine Issues.bind (issues_nativeMcpRequest _ _ _ _) fun r => ?_
  split
  · trivial
  split
  · trivial
  refine Issues.bind (issues_nativeMcpRequest _ _ _ _) fun r => ?_
  split
  · trivial
  refine Issues.bind (issues_listTools _ _ _ _ _ _ _) fun r => ?_
  split
  · trivial
  unfold useCatalog
  dsimp only
  split_ifs
  · trivial
  · trivial
  refine Issues.bind (issues_nativeMcpRequest _ _ _ _) fun r => ?_
  split
  · trivial
  · split_ifs <;> trivial

/-- A native run opens no WebSocket. -/
theorem isWs_of_native {hass : Hass} {args : NativeArgs} {tr : List Exchange}
    {out : Except Err Dict} (h : Runs (nativeDeviceBuilder hass args) tr out) :
    ∀ ev ∈ tr, isWs ev = false := by
  refine isWs_of_issues ?_ h
  unfold nativeDeviceBuilder
  refine Issues.ite trivial (Issues.ite trivial (Issues.ite trivial ?_))
  refine Issues.tryCatch ?_ fun e => ?_
  · unfold nativeBody
    refine Issues.bind (Issues.mono (fun _ => isNoWs_of_isRead) (issues_resolveEsphomeAddon _))
      fun resolved => ?_
    split_ifs
    · trivial
    split
    · split_ifs
      · trivial
      refine Issues.bind (issues_routeForAddon (fun _ => rfl)
        (fun _ => isNoWs_of_isSupervisorCall) _ _ _ _ _) fun r => ?_
      split
      · trivial
      · exact issues_converse _ _ _ _
    · trivial
  · unfold nativeHandler
    split
    · refine Issues.bind (Issues.perform fun _ => rfl) fun expired => ?_
      split_ifs <;> trivial
    all_goals trivial

/-! ## The conversation -/

/-- Waiting for the greeting is one receive, and decides whether the conversation goes on. -/
theorem greeting_of_runs {c : WsCommand} {slug : Str} {tr : List Exchange}
    {out : Except Err (Except Dict WsState)} (h : Runs (receiveServerInfo c slug) tr out) :
    ∃ r, tr = [⟨.receive (min (c.timeout : ℚ) 10), r⟩] ∧
      ((∃ st, out = .ok (.ok st)) ↔ Greets r) := by
  unfold receiveServerInfo at h
  rcases runs_bind_iff.mp h with ⟨r, tr₁, tr₂, h₁, h₂, rfl⟩ | ⟨e, h₁, -⟩
  swap
  · obtain ⟨r, -, hr⟩ := runs_attempt_iff.mp h₁
    cases hr
  obtain ⟨r', h₁, hr⟩ := runs_attempt_iff.mp h₁
  obtain rfl := runs_await_iff.mp h₁
  cases hr
  suffices tr₂ = [] ∧ ((∃ st, out = .ok (.ok st)) ↔ Greets r) by
    obtain ⟨rfl, hout⟩ := this
    exact ⟨r, rfl, hout⟩
  -- a message that ends the conversation, and one that lets it go on
  have hstop {payload : Dict} (hr : Runs (ret (.error payload) : Coro (Except Dict WsState)) tr₂ out)
      (hg : ¬Greets r) : tr₂ = [] ∧ ((∃ st, out = .ok (.ok st)) ↔ Greets r) := by
    obtain ⟨rfl, rfl⟩ := runs_ret_iff.mp hr
    exact ⟨rfl, iff_of_false (by simp) hg⟩
  have hgo {st : WsState} (hr : Runs (ret (.ok st) : Coro (Except Dict WsState)) tr₂ out)
      (hg : Greets r) : tr₂ = [] ∧ ((∃ st, out = .ok (.ok st)) ↔ Greets r) := by
    obtain ⟨rfl, rfl⟩ := runs_ret_iff.mp hr
    exact ⟨rfl, iff_of_true ⟨st, rfl⟩ hg⟩
  split at h₂
  · exact hstop h₂ id
  · obtain ⟨rfl, rfl⟩ := runs_raise_iff.mp h₂
    exact ⟨rfl, iff_of_false (by simp) id⟩
  · rename_i text _
    cases hdata : loadsOrText text with
    | error e =>
      rw [hdata] at h₂
      obtain ⟨rfl, rfl⟩ := runs_raise_iff.mp h₂
      refine ⟨rfl, iff_of_false (by simp) ?_⟩
      rintro ⟨data, hd, -⟩
      rw [hdata] at hd
      cases hd
    | ok data =>
      have hgreets : Greets (.ok (.text text)) ↔
          ¬(data.has "server_version" = true ∧ (data.get "requires_auth").truthy = true) := by
        constructor
        · rintro ⟨data', hd, hopen⟩
          rw [hdata] at hd
          obtain rfl := Except.ok.inj hd
          exact hopen
        · exact fun hopen => ⟨data, hdata, hopen⟩
      rw [hdata] at h₂
      simp only [ofExcept_ok, bind_eq, bind_ret] at h₂
      split_ifs at h₂ with hversion hauth
      · exact hgo h₂ (hgreets.mpr fun hopen => by simp [hopen.1] at hversion)
      · exact hstop h₂ fun hg => hgreets.mp hg ⟨by simpa using hversion, hauth⟩
      · exact hgo h₂ (hgreets.mpr fun hopen => hauth hopen.2)
  · exact hstop h₂ id
  · exact hstop h₂ id
  · exact hstop h₂ id
  · exact hgo h₂ trivial
  · exact hgo h₂ trivial

/-- Behind the command nothing is sent, when it is no stream. -/
theorem isWs_of_afterSend {fuel : ℕ} {c : WsCommand} (hc : c.stream = false) {slug url : Str}
    {headers : Headers} {st : WsState} {tr : List Exchange} {out : Except Err Dict}
    (h : Runs (afterSend fuel c slug url headers st) tr out) : ∀ ev ∈ tr, isWs ev = false := by
  have hloop {deadline : ℚ} {tr : List Exchange} {out : LoopEnd}
      (h : LoopTrace c deadline st tr out) : ∀ ev ∈ tr, isWs ev = false := by
    rintro ⟨cmd, r⟩ hev
    rcases h.cmd_of_mem _ hev with hcmd | ⟨t, hcmd⟩
    · obtain rfl : cmd = .time := hcmd
      rfl
    · obtain rfl : cmd = .receive t := hcmd
      rfl
  cases afterTrace_of_runs h with
  | clock e => simp [isWs]
  | raised hl => exact List.forall_mem_cons.mpr ⟨rfl, hloop hl⟩
  | refused hl => exact List.forall_mem_cons.mpr ⟨rfl, hloop hl⟩
  | closed hl hclosing =>
    refine List.forall_mem_cons.mpr ⟨rfl, List.forall_mem_append.mpr ⟨hloop hl, ?_⟩⟩
    refine isWs_of_issues (p := closing c slug url headers _) ?_ hclosing
    have hstop : sendStop c = (ret () : Coro Unit) := by
      rw [sendStop, if_neg (by simp [hc])]
      rfl
    unfold closing
    rw [hstop]
    exact Issues.bind trivial fun _ => Issues.bind (Issues.perform fun _ => rfl) fun _ => trivial

/-- A conversation opens its WebSocket first, and sends its text when it is greeted. -/
theorem wire_of_converseWs {fuel : ℕ} {hass : Hass} {slug : Option Str} {c : WsCommand}
    (hc : c.stream = false) {text : Str} (htext : dumps .spaced c.payload = .ok text)
    {slug' url : Str} {headers : Headers} {lead tr : List Exchange}
    (hfinds : FindsSocket hass slug url headers lead) {out : Except Err Dict}
    (h : Runs (converseWs fuel c slug' url headers) tr out) :
    IssuesCommand hass slug c.timeout text (lead ++ tr) := by
  unfold converseWs at h
  rcases runs_bind_iff.mp h with ⟨_, tr₁, tr₂, h₁, h₂, rfl⟩ | ⟨e, h₁, rfl⟩
  swap
  · obtain rfl := runs_await_iff.mp h₁
    exact .unconnected e hfinds
  obtain rfl := runs_await_iff.mp h₁
  rcases runs_bind_iff.mp h₂ with ⟨reply, tr₃, tr₄, h₃, h₄, rfl⟩ | ⟨e, h₃, rfl⟩
  swap
  · obtain ⟨r, rfl, hgreets⟩ := greeting_of_runs h₃
    exact .ungreeted hfinds fun hg => by simp at hgreets; exact hgreets hg
  obtain ⟨r, rfl, hgreets⟩ := greeting_of_runs h₃
  cases reply with
  | error payload =>
    obtain ⟨rfl, -⟩ := runs_ret_iff.mp h₄
    exact .ungreeted hfinds fun hg => by simp at hgreets; exact hgreets hg
  | ok st =>
    have hg : Greets r := hgreets.mp ⟨st, rfl⟩
    have h₅ := (congrArg (Runs · _ out) (exchange_then_reply fuel c slug' url headers st)).mp h₄
    rw [htext] at h₅
    rcases runs_bind_iff.mp h₅ with ⟨_, tr₅, tr₆, h₆, h₇, rfl⟩ | ⟨e, h₆, rfl⟩
    · obtain ⟨rfl, he⟩ := runs_ret_iff.mp h₆
      cases he
      rcases runs_bind_iff.mp h₇ with ⟨_, tr₇, tr₈, h₈, h₉, rfl⟩ | ⟨e, h₈, rfl⟩
      · obtain rfl := runs_await_iff.mp h₈
        exact .sent hfinds hg (isWs_of_afterSend hc h₉)
      · obtain rfl := runs_await_iff.mp h₈
        exact .sent hfinds hg (by simp)
    · exact absurd (runs_ret_iff.mp h₆).2 (by simp)

/-- The route to the WebSocket of a running add-on, and the conversation over it. -/
theorem wire_of_callDeviceBuilder {fuel : ℕ} {hass : Hass} {slug : Option Str} {c : WsCommand}
    (hc : c.stream = false) {text : Str} (htext : dumps .spaced c.payload = .ok text)
    {resolved addon : Dict} {slug' : Str} {trResolve tr : List Exchange} (hne : trResolve ≠ [])
    (hresolve : Runs (resolveEsphomeAddon slug) trResolve (.ok resolved))
    (hresolved : isSuccess resolved = true) (haddon : dictGet resolved "addon" = .obj addon)
    (hstate : dictGet addon "state" = .lit "started") {out : Except Err Dict}
    (h : Runs (callDeviceBuilderWsCommand fuel hass addon slug' c) tr out) :
    IssuesCommand hass slug c.timeout text (trResolve ++ tr) := by
  -- another way to find the socket is this one
  have hroute {tr' : List Exchange} {url : Str} {headers : Headers} {lead : List Exchange}
      {route : Except Err (Except Dict (Str × Headers))}
      (hruns : Runs (routeForAddon hass addon "ws" none true) tr' route)
      (hfinds : FindsSocket hass slug url headers lead) (hlead : lead <+: trResolve ++ tr') :
      route = .ok (.ok (url, headers)) := by
    obtain ⟨resolved', addon', trResolve', trRoute, hresolve', -, haddon', -, hroute', rfl⟩ := hfinds
    obtain ⟨rfl, he⟩ := runs_eq_of_prefixes hresolve' hresolve
      ((List.prefix_append _ _).trans hlead) (List.prefix_append _ _)
    cases he
    obtain rfl : addon' = addon := by simpa [haddon] using haddon'.symm
    obtain ⟨rfl, rfl⟩ := runs_eq_of_prefixes hroute' hruns
      ((List.prefix_append_right_inj _).mp hlead) (List.prefix_refl _)
    rfl
  unfold callDeviceBuilderWsCommand at h
  rcases runs_bind_iff.mp h with ⟨route, tr₁, tr₂, h₁, h₂, rfl⟩ | ⟨e, h₁, rfl⟩
  swap
  · refine .unreachable (by simp [hne]) ?_ fun url headers lead hfinds hlead => ?_
    · exact List.forall_mem_append.mpr ⟨isWs_of_resolve hresolve, isWs_of_route h₁⟩
    · cases hroute h₁ hfinds hlead
  cases route with
  | error payload =>
    obtain ⟨rfl, -⟩ := runs_ret_iff.mp h₂
    rw [List.append_nil]
    refine .unreachable (by simp [hne]) ?_ fun url headers lead hfinds hlead => ?_
    · exact List.forall_mem_append.mpr ⟨isWs_of_resolve hresolve, isWs_of_route h₁⟩
    · cases hroute h₁ hfinds hlead
  | ok route =>
    obtain ⟨url, headers⟩ := route
    have hfinds : FindsSocket hass slug url headers (trResolve ++ tr₁) :=
      ⟨resolved, addon, trResolve, tr₁, hresolve, hresolved, haddon, hstate, h₁, rfl⟩
    rw [← List.append_assoc]
    rcases runs_tryCatch_iff.mp h₂ with ⟨d, h₃, rfl⟩ | ⟨e, tr₃, tr₄, h₃, h₄, rfl⟩
    · exact wire_of_converseWs hc htext hfinds h₃
    · obtain ⟨rfl, -⟩ := runs_wsHandler h₄
      rw [List.append_nil]
      exact wire_of_converseWs hc htext hfinds h₃

/-- The Supervisor is asked for the add-on first. -/
theorem not_runs_resolve_nil {slug : Option Str} {out : Except Err Dict} :
    ¬Runs (resolveEsphomeAddon slug) [] out := by
  intro h
  rcases slug with _ | _ | ⟨c, s⟩
  · exact absurd (runs_call_iff.mp h) (by simp)
  · exact absurd (runs_call_iff.mp h) (by simp)
  · exact absurd (runs_call_iff.mp h) (by simp)

/-- Every run of a command without a stream is one of the four on the wire. -/
theorem issuesCommand_of_runs {fuel : ℕ} {hass : Hass} {slug : Option Str} {c : WsCommand}
    (hc : c.stream = false) {text : Str} (htext : dumps .spaced c.payload = .ok text)
    {tr : List Exchange} {out : Except Err Dict}
    (h : Runs (deviceBuilderCommand fuel hass slug c) tr out) :
    IssuesCommand hass slug c.timeout text tr := by
  unfold deviceBuilderCommand at h
  -- a run that ends with the Supervisor's answer finds no socket
  have hstop {tr : List Exchange} {resolved : Except Err Dict}
      (hresolve : Runs (resolveEsphomeAddon slug) tr resolved)
      (hno : ∀ d addon, resolved = .ok d → isSuccess d = true → dictGet d "addon" = .obj addon →
        dictGet addon "state" ≠ .lit "started") : IssuesCommand hass slug c.timeout text tr := by
    refine .unreachable ?_ (isWs_of_resolve hresolve) fun url headers lead hfinds hlead => ?_
    · rintro rfl
      exact not_runs_resolve_nil hresolve
    · obtain ⟨d, addon, trResolve, trRoute, hresolve', hd, haddon, hstate, -, rfl⟩ := hfinds
      obtain ⟨rfl, rfl⟩ := runs_eq_of_prefixes hresolve' hresolve
        ((List.prefix_append _ _).trans hlead) (List.prefix_refl _)
      exact hno d addon rfl hd haddon hstate
  rcases runs_bind_iff.mp h with ⟨resolved, tr₁, tr₂, h₁, h₂, rfl⟩ | ⟨e, h₁, rfl⟩
  swap
  · exact hstop h₁ nofun
  by_cases hr : isSuccess resolved = true
  · rw [if_neg (by simp [hr])] at h₂
    split at h₂
    · rename_i addon haddon
      simp only at h₂
      split_ifs at h₂ with hstate
      · obtain ⟨rfl, -⟩ := runs_ret_iff.mp h₂
        rw [List.append_nil]
        refine hstop h₁ fun d addon' hd _ haddon' => ?_
        cases hd
        obtain rfl : addon = addon' := by simpa [haddon] using haddon'
        exact hstate
      · have hne : tr₁ ≠ [] := by
          rintro rfl
          exact not_runs_resolve_nil h₁
        exact wire_of_callDeviceBuilder hc htext hne h₁ hr haddon (not_not.mp hstate) h₂
    · rename_i hother
      obtain ⟨rfl, -⟩ := runs_raise_iff.mp h₂
      rw [List.append_nil]
      refine hstop h₁ fun d addon hd _ haddon => ?_
      cases hd
      exact absurd haddon (hother addon)
  · rw [if_pos (by simp [hr])] at h₂
    obtain ⟨rfl, -⟩ := runs_ret_iff.mp h₂
    rw [List.append_nil]
    refine hstop h₁ fun d addon hd hsuccess => ?_
    cases hd
    exact absurd hsuccess hr

end

end EsphomeMcp.Addon
