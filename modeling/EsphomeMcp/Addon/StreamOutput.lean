import EsphomeMcp.Addon.StreamEvents

/-!
# What the streaming tools report

The two tools that follow a stream collect its events for as long as their limits allow.

* `TerminatedBy` says how the events of a stream end: at the first `result` event, or before it.
* `heard_of_runs` is what any Device Builder command comes to, whether it was sent or not.
* `streamTool_reports` says for every run of either tool when it succeeds and what it reports.
-/

namespace EsphomeMcp.Addon

open Py Py.Prog

/-! ## Definitions -/

/-- A streaming command. -/
def streamCommand (command : Str) (args : Dict) (timeout : ℤ) (debug : Bool) (messageLimit : ℤ) :
    WsCommand :=
  ⟨command, args, timeout, debug, true, some messageLimit⟩

/-- The data of an output event. -/
def outputData? : Json → Option Json
  | .obj event => if dictGet event "event" = .lit "output" then some (dictGet event "data") else none
  | _ => none

/-- The events of a response: `response.get("events") or []`. -/
def responseEvents (response : Dict) : Except Err (List Json) :=
  iterItems ((dictGet response "events").orElse (.arr []))

section

variable [Runtime]

/-- The reply to a stream. -/
def streamReply (command : Str) (output : List Json) (terminal closedBy : Json) : Dict :=
  success [("command", .str command), ("output", .arr output),
    ("output_line_count", .int output.length), ("terminal_event", terminal),
    ("closed_by", closedBy)]

/-- What becomes of the response to a stream. -/
def finishStream (command : Str) (response : Dict) : Except Err Dict := do
  let events ← responseEvents response
  return streamReply command (events.filterMap outputData?) (dictGet response "terminal_event")
    (dictGet response "closed_by")

/-- `run_device_builder_stream`. -/
def runDeviceBuilderStream (fuel : ℕ) (hass : Hass) (slug : Option Str) (command : Str)
    (args : Dict) (timeout : ℤ) (debug : Bool) (messageLimit : ℤ) : Coro Dict :=
  requestThen fuel hass slug (streamCommand command args timeout debug messageLimit)
    (finishStream command)

/-- The output of a job whose stream had none. -/
def jobOutput (job : Json) : List Json :=
  match job.get "output" with
  | .arr lines => lines.map fun line => .str (strOf line)
  | _ => []

/-- The reply to a followed job. -/
def followReply (jobId : Str) (output : List Json) (terminal closedBy : Json) : Dict :=
  let job := terminal.get "data"
  success [("job_id", .str jobId), ("output", .arr output),
    ("output_line_count", .int output.length), ("job", job), ("exit_code", job.get "exit_code"),
    ("terminal_event", terminal), ("closed_by", closedBy)]

/-- What becomes of the response to a followed job. -/
def finishFollow (jobId : Str) (response : Dict) : Except Err Dict := do
  let events ← responseEvents response
  let terminal := dictGet response "terminal_event"
  let output := match events.filterMap outputData? with
    | [] => jobOutput (terminal.get "data")
    | output => output
  return followReply jobId output terminal (dictGet response "closed_by")

/-- `follow_device_builder_firmware_job`. -/
def followDeviceBuilderFirmwareJob (fuel : ℕ) (hass : Hass) (slug : Option Str) (jobId : Str)
    (messageLimit timeout : ℤ) (debug : Bool) : Coro Dict :=
  requestThen fuel hass slug
    (streamCommand "firmware/follow_job" [(str "job_id", .str jobId)] timeout debug messageLimit)
    (finishFollow jobId)

end

/-! ## How the events of a stream end -/

/-- An event that ends a stream. -/
def isResultEvent (event : Json) : Prop := event.get "event" = .lit "result"

/-- The events of a stream, the event it ended with if there is one, and whether there is. -/
inductive TerminatedBy (events : List Json) : Json → Prop
  | unfinished : (∀ event ∈ events, ¬isResultEvent event) → TerminatedBy events .null
  | finished {body : List Json} {last : Json} : events = body ++ [last] →
      (∀ event ∈ body, ¬isResultEvent event) → isResultEvent last → TerminatedBy events last

/-- What a conversation knows of the end of its stream. -/
structure KnowsEnd (st : WsState) : Prop where
  terminated : TerminatedBy st.events st.terminalEvent
  closed : st.closeReason = str "event_result" ↔ ∃ event ∈ st.events, isResultEvent event

/-- A conversation whose stream goes on. -/
structure GoesOn (st : WsState) : Prop where
  events : ∀ event ∈ st.events, ¬isResultEvent event
  terminal : st.terminalEvent = .null
  reason : st.closeReason ≠ str "event_result"

theorem GoesOn.knowsEnd {st : WsState} (h : GoesOn st) {reason : Str}
    (hreason : reason ≠ str "event_result") : KnowsEnd { st with closeReason := reason } := by
  refine ⟨?_, ?_⟩
  · show TerminatedBy st.events st.terminalEvent
    rw [h.terminal]
    exact .unfinished h.events
  · refine iff_of_false hreason ?_
    rintro ⟨event, hmem, hresult⟩
    exact h.events event hmem hresult

/-- Where a stream ends, its limit does not change how. -/
theorem KnowsEnd.limitReached {st : WsState} (h : KnowsEnd st) (c : WsCommand) :
    KnowsEnd (limitReached c st) := by
  unfold Addon.limitReached
  by_cases hlimit : c.collectedLimit ≤ st.commandMessageCount ∧
      st.closeReason ≠ str "event_result" ∧ st.closeReason ≠ str "result"
  · rw [if_pos hlimit]
    have hreason : str "message_limit" ≠ str "event_result" := by decide
    refine ⟨h.terminated, iff_of_false hreason ?_⟩
    exact fun hresult => hlimit.2.1 (h.closed.mpr hresult)
  · rw [if_neg hlimit]
    exact h

section

variable [Runtime]

/-- A frame leaves a stream that goes on, or the frame is the event it ends with. -/
theorem handleFrame_goesOn {c : WsCommand} {st st' : WsState} {data : Json} (hst : GoesOn st) :
    (handleFrame c st data = .ok (.next st') → GoesOn st') ∧
      (handleFrame c st data = .ok (.stop st') → KnowsEnd st') := by
  cases hown : ownOf data with
  | none =>
    rw [handleFrame_of_ownOf hown]
    refine ⟨fun h => ?_, nofun⟩
    obtain rfl : { st with messages := st.messages ++ [data] } = st' := by simpa using h
    exact ⟨hst.events, hst.terminal, hst.reason⟩
  | some d =>
    obtain ⟨rfl, hid⟩ := eq_obj_of_ownOf hown
    unfold handleFrame
    simp only [hid, ne_eq, not_true_eq_false, if_false]
    by_cases herr : dictHas d "error_code" = true
    · simp only [if_pos herr, Except.ok.injEq, reduceCtorEq, false_implies, and_self]
    rw [if_neg herr]
    by_cases hevent : dictHas d "event" = true
    · rw [if_pos hevent]
      by_cases hhash : (!(dictGet d "event").isHashable) = true
      · simp only [if_pos hhash, reduceCtorEq, false_implies, and_self]
      rw [if_neg hhash]
      by_cases hlast : dictGet d "event" = .lit "result"
      · -- the event the stream ends with
        rw [if_pos hlast]
        refine ⟨nofun, fun h => ?_⟩
        simp only [Except.ok.injEq, FrameStep.stop.injEq] at h
        subst h
        refine ⟨.finished rfl hst.events hlast, iff_of_true rfl ?_⟩
        exact ⟨.obj d, List.mem_append_right _ List.mem_cons_self, hlast⟩
      · rw [if_neg hlast]
        refine ⟨fun h => ?_, nofun⟩
        simp only [Except.ok.injEq, FrameStep.next.injEq] at h
        subst h
        refine ⟨fun event hmem => ?_, hst.terminal, hst.reason⟩
        rcases List.mem_append.mp hmem with hmem | hmem
        · exact hst.events event hmem
        · rw [List.mem_singleton.mp hmem]
          exact hlast
    · -- no event: the result of a command, or nothing that is looked at
      rw [if_neg hevent]
      have hreason : str "result" ≠ str "event_result" := by decide
      have hresult : GoesOn { st with
          messages := st.messages ++ [.obj d], commandMessageCount := st.commandMessageCount + 1,
          result := dictGet d "result", closeReason := "result" } :=
        ⟨hst.events, hst.terminal, hreason⟩
      by_cases hres : dictHas d "result" = true
      · rw [if_pos hres]
        by_cases hstream : c.stream = true
        · rw [if_pos hstream]
          refine ⟨fun h => ?_, nofun⟩
          simp only [Except.ok.injEq, FrameStep.next.injEq] at h
          exact h ▸ hresult
        · rw [if_neg hstream]
          refine ⟨nofun, fun h => ?_⟩
          simp only [Except.ok.injEq, FrameStep.stop.injEq] at h
          exact h ▸ hresult.knowsEnd hresult.reason
      · rw [if_neg hres]
        refine ⟨fun h => ?_, nofun⟩
        simp only [Except.ok.injEq, FrameStep.next.injEq] at h
        subst h
        exact ⟨hst.events, hst.terminal, hst.reason⟩

/-- A delivery leaves a stream that goes on, or it ends the stream. -/
theorem loopStep_goesOn {c : WsCommand} {st st' : WsState} {r : Delivery} (hst : GoesOn st) :
    (loopStep c st r = .inl st' → GoesOn st') ∧
      (loopStep c st r = .inr (.ok (.ok st')) → KnowsEnd st') := by
  rcases r with (⟨kind, text⟩ | _) | m
  · cases kind with
    | timeout =>
      refine ⟨nofun, fun h => ?_⟩
      cases h
      exact hst.knowsEnd (by decide)
    | _ => exact ⟨nofun, nofun⟩
  · exact ⟨nofun, nofun⟩
  cases m with
  | text text =>
    unfold loopStep
    cases hload : loadsOrText text with
    | error e => simp [hload]
    | ok data =>
      simp only [hload]
      cases hframe : handleFrame c st data with
      | error e => simp
      | ok step =>
        cases step with
        | next t =>
          refine ⟨fun h => ?_, nofun⟩
          cases h
          exact (handleFrame_goesOn hst).1 hframe
        | stop t =>
          refine ⟨nofun, fun h => ?_⟩
          cases h
          exact (handleFrame_goesOn hst).2 hframe
        | fail payload => exact ⟨nofun, nofun⟩
  | close | closed | error =>
    refine ⟨nofun, fun h => ?_⟩
    cases h
    exact hst.knowsEnd (by decide)
  | binary | other =>
    refine ⟨fun h => ?_, nofun⟩
    cases h
    exact hst

/-- A frame of the command with an `error_code` ends the loop with a failure. -/
theorem loopStep_refused {c : WsCommand} {st : WsState} {r : Delivery} {d : Dict}
    (hown : ownFrame? r = some d) (herr : dictHas d "error_code" = true) :
    ∃ payload, loopStep c st r = .inr (.ok (.error payload)) := by
  unfold ownFrame? at hown
  split at hown
  · rename_i text
    cases hload : loadsOrText text with
    | error e => simp [hload, Except.toOption] at hown
    | ok data =>
      simp only [hload, Except.toOption, Option.bind_some] at hown
      obtain ⟨rfl, hid⟩ := eq_obj_of_ownOf hown
      refine ⟨commandError c.command st.serverInfo d, ?_⟩
      simp only [loopStep, hload, handleFrame, hid, ne_eq, not_true_eq_false, if_false, if_pos herr]
  · cases hown

/-- A loop that ends with what it has collected knows how its stream ended, and nothing has
refused its command. -/
theorem LoopTrace.knowsEnd {c : WsCommand} {deadline : ℚ} {st st' : WsState} {tr : List Exchange}
    {out : LoopEnd} (h : LoopTrace c deadline st tr out) (hst : GoesOn st)
    (hout : out = .ok (.ok st')) : KnowsEnd st' ∧ Unrefused tr := by
  -- what has been delivered refuses the command only if the loop ends there
  have hquiet (st : WsState) (r : Delivery) (hstep : ∀ payload,
      loopStep c st r ≠ .inr (.ok (.error payload))) :
      ∀ d, ownFrame? r = some d → dictHas d "error_code" = false := by
    intro d hd
    by_contra herr
    have herr : dictHas d "error_code" = true := by simpa using herr
    obtain ⟨payload, hpayload⟩ : ∃ payload, loopStep c st r = .inr (.ok (.error payload)) :=
      loopStep_refused hd herr
    exact hstep payload hpayload
  induction h with
  | limit =>
    cases hout
    exact ⟨hst.knowsEnd hst.reason, by simp [Unrefused]⟩
  | clock e => cases hout
  | late =>
    cases hout
    exact ⟨hst.knowsEnd hst.reason, by simp [Unrefused]⟩
  | @done st now t r out _ _ hstep =>
    subst hout
    refine ⟨(loopStep_goesOn hst).2 hstep, ?_⟩
    have hr := hquiet st r (by simp [hstep])
    simpa [Unrefused] using hr
  | @next st st'' now t r tr out _ _ hstep _ ih =>
    obtain ⟨hknows, hrest⟩ := ih ((loopStep_goesOn hst).1 hstep) hout
    refine ⟨hknows, ?_⟩
    have hr := hquiet st r (by simp [hstep])
    intro r' hr'
    rw [received_cons_time, received_cons_receive, List.mem_cons] at hr'
    rcases hr' with rfl | hr'
    · exact hr
    · exact hrest r' hr'
  | cut => cases hout

/-- A loop reads no more frames of the command than its limit, and none if that is negative. -/
theorem LoopTrace.ownFrames_le_toNat {c : WsCommand} {deadline : ℚ} {st : WsState}
    {tr : List Exchange} {out : LoopEnd} (h : LoopTrace c deadline st tr out)
    (hcount : st.commandMessageCount = 0) :
    ((received tr).filterMap ownFrame?).length ≤ c.collectedLimit.toNat := by
  by_cases hlimit : 0 ≤ c.collectedLimit
  · have hle := h.ownFrames_le (by omega)
    omega
  · cases h with
    | limit | clock | late | cut => simp
    | done hbelow => omega
    | next hbelow => omega

theorem events_le_ownFrames (deliveries : List Delivery) :
    (deliveries.filterMap ownEvent?).length ≤ (deliveries.filterMap ownFrame?).length := by
  have hevents : deliveries.filterMap ownEvent? =
      (deliveries.filterMap ownFrame?).filterMap eventOf := by
    rw [List.filterMap_filterMap]
    rfl
  rw [hevents]
  exact List.length_filterMap_le _ _

/-! ## What a command comes to -/

omit [Runtime] in
theorem runs_bind_ok {α β : Type} {p : Coro α} {f : α → Coro β} {tr : List Exchange} {b : β}
    (h : Runs (Prog.bind p f) tr (.ok b)) :
    ∃ a tr₁ tr₂, Runs p tr₁ (.ok a) ∧ Runs (f a) tr₂ (.ok b) ∧ tr = tr₁ ++ tr₂ := by
  rcases runs_bind_iff.mp h with h | ⟨e, -, he⟩
  · exact h
  · cases he

/-- Waiting for server info leaves a conversation that has only read its first frame. -/
theorem start_of_receiveServerInfo {c : WsCommand} {slug : Str} {tr : List Exchange}
    {out : Except Err (Except Dict WsState)} (h : Runs (receiveServerInfo c slug) tr out)
    {st : WsState} (hout : out = .ok (.ok st)) :
    ∃ info messages, st = { WsState.start with serverInfo := info, messages := messages } := by
  have hok {st' : WsState} {tr : List Exchange}
      (hr : Runs (ret (.ok st') : Coro (Except Dict WsState)) tr out) : st = st' := by
    rw [(runs_ret_iff.mp hr).2] at hout
    simpa using hout.symm
  have herror {payload : Dict} {tr : List Exchange}
      (hr : Runs (ret (.error payload) : Coro (Except Dict WsState)) tr out) : False := by
    rw [(runs_ret_iff.mp hr).2] at hout
    simp at hout
  unfold receiveServerInfo at h
  rcases runs_bind_iff.mp h with ⟨r, tr₁, tr₂, -, h₂, -⟩ | ⟨e, -, rfl⟩
  · split at h₂
    · exact (herror h₂).elim
    · rw [(runs_raise_iff.mp h₂).2] at hout
      cases hout
    · rcases runs_bind_iff.mp h₂ with ⟨data, tr₃, tr₄, -, h₄, -⟩ | ⟨e, -, rfl⟩
      · simp only at h₄
        split_ifs at h₄
        · exact ⟨_, _, hok h₄⟩
        · exact (herror h₄).elim
        · exact ⟨_, _, hok h₄⟩
      · cases hout
    · exact (herror h₂).elim
    · exact (herror h₂).elim
    · exact (herror h₂).elim
    · exact ⟨_, _, hok h₂⟩
    · exact ⟨_, _, hok h₂⟩
  · cases hout

theorem start_of_prepare {hass : Hass} {addon : Dict} {slug url : Str} {c : WsCommand}
    {headers : Headers} {st : WsState} {lead : List Exchange}
    (h : Runs (prepare hass addon slug c) lead (.ok (.ok (url, headers, st)))) :
    ∃ info messages, st = { WsState.start with serverInfo := info, messages := messages } := by
  obtain ⟨route, _, _, -, h₁, -⟩ := runs_bind_ok h
  cases route with
  | error payload => cases (runs_ret_iff.mp h₁).2
  | ok route =>
    obtain ⟨_, _, _, -, h₂, -⟩ := runs_bind_ok h₁
    obtain ⟨r, _, _, hinfo, h₃, -⟩ := runs_bind_ok h₂
    cases r with
    | error payload => cases (runs_ret_iff.mp h₃).2
    | ok st' =>
      obtain ⟨text, _, _, -, h₄, -⟩ := runs_bind_ok h₃
      cases (runs_ret_iff.mp h₄).2
      exact start_of_receiveServerInfo hinfo rfl

/-- A run that failed with its command unsent, or one that sent it. -/
inductive SendRun (tr : List Exchange) (out : Except Err Dict) : Prop
  | unsent : (∀ ev ∈ tr, isSent ev = false) → IsFailure out → SendRun tr out
  | sent {lead x : List Exchange} {text : Str} : (∀ ev ∈ lead, isSend ev = false) →
      tr = lead ++ ⟨.sendStr text, .ok ()⟩ :: x → SendRun tr out

omit [Runtime] in
theorem SendRun.append {lead tr : List Exchange} {out : Except Err Dict}
    (hlead : ∀ ev ∈ lead, isSend ev = false) (h : SendRun tr out) : SendRun (lead ++ tr) out := by
  cases h with
  | unsent hsent hout =>
    refine .unsent (fun ev hev => ?_) hout
    rcases List.mem_append.mp hev with hev | hev
    · exact isSent_of_isSend (hlead ev hev)
    · exact hsent ev hev
  | sent hquiet htr =>
    refine .sent (fun ev hev => ?_) (by rw [htr, List.append_assoc])
    rcases List.mem_append.mp hev with hev | hev
    · exact hlead ev hev
    · exact hquiet ev hev

theorem sendRun_of_converseWs {fuel : ℕ} {c : WsCommand} {slug url : Str} {headers : Headers}
    {tr : List Exchange} {out : Except Err Dict}
    (h : Runs (converseWs fuel c slug url headers) tr out) : SendRun tr out := by
  have hquiet {tr : List Exchange} (htr : ∀ ev ∈ tr, isSend ev = false) (hout : IsFailure out) :
      SendRun tr out := .unsent (fun ev hev => isSent_of_isSend (htr ev hev)) hout
  unfold converseWs at h
  rcases runs_bind_iff.mp h with ⟨_, tr₁, tr₂, h₁, h₂, rfl⟩ | ⟨e, h₁, rfl⟩
  · refine .append (isSend_of_issues (Issues.perform fun _ => rfl) h₁) ?_
    rcases runs_bind_iff.mp h₂ with ⟨r, tr₃, tr₄, h₃, h₄, rfl⟩ | ⟨e, h₃, rfl⟩
    · have hinfo := isSend_of_issues (issues_receiveServerInfo (fun _ _ => rfl) c slug) h₃
      refine .append hinfo ?_
      cases r with
      | error payload =>
        obtain ⟨rfl, rfl⟩ := runs_ret_iff.mp h₄
        exact hquiet (by simp) (isFailure_ok ((runs_receiveServerInfo h₃).failed payload rfl))
      | ok st =>
        -- the command is the first text
        have h₅ := (congrArg (Runs · _ out) (exchange_then_reply fuel c slug url headers st)).mp h₄
        rcases runs_bind_iff.mp h₅ with ⟨text, tr₅, tr₆, h₆, h₇, rfl⟩ | ⟨e, h₆, rfl⟩
        · obtain ⟨rfl, -⟩ := runs_ofExcept_iff.mp h₆
          rw [List.nil_append]
          rcases runs_bind_iff.mp h₇ with ⟨_, tr₇, tr₈, h₈, -, rfl⟩ | ⟨e, h₈, rfl⟩
          · obtain rfl := runs_await_iff.mp h₈
            exact @SendRun.sent _ _ [] _ _ (by simp) rfl
          · obtain rfl := runs_await_iff.mp h₈
            exact .unsent (by simp [isSent]) (isFailure_error e)
        · obtain ⟨rfl, -⟩ := runs_ofExcept_iff.mp h₆
          exact hquiet (by simp) (isFailure_error e)
    · exact hquiet (isSend_of_issues (issues_receiveServerInfo (fun _ _ => rfl) c slug) h₃)
        (isFailure_error e)
  · exact hquiet (isSend_of_issues (Issues.perform fun _ => rfl) h₁) (isFailure_error e)

theorem sendRun_of_call {fuel : ℕ} {hass : Hass} {addon : Dict} {slug : Str} {c : WsCommand}
    {tr : List Exchange} {out : Except Err Dict}
    (h : Runs (callDeviceBuilderWsCommand fuel hass addon slug c) tr out) : SendRun tr out := by
  have hroute {tr : List Exchange} {route : Except Err (Except Dict (Str × Headers))}
      (h : Runs (routeForAddon hass addon "ws" none true) tr route) :
      ∀ ev ∈ tr, isSend ev = false :=
    isSend_of_issues (issues_routeForAddon (fun _ => rfl)
      (fun _ => isNoSend_of_isSupervisorCall) _ _ _ _ _) h
  unfold callDeviceBuilderWsCommand at h
  rcases runs_bind_iff.mp h with ⟨route, tr₁, tr₂, h₁, h₂, rfl⟩ | ⟨e, h₁, rfl⟩
  · refine .append (hroute h₁) ?_
    cases route with
    | error payload =>
      obtain ⟨rfl, rfl⟩ := runs_ret_iff.mp h₂
      exact .unsent (by simp) (isFailure_ok (runs_routeForAddon_error h₁))
    | ok route =>
      rcases runs_tryCatch_iff.mp h₂ with ⟨d, h₃, rfl⟩ | ⟨e, tr₃, tr₄, h₃, h₄, rfl⟩
      · exact sendRun_of_converseWs h₃
      · obtain ⟨rfl, hout⟩ := runs_wsHandler h₄
        rw [List.append_nil]
        cases sendRun_of_converseWs h₃ with
        | unsent hsent => exact .unsent hsent hout
        | sent hlead htr => exact .sent hlead htr
  · exact .unsent (fun ev hev => isSent_of_isSend (hroute h₁ ev hev)) (isFailure_error e)

/-- A command fails before its conversation, or it is the conversation. -/
theorem call_of_runs {fuel : ℕ} {hass : Hass} {slug : Option Str} {c : WsCommand}
    {tr : List Exchange} {out : Except Err Dict}
    (h : Runs (deviceBuilderCommand fuel hass slug c) tr out) :
    ((∀ ev ∈ tr, isSend ev = false) ∧ IsFailure out) ∨
      ∃ addon slug' lead tr', (∀ ev ∈ lead, isSend ev = false) ∧ tr = lead ++ tr' ∧
        Runs (callDeviceBuilderWsCommand fuel hass addon slug' c) tr' out := by
  have hresolve {tr : List Exchange} {out : Except Err Dict}
      (h : Runs (resolveEsphomeAddon slug) tr out) : ∀ ev ∈ tr, isSend ev = false :=
    isSend_of_issues (Issues.mono (fun _ => isNoSend_of_isRead) (issues_resolveEsphomeAddon _)) h
  unfold deviceBuilderCommand at h
  rcases runs_bind_iff.mp h with ⟨resolved, tr₁, tr₂, h₁, h₂, rfl⟩ | ⟨e, h₁, rfl⟩
  · have hlead := hresolve h₁
    by_cases hr : isSuccess resolved = true
    · rw [if_neg (by simp [hr])] at h₂
      split at h₂
      · simp only at h₂
        split_ifs at h₂ with hstate
        · obtain ⟨rfl, rfl⟩ := runs_ret_iff.mp h₂
          exact .inl ⟨by simpa using hlead, isFailure_ok (isSuccess_error _ _ _)⟩
        · exact .inr ⟨_, _, _, _, hlead, rfl, h₂⟩
      · obtain ⟨rfl, rfl⟩ := runs_raise_iff.mp h₂
        exact .inl ⟨by simpa using hlead, isFailure_error _⟩
    · rw [if_pos (by simp [hr])] at h₂
      obtain ⟨rfl, rfl⟩ := runs_ret_iff.mp h₂
      exact .inl ⟨by simpa using hlead, isFailure_ok (by simpa using hr)⟩
  · exact .inl ⟨hresolve h₁, isFailure_error e⟩

/-- The command was sent, no frame of the command refused it, and nothing behind it raises. -/
def Heard (tr : List Exchange) : Prop :=
  (∃ ev ∈ tr, isSent ev = true) ∧ Unrefused (replies tr) ∧ Mild (replies tr)

/-- The state of a finished conversation: the events of the command that were delivered, within
the limit, and how they end. -/
structure Collected (c : WsCommand) (x : List Exchange) (st : WsState) : Prop where
  events : st.events = (received x).filterMap ownEvent?
  bounded : st.events.length ≤ c.collectedLimit.toNat
  ends : KnowsEnd st

theorem AfterTrace.heard {c : WsCommand} {slug url : Str} {headers : Headers} {st : WsState}
    {x : List Exchange} {out : Except Err Dict} (h : AfterTrace c slug url headers st x out)
    (hstart : ∃ info messages,
      st = { WsState.start with serverInfo := info, messages := messages })
    (hout : out ≠ .error .diverged) :
    (Unrefused x ∧ Mild x ∧ ∃ st', Collected c x st' ∧
      out = .ok (wsResponse c slug url headers st')) ∨
    (¬(Unrefused x ∧ Mild x) ∧ IsFailure out) := by
  have hreason : str "timeout" ≠ str "event_result" := by decide
  have hst : GoesOn st := by
    obtain ⟨info, messages, rfl⟩ := hstart
    exact ⟨by simp [WsState.start], rfl, hreason⟩
  have hempty : st.events = [] ∧ st.commandMessageCount = 0 := by
    obtain ⟨info, messages, rfl⟩ := hstart
    exact ⟨rfl, rfl⟩
  have htime {now : ℚ} : IsMild ⟨.time, .ok now⟩ := trivial
  cases h with
  | clock e =>
    exact .inr ⟨fun hall => hall.2 ⟨.time, .error e⟩ List.mem_cons_self, isFailure_error e⟩
  | @raised start tr e hloop =>
    refine .inr ⟨?_, isFailure_error e⟩
    rintro ⟨hun, hmild⟩
    rcases hloop.events hun (fun he => hout (by cases he; rfl)) with ⟨-, _, he, -⟩ | ⟨hnot, -⟩
    · cases he
    · exact hnot ((mild_cons _ _).mp hmild).2
  | @refused start tr payload hloop =>
    refine .inr ⟨fun hall => hloop.not_refused hall.1, ?_⟩
    exact isFailure_ok (hloop.loopRun.failed payload rfl)
  | @closed start tr tr' st' out hloop hclosing =>
    obtain ⟨hends, hun⟩ := hloop.knowsEnd hst rfl
    have hreceived : received (⟨.time, .ok start⟩ :: (tr ++ tr')) = received tr := by
      rw [received_cons_time, received_append, received_of_closing hclosing, List.append_nil]
    have hun' : Unrefused (⟨.time, .ok start⟩ :: (tr ++ tr')) := by
      unfold Unrefused
      rw [hreceived]
      exact hun
    rcases hloop.events hun nofun with ⟨hmild, _, he, hevents⟩ | ⟨-, e, he⟩
    · cases he
      rcases closing_mild hclosing with ⟨hmild', rfl⟩ | ⟨hnot, e, rfl⟩
      · refine .inl ⟨hun', ?_, Addon.limitReached c st', ⟨?_, ?_, hends.limitReached c⟩, rfl⟩
        · rw [mild_cons, mild_append]
          exact ⟨htime, hmild, hmild'⟩
        all_goals
          have hsame : (Addon.limitReached c st').events = (received tr).filterMap ownEvent? := by
            rw [← List.nil_append (List.filterMap _ _), ← hempty.1, ← hevents, Addon.limitReached]
            split_ifs <;> rfl
        · rw [hreceived, hsame]
        · rw [hsame]
          exact (events_le_ownFrames _).trans (hloop.ownFrames_le_toNat hempty.2)
      · refine .inr ⟨fun hall => hnot ?_, isFailure_error e⟩
        exact ((mild_append _ _).mp ((mild_cons _ _).mp hall.2).2).2
    · cases he

/-- What a command comes to: it succeeds exactly when it was heard, with what the conversation has
collected behind it. -/
theorem heard_of_runs {fuel : ℕ} {hass : Hass} {slug : Option Str} {c : WsCommand}
    {tr : List Exchange} {out : Except Err Dict}
    (h : Runs (deviceBuilderCommand fuel hass slug c) tr out) (hend : out ≠ .error .diverged) :
    (Heard tr ∧ ∃ slug' url headers st, Collected c (replies tr) st ∧
      out = .ok (wsResponse c slug' url headers st)) ∨ (¬Heard tr ∧ IsFailure out) := by
  have hunsent {tr : List Exchange} (htr : ∀ ev ∈ tr, isSent ev = false) : ¬Heard tr := by
    rintro ⟨⟨ev, hev, hs⟩, -⟩
    simp [htr ev hev] at hs
  rcases call_of_runs h with ⟨hlead, hfail⟩ | ⟨addon, slug', lead, tr', hlead, rfl, hcall⟩
  · exact .inr ⟨hunsent fun ev hev => isSent_of_isSend (hlead ev hev), hfail⟩
  · cases sendRun_of_call hcall with
    | unsent htr hfail =>
      refine .inr ⟨hunsent fun ev hev => ?_, hfail⟩
      rcases List.mem_append.mp hev with hev | hev
      · exact isSent_of_isSend (hlead ev hev)
      · exact htr ev hev
    | @sent lead' x text hlead' htr =>
      subst htr
      obtain ⟨url, headers, st, out₁, hprep, hafter, hhandled⟩ := sent_of_runs hlead' hcall
      have hreplies : replies (lead ++ (lead' ++ ⟨.sendStr text, .ok ()⟩ :: x)) = x := by
        rw [← List.append_assoc]
        refine replies_append _ (fun ev hev => ?_) rfl x
        rcases List.mem_append.mp hev with hev | hev
        · exact hlead ev hev
        · exact hlead' ev hev
      have hsent : ∃ ev ∈ lead ++ (lead' ++ ⟨.sendStr text, .ok ()⟩ :: x), isSent ev = true :=
        ⟨⟨.sendStr text, .ok ()⟩, by simp, rfl⟩
      unfold Heard
      rw [hreplies]
      have hout₁ : out₁ ≠ .error .diverged := mt (handledWs_diverged hhandled).mpr hend
      rcases (afterTrace_of_runs hafter).heard (start_of_prepare hprep) hout₁ with
        ⟨hun, hmild, st', hst', rfl⟩ | ⟨hnot, hfail⟩
      · obtain ⟨-, rfl⟩ := runs_ret_iff.mp hhandled
        exact .inl ⟨⟨hsent, hun, hmild⟩, slug', url, headers, st', hst', rfl⟩
      · refine .inr ⟨fun hall => hnot hall.2, ?_⟩
        cases out₁ with
        | ok d => exact (runs_ret_iff.mp hhandled).2 ▸ hfail
        | error e => exact (runs_wsHandler hhandled).2

/-! ## The tools -/

/-- The tools that follow a stream, with the arguments that are their own. -/
inductive StreamTool where
  | run (command : Str) (args : Dict)
  | follow (jobId : Str)

/-- A call of a tool. -/
def StreamTool.call (fuel : ℕ) (hass : Hass) (slug : Option Str) (timeout : ℤ) (debug : Bool)
    (messageLimit : ℤ) : StreamTool → Coro Dict
  | run command args =>
    runDeviceBuilderStream fuel hass slug command args timeout debug messageLimit
  | follow jobId => followDeviceBuilderFirmwareJob fuel hass slug jobId messageLimit timeout debug

/-- The output lines of the events of a stream. A followed job whose stream has no output shows the
one it ended with. -/
def StreamTool.output (tool : StreamTool) (events : List Json) (terminal : Json) : List Json :=
  match tool, events.filterMap outputData? with
  | follow _, [] => jobOutput (terminal.get "data")
  | _, output => output

/-- What a tool reports of the events of its stream. -/
structure Reports (tool : StreamTool) (messageLimit : ℤ) (events : List Json) (d : Dict) : Prop where
  output : dictGet d "output" = .arr (tool.output events (dictGet d "terminal_event"))
  count : dictGet d "output_line_count" =
    .int (tool.output events (dictGet d "terminal_event")).length
  terminal : TerminatedBy events (dictGet d "terminal_event")
  closed : dictGet d "closed_by" = .lit "event_result" ↔ ∃ event ∈ events, isResultEvent event
  bounded : events.length ≤ (if messageLimit = 0 then 1000 else min 1000 messageLimit).toNat
  job : ∀ jobId, tool = .follow jobId →
    dictGet d "job" = (dictGet d "terminal_event").get "data" ∧
      dictGet d "exit_code" = (dictGet d "job").get "exit_code"

omit [Runtime] in
theorem responseEvents_wsResponse (c : WsCommand) (slug url : Str) (headers : Headers)
    (st : WsState) :
    responseEvents (wsResponse c slug url headers st) = .ok st.events := by
  have hevents : dictGet (wsResponse c slug url headers st) "events" = .arr st.events := by
    simp [wsResponse, success, dictGet, dictGet?_cons]
  rw [responseEvents, hevents]
  cases hst : st.events with
  | nil => rfl
  | cons event events => rfl

omit [Runtime] in
theorem wsResponse_end (c : WsCommand) (slug url : Str) (headers : Headers) (st : WsState) :
    dictGet (wsResponse c slug url headers st) "terminal_event" = st.terminalEvent ∧
      dictGet (wsResponse c slug url headers st) "closed_by" = .str st.closeReason := by
  constructor <;> simp [wsResponse, success, dictGet, dictGet?_cons]

/-- The reply of a tool. -/
def StreamTool.reply (tool : StreamTool) (output : List Json) (terminal closedBy : Json) : Dict :=
  match tool with
  | run command _ => streamReply command output terminal closedBy
  | follow jobId => followReply jobId output terminal closedBy

/-- The reply of a tool to a finished conversation. -/
def StreamTool.replyTo (tool : StreamTool) (st : WsState) : Dict :=
  tool.reply (tool.output st.events st.terminalEvent) st.terminalEvent (.str st.closeReason)

/-- A tool is a streaming command whose response is turned into its reply. -/
theorem StreamTool.exists_finish (tool : StreamTool) (fuel : ℕ) (hass : Hass) (slug : Option Str)
    (timeout : ℤ) (debug : Bool) (messageLimit : ℤ) :
    ∃ c finish, tool.call fuel hass slug timeout debug messageLimit =
        requestThen fuel hass slug c finish ∧
      c.collectedLimit = (if messageLimit = 0 then 1000 else min 1000 messageLimit) ∧
      ∀ slug' url headers st, finish (wsResponse c slug' url headers st) = .ok (tool.replyTo st) := by
  have hlimit (command : Str) (args : Dict) :
      (streamCommand command args timeout debug messageLimit).collectedLimit =
        if messageLimit = 0 then 1000 else min 1000 messageLimit := by
    unfold WsCommand.collectedLimit streamCommand maxWsMessages
    simp only
    split_ifs <;> rfl
  cases tool with
  | run command args =>
    refine ⟨_, _, rfl, hlimit _ _, fun slug' url headers st => ?_⟩
    obtain ⟨hterminal, hclosed⟩ := wsResponse_end
      (streamCommand command args timeout debug messageLimit) slug' url headers st
    rw [finishStream, responseEvents_wsResponse, except_ok_bind, hterminal, hclosed]
    rfl
  | follow jobId =>
    refine ⟨_, _, rfl, hlimit _ _, fun slug' url headers st => ?_⟩
    obtain ⟨hterminal, hclosed⟩ := wsResponse_end
      (streamCommand "firmware/follow_job" [(str "job_id", .str jobId)] timeout debug messageLimit)
      slug' url headers st
    rw [finishFollow, responseEvents_wsResponse, except_ok_bind, hterminal, hclosed]
    unfold StreamTool.replyTo StreamTool.output
    cases st.events.filterMap outputData? <;> rfl

omit [Runtime] in
theorem isSuccess_reply (tool : StreamTool) (output : List Json) (terminal closedBy : Json) :
    isSuccess (tool.reply output terminal closedBy) = true := by
  cases tool <;> exact isSuccess_success _

/-- The reply to a finished conversation is a report of its events. -/
theorem reports_replyTo (tool : StreamTool) {c : WsCommand} {messageLimit : ℤ}
    (hlimit : c.collectedLimit = if messageLimit = 0 then 1000 else min 1000 messageLimit)
    {x : List Exchange} {st : WsState} (hst : Collected c x st) :
    Reports tool messageLimit ((received x).filterMap ownEvent?) (tool.replyTo st) := by
  have hbounded := hst.bounded
  rw [hlimit] at hbounded
  have hclosed : Json.str st.closeReason = .lit "event_result" ↔
      ∃ event ∈ st.events, isResultEvent event := by
    rw [← hst.ends.closed]
    exact ⟨Json.str.inj, congrArg _⟩
  rw [← hst.events]
  unfold StreamTool.replyTo
  generalize hterminal : st.terminalEvent = terminal
  have hends : TerminatedBy st.events terminal := hterminal ▸ hst.ends.terminated
  cases tool with
  | run command args =>
    refine ⟨?_, ?_, ?_, ?_, hbounded, nofun⟩ <;>
      simp [StreamTool.reply, streamReply, success, dictGet, dictGet?_cons, hends, hclosed]
  | follow jobId =>
    refine ⟨?_, ?_, ?_, ?_, hbounded, fun _ _ => ?_⟩ <;>
      simp [StreamTool.reply, followReply, success, dictGet, dictGet?_cons, hends, hclosed]

/-- In a run whose loop was followed to its end, a streaming tool succeeds exactly when its command
was sent, no frame of the command refused it and nothing behind it raised; and it reports the
events of the command that were delivered, in order, up to the one they end with. -/
theorem streamTool_reports {tool : StreamTool} {fuel : ℕ} {hass : Hass} {slug : Option Str}
    {timeout : ℤ} {debug : Bool} {messageLimit : ℤ} {tr : List Exchange} {out : Except Err Dict}
    (h : Runs (tool.call fuel hass slug timeout debug messageLimit) tr out)
    (hend : out ≠ .error .diverged) :
    ((∃ d, out = .ok d ∧ isSuccess d = true) ↔ Heard tr) ∧
      ∀ d, out = .ok d → isSuccess d = true →
        Reports tool messageLimit ((received (replies tr)).filterMap ownEvent?) d := by
  obtain ⟨c, finish, hcall, hlimit, hfinish⟩ :=
    tool.exists_finish fuel hass slug timeout debug messageLimit
  rw [hcall] at h
  have hfailed {out : Except Err Dict} (hout : IsFailure out) :
      ¬∃ d, out = .ok d ∧ isSuccess d = true := by
    rintro ⟨d, hd, hs⟩
    simp [hout d hd] at hs
  unfold requestThen at h
  rcases runs_bind_iff.mp h with ⟨response, tr₁, tr₂, h₁, h₂, rfl⟩ | ⟨e, h₁, rfl⟩
  · rcases heard_of_runs h₁ nofun with ⟨hheard, slug', url, headers, st, hst, he⟩ | ⟨hnot, hfail⟩
    · cases he
      have hs : isSuccess (wsResponse c slug' url headers st) = true := isSuccess_success _
      rw [if_neg (by simp [hs]), hfinish] at h₂
      obtain ⟨rfl, rfl⟩ := runs_ofExcept_iff.mp h₂
      rw [List.append_nil]
      refine ⟨iff_of_true ⟨_, rfl, isSuccess_reply _ _ _ _⟩ hheard, fun d hd _ => ?_⟩
      obtain rfl := Except.ok.inj hd
      exact reports_replyTo tool hlimit hst
    · have hs := hfail response rfl
      rw [if_pos (by simp [hs])] at h₂
      obtain ⟨rfl, rfl⟩ := runs_ret_iff.mp h₂
      rw [List.append_nil]
      refine ⟨iff_of_false (hfailed hfail) hnot, fun d hd hd' => ?_⟩
      exact absurd ⟨d, hd, hd'⟩ (hfailed hfail)
  · rcases heard_of_runs h₁ hend with ⟨-, _, _, _, _, -, he⟩ | ⟨hnot, hfail⟩
    · cases he
    · exact ⟨iff_of_false (hfailed hfail) hnot, nofun⟩

end

/-- A frame of the command that is an event. -/
def eventText (event : String) (data : Json) : Str :=
  dumpsText .spaced (.dict [("message_id", .str commandId), ("event", .lit event), ("data", data)])

/-- An environment in which the add-on is running and a job says one line and ends. -/
def followedAddon (past : List Exchange) : (c : Cmd) → Except Err c.Ans
  | .receive _ => match past.countP isReceive with
    | 0 => .ok .other
    | 1 => .ok (.text (eventText "output" (.lit "Linking")))
    | _ => .ok (.text (eventText "result" (.dict [("exit_code", .int 0)])))
  | c => silentAddon past c

/-- A job that is followed. -/
def followJob : Coro Dict :=
  @StreamTool.call asciiRuntime 2 ⟨none⟩ (some (str "esphome")) 1800 false 500 (.follow "1")

theorem succeeded_followJob : succeeded (exec followedAddon followJob []).2 = true := by
  decide +kernel

/-- A job that is followed to its end is reported with its output and its exit code. -/
theorem streamTool_reports_followJob :
    letI := asciiRuntime
    ∃ tr d, Runs followJob tr (.ok d) ∧ isSuccess d = true ∧
      Reports (.follow "1") 500 ((received (replies tr)).filterMap ownEvent?) d := by
  let := asciiRuntime
  obtain ⟨tr, hrun, -⟩ := runs_exec followedAddon followJob []
  have hsuccess := succeeded_followJob
  generalize (exec followedAddon followJob []).2 = out at hrun hsuccess
  cases out with
  | error e => cases hsuccess
  | ok d => exact ⟨tr, d, hrun, hsuccess, (streamTool_reports hrun nofun).2 d rfl hsuccess⟩

end EsphomeMcp.Addon
