import EsphomeMcp.Addon.DeviceBuilderAnswers
import EsphomeMcp.Python.Feed

/-!
# The receive loop as a machine

Only what the socket delivers changes what the receive loop has collected. As long as the clock is
before the deadline a run of the loop is the machine `boundedStep` fed with the deliveries
(`LoopTrace.feed_received`).
-/

namespace EsphomeMcp.Addon

open Py Py.Prog

/-- The delivery of a receive. -/
def received? : Exchange → Option Delivery
  | ⟨.receive _, r⟩ => some r
  | _ => none

/-- What the socket delivered, in order. -/
def received (tr : List Exchange) : List Delivery := tr.filterMap received?

@[simp] theorem received_nil : received [] = [] := rfl

@[simp] theorem received_cons_receive (t : ℚ) (r : Delivery) (tr : List Exchange) :
    received (⟨.receive t, r⟩ :: tr) = r :: received tr := rfl

@[simp] theorem received_cons_time (r : Except Err ℚ) (tr : List Exchange) :
    received (⟨.time, r⟩ :: tr) = received tr := rfl

@[simp] theorem received_cons_sendStr (text : Str) (r : Except Err Unit) (tr : List Exchange) :
    received (⟨.sendStr text, r⟩ :: tr) = received tr := rfl

theorem received_append (tr tr' : List Exchange) :
    received (tr ++ tr') = received tr ++ received tr' := List.filterMap_append

section

variable [Runtime]

/-! ## The frames of the command -/

/-- A dict with the id of the command. -/
def ownOf : Json → Option Dict
  | .obj d => if dictGet d "message_id" = .str commandId then some d else none
  | _ => none

/-- The frame of the command that was delivered. -/
def ownFrame? : Delivery → Option Dict
  | .ok (.text text) => (loadsOrText text).toOption.bind ownOf
  | _ => none

/-- A dict that is an event. -/
def eventOf (d : Dict) : Option Json := if dictHas d "event" then some (.obj d) else none

/-- The frame of the command that was delivered, if it is an event. -/
def ownEvent? (r : Delivery) : Option Json := (ownFrame? r).bind eventOf

omit [Runtime] in
theorem eq_obj_of_ownOf {data : Json} {d : Dict} (h : ownOf data = some d) :
    data = .obj d ∧ dictGet d "message_id" = .str commandId := by
  cases data with
  | obj d' =>
    rw [ownOf] at h
    split_ifs at h with hid
    cases h
    exact ⟨rfl, hid⟩
  | _ => cases h

/-- A frame that is not the command's leaves everything but the messages. -/
theorem handleFrame_of_ownOf {c : WsCommand} {st : WsState} {data : Json} (h : ownOf data = none) :
    handleFrame c st data = .ok (.next { st with messages := st.messages ++ [data] }) := by
  cases data with
  | obj d =>
    have hid : dictGet d "message_id" ≠ .str commandId := fun hid => by simp [ownOf, hid] at h
    rw [handleFrame]
    simp only [if_pos hid]
  | _ => rfl

/-- What the loop has collected when it goes on, or stops, behind a frame. -/
theorem handleFrame_collects {c : WsCommand} {st st' : WsState} {data : Json}
    (h : handleFrame c st data = .ok (.next st') ∨ handleFrame c st data = .ok (.stop st')) :
    st'.commandMessageCount = st.commandMessageCount + (ownOf data).toList.length ∧
      st'.events = st.events ++ ((ownOf data).bind eventOf).toList := by
  cases hown : ownOf data with
  | none =>
    rw [handleFrame_of_ownOf hown] at h
    obtain rfl : st' = { st with messages := st.messages ++ [data] } := by
      rcases h with h | h <;> cases h
      rfl
    exact ⟨rfl, (List.append_nil _).symm⟩
  | some d =>
    obtain ⟨rfl, hid⟩ := eq_obj_of_ownOf hown
    unfold handleFrame at h
    simp only [hid, ne_eq, not_true_eq_false, if_false] at h
    by_cases herr : dictHas d "error_code" = true
    · rw [if_pos herr] at h
      rcases h with h | h <;> cases h
    rw [if_neg herr] at h
    by_cases hevent : dictHas d "event" = true
    · rw [if_pos hevent] at h
      rw [Option.bind_some, eventOf, if_pos hevent]
      split_ifs at h <;> rcases h with h | h <;> cases h <;> exact ⟨rfl, rfl⟩
    · rw [if_neg hevent] at h
      rw [Option.bind_some, eventOf, if_neg hevent]
      split_ifs at h <;> rcases h with h | h <;> cases h <;>
        exact ⟨rfl, (List.append_nil _).symm⟩

/-- What the loop has collected when it goes on, or stops, behind a delivery. -/
theorem loopStep_collects {c : WsCommand} {st st' : WsState} {r : Delivery}
    (h : loopStep c st r = .inl st' ∨ loopStep c st r = .inr (.ok (.ok st'))) :
    st'.commandMessageCount = st.commandMessageCount + (ownFrame? r).toList.length ∧
      st'.events = st.events ++ (ownEvent? r).toList := by
  have hquiet {r : Delivery} (hr : ownFrame? r = none) (hcount : st'.commandMessageCount =
      st.commandMessageCount) (hevents : st'.events = st.events) :
      st'.commandMessageCount = st.commandMessageCount + (ownFrame? r).toList.length ∧
        st'.events = st.events ++ (ownEvent? r).toList := by
    rw [ownEvent?, hr]
    exact ⟨hcount, hevents.trans (List.append_nil _).symm⟩
  rcases r with (⟨kind, text⟩ | _) | m
  · cases kind <;> rcases h with h | h <;> cases h
    exact hquiet rfl rfl rfl
  · rcases h with h | h <;> cases h
  cases m with
  | text text =>
    unfold loopStep at h
    cases hload : loadsOrText text with
    | error e => rcases h with h | h <;> simp [hload] at h
    | ok data =>
      have hframe : handleFrame c st data = .ok (.next st') ∨
          handleFrame c st data = .ok (.stop st') := by
        cases hf : handleFrame c st data with
        | error e => rcases h with h | h <;> simp [hload, hf] at h
        | ok step =>
          cases step with
          | next st'' =>
            rcases h with h | h <;> simp only [hload, hf] at h <;> cases h
            exact .inl rfl
          | stop st'' =>
            rcases h with h | h <;> simp only [hload, hf] at h <;> cases h
            exact .inr rfl
          | fail payload => rcases h with h | h <;> simp [hload, hf] at h
      simpa only [ownEvent?, ownFrame?, hload, Except.toOption, Option.bind_some] using
        handleFrame_collects hframe
  | _ =>
    rcases h with h | h <;> cases h
    exact hquiet rfl rfl rfl

/-- The loop reads no more frames of the command than its limit. -/
theorem LoopTrace.ownFrames_le {c : WsCommand} {deadline : ℚ} {st : WsState} {tr : List Exchange}
    {out : LoopEnd} (h : LoopTrace c deadline st tr out)
    (hst : (st.commandMessageCount : ℤ) ≤ c.collectedLimit) :
    st.commandMessageCount + ((received tr).filterMap ownFrame?).length ≤ c.collectedLimit := by
  have hlength (r : Delivery) : (ownFrame? r).toList.length ≤ 1 := by
    cases ownFrame? r <;> simp
  induction h with
  | limit => simpa using hst
  | clock => simpa using hst
  | late => simpa using hst
  | @done _ _ _ r _ hlimit =>
    have h1 := hlength r
    simp only [received_cons_time, received_cons_receive, received_nil, List.filterMap_cons]
    cases hr : ownFrame? r <;> simp <;> omega
  | @next _ st' _ _ r tr _ hlimit _ hstep _ ih =>
    obtain ⟨hcount, -⟩ := loopStep_collects (.inl hstep)
    have h1 := hlength r
    have := ih (by omega)
    simp only [received_cons_time, received_cons_receive, List.filterMap_cons]
    cases hr : ownFrame? r <;> simp [hr] at hcount ⊢ <;> omega
  | cut => simpa using hst

/-! ## As long as there is time -/

/-- The step of a loop that ends when a delivery has used up its limit. -/
def boundedStep (c : WsCommand) (st : WsState) (r : Delivery) : WsState ⊕ LoopEnd :=
  match loopStep c st r with
  | .inl st =>
    if c.collectedLimit ≤ st.commandMessageCount then .inr (.ok (.ok st)) else .inl st
  | .inr out => .inr out

/-- Every look at the clock is before the deadline. -/
def Before (deadline : ℚ) (tr : List Exchange) : Prop :=
  ∀ r : Except Err ℚ, (⟨.time, r⟩ : Exchange) ∈ tr → ∃ now, r = .ok now ∧ now < deadline

/-- Before the deadline the loop is fed by what the socket delivers and by nothing else. -/
theorem LoopTrace.feed_received {c : WsCommand} {deadline : ℚ} {st : WsState}
    {tr : List Exchange} {out : LoopEnd} (h : LoopTrace c deadline st tr out)
    (hst : (st.commandMessageCount : ℤ) < c.collectedLimit) (htime : Before deadline tr)
    (hout : out ≠ .error .diverged) : feed (boundedStep c) st (received tr) = .inr out := by
  induction h with
  | limit hlimit => omega
  | clock e =>
    obtain ⟨now, he, -⟩ := htime _ List.mem_cons_self
    cases he
  | late hlate =>
    obtain ⟨now, he, hnow⟩ := htime _ List.mem_cons_self
    cases he
    exact absurd hnow (not_lt.mpr hlate)
  | done _ _ hstep =>
    simp only [received_cons_time, received_cons_receive, received_nil, feed, boundedStep, hstep]
  | @next _ st' _ _ _ tr out _ _ hstep hrest ih =>
    simp only [received_cons_time, received_cons_receive, feed, boundedStep, hstep]
    have hrest' : Before deadline tr := fun r hr =>
      htime r (List.mem_cons_of_mem _ (List.mem_cons_of_mem _ hr))
    by_cases hlimit : c.collectedLimit ≤ st'.commandMessageCount
    · rw [if_pos hlimit]
      cases hrest with
      | limit => rfl
      | clock e =>
        obtain ⟨now, he, -⟩ := hrest' _ List.mem_cons_self
        cases he
      | late => rfl
      | done hbelow => omega
      | next hbelow => omega
      | cut => exact absurd rfl hout
    · rw [if_neg hlimit]
      exact ih (by omega) hrest' hout
  | cut => exact absurd rfl hout

/-! ## Behind the command -/

/-- The conversation up to the command: the route, the server info and the text to send. -/
def prepare (hass : Hass) (addon : Dict) (slug : Str) (c : WsCommand) :
    Coro (Except Dict (Str × Headers × WsState)) := do
  match ← routeForAddon hass addon "ws" none true with
  | .error payload => return .error payload
  | .ok (url, headers) =>
    await (.wsConnect url headers)
    match ← receiveServerInfo c slug with
    | .error payload => return .error payload
    | .ok st =>
      let _ ← ofExcept ((dumps .spaced c.payload).mapError jsonErr)
      return .ok (url, headers, st)

/-- What is left of the conversation when the loop has ended. -/
def closing (c : WsCommand) (slug url : Str) (headers : Headers) (st : WsState) : Coro Dict := do
  sendStop c
  await .wsClose
  return wsResponse c slug url headers (limitReached c st)

/-- The conversation from the sent command on. -/
def afterSend (fuel : ℕ) (c : WsCommand) (slug url : Str) (headers : Headers) (st : WsState) :
    Coro Dict := do
  let start ← await .time
  match ← receiveLoop c (start + c.timeout) fuel st with
  | .error payload => return payload
  | .ok st => closing c slug url headers st

/-- The reply to the caller. -/
def handledWs (c : WsCommand) (slug : Str) : Except Err Dict → Coro Dict
  | .ok d => return d
  | .error e => wsHandler c slug e

omit [Runtime] in
/-- What is exchanged before the first text is a part of the lead. -/
theorem lead_of_append {tr₁ tr₂ lead x : List Exchange} {ev : Exchange}
    (htr : tr₁ ++ tr₂ = lead ++ ev :: x) (hev : isSend ev = true)
    (hquiet : ∀ ev ∈ tr₁, isSend ev = false) :
    ∃ lead', lead = tr₁ ++ lead' ∧ tr₂ = lead' ++ ev :: x := by
  rcases List.append_eq_append_iff.mp htr with ⟨lead', hlead, htr₂⟩ | ⟨mid, htr₁, hmid⟩
  · exact ⟨lead', hlead, htr₂⟩
  · cases mid with
    | nil =>
      refine ⟨[], ?_, by simpa using hmid.symm⟩
      simpa using htr₁.symm
    | cons a mid =>
      obtain ⟨rfl, -⟩ := List.cons.inj hmid
      rw [hquiet ev (by simp [htr₁])] at hev
      cases hev

/-- The conversation behind the server info sends the command first. -/
theorem exchange_then_reply (fuel : ℕ) (c : WsCommand) (slug url : Str) (headers : Headers)
    (st : WsState) :
    (Prog.bind (exchangeCommand fuel c st) fun r =>
      match r with
      | .error payload => ret payload
      | .ok st => ret (wsResponse c slug url headers st)) =
    Prog.bind (ofExcept ((dumps .spaced c.payload).mapError jsonErr)) fun text =>
      Prog.bind (await (.sendStr text)) fun _ => afterSend fuel c slug url headers st := by
  unfold exchangeCommand afterSend closing
  simp only [bind_eq, bind_assoc]
  congr 1
  funext text
  congr 1
  funext _
  congr 1
  funext start
  congr 1
  funext r
  cases r with
  | error payload => rfl
  | ok st =>
    simp only [bind_assoc]
    rfl

/-- A run of the conversation whose command was sent. -/
theorem sent_of_converseWs {fuel : ℕ} {c : WsCommand} {slug url text : Str} {headers : Headers}
    {lead x : List Exchange} {out : Except Err Dict} (hlead : ∀ ev ∈ lead, isSend ev = false)
    (h : Runs (converseWs fuel c slug url headers) (lead ++ ⟨.sendStr text, .ok ()⟩ :: x) out) :
    ∃ lead' st, lead = ⟨.wsConnect url headers, .ok ()⟩ :: lead' ∧
      Runs (receiveServerInfo c slug) lead' (.ok (.ok st)) ∧
      (dumps .spaced c.payload).mapError jsonErr = .ok text ∧
      Runs (afterSend fuel c slug url headers st) x out := by
  have hsend : isSend ⟨.sendStr text, .ok ()⟩ = true := rfl
  -- the send is an exchange of the part it is in
  have hnot {tr : List Exchange} (htr : lead ++ ⟨.sendStr text, .ok ()⟩ :: x = tr)
      (hquiet : ∀ ev ∈ tr, isSend ev = false) : False := by
    rw [hquiet _ (htr ▸ List.mem_append_right _ List.mem_cons_self)] at hsend
    cases hsend
  unfold converseWs at h
  rcases runs_bind_iff.mp h with ⟨_, tr₁, tr₂, h₁, h₂, htr⟩ | ⟨e, h₁, -⟩
  · have hconnect := isSend_of_issues (Issues.perform fun _ => rfl) h₁
    obtain ⟨lead₁, rfl, rfl⟩ := lead_of_append htr.symm hsend hconnect
    obtain rfl := runs_await_iff.mp h₁
    rcases runs_bind_iff.mp h₂ with ⟨r, tr₃, tr₄, h₃, h₄, htr₃⟩ | ⟨e, h₃, -⟩
    · have hinfo := isSend_of_issues (issues_receiveServerInfo (fun _ _ => rfl) c slug) h₃
      obtain ⟨lead₂, rfl, rfl⟩ := lead_of_append htr₃.symm hsend hinfo
      cases r with
      | error payload => exact absurd (runs_ret_iff.mp h₄).1 (by simp)
      | ok st =>
        have h₅ := (congrArg (Runs · _ out) (exchange_then_reply fuel c slug url headers st)).mp h₄
        rcases runs_bind_iff.mp h₅ with ⟨text', tr₅, tr₆, h₆, h₇, htr₅⟩ | ⟨e, h₆, -⟩
        · obtain ⟨rfl, htext⟩ := runs_ofExcept_iff.mp h₆
          rw [List.nil_append] at htr₅
          have hfirst {r : Except Err Unit} {y : List Exchange}
              (hy : lead₂ ++ ⟨.sendStr text, .ok ()⟩ :: x = ⟨.sendStr text', r⟩ :: y) :
              lead₂ = [] ∧ text = text' ∧ r = .ok () ∧ y = x := by
            cases lead₂ with
            | nil =>
              obtain ⟨hev, rfl⟩ := List.cons.inj hy
              cases hev
              exact ⟨rfl, rfl, rfl, rfl⟩
            | cons ev lead₂ =>
              obtain ⟨rfl, -⟩ := List.cons.inj hy
              have := hlead ⟨.sendStr text', r⟩ (by simp)
              cases this
          rcases runs_bind_iff.mp h₇ with ⟨_, tr₇, tr₈, h₈, hafter, rfl⟩ | ⟨e, h₈, -⟩
          · obtain rfl := runs_await_iff.mp h₈
            obtain ⟨rfl, rfl, -, rfl⟩ := hfirst htr₅
            rw [List.append_nil]
            exact ⟨_, st, rfl, h₃, htext.symm, hafter⟩
          · obtain rfl := runs_await_iff.mp h₈
            cases (hfirst htr₅).2.2.1
        · exact absurd (runs_ofExcept_iff.mp h₆).1 (by simp)
    · have hinfo := isSend_of_issues (issues_receiveServerInfo (fun _ _ => rfl) c slug) h₃
      rw [hinfo _ (List.mem_append_right _ List.mem_cons_self)] at hsend
      cases hsend
  · exact (hnot rfl (isSend_of_issues (Issues.perform fun _ => rfl) h₁)).elim

theorem sent_of_runs {fuel : ℕ} {hass : Hass} {addon : Dict} {c : WsCommand} {slug text : Str}
    {lead x : List Exchange} {out : Except Err Dict} (hlead : ∀ ev ∈ lead, isSend ev = false)
    (h : Runs (callDeviceBuilderWsCommand fuel hass addon slug c)
      (lead ++ ⟨.sendStr text, .ok ()⟩ :: x) out) :
    ∃ url headers st out₁, Runs (prepare hass addon slug c) lead (.ok (.ok (url, headers, st))) ∧
      Runs (afterSend fuel c slug url headers st) x out₁ ∧ Runs (handledWs c slug out₁) [] out := by
  have hsend : isSend ⟨.sendStr text, .ok ()⟩ = true := rfl
  unfold callDeviceBuilderWsCommand at h
  rcases runs_bind_iff.mp h with ⟨route, tr₁, tr₂, h₁, h₂, htr⟩ | ⟨e, h₁, -⟩
  · have hroute := isSend_of_issues (issues_routeForAddon (fun _ => rfl)
      (fun _ => isNoSend_of_isSupervisorCall) _ _ _ _ _) h₁
    obtain ⟨lead', rfl, rfl⟩ := lead_of_append htr.symm hsend hroute
    cases route with
    | error payload =>
      exact absurd (runs_ret_iff.mp h₂).1 (by simp)
    | ok route =>
      obtain ⟨url, headers⟩ := route
      have hlead' : ∀ ev ∈ lead', isSend ev = false := fun ev hev =>
        hlead ev (List.mem_append_right _ hev)
      have hrest {out₁ : Except Err Dict}
          (hconverse : Runs (converseWs fuel c slug url headers)
            (lead' ++ ⟨.sendStr text, .ok ()⟩ :: x) out₁)
          (hhandled : Runs (handledWs c slug out₁) [] out) :
          ∃ url headers st out₁, Runs (prepare hass addon slug c) (tr₁ ++ lead')
              (.ok (.ok (url, headers, st))) ∧
            Runs (afterSend fuel c slug url headers st) x out₁ ∧
            Runs (handledWs c slug out₁) [] out := by
        obtain ⟨lead'', st, rfl, hinfo, hdumps, hafter⟩ := sent_of_converseWs hlead' hconverse
        refine ⟨url, headers, st, out₁, ?_, hafter, hhandled⟩
        refine runs_bind_iff.mpr (.inl ⟨_, _, _, h₁, ?_, rfl⟩)
        refine runs_bind_iff.mpr (.inl ⟨(), _, lead'', runs_await_iff.mpr rfl, ?_, rfl⟩)
        refine runs_bind_iff.mpr (.inl ⟨_, _, [], hinfo, ?_, (List.append_nil _).symm⟩)
        simp only [hdumps, ofExcept_ok, bind_eq, bind_ret]
        exact .ret _
      rcases runs_tryCatch_iff.mp h₂ with ⟨d, h₃, rfl⟩ | ⟨e, tr₃, tr₄, h₃, h₄, htr₃⟩
      · exact hrest h₃ (.ret d)
      · obtain ⟨rfl, -⟩ := runs_wsHandler h₄
        rw [List.append_nil] at htr₃
        rw [← htr₃] at h₃
        exact hrest h₃ h₄
  · have hroute := isSend_of_issues (issues_routeForAddon (fun _ => rfl)
      (fun _ => isNoSend_of_isSupervisorCall) _ _ _ _ _) h₁
    rw [hroute _ (List.mem_append_right _ List.mem_cons_self)] at hsend
    cases hsend

/-- A conversation that has collected nothing of the command. -/
def Untouched (st : WsState) : Prop := st.commandMessageCount = 0 ∧ st.events = []

/-- Server info leaves a conversation that has collected nothing. -/
theorem untouched_of_receiveServerInfo {c : WsCommand} {slug : Str} {tr : List Exchange}
    {st : WsState} (h : Runs (receiveServerInfo c slug) tr (.ok (.ok st))) : Untouched st := by
  have hok {st' : WsState} {tr : List Exchange}
      (hr : Runs (ret (.ok st') : Coro (Except Dict WsState)) tr (.ok (.ok st)))
      (hst : Untouched st') : Untouched st := by
    obtain ⟨-, he⟩ := runs_ret_iff.mp hr
    cases he
    exact hst
  have herror {payload : Dict} {tr : List Exchange}
      (hr : Runs (ret (.error payload) : Coro (Except Dict WsState)) tr (.ok (.ok st))) :
      Untouched st := by
    obtain ⟨-, he⟩ := runs_ret_iff.mp hr
    cases he
  unfold receiveServerInfo at h
  rcases runs_bind_iff.mp h with ⟨r, tr₁, tr₂, -, h₂, -⟩ | ⟨e, -, he⟩
  · split at h₂
    · exact herror h₂
    · obtain ⟨-, he⟩ := runs_raise_iff.mp h₂
      cases he
    · rcases runs_bind_iff.mp h₂ with ⟨data, tr₃, tr₄, -, h₄, -⟩ | ⟨e, -, he⟩
      · simp only at h₄
        split_ifs at h₄
        · exact hok h₄ ⟨rfl, rfl⟩
        · exact herror h₄
        · exact hok h₄ ⟨rfl, rfl⟩
      · cases he
    · exact herror h₂
    · exact herror h₂
    · exact herror h₂
    · exact hok h₂ ⟨rfl, rfl⟩
    · exact hok h₂ ⟨rfl, rfl⟩
  · cases he

/-- A conversation that is prepared has collected nothing yet. -/
theorem untouched_of_prepare {hass : Hass} {addon : Dict} {slug url : Str} {c : WsCommand}
    {headers : Headers} {st : WsState} {lead : List Exchange}
    (h : Runs (prepare hass addon slug c) lead (.ok (.ok (url, headers, st)))) : Untouched st := by
  unfold prepare at h
  rcases runs_bind_iff.mp h with ⟨route, tr₁, tr₂, -, h₂, -⟩ | ⟨e, -, he⟩
  · cases route with
    | error payload => cases (runs_ret_iff.mp h₂).2
    | ok route =>
      rcases runs_bind_iff.mp h₂ with ⟨_, tr₃, tr₄, -, h₄, -⟩ | ⟨e, -, he⟩
      · rcases runs_bind_iff.mp h₄ with ⟨r, tr₅, tr₆, h₅, h₆, -⟩ | ⟨e, -, he⟩
        · cases r with
          | error payload => cases (runs_ret_iff.mp h₆).2
          | ok st' =>
            rcases runs_bind_iff.mp h₆ with ⟨text, tr₇, tr₈, -, h₈, -⟩ | ⟨e, -, he⟩
            · cases (runs_ret_iff.mp h₈).2
              exact untouched_of_receiveServerInfo h₅
            · cases he
        · cases he
      · cases he
  · cases he

/-- The runs from the sent command on. -/
inductive AfterTrace (c : WsCommand) (slug url : Str) (headers : Headers) (st : WsState) :
    List Exchange → Except Err Dict → Prop
  | clock (e : Err) : AfterTrace c slug url headers st [⟨.time, .error e⟩] (.error e)
  | raised {start : ℚ} {tr : List Exchange} {e : Err} :
      LoopTrace c (start + c.timeout) st tr (.error e) →
      AfterTrace c slug url headers st (⟨.time, .ok start⟩ :: tr) (.error e)
  | refused {start : ℚ} {tr : List Exchange} {payload : Dict} :
      LoopTrace c (start + c.timeout) st tr (.ok (.error payload)) →
      AfterTrace c slug url headers st (⟨.time, .ok start⟩ :: tr) (.ok payload)
  | closed {start : ℚ} {tr tr' : List Exchange} {st' : WsState} {out : Except Err Dict} :
      LoopTrace c (start + c.timeout) st tr (.ok (.ok st')) →
      Runs (closing c slug url headers st') tr' out →
      AfterTrace c slug url headers st (⟨.time, .ok start⟩ :: (tr ++ tr')) out

theorem afterTrace_of_runs {fuel : ℕ} {c : WsCommand} {slug url : Str} {headers : Headers}
    {st : WsState} {x : List Exchange} {out : Except Err Dict}
    (h : Runs (afterSend fuel c slug url headers st) x out) :
    AfterTrace c slug url headers st x out := by
  unfold afterSend at h
  rcases runs_bind_iff.mp h with ⟨start, tr₁, tr₂, h₁, h₂, rfl⟩ | ⟨e, h₁, rfl⟩
  · obtain rfl := runs_await_iff.mp h₁
    rw [List.singleton_append]
    rcases runs_bind_iff.mp h₂ with ⟨r, tr₃, tr₄, h₃, h₄, rfl⟩ | ⟨e, h₃, rfl⟩
    · cases r with
      | error payload =>
        obtain ⟨rfl, rfl⟩ := runs_ret_iff.mp h₄
        rw [List.append_nil]
        exact .refused (loopTrace_of_runs h₃)
      | ok st' => exact .closed (loopTrace_of_runs h₃) h₄
    · exact .raised (loopTrace_of_runs h₃)
  · obtain rfl := runs_await_iff.mp h₁
    exact .clock e

theorem runs_afterSend_closed {fuel : ℕ} {c : WsCommand} {slug url : Str} {headers : Headers}
    {st st' : WsState} {start : ℚ} {tr tr' : List Exchange} {out : Except Err Dict}
    (hloop : Runs (receiveLoop c (start + c.timeout) fuel st) tr (.ok (.ok st')))
    (hclosing : Runs (closing c slug url headers st') tr' out) :
    Runs (afterSend fuel c slug url headers st) (⟨.time, .ok start⟩ :: (tr ++ tr')) out :=
  runs_bind_iff.mpr (.inl ⟨start, [_], _, runs_await_iff.mpr rfl,
    runs_bind_iff.mpr (.inl ⟨_, _, _, hloop, hclosing, rfl⟩), rfl⟩)

theorem runs_afterSend_raised {fuel : ℕ} {c : WsCommand} {slug url : Str} {headers : Headers}
    {st : WsState} {start : ℚ} {tr : List Exchange} {e : Err}
    (hloop : Runs (receiveLoop c (start + c.timeout) fuel st) tr (.error e)) :
    Runs (afterSend fuel c slug url headers st) (⟨.time, .ok start⟩ :: tr) (.error e) :=
  runs_bind_iff.mpr (.inl ⟨start, [_], _, runs_await_iff.mpr rfl,
    runs_bind_iff.mpr (.inr ⟨e, hloop, rfl⟩), rfl⟩)

/-- The loop exchanges nothing but looks at the clock and receives. -/
theorem LoopTrace.cmd_of_mem {c : WsCommand} {deadline : ℚ} {st : WsState} {tr : List Exchange}
    {out : LoopEnd} (h : LoopTrace c deadline st tr out) :
    ∀ ev ∈ tr, ev.cmd = .time ∨ ∃ t, ev.cmd = .receive t := by
  induction h with
  | limit => simp
  | clock e => simp
  | late => simp
  | done => simp
  | next _ _ _ _ ih => simpa using ih
  | cut => simp

/-- Closing sends and closes, and receives nothing. -/
theorem issues_closing {P : Cmd → Prop} (hsend : ∀ text, P (.sendStr text)) (hclose : P .wsClose)
    (c : WsCommand) (slug url : Str) (headers : Headers) (st : WsState) :
    Issues P (closing c slug url headers st) := by
  refine Issues.bind ?_ fun _ => Issues.bind (Issues.perform hclose) fun _ => trivial
  unfold sendStop
  exact Issues.ite (Issues.bind (Issues.ofExcept _) fun _ => Issues.perform (hsend _)) trivial

theorem received_of_closing {c : WsCommand} {slug url : Str} {headers : Headers} {st : WsState}
    {tr : List Exchange} {out : Except Err Dict} (h : Runs (closing c slug url headers st) tr out) :
    received tr = [] := by
  refine List.filterMap_eq_nil_iff.mpr fun ev hev => ?_
  obtain ⟨cmd, r⟩ := ev
  have hcmd : ∀ t, cmd ≠ .receive t :=
    (issues_closing (P := fun c => ∀ t, c ≠ .receive t) nofun nofun c slug url headers st).of_runs
      h _ hev
  cases cmd with
  | receive t => exact absurd rfl (hcmd t)
  | _ => rfl

/-- A conversation that is prepared sends its command and goes on. -/
theorem runs_of_sent {fuel : ℕ} {hass : Hass} {addon : Dict} {c : WsCommand} {slug text url : Str}
    {headers : Headers} {st : WsState} {lead x : List Exchange} {out₁ out : Except Err Dict}
    (hprep : Runs (prepare hass addon slug c) lead (.ok (.ok (url, headers, st))))
    (htext : (dumps .spaced c.payload).mapError jsonErr = .ok text)
    (hafter : Runs (afterSend fuel c slug url headers st) x out₁)
    (hhandled : Runs (handledWs c slug out₁) [] out) :
    Runs (callDeviceBuilderWsCommand fuel hass addon slug c)
      (lead ++ ⟨.sendStr text, .ok ()⟩ :: x) out := by
  unfold prepare at hprep
  rcases runs_bind_iff.mp hprep with ⟨route, tr₁, tr₂, h₁, h₂, rfl⟩ | ⟨e, -, he⟩
  · cases route with
    | error payload => cases (runs_ret_iff.mp h₂).2
    | ok route =>
      obtain ⟨url', headers'⟩ := route
      rcases runs_bind_iff.mp h₂ with ⟨_, tr₃, tr₄, h₃, h₄, rfl⟩ | ⟨e, -, he⟩
      · rcases runs_bind_iff.mp h₄ with ⟨r, tr₅, tr₆, h₅, h₆, rfl⟩ | ⟨e, -, he⟩
        · cases r with
          | error payload => cases (runs_ret_iff.mp h₆).2
          | ok st' =>
            rw [htext] at h₆
            obtain ⟨rfl, he⟩ := runs_ret_iff.mp h₆
            simp only [Except.ok.injEq, Prod.mk.injEq] at he
            obtain ⟨rfl, rfl, rfl⟩ := he
            have hexchange : Runs (Prog.bind (exchangeCommand fuel c st) fun r =>
                match r with
                | .error payload => ret payload
                | .ok st => ret (wsResponse c slug url headers st))
                (⟨.sendStr text, .ok ()⟩ :: x) out₁ := by
              rw [exchange_then_reply, htext, ofExcept_ok, bind_ret]
              exact runs_bind_iff.mpr (.inl ⟨(), [_], x, runs_await_iff.mpr rfl, hafter, rfl⟩)
            have hconverse : Runs (converseWs fuel c slug url headers)
                (tr₃ ++ (tr₅ ++ ⟨.sendStr text, .ok ()⟩ :: x)) out₁ :=
              runs_bind_iff.mpr (.inl ⟨_, _, _, h₃,
                runs_bind_iff.mpr (.inl ⟨_, _, _, h₅, hexchange, rfl⟩), rfl⟩)
            rw [List.append_nil, List.append_assoc, List.append_assoc]
            refine runs_bind_iff.mpr (.inl ⟨_, _, _, h₁, ?_, rfl⟩)
            cases out₁ with
            | ok d =>
              rw [(runs_ret_iff.mp hhandled).2]
              exact runs_tryCatch_iff.mpr (.inl ⟨d, hconverse, rfl⟩)
            | error e =>
              exact runs_tryCatch_iff.mpr (.inr ⟨e, _, [], hconverse, hhandled, by simp⟩)
        · cases he
      · cases he
  · cases he

end

end EsphomeMcp.Addon
