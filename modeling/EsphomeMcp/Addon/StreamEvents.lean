import EsphomeMcp.Addon.ForeignFrames

/-!
# The events of a stream

A call returns the events it has collected when nothing behind the command raises but a receive
that times out, no text is nested too deep for `json.loads`, and every event can be looked up in
the set of result events. Otherwise the events are lost (`keepsEvents_iff`): for a stream that is
stopped by a command of its own this is so whenever the server has closed the socket.
-/

namespace EsphomeMcp.Addon

open Py Py.Prog

section

variable [Runtime]

/-- An exchange that costs no events: it raises nothing but a timeout of a receive, its text can
be read, and its event, if it is one of the command, can be looked up. -/
def IsMild : Exchange → Prop
  | ⟨.receive _, .ok (.text text)⟩ =>
    ∃ data, loadsOrText text = .ok data ∧
      ∀ d, ownOf data = some d → (dictGet d "event").isHashable = true
  | ⟨.receive _, .ok _⟩ => True
  | ⟨.receive _, .error e⟩ => ∃ text, e = .exn .timeout text
  | ⟨_, .ok _⟩ => True
  | ⟨_, .error _⟩ => False

/-- Exchanges that cost no events. -/
def Mild (tr : List Exchange) : Prop := ∀ ev ∈ tr, IsMild ev

theorem mild_nil : Mild [] := by simp [Mild]

theorem mild_cons (ev : Exchange) (tr : List Exchange) :
    Mild (ev :: tr) ↔ IsMild ev ∧ Mild tr := by
  simp [Mild]

theorem mild_append (tr tr' : List Exchange) :
    Mild (tr ++ tr') ↔ Mild tr ∧ Mild tr' := by
  simp [Mild, or_imp, forall_and]

/-- No frame of the command has an `error_code`. -/
def Unrefused (tr : List Exchange) : Prop :=
  ∀ r ∈ received tr, ∀ d, ownFrame? r = some d → dictHas d "error_code" = false

/-! ## The loop -/

/-- A frame of the command without an `error_code` goes on or stops, unless its event cannot be
looked up. -/
theorem handleFrame_own (c : WsCommand) (st : WsState) {data : Json} {d : Dict}
    (hown : ownOf data = some d) (herr : dictHas d "error_code" = false) :
    ((dictGet d "event").isHashable = true ∧ ∃ st', handleFrame c st data = .ok (.next st') ∨
      handleFrame c st data = .ok (.stop st')) ∨
    ((dictGet d "event").isHashable = false ∧ ∃ e, handleFrame c st data = .error e) := by
  obtain ⟨rfl, hid⟩ := eq_obj_of_ownOf hown
  unfold handleFrame
  simp only [hid, ne_eq, not_true_eq_false, if_false, herr, Bool.false_eq_true]
  by_cases hevent : dictHas d "event" = true
  · rw [if_pos hevent]
    cases hhash : (dictGet d "event").isHashable with
    | false => exact .inr ⟨rfl, _, if_pos rfl⟩
    | true =>
      refine .inl ⟨rfl, ?_⟩
      simp only [Bool.not_true, Bool.false_eq_true, if_false]
      split_ifs
      · exact ⟨_, .inr rfl⟩
      · exact ⟨_, .inl rfl⟩
  · have hhash : (dictGet d "event").isHashable = true := by
      rw [Bool.not_eq_true, dictHas, Option.isSome_eq_false_iff,
        Option.isNone_iff_eq_none] at hevent
      rw [dictGet, hevent]
      rfl
    rw [if_neg hevent]
    refine .inl ⟨hhash, ?_⟩
    split_ifs
    · exact ⟨_, .inl rfl⟩
    · exact ⟨_, .inr rfl⟩
    · exact ⟨_, .inl rfl⟩

/-- A delivery keeps what is collected exactly when it is harmless, and raises otherwise. -/
theorem loopStep_mild (c : WsCommand) (st : WsState) (t : ℚ) {r : Delivery}
    (herr : ∀ d, ownFrame? r = some d → dictHas d "error_code" = false) :
    (IsMild ⟨.receive t, r⟩ ∧ ∃ st', loopStep c st r = .inl st' ∨
      loopStep c st r = .inr (.ok (.ok st'))) ∨
    (¬IsMild ⟨.receive t, r⟩ ∧ ∃ e, loopStep c st r = .inr (.error e)) := by
  rcases r with (⟨kind, text⟩ | _) | m
  · by_cases hkind : kind = .timeout
    · subst hkind
      exact .inl ⟨⟨text, rfl⟩, _, .inr rfl⟩
    · refine .inr ⟨?_, ?_⟩
      · rintro ⟨_, he⟩
        cases he
        exact hkind rfl
      · cases kind <;> first | exact absurd rfl hkind | exact ⟨_, rfl⟩
  · refine .inr ⟨?_, _, rfl⟩
    rintro ⟨_, he⟩
    cases he
  cases m with
  | close | closed | error => exact .inl ⟨trivial, _, .inr rfl⟩
  | binary | other => exact .inl ⟨trivial, _, .inl rfl⟩
  | text text =>
    cases hload : loadsOrText text with
    | error e =>
      refine .inr ⟨?_, e, by simp only [loopStep, hload]⟩
      rintro ⟨data, hdata, -⟩
      rw [hload] at hdata
      cases hdata
    | ok data =>
      have hmild : IsMild ⟨.receive t, .ok (.text text)⟩ ↔
          ∀ d, ownOf data = some d → (dictGet d "event").isHashable = true := by
        simp only [IsMild, hload, Except.ok.injEq, exists_eq_left']
      rw [hmild]
      cases hown : ownOf data with
      | none =>
        have hstep : loopStep c st (.ok (.text text)) =
            .inl { st with messages := st.messages ++ [data] } := by
          simp only [loopStep, hload, handleFrame_of_ownOf hown]
        exact .inl ⟨by simp, _, .inl hstep⟩
      | some d =>
        have hd : dictHas d "error_code" = false :=
          herr d (by simp only [ownFrame?, hload, Except.toOption, Option.bind_some, hown])
        rcases handleFrame_own c st hown hd with ⟨hhash, st', hstep | hstep⟩ | ⟨hhash, e, hstep⟩
        · refine .inl ⟨fun d' hd' => ?_, st', .inl (by simp only [loopStep, hload, hstep])⟩
          cases hd'
          exact hhash
        · refine .inl ⟨fun d' hd' => ?_, st', .inr (by simp only [loopStep, hload, hstep])⟩
          cases hd'
          exact hhash
        · refine .inr ⟨fun hall => ?_, e, by simp only [loopStep, hload, hstep]⟩
          rw [hall d rfl] at hhash
          cases hhash

/-- A loop ends with the events of all it has read, or it met an exchange that raises. -/
theorem LoopTrace.events {c : WsCommand} {deadline : ℚ} {st : WsState} {tr : List Exchange}
    {out : LoopEnd} (h : LoopTrace c deadline st tr out) (herr : Unrefused tr)
    (hout : out ≠ .error .diverged) :
    (Mild tr ∧ ∃ st', out = .ok (.ok st') ∧
      st'.events = st.events ++ (received tr).filterMap ownEvent?) ∨
    (¬Mild tr ∧ ∃ e, out = .error e) := by
  have htime {now : ℚ} : IsMild ⟨.time, .ok now⟩ := trivial
  induction h with
  | limit => exact .inl ⟨mild_nil, _, rfl, (List.append_nil _).symm⟩
  | clock e =>
    refine .inr ⟨fun hall => ?_, e, rfl⟩
    exact hall ⟨.time, .error e⟩ List.mem_cons_self
  | late =>
    refine .inl ⟨?_, _, rfl, (List.append_nil _).symm⟩
    rw [mild_cons]
    exact ⟨htime, mild_nil⟩
  | @done st now t r out _ _ hstep =>
    rw [mild_cons, mild_cons]
    rcases loopStep_mild c st t (herr r List.mem_cons_self) with
      ⟨hmild, st', hstep' | hstep'⟩ | ⟨hmild, e, hstep'⟩
    · cases hstep.symm.trans hstep'
    · obtain ⟨-, hevents⟩ := loopStep_collects (.inr hstep')
      obtain rfl : out = .ok (.ok st') := by
        cases hstep.symm.trans hstep'
        rfl
      refine .inl ⟨⟨htime, hmild, mild_nil⟩, st', rfl, hevents.trans ?_⟩
      simp only [received_cons_time, received_cons_receive, received_nil, List.filterMap_cons]
      cases ownEvent? r <;> rfl
    · obtain rfl : out = .error e := by
        cases hstep.symm.trans hstep'
        rfl
      exact .inr ⟨fun hall => hmild hall.2.1, e, rfl⟩
  | @next st st' now t r tr out _ _ hstep _ ih =>
    rw [mild_cons, mild_cons]
    have hmild : IsMild ⟨.receive t, r⟩ := by
      rcases loopStep_mild c st t (herr r List.mem_cons_self) with ⟨hmild, -⟩ | ⟨-, e, hstep'⟩
      · exact hmild
      · cases hstep.symm.trans hstep'
    rcases ih (fun r hr => herr r (List.mem_cons_of_mem _ hr)) hout with
      ⟨hrest, st'', hend, hevents⟩ | ⟨hrest, e, hend⟩
    · obtain ⟨-, hevent⟩ := loopStep_collects (.inl hstep)
      refine .inl ⟨⟨htime, hmild, hrest⟩, st'', hend, ?_⟩
      rw [hevents, hevent, List.append_assoc]
      simp only [received_cons_time, received_cons_receive, List.filterMap_cons]
      cases ownEvent? r <;> rfl
    · exact .inr ⟨fun hall => hrest hall.2.2, e, hend⟩
  | cut => exact absurd rfl hout

theorem LoopTrace.not_refused {c : WsCommand} {deadline : ℚ} {st : WsState} {tr : List Exchange}
    {payload : Dict} (h : LoopTrace c deadline st tr (.ok (.error payload))) :
    ¬Unrefused tr := by
  intro herr
  rcases h.events herr (by simp) with ⟨-, _, he, -⟩ | ⟨-, e, he⟩
  · cases he
  · cases he

/-! ## The reply -/

/-- Closing replies with what was collected, unless the stop command or the close raises. -/
theorem closing_mild {c : WsCommand} {slug url : Str} {headers : Headers} {st : WsState}
    {tr : List Exchange} {out : Except Err Dict} (h : Runs (closing c slug url headers st) tr out) :
    (Mild tr ∧ out = .ok (wsResponse c slug url headers (limitReached c st))) ∨
      (¬Mild tr ∧ ∃ e, out = .error e) := by
  have hraised {cmd : Cmd} {e : Err} (hcmd : ¬IsMild ⟨cmd, .error e⟩) :
      ¬Mild [⟨cmd, .error e⟩] := fun hall => hcmd (hall _ List.mem_cons_self)
  have hclose {tr : List Exchange} {d : Dict}
      (h : Runs (Prog.bind (await .wsClose) fun _ => ret d) tr out) :
      (Mild tr ∧ out = .ok d) ∨ (¬Mild tr ∧ ∃ e, out = .error e) := by
    rcases runs_bind_iff.mp h with ⟨_, tr₁, tr₂, h₁, h₂, rfl⟩ | ⟨e, h₁, rfl⟩
    · obtain rfl := runs_await_iff.mp h₁
      obtain ⟨rfl, rfl⟩ := runs_ret_iff.mp h₂
      refine .inl ⟨?_, rfl⟩
      rw [List.singleton_append, mild_cons]
      exact ⟨trivial, mild_nil⟩
    · obtain rfl := runs_await_iff.mp h₁
      exact .inr ⟨hraised id, e, rfl⟩
  unfold closing sendStop at h
  by_cases hstop : c.stream = true ∧ c.command ∈ stoppableStreams
  · obtain ⟨text, htext⟩ := exists_stopText
    simp only [if_pos hstop, htext, ofExcept_ok, bind_eq, bind_ret] at h
    rcases runs_bind_iff.mp h with ⟨_, tr₁, tr₂, h₁, h₂, rfl⟩ | ⟨e, h₁, rfl⟩
    · obtain rfl := runs_await_iff.mp h₁
      rw [List.singleton_append, mild_cons]
      rcases hclose h₂ with ⟨hmild, hout⟩ | ⟨hmild, hout⟩
      · exact .inl ⟨⟨trivial, hmild⟩, hout⟩
      · exact .inr ⟨fun hall => hmild hall.2, hout⟩
    · obtain rfl := runs_await_iff.mp h₁
      exact .inr ⟨hraised id, e, rfl⟩
  · rw [if_neg hstop] at h
    exact hclose h

theorem AfterTrace.events {c : WsCommand} {slug url : Str} {headers : Headers} {st : WsState}
    {x : List Exchange} {out : Except Err Dict} (h : AfterTrace c slug url headers st x out)
    (hst : st.events = []) (herr : Unrefused x) (hout : out ≠ .error .diverged) :
    (Mild x ∧ ∃ st', st'.events = (received x).filterMap ownEvent? ∧
      out = .ok (wsResponse c slug url headers st')) ∨ (¬Mild x ∧ ∃ e, out = .error e) := by
  have htime {now : ℚ} : IsMild ⟨.time, .ok now⟩ := trivial
  cases h with
  | clock e =>
    refine .inr ⟨fun hall => ?_, e, rfl⟩
    exact hall ⟨.time, .error e⟩ List.mem_cons_self
  | raised hloop =>
    rw [mild_cons]
    rcases hloop.events herr (fun he => hout (by cases he; rfl)) with ⟨-, _, he, -⟩ | ⟨hmild, -⟩
    · cases he
    · exact .inr ⟨fun hall => hmild hall.2, _, rfl⟩
  | refused hloop => exact absurd herr hloop.not_refused
  | @closed start tr tr' st' out hloop hclosing =>
    have herr' : Unrefused tr := fun r hr => herr r (by
      rw [received_cons_time, received_append]
      exact List.mem_append_left _ hr)
    rw [mild_cons, mild_append, received_cons_time, received_append, received_of_closing hclosing,
      List.append_nil]
    rcases hloop.events herr' nofun with ⟨hmild, _, he, hevents⟩ | ⟨-, e, he⟩
    · cases he
      rcases closing_mild hclosing with ⟨hmild', rfl⟩ | ⟨hmild', hend⟩
      · refine .inl ⟨⟨htime, hmild, hmild'⟩, limitReached c st', ?_, rfl⟩
        rw [hst, List.nil_append] at hevents
        rw [← hevents, limitReached]
        split_ifs <;> rfl
      · exact .inr ⟨fun hall => hmild' hall.2.2, hend⟩
    · cases he

/-- The reply is a success with the events of the command that were delivered, in order. -/
def KeepsEvents (x : List Exchange) (out : Except Err Dict) : Prop :=
  ∃ d, out = .ok d ∧ isSuccess d = true ∧
    dictGet d "events" = .arr ((received x).filterMap ownEvent?)

theorem not_keepsEvents_of_error {c : WsCommand} {slug : Str} {e : Err} {x : List Exchange}
    {out : Except Err Dict} (h : Runs (handledWs c slug (.error e)) [] out) :
    ¬KeepsEvents x out := by
  rintro ⟨d, hd, hs, -⟩
  rw [(runs_wsHandler h).2 d hd] at hs
  cases hs

/-- A conversation in which no frame of the command has an `error_code` keeps its events exactly
when nothing behind the command raises but a receive that times out, no text is too deep for
`json.loads`, and every event can be looked up. -/
theorem keepsEvents_iff {fuel : ℕ} {hass : Hass} {addon : Dict} {c : WsCommand} {slug text : Str}
    {lead x : List Exchange} {out : Except Err Dict} (hlead : ∀ ev ∈ lead, isSend ev = false)
    (hrun : Runs (callDeviceBuilderWsCommand fuel hass addon slug c)
      (lead ++ ⟨.sendStr text, .ok ()⟩ :: x) out)
    (herr : Unrefused x) (hout : out ≠ .error .diverged) : KeepsEvents x out ↔ Mild x := by
  obtain ⟨url, headers, st, out₁, hprep, hafter, hhandled⟩ := sent_of_runs hlead hrun
  obtain ⟨-, hevents⟩ := untouched_of_prepare hprep
  have hdiverged := handledWs_diverged hhandled
  rcases (afterTrace_of_runs hafter).events hevents herr (mt hdiverged.mpr hout) with
    ⟨hmild, st', hst', rfl⟩ | ⟨hmild, e, rfl⟩
  · refine ⟨fun _ => hmild, fun _ => ⟨_, (runs_ret_iff.mp hhandled).2, isSuccess_success _, ?_⟩⟩
    rw [← hst']
    simp [wsResponse, success, dictGet, dictGet?_cons]
  · exact iff_of_false (not_keepsEvents_of_error hhandled) hmild

/-- A reply behind the loop of a stoppable stream comes after the stop command. -/
theorem exists_send_of_stoppable {c : WsCommand} {slug url : Str} {headers : Headers}
    {st st' : WsState} {x : List Exchange} (hstop : c.stream = true ∧ c.command ∈ stoppableStreams)
    (h : AfterTrace c slug url headers st x (.ok (wsResponse c slug url headers st')))
    (herr : Unrefused x) :
    ∃ text r, (⟨.sendStr text, r⟩ : Exchange) ∈ x := by
  generalize hout : (.ok (wsResponse c slug url headers st') : Except Err Dict) = out at h
  cases h with
  | clock => cases hout
  | raised => cases hout
  | refused hloop => exact absurd herr hloop.not_refused
  | closed hloop hclosing =>
    obtain ⟨text, htext⟩ := exists_stopText
    unfold closing sendStop at hclosing
    simp only [if_pos hstop, htext, ofExcept_ok, bind_eq, bind_ret] at hclosing
    rcases runs_bind_iff.mp hclosing with ⟨_, tr₁, tr₂, h₁, h₂, rfl⟩ | ⟨e, h₁, rfl⟩
    · obtain rfl := runs_await_iff.mp h₁
      exact ⟨text, _, List.mem_cons_of_mem _ (List.mem_append_right _ List.mem_cons_self)⟩
    · obtain rfl := runs_await_iff.mp h₁
      exact ⟨text, _, List.mem_cons_of_mem _ (List.mem_append_right _ List.mem_cons_self)⟩

/-- When nothing can be sent any more, a stoppable stream loses its events. -/
theorem not_keepsEvents_of_stoppable {fuel : ℕ} {hass : Hass} {addon : Dict} {c : WsCommand}
    {slug text : Str} {lead x : List Exchange} {out : Except Err Dict}
    (hstop : c.stream = true ∧ c.command ∈ stoppableStreams)
    (hlead : ∀ ev ∈ lead, isSend ev = false)
    (hrun : Runs (callDeviceBuilderWsCommand fuel hass addon slug c)
      (lead ++ ⟨.sendStr text, .ok ()⟩ :: x) out)
    (herr : Unrefused x) (hout : out ≠ .error .diverged)
    (hgone : ∀ text r, (⟨.sendStr text, r⟩ : Exchange) ∈ x → ∃ e, r = .error e) :
    ¬KeepsEvents x out := by
  obtain ⟨url, headers, st, out₁, hprep, hafter, hhandled⟩ := sent_of_runs hlead hrun
  obtain ⟨-, hevents⟩ := untouched_of_prepare hprep
  have hdiverged := handledWs_diverged hhandled
  have htrace := afterTrace_of_runs hafter
  rcases htrace.events hevents herr (mt hdiverged.mpr hout) with ⟨hmild, st', -, rfl⟩ | ⟨-, e, rfl⟩
  · obtain ⟨text, r, hmem⟩ := exists_send_of_stoppable hstop htrace herr
    obtain ⟨e, rfl⟩ := hgone text r hmem
    exact (hmild _ hmem).elim
  · exact not_keepsEvents_of_error hhandled

end

/-! ## Two streams -/

/-- A stream that ends by itself, and one that is stopped. -/
def stream (command : Str) : WsCommand := ⟨command, [], 5, false, true, none⟩

/-- An output event of the command. -/
def outputFrame : Dict := [(str "message_id", .str commandId), (str "event", .lit "output")]

def outputText : Str := dumpsText .spaced (.obj outputFrame)

theorem loads_outputText :
    letI := asciiRuntime
    loadsOrText outputText = .ok (.obj outputFrame) := by
  let := asciiRuntime
  rfl

theorem ownFrame?_outputText :
    letI := asciiRuntime
    ownFrame? (.ok (.text outputText)) = some outputFrame := by
  let := asciiRuntime
  have hown : ownOf (.obj outputFrame) = some outputFrame := by
    simp only [ownOf]
    exact if_pos rfl
  rw [ownFrame?, loads_outputText]
  exact hown

/-- An event comes and the server closes the socket. -/
def closedBehindEvent (command : Str) (last : Exchange) : List Exchange :=
  ⟨.time, .ok 0⟩ :: (turn (stream command) (.ok (.text outputText)) ++
    turn (stream command) (.ok .close) ++ [last])

/-- What stops the stream. -/
def stopText : Str :=
  dumpsText .spaced (.dict [("command", .lit "devices/stop_stream"),
    ("message_id", .lit "esp-mcp-stop"), ("args", .dict [("stream_id", .str commandId)])])

/-- What a conversation has collected behind the event. -/
def collectedEvent : WsState :=
  { WsState.start with
    messages := [.obj outputFrame], events := [.obj outputFrame], commandMessageCount := 1 }

theorem handleFrame_output (command : Str) :
    letI := asciiRuntime
    handleFrame (stream command) .start (.obj outputFrame) = .ok (.next collectedEvent) := by
  let := asciiRuntime
  have hid : dictGet outputFrame "message_id" = .str commandId := rfl
  have herr : dictHas outputFrame "error_code" = false := rfl
  have hevent : dictHas outputFrame "event" = true := rfl
  have hhash : (dictGet outputFrame "event").isHashable = true := rfl
  have hresult : dictGet outputFrame "event" ≠ .lit "result" := by decide
  unfold handleFrame
  simp only [hid, herr, hevent, hhash, hresult, ne_eq, not_true_eq_false, if_false, if_true,
    Bool.false_eq_true, Bool.not_true]
  rfl

/-- The loop reads the event and then the close. -/
theorem runs_eventLoop (command : Str) :
    letI := asciiRuntime
    Runs (receiveLoop (stream command) (0 + (stream command).timeout) 2 .start)
      (turn (stream command) (.ok (.text outputText)) ++ turn (stream command) (.ok .close))
      (.ok (.ok { collectedEvent with closeReason := "server_closed" })) := by
  let := asciiRuntime
  have hnow : (0 : ℚ) < 0 + (stream command).timeout := by norm_num [stream]
  have hlimit (n : ℕ) (hn : n < 1000) : (n : ℤ) < (stream command).collectedLimit := by
    simp only [WsCommand.collectedLimit, stream, maxWsMessages, Nat.cast_ofNat, min_self]
    omega
  have hstep : loopStep (stream command) .start (.ok (.text outputText)) = .inl collectedEvent := by
    simp only [loopStep, loads_outputText, handleFrame_output]
  refine runs_receiveLoop_turn (hlimit 0 (by decide)) hnow ?_
  rw [hstep]
  exact runs_receiveLoop_turn (hlimit 1 (by decide)) hnow (.ret _)

theorem unrefused_closedBehindEvent (command : Str) {last : Exchange}
    (hlast : received [last] = []) :
    letI := asciiRuntime
    Unrefused (closedBehindEvent command last) := by
  let := asciiRuntime
  intro r hr d hd
  have hreceived : received (closedBehindEvent command last) =
      [.ok (.text outputText), .ok .close] := by
    rw [closedBehindEvent, received_cons_time, received_append, hlast]
    rfl
  rw [hreceived] at hr
  simp only [List.mem_cons, List.not_mem_nil, or_false] at hr
  rcases hr with rfl | rfl
  · rw [ownFrame?_outputText] at hd
    cases hd
    rfl
  · cases hd

/-- What a conversation has collected when the server closes it behind the event. -/
def collectedClosed : WsState := { collectedEvent with closeReason := "server_closed" }

theorem runs_validate (slug url : Str) (headers : Headers) :
    letI := asciiRuntime
    Runs (afterSend 2 (stream "devices/validate") slug url headers .start)
      (closedBehindEvent "devices/validate" ⟨.wsClose, .ok ()⟩)
      (.ok (wsResponse (stream "devices/validate") slug url headers
        (limitReached (stream "devices/validate") collectedClosed))) := by
  let := asciiRuntime
  refine runs_afterSend_closed (runs_eventLoop "devices/validate") ?_
  exact .call _ (.ret _)

theorem runs_logs (slug url : Str) (headers : Headers) :
    letI := asciiRuntime
    Runs (afterSend 2 (stream "devices/logs") slug url headers .start)
      (closedBehindEvent "devices/logs" ⟨.sendStr stopText, .error (.exn .client [])⟩)
      (.error (.exn .client [])) := by
  let := asciiRuntime
  refine runs_afterSend_closed (runs_eventLoop "devices/logs") ?_
  exact .call _ (.raise _)

/-- The text of a stream's command. -/
def streamText (command : Str) : Str := dumpsText .spaced (stream command).payload

theorem mild_validate :
    letI := asciiRuntime
    Mild (closedBehindEvent "devices/validate" ⟨.wsClose, .ok ()⟩) := by
  let := asciiRuntime
  have hevent (t : ℚ) : IsMild ⟨.receive t, .ok (.text outputText)⟩ := by
    refine ⟨_, loads_outputText, fun d hd => ?_⟩
    simp only [ownOf] at hd
    cases hd
    rfl
  simp only [closedBehindEvent, turn, List.cons_append, List.nil_append, mild_cons]
  exact ⟨trivial, trivial, hevent _, trivial, trivial, trivial, mild_nil⟩

/-- The stream of a validation is not stopped, and keeps its event when the server closes. -/
theorem keepsEvents_iff_validate :
    letI := asciiRuntime
    ∃ lead out, Runs (callDeviceBuilderWsCommand 2 ⟨none⟩ ingressAddon "esphome"
        (stream "devices/validate"))
        (lead ++ ⟨.sendStr (streamText "devices/validate"), .ok ()⟩ ::
          closedBehindEvent "devices/validate" ⟨.wsClose, .ok ()⟩) out ∧
      KeepsEvents (closedBehindEvent "devices/validate" ⟨.wsClose, .ok ()⟩) out := by
  let := asciiRuntime
  have htext : (dumps .spaced (stream "devices/validate").payload).mapError jsonErr =
      .ok (streamText "devices/validate") := rfl
  have hrun := runs_of_sent (runs_opened htext) htext (runs_validate _ _ _) (.ret _)
  exact ⟨_, _, hrun, (keepsEvents_iff (by decide) hrun (unrefused_closedBehindEvent _ rfl)
    nofun).mpr mild_validate⟩

/-- The logs lose their event when the server closes. -/
theorem not_keepsEvents_logs :
    letI := asciiRuntime
    ∃ lead out, Runs (callDeviceBuilderWsCommand 2 ⟨none⟩ ingressAddon "esphome"
        (stream "devices/logs"))
        (lead ++ ⟨.sendStr (streamText "devices/logs"), .ok ()⟩ ::
          closedBehindEvent "devices/logs" ⟨.sendStr stopText, .error (.exn .client [])⟩) out ∧
      Unrefused (closedBehindEvent "devices/logs" ⟨.sendStr stopText, .error (.exn .client [])⟩) ∧
      ¬KeepsEvents
        (closedBehindEvent "devices/logs" ⟨.sendStr stopText, .error (.exn .client [])⟩) out := by
  let := asciiRuntime
  have htext : (dumps .spaced (stream "devices/logs").payload).mapError jsonErr =
      .ok (streamText "devices/logs") := rfl
  have hrun := runs_of_sent (runs_opened htext) htext (runs_logs _ _ _) (.ret _)
  refine ⟨_, _, hrun, unrefused_closedBehindEvent _ rfl, ?_⟩
  rintro ⟨d, hd, hs, -⟩
  cases hd
  cases hs

end EsphomeMcp.Addon
