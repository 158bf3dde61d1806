import EsphomeMcp.Addon.IngressHeaders
import EsphomeMcp.Addon.ReceiveLoop
import EsphomeMcp.Python.TwoRuns

/-!
# Frames of other conversations

Two runs of a command that are alike up to the command, and that differ behind it in frames that
are not the command's. The receive loop skips such frames, so the replies are the same but for
the debug lists of frames, unless `json.loads` gives up on one of them (`reply_unchanged_iff`).
-/

namespace EsphomeMcp.Addon

open Py Py.Prog

section

variable [Runtime]

/-- A frame that is not the command's: a binary one, or a text that is not a JSON dict with the
id of the command. -/
def IsForeign : Delivery → Prop
  | .ok .binary => True
  | .ok (.text text) => ∀ d, loads text = .ok (.obj d) → dictGet d "message_id" ≠ .str commandId
  | _ => False

/-- An exchange that ends in a `RecursionError`. -/
def RaisesRecursion : Exchange → Prop
  | ⟨.receive _, .ok (.text text)⟩ => loads text = .error .recursion
  | ⟨_, .error e⟩ => e = jsonErr .recursion
  | _ => False

/-- What a conversation knows but for its list of messages. -/
def WsState.quiet (st : WsState) : WsState := { st with messages := [] }

omit [Runtime] in
/-- Two states that agree but for the collected messages. -/
theorem exists_messages_of_quiet {st st' : WsState} (h : st.quiet = st'.quiet) :
    ∃ messages, st' = { st with messages := messages } := by
  obtain ⟨si, m, ev, te, r, n, cr⟩ := st
  obtain ⟨si', m', ev', te', r', n', cr'⟩ := st'
  simp only [WsState.quiet, WsState.mk.injEq, true_and] at h
  obtain ⟨rfl, rfl, rfl, rfl, rfl, rfl⟩ := h
  exact ⟨m', rfl⟩

omit [Runtime] in
theorem count_of_quiet {st st' : WsState} (h : st.quiet = st'.quiet) :
    st.commandMessageCount = st'.commandMessageCount := by
  obtain ⟨messages, rfl⟩ := exists_messages_of_quiet h
  rfl

/-- The same end of a loop, but for the messages. -/
def EndsAlike : LoopEnd → LoopEnd → Prop :=
  OutcomesAlike (OutcomesAlike fun st st' => st.quiet = st'.quiet)

/-! ## The loop -/

/-- Handling a frame does not look at the collected messages: it raises alike, or leaves states that
agree but for them. -/
theorem handleFrame_quiet (c : WsCommand) (st : WsState) (messages : List Json) (data : Json) :
    (∃ e, handleFrame c st data = .error e ∧
      handleFrame c { st with messages := messages } data = .error e) ∨
    (∃ payload, handleFrame c st data = .ok (.fail payload) ∧
      handleFrame c { st with messages := messages } data = .ok (.fail payload)) ∨
    ∃ t t' : WsState, t.quiet = t'.quiet ∧
      (handleFrame c st data = .ok (.next t) ∧
          handleFrame c { st with messages := messages } data = .ok (.next t') ∨
        handleFrame c st data = .ok (.stop t) ∧
          handleFrame c { st with messages := messages } data = .ok (.stop t')) := by
  cases data with
  | obj d =>
    unfold handleFrame
    simp only
    by_cases hid : dictGet d "message_id" ≠ .str commandId
    · simp only [if_pos hid]
      exact .inr (.inr ⟨_, _, by exact rfl, .inl ⟨rfl, rfl⟩⟩)
    simp only [if_neg hid]
    by_cases herr : dictHas d "error_code" = true
    · simp only [if_pos herr]
      exact .inr (.inl ⟨_, rfl, rfl⟩)
    simp only [if_neg herr]
    by_cases hevent : dictHas d "event" = true
    · simp only [if_pos hevent]
      by_cases hhash : (!(dictGet d "event").isHashable) = true
      · simp only [if_pos hhash]
        exact .inl ⟨_, rfl, rfl⟩
      simp only [if_neg hhash]
      by_cases hlast : dictGet d "event" = .lit "result"
      · simp only [if_pos hlast]
        exact .inr (.inr ⟨_, _, by exact rfl, .inr ⟨rfl, rfl⟩⟩)
      · simp only [if_neg hlast]
        exact .inr (.inr ⟨_, _, by exact rfl, .inl ⟨rfl, rfl⟩⟩)
    simp only [if_neg hevent]
    by_cases hresult : dictHas d "result" = true
    · simp only [if_pos hresult]
      by_cases hstream : c.stream = true
      · simp only [if_pos hstream]
        exact .inr (.inr ⟨_, _, by exact rfl, .inl ⟨rfl, rfl⟩⟩)
      · simp only [if_neg hstream]
        exact .inr (.inr ⟨_, _, by exact rfl, .inr ⟨rfl, rfl⟩⟩)
    · simp only [if_neg hresult]
      exact .inr (.inr ⟨_, _, by exact rfl, .inl ⟨rfl, rfl⟩⟩)
  | _ => exact .inr (.inr ⟨_, _, by exact rfl, .inl ⟨rfl, rfl⟩⟩)

/-- Neither does a turn of the loop. -/
theorem loopStep_quiet (c : WsCommand) {st st' : WsState} (h : st.quiet = st'.quiet)
    (r : Delivery) : Sum.LiftRel (fun t t' => t.quiet = t'.quiet) EndsAlike (loopStep c st r)
      (loopStep c st' r) := by
  obtain ⟨messages, rfl⟩ := exists_messages_of_quiet h
  match r with
  | .ok (.text text) =>
    simp only [loopStep]
    cases loadsOrText text with
    | error e => exact .inr rfl
    | ok data =>
      rcases handleFrame_quiet c st messages data with ⟨e, h₁, h₂⟩ | ⟨payload, h₁, h₂⟩ |
        ⟨t, t', ht, ⟨h₁, h₂⟩ | ⟨h₁, h₂⟩⟩
      · simp only [h₁, h₂]
        exact .inr rfl
      · simp only [h₁, h₂]
        exact .inr rfl
      · simp only [h₁, h₂]
        exact .inl ht
      · simp only [h₁, h₂]
        exact .inr ht
  | .ok .close => exact .inr rfl
  | .ok .closed => exact .inr rfl
  | .ok .error => exact .inr rfl
  | .ok .binary => exact .inl rfl
  | .ok .other => exact .inl rfl
  | .error .diverged => exact .inr rfl
  | .error (.exn kind text) => cases kind <;> exact .inr rfl

/-- A loop in step with itself, below its limit. -/
def InStep (c : WsCommand) (st st' : WsState) : Prop :=
  st.quiet = st'.quiet ∧ (st.commandMessageCount : ℤ) < c.collectedLimit

/-- Two loops in step stay in step on the same delivery. -/
theorem boundedStep_inStep (c : WsCommand) {st st' : WsState} (h : InStep c st st')
    (r : Delivery) :
    Sum.LiftRel (InStep c) EndsAlike (boundedStep c st r) (boundedStep c st' r) := by
  have hlift := loopStep_quiet c h.1 r
  unfold boundedStep
  cases h₁ : loopStep c st r <;> cases h₂ : loopStep c st' r <;> rw [h₁, h₂] at hlift
  · rename_i t t'
    obtain ht : t.quiet = t'.quiet := by
      cases hlift
      assumption
    simp only [← count_of_quiet ht]
    split_ifs with hlimit
    · exact .inr ht
    · exact .inl ⟨ht, by omega⟩
  · cases hlift
  · cases hlift
  · cases hlift
    exact .inr ‹_›

/-- A frame that is not the command's is skipped, or `json.loads` gives up on it. -/
theorem boundedStep_foreign (c : WsCommand) {st st' : WsState} (h : InStep c st st')
    {r : Delivery} (hr : IsForeign r) :
    (∃ t, boundedStep c st' r = .inl t ∧ InStep c st t) ∨
      ∃ w, boundedStep c st' r = .inr w ∧ w = .error (jsonErr .recursion) := by
  have hbelow : (st'.commandMessageCount : ℤ) < c.collectedLimit := by
    rw [← count_of_quiet h.1]
    exact h.2
  have hskip {t : WsState} (hstep : loopStep c st' r = .inl t) (ht : st'.quiet = t.quiet) :
      ∃ t, boundedStep c st' r = .inl t ∧ InStep c st t := by
    have hcount := count_of_quiet ht
    refine ⟨t, ?_, h.1.trans ht, h.2⟩
    rw [boundedStep, hstep]
    exact if_neg (by omega)
  rcases r with e | m
  · exact False.elim hr
  cases m with
  | binary => exact .inl (hskip rfl rfl)
  | text text =>
    have hforeign : loads text = .error .recursion ∨
        ∃ data, loadsOrText text = .ok data ∧ ownOf data = none := by
      unfold loadsOrText
      cases hload : loads text with
      | error e =>
        cases e with
        | value => exact .inr ⟨_, rfl, rfl⟩
        | recursion => exact .inl rfl
      | ok data =>
        refine .inr ⟨data, rfl, ?_⟩
        cases data with
        | obj d => exact if_neg (hr d hload)
        | _ => rfl
    rcases hforeign with hdeep | ⟨data, hload, hown⟩
    · refine .inr ⟨_, ?_, rfl⟩
      simp only [boundedStep, loopStep, loadsOrText, hdeep]
    · refine .inl (hskip (t := { st' with messages := st'.messages ++ [data] }) ?_ rfl)
      simp only [loopStep, hload, handleFrame_of_ownOf hown]
  | _ => exact False.elim hr

/-- Frames that are not the command's may be put in anywhere. -/
theorem feed_foreign (c : WsCommand) {st : WsState}
    (hst : (st.commandMessageCount : ℤ) < c.collectedLimit) {xs ys : List Delivery}
    (h : Inserts IsForeign xs ys) {w w' : LoopEnd} (hw : feed (boundedStep c) st xs = .inr w)
    (hw' : feed (boundedStep c) st ys = .inr w') :
    EndsAlike w w' ∨ w' = .error (jsonErr .recursion) := by
  have hself : InStep c st st := ⟨rfl, hst⟩
  rcases feed_inserts (fun _ _ r hs => boundedStep_inStep c hs r)
    (fun _ _ _ hs hr => boundedStep_foreign c hs hr) h hself with hlift | ⟨w'', hw'', hB⟩
  · rw [hw, hw'] at hlift
    exact .inl (Sum.liftRel_inr_inr.mp hlift)
  · rw [hw'] at hw''
    cases hw''
    exact .inr hB

/-! ## The reply -/

/-- Whatever the loop does not look at or receive. -/
def isOther : Exchange → Bool
  | ⟨.time, _⟩ => false
  | ⟨.receive _, _⟩ => false
  | _ => true

/-- The exchanges that are no looks at the clock and no receives. -/
def others (tr : List Exchange) : List Exchange := tr.filter isOther

omit [Runtime] in
theorem others_cons_time (r : Except Err ℚ) (tr : List Exchange) :
    others (⟨.time, r⟩ :: tr) = others tr := rfl

omit [Runtime] in
theorem others_append (tr tr' : List Exchange) : others (tr ++ tr') = others tr ++ others tr' :=
  List.filter_append ..

/-- Where the command is the same, the answer is the same. -/
def SameAnswer (ev ev' : Exchange) : Prop := ∀ c r r', ev = ⟨c, r⟩ → ev' = ⟨c, r'⟩ → r = r'

omit [Runtime] in
theorem eq_of_sameAnswer {c : addonSignature.Cmd} {r r' : Except Err (addonSignature.Ans c)}
    (h : SameAnswer ⟨c, r⟩ ⟨c, r'⟩) : r = r' := h c r r' rfl rfl

/-- The same fields but for the debug part, and there the same word on the stop command. -/
def DictsAlike (d d' : Dict) : Prop :=
  (∀ key, key ≠ str "_debug" → dictGet? d key = dictGet? d' key) ∧
    (dictGet d "_debug").get "stop_stream_sent" = (dictGet d' "_debug").get "stop_stream_sent"

/-- The same exception, or replies that differ in the debug lists only. -/
def RepliesAlike : Except Err Dict → Except Err Dict → Prop := OutcomesAlike DictsAlike

omit [Runtime] in
theorem RepliesAlike.refl (out : Except Err Dict) : RepliesAlike out out := by
  cases out with
  | ok d => exact ⟨fun _ _ => rfl, rfl⟩
  | error e => rfl

omit [Runtime] in
theorem limitReached_quiet (c : WsCommand) (st : WsState) (messages : List Json) :
    limitReached c { st with messages := messages } =
      { limitReached c st with messages := messages } := by
  unfold limitReached
  split_ifs <;> rfl

omit [Runtime] in
/-- The two replies differ in the messages alone. -/
theorem wsResponse_alike (c : WsCommand) (slug url : Str) (headers : Headers) {st st' : WsState}
    (h : st.quiet = st'.quiet) : DictsAlike (wsResponse c slug url headers (limitReached c st))
      (wsResponse c slug url headers (limitReached c st')) := by
  obtain ⟨messages, rfl⟩ := exists_messages_of_quiet h
  rw [limitReached_quiet c st messages]
  generalize limitReached c st = t
  unfold wsResponse
  cases c.debug with
  | false => exact ⟨fun _ _ => rfl, rfl⟩
  | true =>
    refine ⟨fun key hkey => ?_, ?_⟩
    · simp only [success, if_true, List.map_cons, List.map_nil, List.cons_append,
        List.nil_append, dictGet?_cons, hkey, if_false]
    · simp [success, dictGet, dictGet?_cons, wsDebug, Json.dict, Json.get]

/-- What follows the loop runs alike in both. -/
theorem alike_closing (c : WsCommand) (slug url : Str) (headers : Headers) {st st' : WsState}
    (h : st.quiet = st'.quiet) :
    Alike SameAnswer DictsAlike (closing c slug url headers st)
      (closing c slug url headers st') := by
  have hstop : Alike SameAnswer (· = ·) (sendStop c) (sendStop c) := by
    refine Alike.refl ?_ fun _ => rfl
    unfold sendStop
    exact Issues.ite (Issues.bind (Issues.ofExcept _) fun _ => Issues.perform fun _ _ =>
      eq_of_sameAnswer) trivial
  refine Alike.bind hstop fun _ _ _ => ?_
  have hclose : Alike SameAnswer (· = ·) (await .wsClose) (await .wsClose) :=
    Alike.refl (Issues.perform fun _ _ => eq_of_sameAnswer) fun _ => rfl
  refine Alike.bind hclose fun _ _ _ => ?_
  exact .ret (wsResponse_alike c slug url headers h)

/-- What the caller is told of outcomes that are alike. -/
theorem repliesAlike_of_handledWs {c : WsCommand} {slug : Str}
    {out₁ out₁' out out' : Except Err Dict}
    (h : OutcomesAlike DictsAlike out₁ out₁') (hout : Runs (handledWs c slug out₁) [] out)
    (hout' : Runs (handledWs c slug out₁') [] out') : RepliesAlike out out' := by
  cases out₁ <;> cases out₁'
  · obtain rfl : _ = _ := h
    exact hout.functional hout' ▸ .refl out
  · exact h.elim
  · exact h.elim
  · rw [(runs_ret_iff.mp hout).2, (runs_ret_iff.mp hout').2]
    exact h

/-- An exception that is not handled goes through to the caller. -/
theorem handledWs_error {c : WsCommand} {slug : Str} {out₁ out : Except Err Dict} {e : Err}
    (htimeout : ∀ text, e ≠ .exn .timeout text) (hclient : ∀ text, e ≠ .exn .client text)
    (hout : Runs (handledWs c slug out₁) [] out) : out = .error e ↔ out₁ = .error e := by
  cases out₁ with
  | ok d => simp [(runs_ret_iff.mp hout).2]
  | error e' =>
    replace hout : Runs (wsHandler c slug e') [] out := hout
    unfold wsHandler at hout
    split at hout
    · simp [(runs_ret_iff.mp hout).2, (htimeout _).symm]
    · simp [(runs_ret_iff.mp hout).2, (hclient _).symm]
    · rw [(runs_raise_iff.mp hout).2]

theorem handledWs_diverged {c : WsCommand} {slug : Str} {out₁ out : Except Err Dict}
    (hout : Runs (handledWs c slug out₁) [] out) :
    out = .error .diverged ↔ out₁ = .error .diverged := by
  apply handledWs_error _ _ hout <;> simp

/-- The handlers let a `RecursionError` through and raise none of their own. -/
theorem handledWs_recursion {c : WsCommand} {slug : Str} {out₁ out : Except Err Dict}
    (hout : Runs (handledWs c slug out₁) [] out) :
    out = .error (jsonErr .recursion) ↔ out₁ = .error (jsonErr .recursion) := by
  apply handledWs_error _ _ hout <;> simp [jsonErr]

/-! ## Texts that `json.loads` gives up on -/

/-- A run that met a `RecursionError`. -/
def GivesUp (tr : List Exchange) : Prop := ∃ ev ∈ tr, RaisesRecursion ev

theorem givesUp_cons (ev : Exchange) (tr : List Exchange) :
    GivesUp (ev :: tr) ↔ RaisesRecursion ev ∨ GivesUp tr := by
  simp [GivesUp]

theorem givesUp_append (tr tr' : List Exchange) :
    GivesUp (tr ++ tr') ↔ GivesUp tr ∨ GivesUp tr' := by
  simp [GivesUp, or_and_right, exists_or]

theorem not_givesUp_nil : ¬GivesUp [] := by simp [GivesUp]

/-- A parsed frame raises none. -/
theorem handleFrame_ne_recursion (c : WsCommand) (st : WsState) (data : Json) :
    handleFrame c st data ≠ .error (jsonErr .recursion) := by
  cases data with
  | obj d =>
    unfold handleFrame
    simp only
    split_ifs <;> simp [jsonErr]
  | _ =>
    intro h
    cases h

theorem loopStep_ne_recursion (c : WsCommand) (st : WsState) {text : Str} {data : Json}
    (hload : loadsOrText text = .ok data) :
    loopStep c st (.ok (.text text)) ≠ .inr (.error (jsonErr .recursion)) := by
  have hne := handleFrame_ne_recursion c st data
  simp only [loopStep, hload]
  cases hf : handleFrame c st data with
  | error e =>
    rw [hf] at hne
    simpa using hne
  | ok step => cases step <;> simp

/-- A turn raises one exactly on a frame that does. -/
theorem loopStep_recursion (c : WsCommand) (st : WsState) (t : ℚ) (r : Delivery) :
    loopStep c st r = .inr (.error (jsonErr .recursion)) ↔ RaisesRecursion ⟨.receive t, r⟩ := by
  match r with
  | .ok (.text text) =>
    cases hload : loads text with
    | ok data =>
      have hne := loopStep_ne_recursion c st
        (by rw [loadsOrText, hload] : loadsOrText text = .ok data)
      simp [hne, RaisesRecursion, hload]
    | error e =>
      cases e with
      | value =>
        have hne := loopStep_ne_recursion c st
          (by rw [loadsOrText, hload] : loadsOrText text = .ok (.str text))
        simp [hne, RaisesRecursion, hload]
      | recursion => simp [loopStep, loadsOrText, RaisesRecursion, hload]
  | .ok .close => simp [loopStep, RaisesRecursion]
  | .ok .closed => simp [loopStep, RaisesRecursion]
  | .ok .error => simp [loopStep, RaisesRecursion]
  | .ok .binary => simp [loopStep, RaisesRecursion]
  | .ok .other => simp [loopStep, RaisesRecursion]
  | .error .diverged => simp [loopStep, RaisesRecursion]
  | .error (.exn kind text) => cases kind <;> simp [loopStep, RaisesRecursion, jsonErr]

/-- A loop raises one exactly where a frame it reads does. -/
theorem LoopTrace.recursion_iff {c : WsCommand} {deadline : ℚ} {st : WsState}
    {tr : List Exchange} {out : LoopEnd} (h : LoopTrace c deadline st tr out) :
    out = .error (jsonErr .recursion) ↔ GivesUp tr := by
  induction h with
  | limit => simp [not_givesUp_nil]
  | clock e => simp [givesUp_cons, not_givesUp_nil, RaisesRecursion]
  | late => simp [givesUp_cons, not_givesUp_nil, RaisesRecursion]
  | @done st now t r out _ _ hstep =>
    rw [givesUp_cons, givesUp_cons, ← loopStep_recursion c st t r, hstep]
    simp [not_givesUp_nil, RaisesRecursion]
  | @next st st' now t r tr out _ _ hstep _ ih =>
    rw [givesUp_cons, givesUp_cons, ← loopStep_recursion c st t r, hstep, ih]
    simp [RaisesRecursion]
  | cut => simp [not_givesUp_nil, jsonErr]

/-- The stop command is not nested deep enough to fail. -/
theorem exists_stopText : ∃ text, (dumps .spaced (.dict [("command", .lit "devices/stop_stream"),
    ("message_id", .lit "esp-mcp-stop"),
    ("args", .dict [("stream_id", .str commandId)])])).mapError jsonErr = .ok text := by
  have hlimit := Runtime.recursionLimit_pos
  rw [dumps, if_pos]
  · exact ⟨_, rfl⟩
  · simp only [Json.dict, Json.lit, List.map_cons, List.map_nil, Json.depth, Json.depthFields]
    omega

/-- The same behind the loop. -/
theorem closing_recursion_iff {c : WsCommand} {slug url : Str} {headers : Headers} {st : WsState}
    {tr : List Exchange} {out : Except Err Dict} (h : Runs (closing c slug url headers st) tr out) :
    out = .error (jsonErr .recursion) ↔ GivesUp tr := by
  have hclose {tr : List Exchange} {d : Dict}
      (h : Runs (Prog.bind (await .wsClose) fun _ => ret d) tr out) :
      out = .error (jsonErr .recursion) ↔ GivesUp tr := by
    rcases runs_bind_iff.mp h with ⟨_, tr₁, tr₂, h₁, h₂, rfl⟩ | ⟨e, h₁, rfl⟩
    · obtain rfl := runs_await_iff.mp h₁
      obtain ⟨rfl, rfl⟩ := runs_ret_iff.mp h₂
      simp [givesUp_cons, not_givesUp_nil, RaisesRecursion]
    · obtain rfl := runs_await_iff.mp h₁
      simp [givesUp_cons, not_givesUp_nil, RaisesRecursion]
  unfold closing sendStop at h
  by_cases hstop : c.stream = true ∧ c.command ∈ stoppableStreams
  · obtain ⟨text, htext⟩ := exists_stopText
    simp only [if_pos hstop, htext, ofExcept_ok, bind_eq, bind_ret] at h
    rcases runs_bind_iff.mp h with ⟨_, tr₁, tr₂, h₁, h₂, rfl⟩ | ⟨e, h₁, rfl⟩
    · obtain rfl := runs_await_iff.mp h₁
      rw [List.singleton_append, givesUp_cons, ← hclose h₂]
      simp [RaisesRecursion]
    · obtain rfl := runs_await_iff.mp h₁
      simp [givesUp_cons, not_givesUp_nil, RaisesRecursion]
  · rw [if_neg hstop] at h
    exact hclose h

/-- The same for all that follows the command. -/
theorem AfterTrace.recursion_iff {c : WsCommand} {slug url : Str} {headers : Headers}
    {st : WsState} {x : List Exchange} {out : Except Err Dict}
    (h : AfterTrace c slug url headers st x out) :
    out = .error (jsonErr .recursion) ↔ GivesUp x := by
  cases h with
  | clock e => simp [givesUp_cons, not_givesUp_nil, RaisesRecursion]
  | raised hloop =>
    have := hloop.recursion_iff
    simp_all [givesUp_cons, RaisesRecursion]
  | refused hloop =>
    have := hloop.recursion_iff
    simp_all [givesUp_cons, RaisesRecursion]
  | closed hloop hclosing =>
    rw [givesUp_cons, givesUp_append, ← hloop.recursion_iff, ← closing_recursion_iff hclosing]
    simp [RaisesRecursion]

/-! ## The two runs -/

/-- No look at the clock behind the command finds the deadline passed. -/
def InTime (c : WsCommand) (x : List Exchange) : Prop :=
  ∃ start y, x = ⟨.time, .ok start⟩ :: y ∧ Before (start + c.timeout) y

/-- Two continuations of a conversation: both are in time, what is asked in both is answered the
same, and the socket delivers the same but for frames that are put in. -/
structure Extends (c : WsCommand) (x x' : List Exchange) : Prop where
  inTime : InTime c x
  inTime' : InTime c x'
  others : TracesAlike SameAnswer (others x) (others x')
  frames : ∃ xs ys, Inserts IsForeign xs ys ∧ received x <+: xs ∧ received x' <+: ys

omit [Runtime] in
/-- A limit that is a number of messages is capped at 1000. -/
theorem collectedLimit_eq {c : WsCommand} (hlimit : ∀ n, c.messageLimit = some n → 0 < n) :
    c.collectedLimit = min 1000 (c.messageLimit.getD 1000) ∧ 0 < c.collectedLimit := by
  unfold WsCommand.collectedLimit
  cases h : c.messageLimit with
  | none => exact ⟨rfl, by decide⟩
  | some n =>
    have hn := hlimit n h
    simp only [maxWsMessages, Option.getD_some, if_neg hn.ne']
    exact ⟨rfl, by omega⟩

/-- The loop of a run and what closes it. -/
theorem AfterTrace.exists_loop {c : WsCommand} {slug url : Str} {headers : Headers} {st : WsState}
    {x : List Exchange} {out : Except Err Dict} (h : AfterTrace c slug url headers st x out)
    (htime : InTime c x) :
    ∃ start tr tr' w, x = ⟨.time, .ok start⟩ :: (tr ++ tr') ∧
      LoopTrace c (start + c.timeout) st tr w ∧ Before (start + c.timeout) tr ∧
      received tr' = [] ∧
      ((∃ e, w = .error e ∧ out = .error e ∧ tr' = []) ∨
        (∃ payload, w = .ok (.error payload) ∧ out = .ok payload ∧ tr' = []) ∨
        ∃ st', w = .ok (.ok st') ∧ Runs (closing c slug url headers st') tr' out) := by
  obtain ⟨start', y, hx, hy⟩ := htime
  cases h with
  | clock e =>
    obtain ⟨he, -⟩ := List.cons.inj hx
    cases he
  | raised hloop =>
    obtain ⟨he, rfl⟩ := List.cons.inj hx
    cases he
    exact ⟨_, _, [], _, by rw [List.append_nil], hloop, hy, rfl, .inl ⟨_, rfl, rfl, rfl⟩⟩
  | refused hloop =>
    obtain ⟨he, rfl⟩ := List.cons.inj hx
    cases he
    exact ⟨_, _, [], _, by rw [List.append_nil], hloop, hy, rfl, .inr (.inl ⟨_, rfl, rfl, rfl⟩)⟩
  | closed hloop hclosing =>
    obtain ⟨he, rfl⟩ := List.cons.inj hx
    cases he
    exact ⟨_, _, _, _, rfl, hloop, fun r hr => hy r (List.mem_append_left _ hr),
      received_of_closing hclosing, .inr (.inr ⟨_, rfl, hclosing⟩)⟩

theorem LoopTrace.others_eq_nil {c : WsCommand} {deadline : ℚ} {st : WsState}
    {tr : List Exchange} {out : LoopEnd} (h : LoopTrace c deadline st tr out) : others tr = [] := by
  refine List.filter_eq_nil_iff.mpr fun ev hev => ?_
  obtain ⟨cmd, r⟩ := ev
  rcases h.cmd_of_mem _ hev with hcmd | ⟨t, hcmd⟩
  · obtain rfl : cmd = .time := hcmd
    simp [isOther]
  · obtain rfl : cmd = .receive t := hcmd
    simp [isOther]

/-- Nothing behind the loop is a delivery or a reading of the clock. -/
theorem others_of_closing {c : WsCommand} {slug url : Str} {headers : Headers} {st : WsState}
    {tr : List Exchange} {out : Except Err Dict} (h : Runs (closing c slug url headers st) tr out) :
    others tr = tr := by
  refine List.filter_eq_self.mpr fun ev hev => ?_
  have hcmd : ∀ r, isOther ⟨ev.cmd, r⟩ = true :=
    (issues_closing (P := fun c => ∀ r, isOther ⟨c, r⟩ = true) (fun _ _ => rfl) (fun _ => rfl) c
      slug url headers st).of_runs h ev hev
  exact hcmd ev.answer

/-- An end of the loop that is fed by all there is, whatever else is delivered later. -/
theorem feed_of_loop {c : WsCommand} {start : ℚ} {st : WsState} {tr tr' : List Exchange}
    {w : LoopEnd} {xs : List Delivery} (hloop : LoopTrace c (start + c.timeout) st tr w)
    (hst : (st.commandMessageCount : ℤ) < c.collectedLimit) (htime : Before (start + c.timeout) tr)
    (hw : w ≠ .error .diverged) (hclosing : received tr' = [])
    (hread : received (⟨.time, .ok start⟩ :: (tr ++ tr')) <+: xs) :
    feed (boundedStep c) st xs = .inr w := by
  rw [received_cons_time, received_append, hclosing, List.append_nil] at hread
  exact feed_of_isPrefix (hloop.feed_received hst htime hw) hread

/-- Once the loop has begun below its limit, two runs of which one has foreign frames put in end
alike, or the longer one in a `RecursionError`. -/
theorem outcomes_alike {c : WsCommand} {slug url : Str} {headers : Headers} {st : WsState}
    {x x' : List Exchange} {out out' : Except Err Dict}
    (h : AfterTrace c slug url headers st x out) (h' : AfterTrace c slug url headers st x' out')
    (hst : (st.commandMessageCount : ℤ) < c.collectedLimit) (hout : out ≠ .error .diverged)
    (hout' : out' ≠ .error .diverged) (hext : Extends c x x') :
    OutcomesAlike DictsAlike out out' ∨ out' = .error (jsonErr .recursion) := by
  obtain ⟨start, tr, tr₃, w, rfl, hloop, htime, hrec, hend⟩ := h.exists_loop hext.inTime
  obtain ⟨start', tr', tr₃', w', rfl, hloop', htime', hrec', hend'⟩ :=
    h'.exists_loop hext.inTime'
  obtain ⟨xs, ys, hins, hread, hread'⟩ := hext.frames
  have hothers : TracesAlike SameAnswer (others tr₃) (others tr₃') := by
    have halike := hext.others
    rwa [others_cons_time, others_cons_time, others_append, others_append, hloop.others_eq_nil,
      hloop'.others_eq_nil, List.nil_append, List.nil_append] at halike
  have hw : w ≠ .error .diverged := by
    rintro rfl
    rcases hend with ⟨e, he, rfl, -⟩ | ⟨_, he, -⟩ | ⟨_, he, -⟩ <;> cases he
    exact hout rfl
  have hw' : w' ≠ .error .diverged := by
    rintro rfl
    rcases hend' with ⟨e, he, rfl, -⟩ | ⟨_, he, -⟩ | ⟨_, he, -⟩ <;> cases he
    exact hout' rfl
  rcases feed_foreign c hst hins (feed_of_loop hloop hst htime hw hrec hread)
    (feed_of_loop hloop' hst htime' hw' hrec' hread') with halike | hdeep
  · refine .inl ?_
    rcases hend with ⟨e, rfl, rfl, -⟩ | ⟨payload, rfl, rfl, -⟩ | ⟨t, rfl, hclosing⟩ <;>
      rcases hend' with ⟨e', rfl, rfl, -⟩ | ⟨payload', rfl, rfl, -⟩ | ⟨t', rfl, hclosing'⟩
    · exact halike
    · exact halike.elim
    · exact halike.elim
    · exact halike.elim
    · obtain rfl : payload = payload' := halike
      exact ⟨fun _ _ => rfl, rfl⟩
    · exact halike.elim
    · exact halike.elim
    · exact halike.elim
    · rw [others_of_closing hclosing, others_of_closing hclosing'] at hothers
      exact (alike_closing c slug url headers halike).runs hclosing hclosing' hothers
  · rcases hend' with ⟨e, he, rfl, -⟩ | ⟨_, he, -⟩ | ⟨_, he, -⟩
    · cases he.symm.trans hdeep
      exact .inr rfl
    · cases he.symm.trans hdeep
    · cases he.symm.trans hdeep

/-- A conversation reads no more frames of the command than its limit. -/
theorem AfterTrace.ownFrames_le {c : WsCommand} {slug url : Str} {headers : Headers} {st : WsState}
    {x : List Exchange} {out : Except Err Dict} (h : AfterTrace c slug url headers st x out)
    (htime : InTime c x) (hcount : st.commandMessageCount = 0) (hpos : 0 < c.collectedLimit) :
    ((received x).filterMap ownFrame?).length ≤ c.collectedLimit := by
  obtain ⟨start, tr, tr', w, rfl, hloop, -, hclosing, -⟩ := h.exists_loop htime
  have hle := hloop.ownFrames_le (by omega)
  rw [hcount] at hle
  rw [received_cons_time, received_append, hclosing, List.append_nil]
  simpa using hle

/-- Put in anywhere behind the first frame, frames that are not the command's leave the reply
as it is, exactly when `json.loads` gives up on none of them that is read; and the conversation
reads no more frames of the command than its limit. -/
theorem reply_unchanged_iff {fuel fuel' : ℕ} {hass : Hass} {addon : Dict} {c : WsCommand}
    {slug text : Str} (hlimit : ∀ n, c.messageLimit = some n → 0 < n)
    {lead x x' : List Exchange} {out out' : Except Err Dict}
    (hlead : ∀ ev ∈ lead, isSend ev = false)
    (hrun : Runs (callDeviceBuilderWsCommand fuel hass addon slug c)
      (lead ++ ⟨.sendStr text, .ok ()⟩ :: x) out)
    (hrun' : Runs (callDeviceBuilderWsCommand fuel' hass addon slug c)
      (lead ++ ⟨.sendStr text, .ok ()⟩ :: x') out')
    (hout : out ≠ .error .diverged) (hout' : out' ≠ .error .diverged) (hext : Extends c x x') :
    RepliesAlike out out' ∧
        ((received x).filterMap ownFrame?).length ≤ min 1000 (c.messageLimit.getD 1000) ∧
        ((received x').filterMap ownFrame?).length ≤ min 1000 (c.messageLimit.getD 1000) ↔
      (GivesUp x' → GivesUp x) := by
  obtain ⟨url, headers, st, out₁, hprep, hafter, hhandled⟩ := sent_of_runs hlead hrun
  obtain ⟨url', headers', st', out₁', hprep', hafter', hhandled'⟩ := sent_of_runs hlead hrun'
  cases hprep.functional hprep'
  obtain ⟨hlimit, hpos⟩ := collectedLimit_eq hlimit
  obtain ⟨hcount, -⟩ := untouched_of_prepare hprep
  have htrace := afterTrace_of_runs hafter
  have htrace' := afterTrace_of_runs hafter'
  have hdiverged := handledWs_diverged hhandled
  have hdiverged' := handledWs_diverged hhandled'
  have hdeep : out = .error (jsonErr .recursion) ↔ GivesUp x :=
    (handledWs_recursion hhandled).trans htrace.recursion_iff
  have hdeep' : out' = .error (jsonErr .recursion) ↔ GivesUp x' :=
    (handledWs_recursion hhandled').trans htrace'.recursion_iff
  constructor
  · rintro ⟨hsame, -⟩ hgives
    rw [hdeep'.mpr hgives] at hsame
    refine hdeep.mp ?_
    cases out with
    | ok d => exact hsame.elim
    | error e =>
      obtain rfl : e = jsonErr .recursion := hsame
      rfl
  · intro hgives
    refine ⟨?_, ?_, ?_⟩
    · rcases outcomes_alike htrace htrace' (by omega) (mt hdiverged.mpr hout)
        (mt hdiverged'.mpr hout') hext with halike | hrec
      · exact repliesAlike_of_handledWs halike hhandled hhandled'
      · have hx' : GivesUp x' := htrace'.recursion_iff.mp hrec
        rw [hdeep'.mpr hx', hdeep.mpr (hgives hx')]
        exact .refl _
    · rw [← hlimit]
      exact htrace.ownFrames_le hext.inTime hcount hpos
    · rw [← hlimit]
      exact htrace'.ownFrames_le hext.inTime' hcount hpos

/-! ## Two conversations -/

/-- Opening brackets, one more than the decoder follows. -/
def tooDeep : Str := List.replicate (recursionLimit + 1) (ch '[')

/-- Brackets deeper than the decoder goes. -/
theorem scanValue_brackets (strict : Bool) (n : ℕ) :
    scanValue strict n (List.replicate (n + 1) (ch '[')) = .error .recursion := by
  induction n with
  | zero => rfl
  | succ n ih =>
    have hspace : skipSpace (List.replicate (n + 1) (ch '[')) =
        List.replicate (n + 1) (ch '[') := by
      rw [skipSpace, List.replicate_succ, List.dropWhile_cons_of_neg (by decide)]
    have hitems (fuel : ℕ) : scanItems (scanValue strict n) (fuel + 1)
        (List.replicate (n + 1) (ch '[')) = .error .recursion := by
      rw [scanItems, ih]
      rfl
    rw [List.replicate_succ, scanValue, if_pos rfl, scanArray, hspace, List.length_replicate]
    rw [List.replicate_succ]
    simp only
    rw [if_neg (by decide), ← List.replicate_succ, hitems]
    rfl

/-- Brackets that are never closed are no JSON, and `json.loads` gives up on them. -/
theorem loads_tooDeep : loads tooDeep = .error .recursion := by
  have hspace : skipSpace tooDeep = tooDeep := by
    rw [skipSpace, tooDeep, List.replicate_succ, List.dropWhile_cons_of_neg (by decide)]
  rw [loads, loadsWith, if_neg, decodeJson, hspace, tooDeep, scanValue_brackets]
  · rfl
  · rw [tooDeep, List.replicate_succ, List.head?_cons]
    decide

end

/-- A turn of a loop at time zero. -/
def turn (c : WsCommand) (r : Delivery) : List Exchange :=
  [⟨.time, .ok 0⟩, ⟨.receive (if c.stream then 0 + (c.timeout : ℚ) - 0
    else min (0 + (c.timeout : ℚ) - 0) 10), r⟩]

/-- A conversation whose first frame is a binary one. -/
def opened (c : WsCommand) : List Exchange :=
  letI := asciiRuntime
  [⟨.users, .ok [⟨"admin", true, true, false⟩]⟩, ⟨.component, .ok .loaded⟩,
    supervisorExchange "/ingress/session" "POST" (.dict [("user_id", .lit "admin")]) (some 30)
      (.ok (.dict [("session", .lit "token")])),
    ⟨.wsConnect "ws://127.0.0.1:8123/api/hassio_ingress/esphome/ws"
      [(str "Cookie", str "ingress_session=token")], .ok ()⟩,
    ⟨.receive (min (c.timeout : ℚ) 10), .ok .binary⟩]

theorem runs_opened {c : WsCommand} {text : Str} :
    letI := asciiRuntime
    (dumps .spaced c.payload).mapError jsonErr = .ok text →
    Runs (prepare ⟨none⟩ ingressAddon "esphome" c) (opened c)
      (.ok (.ok (str "ws://127.0.0.1:8123/api/hassio_ingress/esphome/ws",
        [(str "Cookie", str "ingress_session=token")], .start))) := by
  let := asciiRuntime
  intro htext
  refine .call _ (.call _ (.call _ (.call _ ?_)))
  refine .call _ ?_
  show Runs (Prog.bind (ofExcept ((dumps .spaced c.payload).mapError jsonErr)) _) _ _
  rw [htext]
  exact .ret _

/-- A command that is answered by one frame. -/
def listDevices : WsCommand := ⟨"devices/list", [], 5, false, false, none⟩

/-- A conversation in which nothing comes. -/
def silence : List Exchange :=
  ⟨.time, .ok 0⟩ :: (turn listDevices (.error (.exn .timeout [])) ++ [⟨.wsClose, .ok ()⟩])

/-- The same behind a frame. -/
def silenceBehind (frame : WsMsg) : List Exchange :=
  ⟨.time, .ok 0⟩ :: (turn listDevices (.ok frame) ++
    turn listDevices (.error (.exn .timeout [])) ++ [⟨.wsClose, .ok ()⟩])

/-- A conversation that ends at brackets that are never closed. -/
def brackets : List Exchange :=
  letI := asciiRuntime
  ⟨.time, .ok 0⟩ :: turn listDevices (.ok (.text tooDeep))

theorem zero_lt_timeout : (0 : ℚ) < 0 + listDevices.timeout := by norm_num [listDevices]

/-- The reply of a conversation that ended in silence. -/
def silenceReply (slug url : Str) (headers : Headers) : Dict :=
  wsResponse listDevices slug url headers { WsState.start with closeReason := "silence" }

theorem runs_silence (slug url : Str) (headers : Headers) :
    letI := asciiRuntime
    Runs (afterSend 1 listDevices slug url headers .start) silence
      (.ok (silenceReply slug url headers)) := by
  let := asciiRuntime
  refine runs_afterSend_closed (runs_receiveLoop_turn (by decide) zero_lt_timeout (.ret _)) ?_
  exact .call _ (.ret _)

theorem runs_silenceBehind (slug url : Str) (headers : Headers) :
    letI := asciiRuntime
    Runs (afterSend 2 listDevices slug url headers .start) (silenceBehind .binary)
      (.ok (silenceReply slug url headers)) := by
  let := asciiRuntime
  refine runs_afterSend_closed (runs_receiveLoop_turn (by decide) zero_lt_timeout
    (runs_receiveLoop_turn (by decide) zero_lt_timeout (.ret _))) ?_
  exact .call _ (.ret _)

theorem runs_brackets (slug url : Str) (headers : Headers) :
    letI := asciiRuntime
    Runs (afterSend 1 listDevices slug url headers .start) brackets
      (.error (jsonErr .recursion)) := by
  let := asciiRuntime
  refine runs_afterSend_raised (runs_receiveLoop_turn (by decide) zero_lt_timeout ?_)
  rw [(loopStep_recursion listDevices .start 0 (.ok (.text tooDeep))).mpr loads_tooDeep]
  exact .raise _

theorem inTime_silence : InTime listDevices silence := by
  refine ⟨0, _, rfl, fun r hr => ?_⟩
  simp only [turn, List.cons_append, List.nil_append, List.mem_cons, List.not_mem_nil,
    or_false] at hr
  rcases hr with hr | hr | hr <;> cases hr
  exact ⟨0, rfl, zero_lt_timeout⟩

theorem inTime_silenceBehind (frame : WsMsg) : InTime listDevices (silenceBehind frame) := by
  refine ⟨0, _, rfl, fun r hr => ?_⟩
  simp only [turn, List.cons_append, List.nil_append, List.mem_cons, List.not_mem_nil,
    or_false] at hr
  rcases hr with hr | hr | hr | hr | hr <;> cases hr <;> exact ⟨0, rfl, zero_lt_timeout⟩

theorem inTime_brackets : InTime listDevices brackets := by
  refine ⟨0, _, rfl, fun r hr => ?_⟩
  simp only [turn, List.mem_cons, List.not_mem_nil, or_false] at hr
  rcases hr with hr | hr <;> cases hr
  exact ⟨0, rfl, zero_lt_timeout⟩

theorem extends_binary :
    letI := asciiRuntime
    Extends listDevices silence (silenceBehind .binary) := by
  let := asciiRuntime
  refine ⟨inTime_silence, inTime_silenceBehind _, ⟨fun c r r' h h' => ?_, trivial⟩,
    [.error (.exn .timeout [])], [.ok .binary, .error (.exn .timeout [])],
    .insert trivial (.keep _ .nil), ⟨[], rfl⟩, ⟨[], rfl⟩⟩
  cases h
  cases h'
  rfl

theorem extends_brackets :
    letI := asciiRuntime
    Extends listDevices silence brackets := by
  let := asciiRuntime
  refine ⟨inTime_silence, inTime_brackets, trivial,
    [.error (.exn .timeout [])], [.ok (.text tooDeep), .error (.exn .timeout [])],
    .insert (fun d hd => ?_) (.keep _ .nil), ⟨[], rfl⟩, ⟨[.error (.exn .timeout [])], rfl⟩⟩
  rw [loads_tooDeep] at hd
  cases hd

/-- What is sent for the command. -/
def listText : Str := dumpsText .spaced listDevices.payload

theorem dumps_listDevices :
    letI := asciiRuntime
    (dumps .spaced listDevices.payload).mapError jsonErr = .ok listText := rfl

/-- A binary frame does not change the reply. -/
theorem reply_unchanged_iff_binary :
    letI := asciiRuntime
    ∃ lead out out',
      Runs (callDeviceBuilderWsCommand 1 ⟨none⟩ ingressAddon "esphome" listDevices)
        (lead ++ ⟨.sendStr listText, .ok ()⟩ :: silence) out ∧
      Runs (callDeviceBuilderWsCommand 2 ⟨none⟩ ingressAddon "esphome" listDevices)
        (lead ++ ⟨.sendStr listText, .ok ()⟩ :: silenceBehind .binary) out' ∧
      RepliesAlike out out' := by
  let := asciiRuntime
  have hrun := runs_of_sent (runs_opened dumps_listDevices) dumps_listDevices
    (runs_silence _ _ _) (.ret _)
  have hrun' := runs_of_sent (runs_opened dumps_listDevices) dumps_listDevices
    (runs_silenceBehind _ _ _) (.ret _)
  have hquiet : ¬GivesUp (silenceBehind .binary) := by
    simp [silenceBehind, turn, givesUp_cons, not_givesUp_nil, RaisesRecursion, jsonErr]
  have hlimit : ∀ n, listDevices.messageLimit = some n → 0 < n := fun n h => by cases h
  have hsame := (reply_unchanged_iff hlimit (by decide) hrun hrun' (by simp) (by simp)
    extends_binary).mpr fun h => absurd h hquiet
  exact ⟨_, _, _, hrun, hrun', hsame.1⟩

/-- Brackets that are never closed take the reply away. -/
theorem not_reply_unchanged_brackets :
    letI := asciiRuntime
    ∃ lead out out',
      Runs (callDeviceBuilderWsCommand 1 ⟨none⟩ ingressAddon "esphome" listDevices)
        (lead ++ ⟨.sendStr listText, .ok ()⟩ :: silence) out ∧
      Runs (callDeviceBuilderWsCommand 1 ⟨none⟩ ingressAddon "esphome" listDevices)
        (lead ++ ⟨.sendStr listText, .ok ()⟩ :: brackets) out' ∧
      Extends listDevices silence brackets ∧ ¬RepliesAlike out out' := by
  let := asciiRuntime
  have hrun := runs_of_sent (runs_opened dumps_listDevices) dumps_listDevices
    (runs_silence _ _ _) (.ret _)
  have hrun' := runs_of_sent (runs_opened dumps_listDevices) dumps_listDevices
    (runs_brackets _ _ _) (.raise _)
  exact ⟨_, _, _, hrun, hrun', extends_brackets, id⟩

end EsphomeMcp.Addon
