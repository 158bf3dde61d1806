import EsphomeMcp.Addon.DeviceBuilderTools
import EsphomeMcp.Addon.LoopTurns

/-!
# What a successful Device Builder call has heard

A call reports success when its conversation ended without an exception and without an error
frame, whether or not a result came. The results say for every run of the wrappers when a
success stands for a result frame of the command, and when silence, a closed socket or a used-up
limit is reported as success (`claimsAnswer_iff`).
-/

namespace EsphomeMcp.Addon

open Py Py.Prog

/-! ## Frames -/

/-- A text that was sent. -/
def isSend : Exchange → Bool
  | ⟨.sendStr _, _⟩ => true
  | _ => false

/-- A text that was sent without an exception. -/
def isSent : Exchange → Bool
  | ⟨.sendStr _, .ok _⟩ => true
  | _ => false

/-- The exchanges behind the first text that was sent. -/
def replies (tr : List Exchange) : List Exchange := (tr.dropWhile fun ev => !isSend ev).tail

theorem isSent_of_isSend {ev : Exchange} (h : isSend ev = false) : isSent ev = false := by
  obtain ⟨c, r⟩ := ev
  cases c with
  | sendStr => cases h
  | _ => rfl

theorem replies_append (lead : List Exchange) (h : ∀ ev ∈ lead, isSend ev = false) {ev : Exchange}
    (hev : isSend ev = true) (rest : List Exchange) : replies (lead ++ ev :: rest) = rest := by
  rw [replies, List.dropWhile_append_of_pos (by simpa using h),
    List.dropWhile_cons_of_neg (by simp [hev])]
  rfl

/-- A command that sends no text. -/
def IsNoSend (c : Cmd) : Prop := ∀ r, isSend ⟨c, r⟩ = false

theorem isSend_of_issues {α : Type} {p : Coro α} {tr : List Exchange} {out : Except Err α}
    (hp : Issues IsNoSend p) (h : Runs p tr out) : ∀ ev ∈ tr, isSend ev = false :=
  fun ev hev => hp.of_runs h ev hev ev.answer

theorem wsResponse_result (c : WsCommand) (slug url : Str) (headers : Headers) (st : WsState) :
    isSuccess (wsResponse c slug url headers st) = true ∧
      dictGet (wsResponse c slug url headers st) "result" = st.result := by
  refine ⟨isSuccess_success _, ?_⟩
  simp [wsResponse, success, dictGet, dictGet?_cons]

theorem resultList_of_null {response : Dict} (h : dictGet response "result" = .null) :
    resultList response = some [] := by
  rw [resultList, h]
  rfl

section

variable [Runtime]

/-- The value read from a received text. -/
def frameOf : Exchange → Option (Except Err Json)
  | ⟨.receive _, .ok (.text text)⟩ => some (loadsOrText text)
  | _ => none

/-- A received dict with the id of the command and a `result`. -/
def IsResultFrame (ev : Exchange) : Prop :=
  ∃ d, frameOf ev = some (.ok (.obj d)) ∧ dictGet d "message_id" = .str commandId ∧
    dictHas d "result" = true

/-- An exchange that neither ends the conversation with a failure nor brings a result: it raised
nothing but a receive that timed out, and a text was read and is not a frame of the command with
a `result`, an `error_code` or an event that cannot be looked up. -/
def IsUnanswering (ev : Exchange) : Prop :=
  match ev with
  | ⟨.receive _, .ok (.text text)⟩ =>
    match loadsOrText text with
    | .ok (.obj d) => dictGet d "message_id" = .str commandId → dictHas d "result" = false ∧
        dictHas d "error_code" = false ∧ (dictGet d "event").isHashable = true
    | .ok _ => True
    | .error _ => False
  | ⟨.receive _, .ok _⟩ => True
  | ⟨.receive _, .error e⟩ => ∃ text, e = .exn .timeout text
  | ⟨_, .ok _⟩ => True
  | ⟨_, .error _⟩ => False

theorem not_isResultFrame {ev : Exchange} (h : IsUnanswering ev) : ¬IsResultFrame ev := by
  rintro ⟨d, hf, hid, hres⟩
  obtain ⟨c, r⟩ := ev
  cases c with
  | receive t =>
    cases r with
    | ok m =>
      cases m with
      | text text =>
        simp only [frameOf, Option.some.injEq] at hf
        simp only [IsUnanswering, hf] at h
        rw [(h hid).1] at hres
        cases hres
      | _ => cases hf
    | error e => cases hf
  | _ => cases hf

/-! ## The receive loop -/

/-- What the receive loop comes to. -/
structure LoopRun (st : WsState) (tr : List Exchange) (out : Except Err (Except Dict WsState)) :
    Prop where
  failed : ∀ payload, out = .ok (.error payload) → isSuccess payload = false
  done : ∀ st', out = .ok (.ok st') → (∀ ev ∈ tr, IsUnanswering ev ∨ IsResultFrame ev) ∧
    (st'.result = st.result ∨ ∃ ev ∈ tr, IsResultFrame ev)
  unanswered : (∀ ev ∈ tr, IsUnanswering ev) → out = .error .diverged ∨ ∃ st', out = .ok (.ok st')

theorem LoopRun.ret {st st' : WsState} {tr : List Exchange}
    (htr : ∀ ev ∈ tr, IsUnanswering ev ∨ IsResultFrame ev)
    (hst : st'.result = st.result ∨ ∃ ev ∈ tr, IsResultFrame ev) :
    LoopRun st tr (.ok (.ok st')) := by
  refine ⟨nofun, fun st'' he => ?_, fun _ => .inr ⟨st', rfl⟩⟩
  cases he
  exact ⟨htr, hst⟩

theorem LoopRun.raise {st : WsState} {tr : List Exchange} {e : Err}
    (h : ¬∀ ev ∈ tr, IsUnanswering ev) : LoopRun st tr (.error e) :=
  ⟨nofun, nofun, fun hall => absurd hall h⟩

/-- Exchanges that bring no answer in front of a loop. -/
theorem LoopRun.cons {st : WsState} (st' : WsState) {lead tr : List Exchange}
    {out : Except Err (Except Dict WsState)}
    (hlead : ∀ ev ∈ lead, IsUnanswering ev ∨ IsResultFrame ev)
    (hst : st'.result = st.result ∨ ∃ ev ∈ lead, IsResultFrame ev) (h : LoopRun st' tr out) :
    LoopRun st (lead ++ tr) out := by
  refine ⟨h.failed, fun st'' he => ?_, fun hall => h.unanswered fun ev hev =>
    hall ev (List.mem_append_right _ hev)⟩
  obtain ⟨htr, hres⟩ := h.done st'' he
  refine ⟨fun ev hev => (List.mem_append.mp hev).elim (hlead ev) (htr ev), ?_⟩
  rcases hres with hres | ⟨ev, hev, hr⟩
  · rcases hst with hst | ⟨ev, hev, hr⟩
    · exact .inl (hres.trans hst)
    · exact .inr ⟨ev, List.mem_append_left _ hev, hr⟩
  · exact .inr ⟨ev, List.mem_append_right _ hev, hr⟩

/-- What one frame does: it raises or fails the conversation, or it goes on or ends it, having
brought no answer or a result. -/
theorem handleFrame_cases (c : WsCommand) (st : WsState) (t : ℚ) {text : Str} {data : Json}
    (hload : loadsOrText text = .ok data) :
    (∃ e, handleFrame c st data = .error e ∧ e ≠ .diverged ∧
      ¬IsUnanswering ⟨.receive t, .ok (.text text)⟩) ∨
    (∃ payload, handleFrame c st data = .ok (.fail payload) ∧ isSuccess payload = false ∧
      ¬IsUnanswering ⟨.receive t, .ok (.text text)⟩) ∨
    ∃ st', (handleFrame c st data = .ok (.next st') ∨ handleFrame c st data = .ok (.stop st')) ∧
      (IsUnanswering ⟨.receive t, .ok (.text text)⟩ ∧ st'.result = st.result ∨
        IsResultFrame ⟨.receive t, .ok (.text text)⟩) := by
  cases data with
  | obj d =>
    have hun : IsUnanswering ⟨.receive t, .ok (.text text)⟩ ↔
        (dictGet d "message_id" = .str commandId → dictHas d "result" = false ∧
          dictHas d "error_code" = false ∧ (dictGet d "event").isHashable = true) := by
      simp only [IsUnanswering, hload]
    rw [hun]
    unfold handleFrame
    simp only
    by_cases hid : dictGet d "message_id" = .str commandId
    · -- a frame of the command
      have hframe (hres : dictHas d "result" = true) :
          IsResultFrame ⟨.receive t, .ok (.text text)⟩ := ⟨d, by simp [frameOf, hload], hid, hres⟩
      have hhash (hevent : dictHas d "event" = false) : (dictGet d "event").isHashable = true := by
        rw [dictHas, Option.isSome_eq_false_iff, Option.isNone_iff_eq_none] at hevent
        rw [dictGet, hevent]
        rfl
      simp only [hid, ne_eq, not_true_eq_false, if_false, forall_const]
      by_cases herr : dictHas d "error_code" = true
      · refine .inr (.inl ⟨_, if_pos herr, ?_, fun h => ?_⟩)
        · simp [commandError, isSuccess, dictGet, dictGet?_cons]
        · rw [h.2.1] at herr
          cases herr
      · rw [if_neg herr]
        have herr' : dictHas d "error_code" = false := by simpa using herr
        by_cases hevent : dictHas d "event" = true
        · rw [if_pos hevent]
          by_cases hh : (dictGet d "event").isHashable = true
          · -- an event frame, which may carry a result nobody reads
            refine .inr (.inr ?_)
            have hcase : dictHas d "result" = false ∧ dictHas d "error_code" = false ∧
                (dictGet d "event").isHashable = true ∨
                  IsResultFrame ⟨.receive t, .ok (.text text)⟩ := by
              by_cases hres : dictHas d "result" = true
              · exact .inr (hframe hres)
              · exact .inl ⟨by simpa using hres, herr', hh⟩
            rw [if_neg (by simp [hh])]
            by_cases hterm : dictGet d "event" = .lit "result"
            · exact ⟨_, .inr (if_pos hterm), hcase.imp_left fun h => ⟨h, rfl⟩⟩
            · exact ⟨_, .inl (if_neg hterm), hcase.imp_left fun h => ⟨h, rfl⟩⟩
          · refine .inl ⟨_, if_pos (by simpa using hh), fun h => ?_, fun h => hh h.2.2⟩
            cases h
        · have hevent' : dictHas d "event" = false := by simpa using hevent
          rw [if_neg hevent]
          by_cases hres : dictHas d "result" = true
          · rw [if_pos hres]
            refine .inr (.inr ?_)
            cases c.stream with
            | true => exact ⟨_, .inl rfl, .inr (hframe hres)⟩
            | false => exact ⟨_, .inr rfl, .inr (hframe hres)⟩
          · exact .inr (.inr ⟨_, .inl (if_neg hres),
              .inl ⟨⟨by simpa using hres, herr', hhash hevent'⟩, rfl⟩⟩)
    · rw [if_pos hid]
      exact .inr (.inr ⟨_, .inl rfl, .inl ⟨fun h => absurd h hid, rfl⟩⟩)
  | _ => exact .inr (.inr ⟨_, .inl rfl, .inl ⟨by simp [IsUnanswering, hload], rfl⟩⟩)

/-- What one delivery does: the loop ends with an exception or a failure, or it goes on or ends,
having heard no answer or a result. -/
theorem loopStep_cases (c : WsCommand) (st : WsState) (t : ℚ) (r : Delivery) :
    (∃ e, loopStep c st r = .inr (.error e) ∧ (e = .diverged → r = .error .diverged) ∧
      ¬IsUnanswering ⟨.receive t, r⟩) ∨
    (∃ payload, loopStep c st r = .inr (.ok (.error payload)) ∧ isSuccess payload = false ∧
      ¬IsUnanswering ⟨.receive t, r⟩) ∨
    ∃ st', (loopStep c st r = .inl st' ∨ loopStep c st r = .inr (.ok (.ok st'))) ∧
      (IsUnanswering ⟨.receive t, r⟩ ∧ st'.result = st.result ∨
        IsResultFrame ⟨.receive t, r⟩) := by
  rcases r with (⟨kind, text⟩ | _) | m
  · by_cases hkind : kind = .timeout
    · subst hkind
      exact .inr (.inr ⟨_, .inr rfl, .inl ⟨⟨text, rfl⟩, rfl⟩⟩)
    · refine .inl ⟨.exn kind text, ?_, by simp, ?_⟩
      · cases kind <;> first | exact absurd rfl hkind | rfl
      · rintro ⟨_, he⟩
        cases he
        exact hkind rfl
  · refine .inl ⟨.diverged, rfl, fun _ => rfl, ?_⟩
    rintro ⟨_, he⟩
    cases he
  cases m with
  | close | closed | error => exact .inr (.inr ⟨_, .inr rfl, .inl ⟨trivial, rfl⟩⟩)
  | binary | other => exact .inr (.inr ⟨_, .inl rfl, .inl ⟨trivial, rfl⟩⟩)
  | text text =>
    cases hload : loadsOrText text with
    | error e =>
      refine .inl ⟨e, by simp only [loopStep, hload], ?_, ?_⟩
      · rintro rfl
        cases hl : loads text with
        | ok j => simp [loadsOrText, hl] at hload
        | error je => cases je <;> simp [loadsOrText, hl, jsonErr] at hload
      · simp only [IsUnanswering, hload, not_false_eq_true]
    | ok data =>
      rcases handleFrame_cases c st t hload with ⟨e, he, hne, hun⟩ | ⟨payload, he, hfail, hun⟩ |
        ⟨st', he | he, hcase⟩
      · exact .inl ⟨e, by simp only [loopStep, hload, he], fun heq => absurd heq hne, hun⟩
      · exact .inr (.inl ⟨payload, by simp only [loopStep, hload, he], hfail, hun⟩)
      · exact .inr (.inr ⟨st', .inl (by simp only [loopStep, hload, he]), hcase⟩)
      · exact .inr (.inr ⟨st', .inr (by simp only [loopStep, hload, he]), hcase⟩)

theorem LoopTrace.loopRun {c : WsCommand} {deadline : ℚ} {st : WsState} {tr : List Exchange}
    {out : LoopEnd} (h : LoopTrace c deadline st tr out) : LoopRun st tr out := by
  have htime {now : ℚ} : ∀ ev ∈ ([⟨.time, .ok now⟩] : List Exchange),
      IsUnanswering ev ∨ IsResultFrame ev := by
    intro ev hev
    rw [List.mem_singleton.mp hev]
    exact .inl trivial
  induction h with
  | limit => exact .ret (by simp) (.inl rfl)
  | clock e => exact .raise fun hall => hall ⟨.time, .error e⟩ List.mem_cons_self
  | late => exact .ret htime (.inl rfl)
  | @done st now t r out _ _ hstep =>
    refine LoopRun.cons st htime (.inl rfl) ?_
    rcases loopStep_cases c st t r with ⟨e, he, -, hun⟩ | ⟨payload, he, hfail, hun⟩ |
      ⟨st', he | he, hcase⟩
    · obtain rfl := Sum.inr.inj (hstep.symm.trans he)
      exact .raise fun hall => hun (hall _ List.mem_cons_self)
    · obtain rfl := Sum.inr.inj (hstep.symm.trans he)
      refine ⟨fun _ heq => ?_, by simp, fun hall => absurd (hall _ List.mem_cons_self) hun⟩
      cases heq
      exact hfail
    · cases hstep.symm.trans he
    · obtain rfl := Sum.inr.inj (hstep.symm.trans he)
      refine .ret ?_ ?_
      · simpa using hcase.imp_left And.left
      · exact hcase.imp And.right fun hr => ⟨_, List.mem_cons_self, hr⟩
  | @next st st' now t r tr out _ _ hstep _ ih =>
    have hcase : IsUnanswering ⟨.receive t, r⟩ ∧ st'.result = st.result ∨
        IsResultFrame ⟨.receive t, r⟩ := by
      rcases loopStep_cases c st t r with ⟨e, he, -⟩ | ⟨payload, he, -⟩ | ⟨st'', he | he, hcase⟩
      · cases hstep.symm.trans he
      · cases hstep.symm.trans he
      · rwa [Sum.inl.inj (hstep.symm.trans he)]
      · cases hstep.symm.trans he
    have hrest : LoopRun st ([⟨.receive t, r⟩] ++ tr) out := by
      refine .cons st' ?_ ?_ ih
      · simpa using hcase.imp_left And.left
      · exact hcase.imp And.right fun hr => ⟨_, List.mem_cons_self, hr⟩
    exact LoopRun.cons st htime (.inl rfl) hrest
  | cut => exact ⟨by simp, by simp, fun _ => .inl rfl⟩

/-- A receive. -/
def isReceive : Exchange → Bool
  | ⟨.receive _, _⟩ => true
  | _ => false

/-- The loop is cut off only when it has used up its receives, so every run of the source is a
run here for enough of them. -/
theorem receives_of_diverged {c : WsCommand} {deadline : ℚ} {fuel : ℕ} {st : WsState}
    {tr : List Exchange} (h : Runs (receiveLoop c deadline fuel st) tr (.error .diverged))
    (hanswer : ∀ ev ∈ tr, ev.answer ≠ .error .diverged) : fuel ≤ tr.countP isReceive := by
  induction fuel generalizing st tr with
  | zero => exact Nat.zero_le _
  | succ fuel ih =>
    rcases turn_of_runs h with ⟨-, -, he⟩ | ⟨e, rfl, he⟩ | ⟨now, -, -, he⟩ |
      ⟨now, t, r, rest, -, -, rfl, hrest⟩
    · cases he
    · cases he
      exact absurd rfl (hanswer ⟨.time, .error .diverged⟩ List.mem_cons_self)
    · cases he
    · cases hstep : loopStep c st r with
      | inl st' =>
        -- the loop goes on behind this receive
        rw [hstep] at hrest
        have hle := ih hrest fun ev hev =>
          hanswer ev (List.mem_cons_of_mem _ (List.mem_cons_of_mem _ hev))
        rw [List.countP_cons_of_neg (by simp [isReceive]), List.countP_cons_of_pos rfl]
        omega
      | inr w =>
        rw [hstep] at hrest
        obtain ⟨-, rfl⟩ := runs_ofExcept_iff.mp hrest
        have hr : r = .error .diverged := by
          rcases loopStep_cases c st t r with ⟨e, he, hr, -⟩ | ⟨payload, he, -⟩ | ⟨st', he | he, -⟩
          · exact hr (Except.error.inj (Sum.inr.inj (he.symm.trans hstep)))
          all_goals cases he.symm.trans hstep
        subst hr
        exact absurd rfl (hanswer ⟨.receive t, .error .diverged⟩ (by simp))

/-! ## One command -/

/-- The command was sent and nothing behind it brought an answer or a failure. -/
def Unanswered (tr : List Exchange) : Prop :=
  (∃ ev ∈ tr, isSent ev = true) ∧ ∀ ev ∈ replies tr, IsUnanswering ev

/-- A result frame came behind the command. -/
def Answered (tr : List Exchange) : Prop := ∃ ev ∈ replies tr, IsResultFrame ev

/-- What one command comes to: only a command that was sent succeeds, a success has heard nothing
but quiet exchanges and result frames, and a conversation in which nothing was answered succeeds
without a result. -/
structure CommandRun (tr : List Exchange) (out : Except Err Dict) : Prop where
  success : ∀ d, out = .ok d → isSuccess d = true → (∃ ev ∈ tr, isSent ev = true) ∧
    (∀ ev ∈ replies tr, IsUnanswering ev ∨ IsResultFrame ev) ∧
    (dictGet d "result" = .null ∨ Answered tr)
  unanswered : Unanswered tr → out = .error .diverged ∨
    ∃ d, out = .ok d ∧ isSuccess d = true ∧ dictGet d "result" = .null

/-- A run that failed before its command was sent. -/
theorem CommandRun.unsent {tr : List Exchange} {out : Except Err Dict}
    (hsent : ∀ ev ∈ tr, isSent ev = false) (hout : IsFailure out) : CommandRun tr out := by
  refine ⟨fun d hd hs => ?_, fun ⟨⟨ev, hev, hs⟩, _⟩ => ?_⟩
  · rw [hout d hd] at hs
    cases hs
  · rw [hsent ev hev] at hs
    cases hs

/-- What the part of a conversation from the command on comes to. -/
inductive ExchangeRun (st : WsState) : List Exchange → Except Err (Except Dict WsState) → Prop
  | unsent {tr : List Exchange} {e : Err} (hsent : ∀ ev ∈ tr, isSent ev = false) :
      ExchangeRun st tr (.error e)
  | sent {text : Str} {rest : List Exchange} {out : Except Err (Except Dict WsState)}
      (h : LoopRun st rest out) : ExchangeRun st (⟨.sendStr text, .ok ()⟩ :: rest) out

theorem runs_exchangeCommand {fuel : ℕ} {c : WsCommand} (hc : c.stream = false) {st : WsState}
    {tr : List Exchange} {out : Except Err (Except Dict WsState)}
    (h : Runs (exchangeCommand fuel c st) tr out) : ExchangeRun st tr out := by
  unfold exchangeCommand at h
  rcases runs_bind_iff.mp h with ⟨text, tr₁, tr₂, h₁, h₂, rfl⟩ | ⟨e, h₁, rfl⟩
  · obtain ⟨rfl, -⟩ := runs_ofExcept_iff.mp h₁
    rw [List.nil_append]
    rcases runs_bind_iff.mp h₂ with ⟨_, tr₃, tr₄, h₃, h₄, rfl⟩ | ⟨e, h₃, rfl⟩
    · obtain rfl := runs_await_iff.mp h₃
      rw [List.singleton_append]
      refine .sent ?_
      rcases runs_bind_iff.mp h₄ with ⟨start, tr₅, tr₆, h₅, h₆, rfl⟩ | ⟨e, h₅, rfl⟩
      · obtain rfl := runs_await_iff.mp h₅
        have htime : IsUnanswering ⟨.time, .ok start⟩ := trivial
        refine LoopRun.cons st (by simp [htime]) (.inl rfl) ?_
        rcases runs_bind_iff.mp h₆ with ⟨r, tr₇, tr₈, h₇, h₈, rfl⟩ | ⟨e, h₇, rfl⟩
        · have hloop := (loopTrace_of_runs h₇).loopRun
          cases r with
          | error payload =>
            obtain ⟨rfl, rfl⟩ := runs_ret_iff.mp h₈
            rwa [List.append_nil]
          | ok st' =>
            obtain ⟨hall, hres⟩ := hloop.done st' rfl
            refine .cons _ hall hres ?_
            have hstop : sendStop c = (ret () : Coro Unit) := by
              rw [sendStop, if_neg (by simp [hc])]
              rfl
            simp only [hstop, bind_eq, bind_ret] at h₈
            rcases runs_bind_iff.mp h₈ with ⟨_, tr₉, tr₁₀, h₉, h₁₀, rfl⟩ | ⟨e, h₉, rfl⟩
            · obtain rfl := runs_await_iff.mp h₉
              obtain ⟨rfl, rfl⟩ := runs_ret_iff.mp h₁₀
              have hclose : IsUnanswering ⟨.wsClose, .ok ()⟩ := trivial
              refine .ret (by simp [hclose]) (.inl ?_)
              rw [limitReached]
              split_ifs <;> rfl
            · obtain rfl := runs_await_iff.mp h₉
              exact .raise fun hall => hall ⟨.wsClose, .error e⟩ List.mem_cons_self
        · exact (loopTrace_of_runs h₇).loopRun
      · obtain rfl := runs_await_iff.mp h₅
        exact .raise fun hall => hall ⟨.time, .error e⟩ List.mem_cons_self
    · obtain rfl := runs_await_iff.mp h₃
      exact .unsent (by simp [isSent])
  · obtain ⟨rfl, -⟩ := runs_ofExcept_iff.mp h₁
    exact .unsent (by simp)

theorem isNoSend_of_isRead {c : Cmd} (h : IsRead c) : IsNoSend c := by
  intro r
  cases c with
  | sendStr => cases h
  | _ => rfl

theorem isNoSend_of_isSupervisorCall {endpoint method : Str} {c : Cmd}
    (h : IsSupervisorCall endpoint method c) : IsNoSend c := by
  intro r
  cases c with
  | sendStr => cases h
  | _ => rfl

/-- Waiting for server info receives. -/
theorem issues_receiveServerInfo {P : Cmd → Prop} (hreceive : ∀ t, P (.receive t)) (c : WsCommand)
    (slug : Str) : Issues P (receiveServerInfo c slug) := by
  refine Issues.bind (Issues.attempt (Issues.perform (hreceive _))) fun r => ?_
  split
  · trivial
  · trivial
  · refine Issues.bind (Issues.ofExcept _) fun data => ?_
    simp only
    split_ifs <;> trivial
  all_goals trivial

/-- What waiting for server info comes to: it ends the conversation only with a failure, and the
state it leaves has no result. -/
structure InfoRun (out : Except Err (Except Dict WsState)) : Prop where
  failed : ∀ payload, out = .ok (.error payload) → isSuccess payload = false
  result : ∀ st, out = .ok (.ok st) → st.result = .null

theorem runs_receiveServerInfo {c : WsCommand} {slug : Str} {tr : List Exchange}
    {out : Except Err (Except Dict WsState)} (h : Runs (receiveServerInfo c slug) tr out) :
    InfoRun out := by
  -- the ways to go on from the first message
  have herror {payload : Dict} {tr : List Exchange} (hp : isSuccess payload = false)
      (hr : Runs (ret (.error payload) : Coro (Except Dict WsState)) tr out) : InfoRun out := by
    obtain ⟨-, rfl⟩ := runs_ret_iff.mp hr
    refine ⟨fun _ he => ?_, nofun⟩
    cases he
    exact hp
  have hok {st : WsState} {tr : List Exchange}
      (hr : Runs (ret (.ok st) : Coro (Except Dict WsState)) tr out) (hst : st.result = .null) :
      InfoRun out := by
    obtain ⟨-, rfl⟩ := runs_ret_iff.mp hr
    refine ⟨nofun, fun _ he => ?_⟩
    cases he
    exact hst
  unfold receiveServerInfo at h
  rcases runs_bind_iff.mp h with ⟨r, tr₁, tr₂, -, h₂, -⟩ | ⟨e, -, rfl⟩
  · split at h₂
    · exact herror (isSuccess_error _ _ _) h₂
    · obtain ⟨-, rfl⟩ := runs_raise_iff.mp h₂
      exact ⟨nofun, nofun⟩
    · rcases runs_bind_iff.mp h₂ with ⟨data, tr₃, tr₄, -, h₄, -⟩ | ⟨e, -, rfl⟩
      · simp only at h₄
        split_ifs at h₄
        · exact hok h₄ rfl
        · exact herror (isSuccess_error _ _ _) h₄
        · exact hok h₄ rfl
      · exact ⟨nofun, nofun⟩
    · exact herror (isSuccess_error _ _ _) h₂
    · exact herror (isSuccess_error _ _ _) h₂
    · exact herror (isSuccess_error _ _ _) h₂
    · exact hok h₂ rfl
    · exact hok h₂ rfl
  · exact ⟨nofun, nofun⟩

/-- The exchanges before the command do not count for what came behind it. -/
theorem CommandRun.append {lead tr : List Exchange} {out : Except Err Dict}
    (hlead : ∀ ev ∈ lead, isSend ev = false) (h : CommandRun tr out) :
    CommandRun (lead ++ tr) out := by
  have hreplies : replies (lead ++ tr) = replies tr := by
    rw [replies, replies, List.dropWhile_append_of_pos (by simpa using hlead)]
  have hsent : (∃ ev ∈ lead ++ tr, isSent ev = true) ↔ ∃ ev ∈ tr, isSent ev = true := by
    constructor
    · rintro ⟨ev, hev, hs⟩
      rcases List.mem_append.mp hev with hev | hev
      · rw [isSent_of_isSend (hlead ev hev)] at hs
        cases hs
      · exact ⟨ev, hev, hs⟩
    · rintro ⟨ev, hev, hs⟩
      exact ⟨ev, List.mem_append_right _ hev, hs⟩
  exact ⟨by rw [hsent, Answered, hreplies]; exact h.success,
    by rw [Unanswered, hsent, hreplies]; exact h.unanswered⟩

theorem runs_wsHandler {c : WsCommand} {slug : Str} {e : Err} {tr : List Exchange}
    {out : Except Err Dict} (h : Runs (wsHandler c slug e) tr out) : tr = [] ∧ IsFailure out := by
  unfold wsHandler at h
  split at h
  · obtain ⟨rfl, rfl⟩ := runs_ret_iff.mp h
    exact ⟨rfl, isFailure_ok (isSuccess_error _ _ _)⟩
  · obtain ⟨rfl, rfl⟩ := runs_ret_iff.mp h
    exact ⟨rfl, isFailure_ok (isSuccess_error _ _ _)⟩
  · obtain ⟨rfl, rfl⟩ := runs_raise_iff.mp h
    exact ⟨rfl, isFailure_error _⟩

/-- A conversation: its response is the state its loop ended in. -/
theorem runs_converseWs {fuel : ℕ} {c : WsCommand} (hc : c.stream = false) {slug url : Str}
    {headers : Headers} {tr : List Exchange} {out : Except Err Dict}
    (h : Runs (converseWs fuel c slug url headers) tr out) : CommandRun tr out := by
  unfold converseWs at h
  rcases runs_bind_iff.mp h with ⟨_, tr₁, tr₂, h₁, h₂, rfl⟩ | ⟨e, h₁, rfl⟩
  · refine .append (isSend_of_issues (Issues.perform fun _ => rfl) h₁) ?_
    rcases runs_bind_iff.mp h₂ with ⟨r, tr₃, tr₄, h₃, h₄, rfl⟩ | ⟨e, h₃, rfl⟩
    · have hinfo := isSend_of_issues (issues_receiveServerInfo (fun _ _ => rfl) c slug) h₃
      cases r with
      | error payload =>
        obtain ⟨rfl, rfl⟩ := runs_ret_iff.mp h₄
        rw [List.append_nil]
        exact .unsent (fun ev hev => isSent_of_isSend (hinfo ev hev))
          (isFailure_ok ((runs_receiveServerInfo h₃).failed payload rfl))
      | ok st =>
        refine .append hinfo ?_
        have hst : st.result = .null := (runs_receiveServerInfo h₃).result st rfl
        rcases runs_bind_iff.mp h₄ with ⟨r, tr₅, tr₆, h₅, h₆, rfl⟩ | ⟨e, h₅, rfl⟩
        · obtain rfl : tr₆ = [] := by
            cases r <;> exact (runs_ret_iff.mp h₆).1
          rw [List.append_nil]
          generalize hout : (.ok r : Except Err (Except Dict WsState)) = loopOut at h₅
          cases runs_exchangeCommand hc h₅ with
          | unsent => cases hout
          | sent hloop =>
            rename_i text rest
            subst hout
            have hreplies : replies (⟨.sendStr text, .ok ()⟩ :: rest) = rest :=
              replies_append [] (by simp) rfl rest
            cases r with
            | error payload =>
              obtain ⟨-, rfl⟩ := runs_ret_iff.mp h₆
              refine ⟨fun d hd hs => ?_, fun ⟨_, hall⟩ => ?_⟩
              · cases hd
                rw [hloop.failed _ rfl] at hs
                cases hs
              · rw [hreplies] at hall
                rcases hloop.unanswered hall with he | ⟨st', he⟩ <;> cases he
            | ok st' =>
              obtain ⟨-, rfl⟩ := runs_ret_iff.mp h₆
              obtain ⟨hsuccess, hresult⟩ := wsResponse_result c slug url headers st'
              obtain ⟨hall, hres⟩ := hloop.done st' rfl
              rw [hst] at hres
              refine ⟨fun d hd hs => ?_, fun ⟨_, hquiet⟩ => .inr ⟨_, rfl, hsuccess, ?_⟩⟩
              · cases hd
                rw [Answered, hreplies, hresult]
                exact ⟨⟨_, List.mem_cons_self, rfl⟩, hall, hres⟩
              · rw [hreplies] at hquiet
                rw [hresult]
                exact hres.resolve_right fun ⟨ev, hev, hr⟩ => not_isResultFrame (hquiet ev hev) hr
        · generalize hout : (.error e : Except Err (Except Dict WsState)) = loopOut at h₅
          cases runs_exchangeCommand hc h₅ with
          | unsent hsent => exact .unsent hsent (isFailure_error e)
          | sent hloop =>
            rename_i text rest
            subst hout
            have hreplies : replies (⟨.sendStr text, .ok ()⟩ :: rest) = rest :=
              replies_append [] (by simp) rfl rest
            refine ⟨nofun, fun ⟨_, hall⟩ => ?_⟩
            rw [hreplies] at hall
            rcases hloop.unanswered hall with he | ⟨st', he⟩
            · cases he
              exact .inl rfl
            · cases he
    · have hinfo := isSend_of_issues (issues_receiveServerInfo (fun _ _ => rfl) c slug) h₃
      exact .unsent (fun ev hev => isSent_of_isSend (hinfo ev hev)) (isFailure_error e)
  · have hconnect := isSend_of_issues (Issues.perform fun _ => rfl) h₁
    exact .unsent (fun ev hev => isSent_of_isSend (hconnect ev hev)) (isFailure_error e)

/-- The handlers of the conversation turn an exception into a failure. -/
theorem runs_guardedWs {fuel : ℕ} {c : WsCommand} (hc : c.stream = false) {slug url : Str}
    {headers : Headers} {tr : List Exchange} {out : Except Err Dict}
    (h : Runs (tryCatch (converseWs fuel c slug url headers) (wsHandler c slug)) tr out) :
    CommandRun tr out := by
  rcases runs_tryCatch_iff.mp h with ⟨d, h₁, rfl⟩ | ⟨e, tr₁, tr₂, h₁, h₂, rfl⟩
  · exact runs_converseWs hc h₁
  · obtain ⟨rfl, hfail⟩ := runs_wsHandler h₂
    rw [List.append_nil]
    refine ⟨fun d hd hs => ?_, fun hun => ?_⟩
    · rw [hfail d hd] at hs
      cases hs
    · rcases (runs_converseWs hc h₁).unanswered hun with he | ⟨d, he, -⟩
      · cases he
        exact .inl (runs_raise_iff.mp h₂).2
      · cases he

theorem runs_deviceBuilderCommand {fuel : ℕ} {hass : Hass} {slug : Option Str} {c : WsCommand}
    (hc : c.stream = false) {tr : List Exchange} {out : Except Err Dict}
    (h : Runs (deviceBuilderCommand fuel hass slug c) tr out) : CommandRun tr out := by
  have hresolve : ∀ {tr out}, Runs (resolveEsphomeAddon slug) tr out →
      ∀ ev ∈ tr, isSend ev = false :=
    isSend_of_issues (Issues.mono (fun _ => isNoSend_of_isRead) (issues_resolveEsphomeAddon _))
  -- a run that ends before the conversation
  have hfailed {tr : List Exchange} {out : Except Err Dict} (htr : ∀ ev ∈ tr, isSend ev = false)
      (hout : IsFailure out) : CommandRun tr out :=
    .unsent (fun ev hev => isSent_of_isSend (htr ev hev)) hout
  unfold deviceBuilderCommand at h
  rcases runs_bind_iff.mp h with ⟨resolved, tr₁, tr₂, h₁, h₂, rfl⟩ | ⟨e, h₁, rfl⟩
  · refine .append (hresolve h₁) ?_
    by_cases hr : isSuccess resolved = true
    · rw [if_neg (by simp [hr])] at h₂
      split at h₂
      · simp only at h₂
        split_ifs at h₂ with hstate
        · obtain ⟨rfl, rfl⟩ := runs_ret_iff.mp h₂
          exact hfailed (by simp) (isFailure_ok (isSuccess_error _ _ _))
        · unfold callDeviceBuilderWsCommand at h₂
          rcases runs_bind_iff.mp h₂ with ⟨route, tr₃, tr₄, h₃, h₄, rfl⟩ | ⟨e, h₃, rfl⟩
          · have hroute := isSend_of_issues (issues_routeForAddon (fun _ => rfl)
              (fun _ => isNoSend_of_isSupervisorCall) _ _ _ _ _) h₃
            refine .append hroute ?_
            cases route with
            | error payload =>
              obtain ⟨rfl, rfl⟩ := runs_ret_iff.mp h₄
              exact hfailed (by simp) (isFailure_ok (runs_routeForAddon_error h₃))
            | ok route => exact runs_guardedWs hc h₄
          · exact hfailed (isSend_of_issues (issues_routeForAddon (fun _ => rfl)
              (fun _ => isNoSend_of_isSupervisorCall) _ _ _ _ _) h₃) (isFailure_error e)
      · obtain ⟨rfl, rfl⟩ := runs_raise_iff.mp h₂
        exact hfailed (by simp) (isFailure_error _)
    · rw [if_pos (by simp [hr])] at h₂
      obtain ⟨rfl, rfl⟩ := runs_ret_iff.mp h₂
      exact hfailed (by simp) (isFailure_ok (by simpa using hr))
  · exact hfailed (hresolve h₁) (isFailure_error e)

/-! ## The wrappers -/

/-- The wrappers around one command that do not stream, with their arguments. -/
inductive Wrapper where
  | listDevices (f : DeviceFilter)
  | searchYaml (q : YamlQuery)
  | readConfig (configuration : Str)
  | writeConfig (configuration content : Str) (allowWipe : Bool)
  | queueJob (command : Str) (args : Dict)
  | listJobs (status configuration : Option Str) (limit : ℤ)
  | getJob (jobId : Str)

/-- The wrapper that looks at the result it was given. -/
def Wrapper.checksResult : Wrapper → Bool
  | listDevices _ => true
  | _ => false

/-- A call of a wrapper. -/
def Wrapper.run (fuel : ℕ) (hass : Hass) (slug : Option Str) (timeout : ℤ) (debug : Bool) :
    Wrapper → Coro Dict
  | listDevices f => listDeviceBuilderDevices fuel hass slug f timeout debug
  | searchYaml q => searchDeviceBuilderYaml fuel hass slug q timeout debug
  | readConfig configuration => readConfigOverWs fuel hass slug configuration timeout debug
  | writeConfig configuration content allowWipe =>
    writeDeviceBuilderConfig fuel hass slug configuration content allowWipe timeout debug
  | queueJob command args =>
    queueDeviceBuilderFirmwareJob fuel hass slug command args timeout debug
  | listJobs status configuration limit =>
    listDeviceBuilderFirmwareJobs fuel hass slug status configuration limit timeout debug
  | getJob jobId => getDeviceBuilderFirmwareJob fuel hass slug jobId timeout debug

theorem finishDevices_result {f : DeviceFilter} {debug : Bool} {response d : Dict}
    (h : finishDevices f debug response = .ok d) (hd : isSuccess d = true) :
    dictGet response "result" ≠ .null := by
  intro hnull
  rw [finishDevices, hnull] at h
  cases h
  rw [isSuccess_error] at hd
  cases hd

/-- Every wrapper is a command with a last step; that step looks at the result, or it makes a
success of a missing one. -/
theorem Wrapper.exists_request (w : Wrapper) (fuel : ℕ) (hass : Hass) (slug : Option Str)
    (timeout : ℤ) (debug : Bool) :
    ∃ c finish, c.stream = false ∧
      w.run fuel hass slug timeout debug = requestThen fuel hass slug c finish ∧
      (w.checksResult = true → ∀ response d, finish response = .ok d → isSuccess d = true →
        dictGet response "result" ≠ .null) ∧
      (w.checksResult = false → ∀ response, dictGet response "result" = .null →
        ∃ d, finish response = .ok d ∧ isSuccess d = true) := by
  cases w with
  | listDevices f => exact ⟨_, _, rfl, rfl, fun _ _ _ => finishDevices_result, nofun⟩
  | searchYaml q =>
    refine ⟨_, _, rfl, rfl, nofun, fun _ response hnull => ?_⟩
    rw [finishSearch, resultList_of_null hnull]
    exact ⟨_, rfl, isSuccess_success _⟩
  | listJobs status configuration limit =>
    refine ⟨_, _, rfl, rfl, nofun, fun _ response hnull => ?_⟩
    rw [finishJobs, resultList_of_null hnull]
    exact ⟨_, rfl, isSuccess_success _⟩
  | _ => exact ⟨_, _, rfl, rfl, nofun, fun _ _ _ => ⟨_, rfl, isSuccess_success _⟩⟩

/-- A success stands for a result frame. -/
def ReportsOnlyAnswers (tr : List Exchange) (out : Except Err Dict) : Prop :=
  ∀ d, out = .ok d → isSuccess d = true → Answered tr

/-- In a run whose loop was followed to its end, a wrapper reports success without a result frame
exactly when it does not look at the result and nothing answered the command it sent. -/
theorem reportsOnlyAnswers_iff {w : Wrapper} {fuel : ℕ} {hass : Hass} {slug : Option Str}
    {timeout : ℤ} {debug : Bool} {tr : List Exchange} {out : Except Err Dict}
    (h : Runs (w.run fuel hass slug timeout debug) tr out) (hend : out ≠ .error .diverged) :
    ReportsOnlyAnswers tr out ↔ w.checksResult = true ∨ ¬Unanswered tr := by
  obtain ⟨c, finish, hc, hrun, hcheck, hblind⟩ := w.exists_request fuel hass slug timeout debug
  rw [hrun] at h
  unfold requestThen at h
  rcases runs_bind_iff.mp h with ⟨response, tr₁, tr₂, h₁, h₂, rfl⟩ | ⟨e, h₁, rfl⟩
  · have hcommand := runs_deviceBuilderCommand hc h₁
    by_cases hs : isSuccess response = true
    · rw [if_neg (by simp [hs])] at h₂
      obtain ⟨rfl, rfl⟩ := runs_ofExcept_iff.mp h₂
      rw [List.append_nil]
      obtain ⟨hsent, hall, hres⟩ := hcommand.success response rfl hs
      constructor
      · intro honest
        by_contra hn
        obtain ⟨hw, hun⟩ := not_or.mp hn
        rw [not_not] at hun
        have hnull : dictGet response "result" = .null :=
          hres.resolve_right fun ⟨ev, hev, hr⟩ => not_isResultFrame (hun.2 ev hev) hr
        obtain ⟨d, hd, hsd⟩ := hblind (by simpa using hw) response hnull
        obtain ⟨ev, hev, hr⟩ := honest d hd hsd
        exact not_isResultFrame (hun.2 ev hev) hr
      · rintro (hw | hun) d hd hsd
        · exact hres.resolve_left (hcheck hw response d hd hsd)
        · obtain ⟨ev, hev, hne⟩ : ∃ ev ∈ replies tr₁, ¬IsUnanswering ev := by
            by_contra hn
            push Not at hn
            exact hun ⟨hsent, hn⟩
          exact ⟨ev, hev, (hall ev hev).resolve_left hne⟩
    · -- the command failed, so something answered it or it was not sent
      rw [if_pos (by simp [hs])] at h₂
      obtain ⟨rfl, rfl⟩ := runs_ret_iff.mp h₂
      rw [List.append_nil]
      refine iff_of_true (fun d hd hsd => ?_) (.inr fun hun => ?_)
      · cases hd
        exact absurd hsd hs
      · rcases hcommand.unanswered hun with he | ⟨d, he, hsd, -⟩
        · cases he
        · cases he
          exact hs hsd
  · refine iff_of_true nofun (.inr fun hun => ?_)
    rcases (runs_deviceBuilderCommand hc h₁).unanswered hun with he | ⟨d, he, -⟩
    · exact hend he
    · cases he

end

/-- An environment in which the add-on is running and Device Builder never says anything. -/
def silentAddon (past : List Exchange) : (c : Cmd) → Except Err c.Ans
  | .component => .ok .loaded
  | .sendCommand endpoint _ _ _ =>
    .ok (if endpoint = infoEndpoint "esphome" then
        .dict [("slug", .lit "esphome"), ("state", .lit "started"), ("ingress", .bool true),
          ("ingress_entry", .lit "/api/hassio_ingress/token")]
      else .dict [("session", .lit "token")])
  | .users => .ok [⟨"admin", true, true, false⟩]
  | .receive _ => if past.any isSend then .error (.exn .timeout []) else .ok .other
  | .wsConnect .. => .ok ()
  | .sendStr _ => .ok ()
  | .wsClose => .ok ()
  | .time => .ok 0
  | .expired => .ok false
  | .request .. => .error (.exn .client [])
  | .readChunk => .error (.exn .client [])
  | .readBody => .error (.exn .client [])

/-- The write of a config, with one run's worth of receives. -/
def writeKitchen : Coro Dict :=
  @Wrapper.run asciiRuntime 2 ⟨none⟩ (some (str "esphome")) 60 false
    (.writeConfig "kitchen.yaml" "esphome:" false)

/-- Whether a run returned a success payload. -/
def succeeded : Except Err Dict → Bool
  | .ok d => isSuccess d
  | .error _ => false

theorem exec_silentAddon :
    succeeded (exec silentAddon writeKitchen []).2 = true ∧
      (exec silentAddon writeKitchen []).1.all (fun ev => (@frameOf asciiRuntime ev).isNone) =
        true := by
  constructor <;> decide +kernel

/-- There is a run in which the config is reported as updated and no frame was received. -/
theorem exists_silent_run : ∃ tr d, Runs writeKitchen tr (.ok d) ∧ isSuccess d = true ∧
    ∀ ev ∈ tr, @frameOf asciiRuntime ev = none := by
  obtain ⟨tr, hrun, htr⟩ := runs_exec silentAddon writeKitchen []
  obtain ⟨hsuccess, hframes⟩ := exec_silentAddon
  rw [htr, List.nil_append] at hframes
  cases hout : (exec silentAddon writeKitchen []).2 with
  | error e =>
    rw [hout] at hsuccess
    cases hsuccess
  | ok d =>
    rw [hout] at hrun hsuccess
    refine ⟨tr, d, hrun, hsuccess, fun ev hev => ?_⟩
    simpa using List.all_eq_true.mp hframes ev hev

/-- A silent Device Builder is reported as success, so the biconditional holds there with both
sides false. -/
theorem reportsOnlyAnswers_iff_writeKitchen : ∃ tr d, Runs writeKitchen tr (.ok d) ∧
    (@ReportsOnlyAnswers asciiRuntime tr (.ok d) ↔
      (Wrapper.writeConfig "kitchen.yaml" "esphome:" false).checksResult = true ∨
        ¬@Unanswered asciiRuntime tr) := by
  obtain ⟨tr, d, hrun, -, -⟩ := exists_silent_run
  exact ⟨tr, d, hrun, @reportsOnlyAnswers_iff asciiRuntime _ _ _ _ _ _ _ _ hrun nofun⟩

/-- A config that is written to a silent Device Builder is reported as updated. -/
theorem not_forall_reportsOnlyAnswers : ¬∀ (w : Wrapper) fuel hass slug timeout debug tr out,
    @Runs _ _ _ (@Wrapper.run asciiRuntime fuel hass slug timeout debug w) tr out →
      @ReportsOnlyAnswers asciiRuntime tr out := by
  intro h
  obtain ⟨tr, d, hrun, hsuccess, hframes⟩ := exists_silent_run
  obtain ⟨ev, hev, data, hframe, -⟩ := h _ _ _ _ _ _ tr (.ok d) hrun d rfl hsuccess
  have hmem : ev ∈ tr := (List.dropWhile_sublist _).subset (List.mem_of_mem_tail hev)
  rw [hframes ev hmem] at hframe
  cases hframe

end EsphomeMcp.Addon
