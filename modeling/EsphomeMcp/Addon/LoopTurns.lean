import EsphomeMcp.Addon.DeviceBuilder

/-!
# The turns of the receive loop

The receive loop looks at the clock and at what the socket delivers, and a delivery makes it go on
or ends it. `loopStep` is what a delivery does, `receiveLoop_succ` is one turn of the loop in its
terms, and `LoopTrace` lists the runs of the loop once and for all.
-/

namespace EsphomeMcp.Addon

open Py Py.Prog

/-- What the socket delivered, or the exception of the receive. -/
abbrev Delivery := Except Err WsMsg

/-- How the receive loop ends. -/
abbrev LoopEnd := Except Err (Except Dict WsState)

section

variable [Runtime]

/-- What one delivery does: the loop goes on, or it ends. -/
def loopStep (c : WsCommand) (st : WsState) : Delivery → WsState ⊕ LoopEnd
  | .error (.exn .timeout _) => .inr (.ok (.ok { st with closeReason := "silence" }))
  | .error e => .inr (.error e)
  | .ok (.text text) =>
    match loadsOrText text with
    | .error e => .inr (.error e)
    | .ok data =>
      match handleFrame c st data with
      | .error e => .inr (.error e)
      | .ok (.next st) => .inl st
      | .ok (.stop st) => .inr (.ok (.ok st))
      | .ok (.fail payload) => .inr (.ok (.error payload))
  | .ok .close => .inr (.ok (.ok { st with closeReason := "server_closed" }))
  | .ok .closed => .inr (.ok (.ok { st with closeReason := "server_closed" }))
  | .ok .error => .inr (.ok (.ok { st with closeReason := "error" }))
  | .ok .binary => .inl st
  | .ok .other => .inl st

/-- What one turn of the loop does with a delivery. -/
def afterDelivery (c : WsCommand) (deadline : ℚ) (fuel : ℕ) :
    WsState ⊕ LoopEnd → Coro (Except Dict WsState)
  | .inl st => receiveLoop c deadline fuel st
  | .inr w => ofExcept w

/-- One turn of the loop. -/
theorem receiveLoop_succ (c : WsCommand) (deadline : ℚ) (fuel : ℕ) (st : WsState) :
    receiveLoop c deadline (fuel + 1) st =
      if c.collectedLimit ≤ st.commandMessageCount then ret (.ok st)
      else Prog.bind (await .time) fun now =>
        if deadline - now ≤ 0 then ret (.ok st)
        else
          let t := if c.stream then deadline - now else min (deadline - now) 10
          Prog.bind (attempt (await (.receive t))) fun r =>
            afterDelivery c deadline fuel (loopStep c st r) := by
  rw [receiveLoop]
  congr 1
  refine congrArg (Prog.bind _) (funext fun now => ?_)
  dsimp only
  congr 1
  refine congrArg (Prog.bind _) (funext fun r => ?_)
  rcases r with (⟨kind, text⟩ | _) | m
  · cases kind <;> rfl
  · rfl
  cases m with
  | text text =>
    simp only [loopStep]
    cases loadsOrText text with
    | error e => rfl
    | ok data =>
      simp only [ofExcept_ok, bind_eq, bind_ret]
      cases handleFrame c st data with
      | error e => rfl
      | ok step => cases step <;> rfl
  | _ => rfl

/-- A look at the clock and a receive. -/
theorem runs_receiveLoop_turn {c : WsCommand} {deadline now : ℚ} {fuel : ℕ} {st : WsState}
    {r : Delivery} {tr : List Exchange} {w : LoopEnd}
    (hlimit : (st.commandMessageCount : ℤ) < c.collectedLimit) (hnow : now < deadline)
    (h : Runs (afterDelivery c deadline fuel (loopStep c st r)) tr w) :
    Runs (receiveLoop c deadline (fuel + 1) st) (⟨.time, .ok now⟩ ::
      ⟨.receive (if c.stream then deadline - now else min (deadline - now) 10), r⟩ :: tr) w := by
  rw [receiveLoop_succ, if_neg (by omega)]
  refine runs_bind_iff.mpr (.inl ⟨now, [_], _, runs_await_iff.mpr rfl, ?_, rfl⟩)
  rw [if_neg (by linarith)]
  exact runs_bind_iff.mpr (.inl ⟨r, [_], tr, runs_attempt_iff.mpr
    ⟨r, runs_await_iff.mpr rfl, rfl⟩, h, rfl⟩)

/-- What a turn of the loop has exchanged. -/
theorem turn_of_runs {c : WsCommand} {deadline : ℚ} {fuel : ℕ} {st : WsState}
    {tr : List Exchange} {out : LoopEnd} (h : Runs (receiveLoop c deadline (fuel + 1) st) tr out) :
    (c.collectedLimit ≤ st.commandMessageCount ∧ tr = [] ∧ out = .ok (.ok st)) ∨
    (∃ e, tr = [⟨.time, .error e⟩] ∧ out = .error e) ∨
    (∃ now, deadline ≤ now ∧ tr = [⟨.time, .ok now⟩] ∧ out = .ok (.ok st)) ∨
    ∃ now t r rest, (st.commandMessageCount : ℤ) < c.collectedLimit ∧ now < deadline ∧
      tr = ⟨.time, .ok now⟩ :: ⟨.receive t, r⟩ :: rest ∧
      Runs (afterDelivery c deadline fuel (loopStep c st r)) rest out := by
  rw [receiveLoop_succ] at h
  by_cases hlimit : c.collectedLimit ≤ st.commandMessageCount
  · rw [if_pos hlimit] at h
    exact .inl ⟨hlimit, runs_ret_iff.mp h⟩
  rw [if_neg hlimit] at h
  rcases runs_bind_iff.mp h with ⟨now, tr₁, tr₂, h₁, h₂, rfl⟩ | ⟨e, h₁, rfl⟩
  · obtain rfl := runs_await_iff.mp h₁
    by_cases hlate : deadline - now ≤ 0
    · rw [if_pos hlate] at h₂
      obtain ⟨rfl, rfl⟩ := runs_ret_iff.mp h₂
      exact .inr (.inr (.inl ⟨now, by linarith, rfl, rfl⟩))
    rw [if_neg hlate] at h₂
    rcases runs_bind_iff.mp h₂ with ⟨r, tr₃, tr₄, h₃, h₄, rfl⟩ | ⟨e, h₃, -⟩
    · obtain ⟨r', h₃, hr⟩ := runs_attempt_iff.mp h₃
      obtain rfl := runs_await_iff.mp h₃
      cases hr
      exact .inr (.inr (.inr ⟨now, _, r, tr₄, by omega, by linarith, rfl, h₄⟩))
    · obtain ⟨r', -, hr⟩ := runs_attempt_iff.mp h₃
      cases hr
  · obtain rfl := runs_await_iff.mp h₁
    exact .inr (.inl ⟨e, rfl, rfl⟩)

/-- The runs of the receive loop. -/
inductive LoopTrace (c : WsCommand) (deadline : ℚ) : WsState → List Exchange → LoopEnd → Prop
  | limit {st : WsState} : c.collectedLimit ≤ st.commandMessageCount →
      LoopTrace c deadline st [] (.ok (.ok st))
  | clock {st : WsState} (e : Err) : LoopTrace c deadline st [⟨.time, .error e⟩] (.error e)
  | late {st : WsState} {now : ℚ} : deadline ≤ now →
      LoopTrace c deadline st [⟨.time, .ok now⟩] (.ok (.ok st))
  | done {st : WsState} {now t : ℚ} {r : Delivery} {out : LoopEnd} :
      (st.commandMessageCount : ℤ) < c.collectedLimit → now < deadline →
      loopStep c st r = .inr out →
      LoopTrace c deadline st [⟨.time, .ok now⟩, ⟨.receive t, r⟩] out
  | next {st st' : WsState} {now t : ℚ} {r : Delivery} {tr : List Exchange} {out : LoopEnd} :
      (st.commandMessageCount : ℤ) < c.collectedLimit → now < deadline →
      loopStep c st r = .inl st' → LoopTrace c deadline st' tr out →
      LoopTrace c deadline st (⟨.time, .ok now⟩ :: ⟨.receive t, r⟩ :: tr) out
  | cut {st : WsState} : LoopTrace c deadline st [] (.error .diverged)

theorem loopTrace_of_runs {c : WsCommand} {deadline : ℚ} {fuel : ℕ} {st : WsState}
    {tr : List Exchange} {out : LoopEnd} (h : Runs (receiveLoop c deadline fuel st) tr out) :
    LoopTrace c deadline st tr out := by
  induction fuel generalizing st tr with
  | zero =>
    obtain ⟨rfl, rfl⟩ := runs_raise_iff.mp h
    exact .cut
  | succ fuel ih =>
    rcases turn_of_runs h with ⟨hlimit, rfl, rfl⟩ | ⟨e, rfl, rfl⟩ | ⟨now, hlate, rfl, rfl⟩ |
      ⟨now, t, r, rest, hlimit, hnow, rfl, hrest⟩
    · exact .limit hlimit
    · exact .clock e
    · exact .late hlate
    · cases hstep : loopStep c st r with
      | inl st' =>
        rw [hstep] at hrest
        exact .next hlimit hnow hstep (ih hrest)
      | inr w =>
        rw [hstep] at hrest
        obtain ⟨rfl, rfl⟩ := runs_ofExcept_iff.mp hrest
        exact .done hlimit hnow hstep

end

end EsphomeMcp.Addon
