import EsphomeMcp.Server.Stop
import Mathlib.Data.Rat.Floor
import Mathlib.Tactic.Linarith

/-!
# Waiting until the embedded server is ready

`async_start` starts the worker of `EsphomeMcp.Server.Stop` and polls the loopback port until a
connection succeeds. The worker goes its way meanwhile, and any other listener (another process,
the worker of an earlier bring-up) may come and go on the same port: the connection tells who
answers nothing. Time is that of Home Assistant's loop: code between two awaits takes none, and a
timer fires when it is due. The call is not cancelled.

`starts_safely_iff` says in which runs `async_start` only reports its own server ready.
-/

namespace EsphomeMcp.Server

open Relation

/-! ## Definitions -/

/-- `EmbeddedServerError.kind`. -/
inductive FailureKind where
  | package
  | restart
  | start
deriving DecidableEq

structure EmbeddedServerError where
  message : String
  kind : FailureKind
deriving DecidableEq

/-- How the worker's `try` block can end, apart from returning. -/
inductive WorkerExc where
  | embedded (err : EmbeddedServerError)
  | importError (text : String)
  | exception (text : String)
  /-- `sys.exit`, with which uvicorn answers a port it cannot bind. -/
  | systemExit
deriving DecidableEq

/-- `_thread_exc`. -/
inductive ThreadExc where
  | embedded (err : EmbeddedServerError)
  | other (text : String)
deriving DecidableEq

/-- The handlers of `_thread_main`: what they assign to `_thread_exc`. -/
def WorkerExc.recorded : WorkerExc → Option ThreadExc
  | embedded err => some (.embedded err)
  | importError text =>
    some (.embedded ⟨s!"Could not import server dependency: {text}", .package⟩)
  | exception text => some (.other text)
  -- not an `Exception`: no handler takes it
  | systemExit => none

/-- What `_async_wait_until_ready` raises for it. -/
def ThreadExc.raised : ThreadExc → EmbeddedServerError
  | embedded err => err
  | other text => ⟨s!"ESPHome MCP server failed to start: {text}", .start⟩

def readyTimeoutSeconds : ℚ := 30

def readyPollIntervalSeconds : ℚ := 1 / 2

/-- For `writer.wait_closed()`. -/
def closeTimeoutSeconds : ℚ := 1

def stopJoinTimeoutSeconds : ℚ := 10

/-- What the call finds. -/
structure StartConfig where
  secretPath : String
  port : ℕ
  webhookEnabled : Bool
  /-- What `os.makedirs` raises. -/
  makedirsError : Option String

def secretPathMissing : EmbeddedServerError where
  message := "Server secret path missing from the config entry; reload the integration."
  kind := .start

def threadExited : EmbeddedServerError where
  message := "ESPHome MCP server thread exited during startup."
  kind := .start

def notReachable (port : ℕ) : EmbeddedServerError where
  message := s!"ESPHome MCP server did not become reachable on port {port} within 30s."
  kind := .start

/-- An exception that leaves `async_start`. -/
inductive StartError where
  | embedded (err : EmbeddedServerError)
  | other (text : String)
deriving DecidableEq

/-- Where the call of `async_start` is. -/
inductive StartPoint where
  | begin
  /-- `os.makedirs` runs in the executor. -/
  | preparing
  /-- At `while self._hass.loop.time() < deadline`. -/
  | turn
  | checkExc
  | checkAlive
  /-- `asyncio.open_connection`, until `wait_for` gives up. -/
  | probing (due : ℚ)
  /-- `writer.wait_closed`, the same way. -/
  | closing (due : ℚ)
  | sleeping (due : ℚ)
  /-- The call of `async_stop` after the loop, with the end of its join. -/
  | stopping (due : ℚ)
  | returned
  | raised (err : StartError)
deriving DecidableEq

def StartPoint.isEnded : StartPoint → Bool
  | returned | raised _ => true
  | _ => false

def StartPoint.isProbing : StartPoint → Bool
  | probing _ => true
  | _ => false

def StartPoint.isClosing : StartPoint → Bool
  | closing _ => true
  | _ => false

/-- The call can be where it is at this time. -/
def StartPoint.Waits (time : ℚ) : StartPoint → Prop
  | probing u | closing u | sleeping u | stopping u => time ≤ u
  | _ => False

/-- The manager, the port and the call of `async_start`. -/
structure Startup where
  manager : State
  /-- The worker listens on the port. -/
  bound : Bool
  threadExc : Option ThreadExc
  /-- Another process or an earlier worker listens on it. -/
  foreign : Bool
  point : StartPoint
  /-- Seconds since `_async_wait_until_ready` was called. -/
  clock : ℚ

/-- Before `async_start`. -/
def Startup.fresh (foreign : Bool) : Startup where
  manager := .fresh
  bound := false
  threadExc := none
  foreign := foreign
  point := .begin
  clock := 0

/-- What `async_start` does. -/
inductive CallStep (c : StartConfig) (s : Startup) : Startup → Prop
  | noSecretPath (h : s.point = .begin) (hpath : c.secretPath = "") :
    CallStep c s { s with point := .raised (.embedded secretPathMissing) }
  | prepare (h : s.point = .begin) (hpath : c.secretPath ≠ "") :
    CallStep c s { s with point := .preparing }
  | makedirsFailed {text : String} (h : s.point = .preparing)
    (herr : c.makedirsError = some text) : CallStep c s { s with point := .raised (.other text) }
  /-- `LoopStep.start`. -/
  | start (h : s.point = .preparing) (hdir : c.makedirsError = none)
    (hidle : s.manager.worker = .idle) :
    CallStep c s { s with manager := { s.manager with worker := .starting, thread := true },
                          threadExc := none, point := .turn, clock := 0 }
  | enterTurn (h : s.point = .turn) (htime : s.clock < readyTimeoutSeconds) :
    CallStep c s { s with point := .checkExc }
  | leaveLoop (h : s.point = .turn) (htime : readyTimeoutSeconds ≤ s.clock) :
    CallStep c s { s with point := .stopping (s.clock + stopJoinTimeoutSeconds) }
  | excFound {exc : ThreadExc} (h : s.point = .checkExc) (hexc : s.threadExc = some exc) :
    CallStep c s { s with point := .raised (.embedded exc.raised) }
  | excNone (h : s.point = .checkExc) (hexc : s.threadExc = none) :
    CallStep c s { s with point := .checkAlive }
  | dead (h : s.point = .checkAlive) (hthread : s.manager.thread = true)
    (hdead : s.manager.worker = .finished) :
    CallStep c s { s with point := .raised (.embedded threadExited) }
  | alive (h : s.point = .checkAlive)
    (halive : s.manager.thread = false ∨ s.manager.worker ≠ .finished) :
    CallStep c s { s with point := .probing (s.clock + readyPollIntervalSeconds) }
  /-- Whoever listens accepts. -/
  | connected {u : ℚ} (h : s.point = .probing u) (hlisten : s.bound = true ∨ s.foreign = true) :
    CallStep c s { s with point := .closing (s.clock + closeTimeoutSeconds) }
  /-- `TimeoutError` or `OSError`. -/
  | notConnected {u : ℚ} (h : s.point = .probing u) :
    CallStep c s { s with point := .sleeping (s.clock + readyPollIntervalSeconds) }
  /-- The connection is closed, or the wait for it has failed or timed out. -/
  | closed {u : ℚ} (h : s.point = .closing u) : CallStep c s { s with point := .returned }
  | wake {u : ℚ} (h : s.point = .sleeping u) (htime : u ≤ s.clock) :
    CallStep c s { s with point := .turn }
  /-- A step of the one call of `async_stop`, which nobody cancels. -/
  | stops {u : ℚ} {m : State} (h : s.point = .stopping u) (hopen : s.manager.returned = false)
    (hstop : LoopStep s.manager m) (hmoves : m.running ≠ s.manager.running)
    (hone : m.running = some .readLoop → s.manager.joining = 0) :
    CallStep c s { s with manager := m }
  | stopped {u : ℚ} (h : s.point = .stopping u) (hreturned : s.manager.returned = true) :
    CallStep c s { s with point := .raised (.embedded (notReachable c.port)) }
  /-- Time passes, up to the timer the call waits for. -/
  | wait {time : ℚ} (hlater : s.clock < time) (hwaits : s.point.Waits time) :
    CallStep c s { s with clock := time }

/-- What the worker does, and its listener. -/
inductive ThreadStep (s : Startup) : Startup → Prop
  | run {m : State} (h : WorkerStep s.manager m) :
    ThreadStep s { s with manager := m, bound := s.bound && decide (m.worker = .serving) }
  /-- A step on which the `try` block is left by an exception. -/
  | fail {m : State} (exc : WorkerExc) (h : WorkerStep s.manager m)
    (hleft : m.worker = .finishing) :
    ThreadStep s { s with manager := m, bound := false,
                          threadExc := exc.recorded.or s.threadExc }
  /-- uvicorn has started, which takes some time after `_serve` has called it. -/
  | bind (h : s.manager.worker = .serving) : ThreadStep s { s with bound := true }
  /-- uvicorn shuts its listener, before `serve` returns. -/
  | unbind (h : s.manager.worker = .serving) : ThreadStep s { s with bound := false }

/-- A step of the call, of the worker, or of whoever else wants the port. -/
def StartupStep (c : StartConfig) (s s' : Startup) : Prop :=
  CallStep c s s' ∨ ThreadStep s s' ∨ ∃ foreign, s' = { s with foreign := foreign }

/-- What `async_bring_up_server` does once `async_start` has ended. -/
inductive BringUp where
  | registerWebhook
  | directOnly
  | createIssue (kind : FailureKind) (detail : String)
deriving DecidableEq

def asyncBringUpServer (c : StartConfig) : StartPoint → Option BringUp
  | .returned => some (if c.webhookEnabled then .registerWebhook else .directOnly)
  | .raised (.embedded err) => some (.createIssue err.kind err.message)
  | .raised (.other text) => some (.createIssue .start text)
  | _ => none

/-! ## Safe starts -/

/-- By then the call has ended: the turn that is the last to begin before the ready timeout probes
and sleeps, and `async_stop` joins. -/
def startLimit : ℚ := readyTimeoutSeconds + 2 * readyPollIntervalSeconds + stopJoinTimeoutSeconds

/-- `async_start` returns only when the worker listens. Otherwise it raises, as soon as a turn of
its loop finds a failure and that is before the ready timeout, or because that has run out. -/
structure StartsSafely (c : StartConfig) (s : Startup) : Prop where
  returns : ∀ s', CallStep c s s' → s'.point = .returned → s'.bound = true
  registers : ∀ s', CallStep c s s' →
    asyncBringUpServer c s'.point = some .registerWebhook → s'.bound = true
  raises : ∀ exc, s.point = .raised exc → ∃ err, exc = .embedded err ∧
    (s.clock < readyTimeoutSeconds ∨ err = notReachable c.port ∧ s.clock < startLimit)
  /-- The call is never stuck, and does not last. -/
  continues : s.point.isEnded = false → s.clock < startLimit ∧ ∃ s', CallStep c s s'

/-- The config directory can be made, a listener that answers the probe is not another one while
the worker does not listen, and the worker does not shut its listener while the probe closes its
connection. -/
@[mk_iff]
structure OwnAnswers (c : StartConfig) (s s' : Startup) : Prop where
  directory : s.point = .preparing → s'.point ≠ .preparing → c.makedirsError = none
  answers : s.point.isProbing = true → s'.point.isClosing = true → s.foreign = true →
    s.bound = true
  keeps : s.point.isClosing = true → s.bound = true → s'.bound = true

/-! ## Time -/

/-- When the call can be where. -/
def StartPoint.InTime (c : StartConfig) (time : ℚ) : StartPoint → Prop
  | begin | preparing => time < readyTimeoutSeconds
  | turn => time < readyTimeoutSeconds + 2 * readyPollIntervalSeconds
  | checkExc | checkAlive => time < readyTimeoutSeconds
  | probing u => time ≤ u ∧ u ≤ time + readyPollIntervalSeconds ∧
    u < readyTimeoutSeconds + readyPollIntervalSeconds
  | closing u =>
    time ≤ u ∧ u < readyTimeoutSeconds + readyPollIntervalSeconds + closeTimeoutSeconds
  | sleeping u => time ≤ u ∧ u < readyTimeoutSeconds + 2 * readyPollIntervalSeconds
  | stopping u => time ≤ u ∧ u < startLimit
  | returned => True
  | raised exc => ∀ err, exc = .embedded err →
    time < readyTimeoutSeconds ∨ err = notReachable c.port ∧ time < startLimit

theorem inTime_fresh (c : StartConfig) (foreign : Bool) :
    (Startup.fresh foreign).point.InTime c (Startup.fresh foreign).clock := by
  show (0 : ℚ) < readyTimeoutSeconds
  norm_num [readyTimeoutSeconds]

/-- The timers of one turn add up. -/
theorem CallStep.inTime {c : StartConfig} {s s' : Startup} (h : CallStep c s s')
    (htime : s.point.InTime c s.clock) : s'.point.InTime c s'.clock := by
  cases h with
  | noSecretPath h => 
    rw [h] at htime
    exact fun err _ => .inl htime
  | prepare h => rw [h] at htime; exact htime
  | makedirsFailed => exact fun err herr => by cases herr
  | start => norm_num [StartPoint.InTime, readyTimeoutSeconds, readyPollIntervalSeconds]
  | enterTurn _ hbefore => exact hbefore
  | leaveLoop h =>
    simp only [h, StartPoint.InTime, startLimit, stopJoinTimeoutSeconds] at htime ⊢
    constructor <;> linarith
  | excFound h | dead h =>
    rw [h] at htime
    exact fun err _ => .inl htime
  | excNone h => rw [h] at htime; exact htime
  | alive h =>
    simp only [h, StartPoint.InTime] at htime ⊢
    refine ⟨?_, le_refl _, ?_⟩
    · norm_num [readyPollIntervalSeconds]
    · linarith
  | connected h =>
    simp only [h, StartPoint.InTime, closeTimeoutSeconds] at htime ⊢
    constructor <;> linarith
  | notConnected h =>
    simp only [h, StartPoint.InTime, readyPollIntervalSeconds] at htime ⊢
    constructor <;> linarith
  | closed => trivial
  | wake h =>
    simp only [h, StartPoint.InTime] at htime ⊢
    linarith
  | stops h => exact htime
  | stopped h =>
    rw [h] at htime
    intro err herr
    obtain rfl : notReachable c.port = err := StartError.embedded.inj herr
    exact .inr ⟨rfl, htime.1.trans_lt htime.2⟩
  | @wait time hlater hwaits =>
    show s.point.InTime c time
    cases hpoint : s.point with
    | probing u =>
      rw [hpoint] at htime hwaits
      exact ⟨hwaits, by linarith [htime.2.1], htime.2.2⟩
    | closing u | sleeping u | stopping u =>
      rw [hpoint] at htime hwaits
      exact ⟨hwaits, htime.2⟩
    | _ => simp [hpoint, StartPoint.Waits] at hwaits

theorem StartupStep.inTime {c : StartConfig} {s s' : Startup} (h : StartupStep c s s')
    (htime : s.point.InTime c s.clock) : s'.point.InTime c s'.clock := by
  rcases h with h | h | ⟨foreign, rfl⟩
  · exact h.inTime htime
  · cases h <;> exact htime
  · exact htime

/-- Wherever the call is, it has not lasted. -/
theorem StartPoint.InTime.lt_startLimit {c : StartConfig} {point : StartPoint} {time : ℚ}
    (h : point.InTime c time) (hopen : point.isEnded = false) : time < startLimit := by
  have hlimit : startLimit = 41 := by
    norm_num [startLimit, readyTimeoutSeconds, readyPollIntervalSeconds, stopJoinTimeoutSeconds]
  cases point with
  | returned | raised => cases hopen
  | stopping => exact h.1.trans_lt h.2
  | _ =>
    simp only [StartPoint.InTime, readyTimeoutSeconds, readyPollIntervalSeconds,
      closeTimeoutSeconds] at h
    linarith

/-! ## The manager in a start -/

/-- The thread has been started. -/
def StartPoint.isStarted : StartPoint → Bool
  | begin | preparing | raised _ => false
  | _ => true

/-- What holds in every state reached. -/
structure StartupInv (s : Startup) : Prop where
  manager : Inv s.manager
  idle : s.point = .begin ∨ s.point = .preparing → s.manager.worker = .idle
  started : s.point.isStarted = true → s.manager.worker ≠ .idle

theorem startupInv_fresh (foreign : Bool) : StartupInv (.fresh foreign) where
  manager := inv_fresh
  idle _ := rfl
  started h := by cases h

/-- What the worker leaves alone, of the whole. -/
theorem ThreadStep.worker_step {s s' : Startup} (h : ThreadStep s s') :
    s'.manager = s.manager ∨ WorkerStep s.manager s'.manager := by
  cases h with
  | run h | fail _ h => exact .inr h
  | bind | unbind => exact .inl rfl

theorem ThreadStep.frame {s s' : Startup} (h : ThreadStep s s') :
    s'.point = s.point ∧ s'.foreign = s.foreign ∧ s'.clock = s.clock := by
  cases h <;> exact ⟨rfl, rfl, rfl⟩

theorem StartupInv.thread_step {s s' : Startup} (hinv : StartupInv s) (h : ThreadStep s s') :
    StartupInv s' := by
  have hpoint := h.frame.1
  rcases h.worker_step with hsame | hworker
  · refine ⟨hsame ▸ hinv.manager, ?_, ?_⟩
    · rw [hpoint, hsame]; exact hinv.idle
    · rw [hpoint, hsame]; exact hinv.started
  · refine ⟨hinv.manager.worker_step hworker, fun hbegin => ?_, fun _ => hworker.frame.busy⟩
    exact absurd (hinv.idle (hpoint ▸ hbegin)) hworker.frame.started

theorem LoopStep.busy {s s' : State} (h : LoopStep s s') (hw : s.worker ≠ .idle) :
    s'.worker ≠ .idle := by
  cases h with
  | start h => exact absurd h hw
  | _ => exact hw

theorem StartupInv.call_step {c : StartConfig} {s s' : Startup} (hinv : StartupInv s)
    (h : CallStep c s s') : StartupInv s' := by
  have hstarted := hinv.started
  cases h with
  | prepare h => exact ⟨hinv.manager, fun _ => hinv.idle (.inl h), fun hs => by cases hs⟩
  | start _ _ hidle =>
    exact ⟨hinv.manager.loop_step (.start hidle), fun hs => by simp at hs, fun _ => by simp⟩
  | stops h _ hstop =>
    have hbusy := hstop.busy (hstarted (by rw [h]; rfl))
    exact ⟨hinv.manager.loop_step hstop, fun hs => by simp [h] at hs, fun _ => hbusy⟩
  | wait => exact ⟨hinv.manager, hinv.idle, hinv.started⟩
  | noSecretPath | makedirsFailed | excFound | dead | stopped =>
    exact ⟨hinv.manager, fun hs => by simp at hs, fun hs => by cases hs⟩
  | enterTurn h | leaveLoop h | excNone h | alive h | connected h | notConnected h | closed h
  | wake h =>
    exact ⟨hinv.manager, fun hs => by simp at hs, fun _ => hstarted (by rw [h]; rfl)⟩

theorem StartupInv.step {c : StartConfig} {s s' : Startup} (hinv : StartupInv s)
    (h : StartupStep c s s') : StartupInv s' := by
  rcases h with h | h | ⟨foreign, rfl⟩
  · exact hinv.call_step h
  · exact hinv.thread_step h
  · exact ⟨hinv.manager, hinv.idle, hinv.started⟩

/-- A call of `async_stop` after the start goes on until it returns. -/
theorem stop_continues {s : State} (hinv : Inv s) (hbusy : s.worker ≠ .idle)
    (hopen : s.returned = false) : ∃ s', LoopStep s s' ∧ s'.running ≠ s.running ∧
      (s'.running = some .readLoop → s.joining = 0) := by
  cases hrun : s.running with
  | none =>
    rcases Nat.eq_zero_or_pos s.joining with hnone | hjoining
    · cases hthread : s.thread with
      | true => exact ⟨_, .call hrun hthread, by simp, fun _ => hnone⟩
      | false =>
        -- only a call that returns clears `_thread` for good
        have hcleared := hinv.cleared hthread hbusy
        simp [hopen, hrun] at hcleared
    · exact ⟨_, .joined hrun hjoining, by simp, by simp⟩
  | some point =>
    cases point with
    | readLoop => exact ⟨_, .readLoop hrun, by simp, by simp⟩
    | readStopEvent loop => exact ⟨_, .readStopEvent hrun, by simp, by simp⟩
    | check loop stopEvent =>
      by_cases hfailed : loop = false ∨ stopEvent = false ∨ s.worker.isClosed = true
      · exact ⟨_, .checkFailed hrun hfailed, by simp, by simp⟩
      · simp only [not_or, Bool.not_eq_false, Bool.not_eq_true] at hfailed
        obtain ⟨rfl, rfl, hclosed⟩ := hfailed
        exact ⟨_, .checkPassed hrun hclosed, by simp, by simp⟩
    | schedule =>
      cases hclosed : s.worker.isClosed with
      | true => exact ⟨_, .scheduleClosed hrun hclosed, by simp, by simp⟩
      | false => exact ⟨_, .schedule hrun hclosed, by simp, by simp⟩
    | clearThread => exact ⟨_, .clearThread hrun, by simp, by simp⟩
    | clearLoop => exact ⟨_, .clearLoop hrun, by simp, by simp⟩
    | clearStopEvent => exact ⟨_, .clearStopEvent hrun, by simp, by simp⟩

/-- The call is never stuck. -/
theorem StartupInv.continues {c : StartConfig} {s : Startup} (hinv : StartupInv s)
    (hopen : s.point.isEnded = false) : ∃ s', CallStep c s s' := by
  cases hpoint : s.point with
  | begin =>
    by_cases hpath : c.secretPath = ""
    · exact ⟨_, .noSecretPath hpoint hpath⟩
    · exact ⟨_, .prepare hpoint hpath⟩
  | preparing =>
    cases hdir : c.makedirsError with
    | none => exact ⟨_, .start hpoint hdir (hinv.idle (.inr hpoint))⟩
    | some text => exact ⟨_, .makedirsFailed hpoint hdir⟩
  | turn =>
    rcases lt_or_ge s.clock readyTimeoutSeconds with hbefore | hafter
    · exact ⟨_, .enterTurn hpoint hbefore⟩
    · exact ⟨_, .leaveLoop hpoint hafter⟩
  | checkExc =>
    cases hexc : s.threadExc with
    | none => exact ⟨_, .excNone hpoint hexc⟩
    | some exc => exact ⟨_, .excFound hpoint hexc⟩
  | checkAlive =>
    by_cases halive : s.manager.thread = false ∨ s.manager.worker ≠ .finished
    · exact ⟨_, .alive hpoint halive⟩
    · simp only [not_or, Bool.not_eq_false, Classical.not_not] at halive
      exact ⟨_, .dead hpoint halive.1 halive.2⟩
  | probing u => exact ⟨_, .notConnected hpoint⟩
  | closing u => exact ⟨_, .closed hpoint⟩
  | sleeping u =>
    rcases lt_or_ge s.clock u with hbefore | hdue
    · exact ⟨_, .wait hbefore (by rw [hpoint]; exact le_refl u)⟩
    · exact ⟨_, .wake hpoint hdue⟩
  | stopping u =>
    cases hreturned : s.manager.returned with
    | true => exact ⟨_, .stopped hpoint hreturned⟩
    | false =>
      have hbusy := hinv.started (by rw [hpoint]; rfl)
      obtain ⟨m, hstop, hmoves, hone⟩ := stop_continues hinv.manager hbusy hreturned
      exact ⟨_, .stops hpoint hreturned hstop hmoves hone⟩
  | returned | raised => simp [hpoint, StartPoint.isEnded] at hopen

/-! ## The runs that start safely -/

theorem StartPoint.isClosing_iff {point : StartPoint} :
    point.isClosing = true ↔ ∃ u, point = .closing u := by
  cases point <;> simp [StartPoint.isClosing]

theorem StartPoint.isProbing_iff {point : StartPoint} :
    point.isProbing = true ↔ ∃ u, point = .probing u := by
  cases point <;> simp [StartPoint.isProbing]

theorem CallStep.bound {c : StartConfig} {s s' : Startup} (h : CallStep c s s') :
    s'.bound = s.bound := by
  cases h <;> rfl

/-- `async_start` returns from nowhere else. -/
theorem CallStep.closing_of_returned {c : StartConfig} {s s' : Startup} (h : CallStep c s s')
    (hreturned : s'.point = .returned) : s.point.isClosing = true := by
  cases h with
  | closed h => rw [h]; rfl
  | stops h => simp [h] at hreturned
  | @wait _ _ hwaits =>
    have hpoint : s.point = .returned := hreturned
    simp [hpoint, StartPoint.Waits] at hwaits
  | _ => cases hreturned

/-- The webhook is registered when `async_start` has returned, and only then. -/
theorem returned_of_registers {c : StartConfig} {point : StartPoint}
    (h : asyncBringUpServer c point = some .registerWebhook) : point = .returned := by
  cases point with
  | returned => rfl
  | raised exc => cases exc <;> simp [asyncBringUpServer] at h
  | _ => cases h

/-- All that is not about time. -/
theorem startsSafely_of {c : StartConfig} {s : Startup} (hinv : StartupInv s)
    (htime : s.point.InTime c s.clock) (hclosing : s.point.isClosing = true → s.bound = true)
    (hraised : ∀ exc, s.point = .raised exc → ∃ err, exc = .embedded err) :
    StartsSafely c s where
  returns s' h hreturned := by
    rw [h.bound]
    exact hclosing (h.closing_of_returned hreturned)
  registers s' h hregisters := by
    rw [h.bound]
    exact hclosing (h.closing_of_returned (returned_of_registers hregisters))
  raises exc hpoint := by
    obtain ⟨err, rfl⟩ := hraised exc hpoint
    rw [hpoint] at htime
    exact ⟨err, rfl, htime err rfl⟩
  continues hopen := ⟨htime.lt_startLimit hopen, hinv.continues hopen⟩

theorem startsSafely_fresh (c : StartConfig) (foreign : Bool) :
    StartsSafely c (.fresh foreign) :=
  startsSafely_of (startupInv_fresh foreign) (inTime_fresh c foreign) (fun h => by cases h)
    (fun exc h => by cases h)

/-- A probe whose connection is being closed has found the worker. -/
theorem StartsSafely.bound {c : StartConfig} {s : Startup} (h : StartsSafely c s)
    (hclosing : s.point.isClosing = true) : s.bound = true := by
  obtain ⟨u, hu⟩ := StartPoint.isClosing_iff.mp hclosing
  have hbound := h.returns _ (.closed hu) rfl
  exact hbound

theorem OwnAnswers.of_startsSafely {c : StartConfig} {s s' : Startup} (h : StartupStep c s s')
    (hsafe : StartsSafely c s') : OwnAnswers c s s' where
  directory hpreparing hleft := by
    rcases h with h | h | ⟨foreign, rfl⟩
    · cases h with
      | start _ hdir => exact hdir
      | makedirsFailed =>
        obtain ⟨err, herr, _⟩ := hsafe.raises _ rfl
        cases herr
      | prepare | wait => exact absurd (by simp [hpreparing]) hleft
      | stops h => simp [hpreparing] at h
      | _ h => simp [hpreparing] at h
    · exact absurd (h.frame.1.trans hpreparing) hleft
    · exact absurd hpreparing hleft
  answers hprobing hclosing _ := by
    have hbound := hsafe.bound hclosing
    rcases h with h | h | ⟨foreign, rfl⟩
    · exact h.bound ▸ hbound
    · -- the worker does not move the call
      rw [h.frame.1] at hclosing
      obtain ⟨u, hu⟩ := StartPoint.isProbing_iff.mp hprobing
      simp [hu, StartPoint.isClosing] at hclosing
    · exact hbound
  keeps hclosing hbound := by
    rcases h with h | h | ⟨foreign, rfl⟩
    · exact h.bound.trans hbound
    · exact hsafe.bound (h.frame.1 ▸ hclosing)
    · exact hbound

/-- A step that leads into closing a probe's connection is a probe that has connected. -/
theorem StartupStep.closing {c : StartConfig} {s s' : Startup} (h : StartupStep c s s')
    (hclosing : s'.point.isClosing = true) :
    s.point.isClosing = true ∨
      s.point.isProbing = true ∧ s'.bound = s.bound ∧ (s.bound = true ∨ s.foreign = true) := by
  rcases h with h | h | ⟨foreign, rfl⟩
  · cases h with
    | connected h hlisten => exact .inr ⟨by rw [h]; rfl, rfl, hlisten⟩
    | stops | wait => exact .inl hclosing
    | _ => cases hclosing
  · exact .inl (h.frame.1 ▸ hclosing)
  · exact .inl hclosing

/-- The step that raises what is no `EmbeddedServerError` is the failure of `os.makedirs`. -/
theorem StartupStep.raised {c : StartConfig} {s s' : Startup} (h : StartupStep c s s')
    {exc : StartError} (hraised : s'.point = .raised exc) :
    (∃ err, exc = .embedded err) ∨ s.point = .raised exc ∨
      s.point = .preparing ∧ c.makedirsError ≠ none := by
  rcases h with h | h | ⟨foreign, rfl⟩
  · cases h with
    | makedirsFailed h herr => exact .inr (.inr ⟨h, by simp [herr]⟩)
    | stops | wait => exact .inr (.inl hraised)
    | noSecretPath | excFound | dead | stopped =>
      exact .inl ⟨_, (StartPoint.raised.inj hraised).symm⟩
    | _ => cases hraised
  · exact .inr (.inl (h.frame.1 ▸ hraised))
  · exact .inr (.inl hraised)

theorem startsSafely_step_iff {c : StartConfig} {s s' : Startup} (hinv : StartupInv s)
    (htime : s.point.InTime c s.clock) (hsafe : StartsSafely c s) (h : StartupStep c s s') :
    StartsSafely c s' ↔ OwnAnswers c s s' := by
  constructor
  · exact OwnAnswers.of_startsSafely h
  · intro hown
    refine startsSafely_of (hinv.step h) (h.inTime htime) (fun hclosing => ?_) fun exc hexc => ?_
    · rcases h.closing hclosing with hbefore | ⟨hprobing, hsame, hlisten⟩
      · exact hown.keeps hbefore (hsafe.bound hbefore)
      · rcases hlisten with hbound | hforeign
        · exact hsame.trans hbound
        · exact hsame.trans (hown.answers hprobing hclosing hforeign)
    · rcases h.raised hexc with hembedded | hbefore | ⟨hpreparing, herr⟩
      · exact hembedded
      · obtain ⟨err, herr, _⟩ := hsafe.raises exc hbefore
        exact ⟨err, herr⟩
      · exact absurd (hown.directory hpreparing (by simp [hexc])) herr

theorem starts_safely_iff_of_inv {c : StartConfig} {s : Startup} {run : List Startup}
    (hinv : StartupInv s) (htime : s.point.InTime c s.clock) (hsafe : StartsSafely c s)
    (hrun : (s :: run).IsChain (StartupStep c)) :
    (∀ s' ∈ run, StartsSafely c s') ↔ (s :: run).IsChain (OwnAnswers c) := by
  induction run generalizing s with
  | nil => simp
  | cons s' run ih =>
    rw [List.isChain_cons_cons] at hrun
    rw [List.forall_mem_cons, List.isChain_cons_cons,
      ← startsSafely_step_iff hinv htime hsafe hrun.1]
    refine and_congr_right fun hnext => ?_
    exact ih (hinv.step hrun.1) (hrun.1.inTime htime) hnext hrun.2

/-- In any order of the steps of the call, of its worker and of everyone else who wants the port,
`async_start` only reports a server that its worker listens with, and fails in time otherwise,
exactly as long as no other listener answers its probe. -/
theorem starts_safely_iff {c : StartConfig} {foreign : Bool} {run : List Startup}
    (hrun : (Startup.fresh foreign :: run).IsChain (StartupStep c)) :
    (∀ s ∈ run, StartsSafely c s) ↔ (Startup.fresh foreign :: run).IsChain (OwnAnswers c) :=
  starts_safely_iff_of_inv (startupInv_fresh foreign) (inTime_fresh c foreign)
    (startsSafely_fresh c foreign) hrun

/-- A start on the default port. -/
def defaultStart : StartConfig where
  secretPath := "/private"
  port := 9590
  webhookEnabled := true
  makedirsError := none

/-- The first probe comes before uvicorn listens, the second finds it. -/
def secondProbeRun : List Startup :=
  let started := { State.fresh with worker := .starting, thread := true }
  let assigned := { started with worker := .loopAssigned, loop := true }
  let importing := { assigned with worker := .importing, stopEvent := true }
  let turn := { Startup.fresh false with manager := started, point := .turn }
  let probing := { turn with point := .probing (1 / 2) }
  let sleeping := { turn with point := .sleeping (1 / 2) }
  let serving := { importing with worker := .serving }
  let slept := { sleeping with manager := serving, bound := true, clock := 1 / 2 }
  [{ Startup.fresh false with point := .preparing },
    turn,
    { turn with point := .checkExc },
    { turn with point := .checkAlive },
    probing,
    sleeping,
    { sleeping with manager := assigned },
    { sleeping with manager := importing },
    { sleeping with manager := { importing with worker := .entered } },
    { sleeping with manager := { importing with worker := .asserted } },
    { sleeping with manager := serving },
    { sleeping with manager := serving, bound := true },
    slept,
    { slept with point := .turn },
    { slept with point := .checkExc },
    { slept with point := .checkAlive },
    { slept with point := .probing 1 },
    { slept with point := .closing (3 / 2) },
    { slept with point := .returned }]

/-- A step whose timer is given by its value. -/
theorem callStep_to {c : StartConfig} {s t s' : Startup} (h : CallStep c s t) (ht : t = s') :
    StartupStep c s s' := ht ▸ .inl h

theorem secondProbeRun_isChain :
    (Startup.fresh false :: secondProbeRun).IsChain (StartupStep defaultStart) := by
  refine .cons_cons (.inl (.prepare rfl (by decide))) <|
    .cons_cons (.inl (.start rfl rfl rfl)) <|
    .cons_cons (.inl (.enterTurn rfl (by norm_num [readyTimeoutSeconds, Startup.fresh]))) <|
    .cons_cons (.inl (.excNone rfl rfl)) <|
    .cons_cons (callStep_to (.alive rfl (.inr (by decide)))
      (by norm_num [readyPollIntervalSeconds, Startup.fresh])) <|
    .cons_cons (callStep_to (.notConnected rfl)
      (by norm_num [readyPollIntervalSeconds, Startup.fresh])) <|
    .cons_cons (.inr (.inl (.run (.assignLoop rfl)))) <|
    .cons_cons (.inr (.inl (.run (.assignStopEvent rfl)))) <|
    .cons_cons (.inr (.inl (.run (.imported rfl)))) <|
    .cons_cons (.inr (.inl (.run (.assertPassed rfl rfl)))) <|
    .cons_cons (.inr (.inl (.run (.takeEvent rfl rfl)))) <|
    .cons_cons (.inr (.inl (.bind rfl))) <|
    .cons_cons (.inl (.wait (by norm_num [Startup.fresh]) (le_refl _))) <|
    .cons_cons (.inl (.wake rfl (le_refl _))) <|
    .cons_cons (.inl (.enterTurn rfl (by norm_num [readyTimeoutSeconds]))) <|
    .cons_cons (.inl (.excNone rfl rfl)) <|
    .cons_cons (callStep_to (.alive rfl (.inr (by decide)))
      (by norm_num [readyPollIntervalSeconds])) <|
    .cons_cons (callStep_to (.connected rfl (.inl rfl)) (by norm_num [closeTimeoutSeconds])) <|
    .cons_cons (.inl (.closed rfl)) <|
    .singleton _
theorem starts_safely_iff_second_probe :
    (Startup.fresh false :: secondProbeRun).IsChain (StartupStep defaultStart) ∧
      ∀ s ∈ secondProbeRun, StartsSafely defaultStart s := by
  refine ⟨secondProbeRun_isChain, (starts_safely_iff secondProbeRun_isChain).mpr ?_⟩
  simp [secondProbeRun, Startup.fresh, defaultStart, ownAnswers_iff, StartPoint.isProbing,
    StartPoint.isClosing]

/-- Another process listens on the port, and answers the first probe before the worker has
imported anything. -/
theorem not_forall_startsSafely :
    ¬∀ c foreign s, ReflTransGen (StartupStep c) (Startup.fresh foreign) s → StartsSafely c s := by
  intro h
  have hprobe : ReflTransGen (StartupStep defaultStart) (Startup.fresh true) _ :=
    .head (.inl (.prepare rfl (by decide))) <| .head (.inl (.start rfl rfl rfl)) <|
    .head (.inl (.enterTurn rfl (by norm_num [readyTimeoutSeconds, Startup.fresh]))) <|
    .head (.inl (.excNone rfl rfl)) <| .head (.inl (.alive rfl (.inr (by decide)))) <|
    .single (.inl (.connected rfl (.inr rfl)))
  have hbound := (h _ _ _ hprobe).returns _ (.closed rfl) rfl
  cases hbound

/-! ## The call ends -/

/-- How many turns can begin from this time on: at least a poll interval lies between two. -/
def turnsFrom (time : ℚ) : ℕ := ⌈(readyTimeoutSeconds - time) / readyPollIntervalSeconds⌉₊

/-- Steps of `async_stop` that are left. -/
def State.stopSteps (s : State) : ℕ :=
  if s.returned then 0 else
    match s.running with
    | none => if s.joining = 0 then 9 else 4
    | some .readLoop => 8
    | some (.readStopEvent _) => 7
    | some (.check _ _) => 6
    | some .schedule => 5
    | some .clearThread => 3
    | some .clearLoop => 2
    | some .clearStopEvent => 1

/-- A bound for the steps the call still takes, apart from waiting. -/
def Startup.callSteps (s : Startup) : ℕ :=
  match s.point with
  | .begin => 6 * turnsFrom 0 + 13
  | .preparing => 6 * turnsFrom 0 + 12
  | .turn => 6 * turnsFrom s.clock + 11
  | .checkExc => 6 * turnsFrom s.clock + 10
  | .checkAlive => 6 * turnsFrom s.clock + 9
  | .probing u => 6 * turnsFrom (u - readyPollIntervalSeconds) + 8
  | .closing _ => 1
  | .sleeping u => 6 * turnsFrom u + 12
  | .stopping _ => s.manager.stopSteps + 1
  | .returned | .raised _ => 0

theorem turnsFrom_anti {t t' : ℚ} (h : t ≤ t') : turnsFrom t' ≤ turnsFrom t := by
  apply Nat.ceil_mono
  apply div_le_div_of_nonneg_right (by linarith)
  norm_num [readyPollIntervalSeconds]

/-- A turn that begins in time is one turn less afterwards. -/
theorem turnsFrom_lt {t : ℚ} (h : t < readyTimeoutSeconds) :
    turnsFrom (t + readyPollIntervalSeconds) < turnsFrom t := by
  have hstep : (readyTimeoutSeconds - (t + readyPollIntervalSeconds)) / readyPollIntervalSeconds =
      (readyTimeoutSeconds - t) / readyPollIntervalSeconds - 1 := by
    simp only [readyPollIntervalSeconds]
    ring
  have hpos : 0 < (readyTimeoutSeconds - t) / readyPollIntervalSeconds := by
    apply div_pos (by linarith)
    norm_num [readyPollIntervalSeconds]
  rw [turnsFrom, turnsFrom, hstep, Nat.lt_ceil]
  have hceil := Nat.ceil_lt_add_one_of_gt_neg_one
    (a := (readyTimeoutSeconds - t) / readyPollIntervalSeconds - 1) (by linarith)
  linarith

/-- `async_stop` comes nearer to its end. -/
theorem LoopStep.stopSteps_lt {s s' : State} (h : LoopStep s s') (hopen : s.returned = false)
    (hmoves : s'.running ≠ s.running) (hone : s'.running = some .readLoop → s.joining = 0) :
    s'.stopSteps < s.stopSteps := by
  cases h with
  | start | callCleared | cancelled => exact absurd rfl hmoves
  | call h =>
    have hnone := hone rfl
    simp [State.stopSteps, hopen, h, hnone]
  | joined h hjoining =>
    have hsome : s.joining ≠ 0 := by omega
    simp [State.stopSteps, hopen, h, hsome]
  | clearStopEvent h => simp [State.stopSteps, hopen, h]
  | readStopEvent h | checkFailed h => simp [State.stopSteps, hopen, h]
  | _ h => simp [State.stopSteps, hopen, h]

theorem stopSteps_le (s : State) : s.stopSteps ≤ 9 := by
  unfold State.stopSteps
  split
  · omega
  · split <;> first | omega | (split <;> omega)

/-- A step of the call, apart from waiting, is one of the steps it has left. -/
theorem CallStep.callSteps_lt {c : StartConfig} {s s' : Startup} (h : CallStep c s s')
    (htime : s.point.InTime c s.clock) (hmoves : ¬s.clock < s'.clock) :
    s'.callSteps < s.callSteps := by
  cases h with
  | noSecretPath h | prepare h | makedirsFailed h | start h | enterTurn h | excFound h | excNone h
  | dead h | closed h => simp [Startup.callSteps, h]
  | leaveLoop h =>
    have hstop := stopSteps_le s.manager
    simp only [Startup.callSteps, h]
    omega
  | alive h =>
    simp only [Startup.callSteps, h, add_sub_cancel_right]
    omega
  | connected h =>
    simp only [Startup.callSteps, h]
    omega
  | @notConnected u h =>
    rw [h] at htime
    -- the turn that ends here began a poll interval before the probe's timer is due
    have hbegan := turnsFrom_lt (t := u - readyPollIntervalSeconds) (by linarith [htime.2.2])
    have hnext : turnsFrom (s.clock + readyPollIntervalSeconds) ≤ turnsFrom u :=
      turnsFrom_anti htime.2.1
    rw [sub_add_cancel] at hbegan
    simp only [Startup.callSteps, h]
    omega
  | wake h hdue =>
    have hturns := turnsFrom_anti hdue
    simp only [Startup.callSteps, h]
    omega
  | stops h hopen hstop hrunning hone =>
    have hlt := hstop.stopSteps_lt hopen hrunning hone
    simp only [Startup.callSteps, h]
    omega
  | stopped h => simp [Startup.callSteps, h]
  | wait hlater => exact absurd hlater hmoves

theorem WorkerStep.stopSteps_eq {s s' : State} (h : WorkerStep s s') :
    s'.stopSteps = s.stopSteps := by
  simp only [State.stopSteps, h.frame.returned, h.frame.running, h.frame.joining]

/-- Nothing gives the call more steps. -/
theorem StartupStep.callSteps_le {c : StartConfig} {s s' : Startup} (h : StartupStep c s s')
    (htime : s.point.InTime c s.clock) : s'.callSteps ≤ s.callSteps := by
  rcases h with h | h | ⟨foreign, rfl⟩
  · by_cases hmoves : s.clock < s'.clock
    · cases h with
      | wait _ hwaits =>
        cases hpoint : s.point <;> simp_all [Startup.callSteps, StartPoint.Waits]
      | start h => simp [Startup.callSteps, h]
      | _ => exact absurd hmoves (lt_irrefl _)
    · exact (h.callSteps_lt htime hmoves).le
  · obtain ⟨hpoint, _, hclock⟩ := h.frame
    have hstop : s'.manager.stopSteps = s.manager.stopSteps := by
      rcases h.worker_step with hsame | hworker
      · rw [hsame]
      · exact hworker.stopSteps_eq
    simp only [Startup.callSteps, hpoint, hclock, hstop, le_refl]
  · exact le_refl _

/-- In every run in which the call of `async_start` is carried on again and again, it ends. -/
theorem start_ends {c : StartConfig} {foreign : Bool} {run : ℕ → Startup}
    (hfresh : run 0 = .fresh foreign) (hrun : ∀ n, StartupStep c (run n) (run (n + 1)))
    (hfair : ∀ n, ∃ m ≥ n, (run m).point.isEnded = true ∨
      CallStep c (run m) (run (m + 1)) ∧ ¬(run m).clock < (run (m + 1)).clock) :
    ∃ n, (run n).point.isEnded = true := by
  have htime : ∀ n, (run n).point.InTime c (run n).clock := by
    intro n
    induction n with
    | zero => rw [hfresh]; exact inTime_fresh c foreign
    | succ n ih => exact (hrun n).inTime ih
  have hanti : Antitone fun n => (run n).callSteps :=
    antitone_nat_of_succ_le fun n => (hrun n).callSteps_le (htime n)
  by_contra hopen
  -- from where the bound is least, no step can make it less
  obtain ⟨least, ⟨n, rfl⟩, hleast⟩ :=
    WellFounded.has_min Nat.lt_wfRel.wf (Set.range fun n => (run n).callSteps) ⟨_, 0, rfl⟩
  obtain ⟨m, hm, hend | ⟨hstep, hmoves⟩⟩ := hfair n
  · exact hopen ⟨m, hend⟩
  · have hlt := hstep.callSteps_lt (htime m) hmoves
    exact hleast _ ⟨m + 1, rfl⟩ (hlt.trans_le (hanti hm))

end EsphomeMcp.Server
