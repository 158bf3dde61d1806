import Mathlib.Data.List.Chain
import Mathlib.Logic.Relation

/-!
# Stopping the embedded server

One `EmbeddedServerManager`, whose worker thread is started once (bring-up makes a manager of its
own each time). `async_stop` runs on Home Assistant's loop, the worker beside it, and they share
the three fields `_thread`, `_loop` and `_stop_event`: any order of their reads and writes is a
run. `async_stop` can be called any number of times, from unloading, from a bring-up that fails or
is cancelled and from `_async_wait_until_ready`, and each call can be cancelled while it joins.

`stop_kept_iff` says in which runs a stop request is never lost.
-/

namespace EsphomeMcp.Server

open Relation

/-! ## Definitions -/

/-- Where the worker is. -/
inductive Worker where
  /-- The thread has not been started. -/
  | idle
  /-- `_thread_main`, before it assigns `_loop`. -/
  | starting
  /-- Before it assigns `_stop_event`. -/
  | loopAssigned
  /-- `_import_server_runtime_with_retry`. -/
  | importing
  /-- `_serve`, up to `assert self._stop_event is not None`. -/
  | entered
  /-- Before it reads `_stop_event` again, for `stop_task`. -/
  | asserted
  /-- The server runs, and `stop_task` waits on the event that was read. -/
  | serving
  /-- `stop_task` is done and `should_exit` is set. -/
  | draining
  /-- The `finally` block of `_thread_main`. -/
  | finishing
  /-- `loop.close()` has been called. -/
  | closed
  /-- The thread has ended. -/
  | finished
deriving DecidableEq

/-- `loop.is_closed()`. -/
def Worker.isClosed : Worker → Bool
  | closed | finished => true
  | _ => false

/-- The worker's loop runs the callbacks it is handed. -/
def Worker.runsCallbacks : Worker → Bool
  | entered | serving | draining | finishing => true
  | _ => false

/-- Where the call of `async_stop` is that holds Home Assistant's loop. -/
inductive StopPoint where
  | readLoop
  /-- `_loop` has been read: whether it was assigned. -/
  | readStopEvent (loop : Bool)
  | check (loop stopEvent : Bool)
  /-- At `loop.call_soon_threadsafe(stop_event.set)`. -/
  | schedule
  /-- The join is over, the thread may be alive. -/
  | clearThread
  | clearLoop
  | clearStopEvent
deriving DecidableEq

/-- The manager, its worker and the calls of `async_stop`. -/
structure State where
  /-- `_thread is not None`, and so on. -/
  thread : Bool
  loop : Bool
  stopEvent : Bool
  worker : Worker
  /-- The event the worker made is set. -/
  eventSet : Bool
  /-- Calls of `stop_event.set` that the worker's loop has not run yet. -/
  pendingSets : ℕ
  running : Option StopPoint
  /-- Calls that wait for `thread.join`. -/
  joining : ℕ
  /-- Some call has scheduled `stop_event.set`. -/
  scheduled : Bool
  /-- Some call has returned. -/
  returned : Bool
deriving DecidableEq

/-- A manager that has not been started. -/
def State.fresh : State where
  thread := false
  loop := false
  stopEvent := false
  worker := .idle
  eventSet := false
  pendingSets := 0
  running := none
  joining := 0
  scheduled := false
  returned := false

/-- What the worker does. -/
inductive WorkerStep (s : State) : State → Prop
  | assignLoop (h : s.worker = .starting) :
    WorkerStep s { s with worker := .loopAssigned, loop := true }
  /-- There is no handler yet: without a loop the thread ends. -/
  | loopFailed (h : s.worker = .starting) : WorkerStep s { s with worker := .finished }
  | assignStopEvent (h : s.worker = .loopAssigned) :
    WorkerStep s { s with worker := .importing, stopEvent := true }
  | imported (h : s.worker = .importing) : WorkerStep s { s with worker := .entered }
  | importFailed (h : s.worker = .importing) : WorkerStep s { s with worker := .finishing }
  | buildFailed (h : s.worker = .entered) : WorkerStep s { s with worker := .finishing }
  | assertPassed (h : s.worker = .entered) (hevent : s.stopEvent = true) :
    WorkerStep s { s with worker := .asserted }
  | assertFailed (h : s.worker = .entered) (hevent : s.stopEvent = false) :
    WorkerStep s { s with worker := .finishing }
  | takeEvent (h : s.worker = .asserted) (hevent : s.stopEvent = true) :
    WorkerStep s { s with worker := .serving }
  /-- `None.wait()` raises. -/
  | takeNone (h : s.worker = .asserted) (hevent : s.stopEvent = false) :
    WorkerStep s { s with worker := .finishing }
  | runSet (h : s.worker.runsCallbacks = true) (hpending : 0 < s.pendingSets) :
    WorkerStep s { s with pendingSets := s.pendingSets - 1, eventSet := true }
  | stopSeen (h : s.worker = .serving) (hset : s.eventSet = true) :
    WorkerStep s { s with worker := .draining }
  | serveEnded (h : s.worker = .serving) : WorkerStep s { s with worker := .finishing }
  | drained (h : s.worker = .draining) : WorkerStep s { s with worker := .finishing }
  | closeLoop (h : s.worker = .finishing) : WorkerStep s { s with worker := .closed }
  | exit (h : s.worker = .closed) : WorkerStep s { s with worker := .finished }

/-- What Home Assistant's loop does: `async_start` up to `Thread.start()`, and `async_stop`, which
leaves the loop only while it joins. -/
inductive LoopStep (s : State) : State → Prop
  | start (h : s.worker = .idle) : LoopStep s { s with worker := .starting, thread := true }
  | call (h : s.running = none) (hthread : s.thread = true) :
    LoopStep s { s with running := some .readLoop }
  /-- `if thread is None: return`, in a call made after the start. -/
  | callCleared (h : s.running = none) (hstarted : s.worker ≠ .idle)
    (hthread : s.thread = false) : LoopStep s { s with returned := true }
  | readLoop (h : s.running = some .readLoop) :
    LoopStep s { s with running := some (.readStopEvent s.loop) }
  | readStopEvent {loop : Bool} (h : s.running = some (.readStopEvent loop)) :
    LoopStep s { s with running := some (.check loop s.stopEvent) }
  | checkPassed (h : s.running = some (.check true true)) (hopen : s.worker.isClosed = false) :
    LoopStep s { s with running := some .schedule }
  | checkFailed {loop stopEvent : Bool} (h : s.running = some (.check loop stopEvent))
    (hfailed : loop = false ∨ stopEvent = false ∨ s.worker.isClosed = true) :
    LoopStep s { s with running := none, joining := s.joining + 1 }
  | schedule (h : s.running = some .schedule) (hopen : s.worker.isClosed = false) :
    LoopStep s { s with running := none, joining := s.joining + 1,
                        pendingSets := s.pendingSets + 1, scheduled := true }
  /-- `suppress(RuntimeError)`. -/
  | scheduleClosed (h : s.running = some .schedule) (hclosed : s.worker.isClosed = true) :
    LoopStep s { s with running := none, joining := s.joining + 1 }
  /-- The thread has ended, or the join has timed out, which it can at any time. -/
  | joined (h : s.running = none) (hjoining : 0 < s.joining) :
    LoopStep s { s with running := some .clearThread, joining := s.joining - 1 }
  | cancelled (h : s.running = none) (hjoining : 0 < s.joining) :
    LoopStep s { s with joining := s.joining - 1 }
  | clearThread (h : s.running = some .clearThread) :
    LoopStep s { s with running := some .clearLoop, thread := false }
  | clearLoop (h : s.running = some .clearLoop) :
    LoopStep s { s with running := some .clearStopEvent, loop := false }
  | clearStopEvent (h : s.running = some .clearStopEvent) :
    LoopStep s { s with running := none, stopEvent := false, returned := true }

/-- A step of either thread. -/
def Step (s s' : State) : Prop := WorkerStep s s' ∨ LoopStep s s'

/-! ## Lost requests -/

/-- The worker serves and nothing tells it to stop. -/
structure ServesOn (s : State) : Prop where
  serving : s.worker = .serving
  unset : s.eventSet = false
  noPending : s.pendingSets = 0

/-- The worker can still go on to serve with nothing to stop it. -/
def CanServeOn (s : State) : Prop := ∃ s', ReflTransGen Step s s' ∧ ServesOn s'

/-- `async_stop` has returned, the worker serves or can go on to serve indefinitely, and its stop
event is neither set nor about to be. -/
structure LostStop (s : State) : Prop where
  returned : s.returned = true
  serves : s.worker = .serving ∨ CanServeOn s
  unset : s.eventSet = false
  noPending : s.pendingSets = 0

/-- The worker has assigned its event and not taken it yet. -/
def Worker.isUntaken : Worker → Bool
  | importing | entered | asserted => true
  | _ => false

/-- The worker has left `_serve`, or is about to. -/
def Worker.isLeaving : Worker → Bool
  | draining | finishing | closed | finished => true
  | _ => false

/-- What holds when clearing `_stop_event` does no harm: some call found both fields and scheduled
the set, or the worker, which has assigned its event, has yet to take it and will find none, or it
is leaving anyway. -/
def MayClear (s : State) : Prop :=
  s.scheduled = true ∨ s.worker.isUntaken = true ∨ s.worker.isLeaving = true

/-- If the step clears `_stop_event`, it may. -/
def ClearsSafely (s s' : State) : Prop :=
  s.running = some .clearStopEvent → s'.running = none → MayClear s

/-! ## Steps -/

/-- What the worker leaves alone. -/
structure WorkerFrame (s s' : State) : Prop where
  thread : s'.thread = s.thread
  running : s'.running = s.running
  joining : s'.joining = s.joining
  scheduled : s'.scheduled = s.scheduled
  returned : s'.returned = s.returned
  started : s.worker ≠ .idle
  busy : s'.worker ≠ .idle

theorem WorkerStep.frame {s s' : State} (h : WorkerStep s s') : WorkerFrame s s' := by
  cases h with
  | runSet h =>
    have hbusy : s.worker ≠ .idle := fun he => by simp [he, Worker.runsCallbacks] at h
    exact ⟨rfl, rfl, rfl, rfl, rfl, hbusy, hbusy⟩
  | _ h => exact ⟨rfl, rfl, rfl, rfl, rfl, by simp [h], by simp⟩

/-- The worker goes its way: a loop that is closed stays closed. -/
theorem WorkerStep.isClosed {s s' : State} (h : WorkerStep s s')
    (hclosed : s.worker.isClosed = true) : s'.worker.isClosed = true := by
  cases h with
  | runSet => exact hclosed
  | closeLoop | exit | loopFailed => rfl
  | _ h => simp [h, Worker.isClosed] at hclosed

/-! ## Every run -/

/-- What holds in every state reached. -/
structure Inv (s : State) : Prop where
  idle : s.worker = .idle → s.thread = false ∧ s.running = none ∧ s.joining = 0
  cleared : s.thread = false → s.worker ≠ .idle → s.returned = true ∨
    s.running = some .clearLoop ∨ s.running = some .clearStopEvent
  unscheduled : s.scheduled = false → s.eventSet = false ∧ s.pendingSets = 0
  scheduled : s.scheduled = true →
    s.eventSet = true ∨ 0 < s.pendingSets ∨ s.worker.isClosed = true

theorem inv_fresh : Inv .fresh where
  idle _ := ⟨rfl, rfl, rfl⟩
  cleared _ h := absurd rfl h
  unscheduled _ := ⟨rfl, rfl⟩
  scheduled h := by cases h

theorem Inv.worker_step {s s' : State} (hinv : Inv s) (h : WorkerStep s s') : Inv s' where
  idle hw := absurd hw h.frame.busy
  cleared ht _ := by
    rw [h.frame.returned, h.frame.running]
    exact hinv.cleared (h.frame.thread ▸ ht) h.frame.started
  unscheduled hs := by
    have hold := hinv.unscheduled (h.frame.scheduled ▸ hs)
    cases h with
    | runSet _ hpending => omega
    | _ => exact hold
  scheduled hs := by
    have hold := hinv.scheduled (h.frame.scheduled ▸ hs)
    have hclosed := h.isClosed
    cases h with
    | runSet => exact .inl rfl
    | _ => exact hold.imp_right (Or.imp_right hclosed)

theorem Inv.loop_step {s s' : State} (hinv : Inv s) (h : LoopStep s s') : Inv s' where
  idle hw := by
    cases h with
    | start => cases hw
    | call _ hthread => simp [hinv.idle hw] at hthread
    | callCleared => exact hinv.idle hw
    | joined _ hjoining | cancelled _ hjoining => simp [hinv.idle hw] at hjoining
    | readStopEvent h | checkFailed h => simp [hinv.idle hw] at h
    | _ h => simp [hinv.idle hw] at h
  cleared ht hw := by
    cases h with
    | start => cases ht
    | call _ hthread => cases hthread.symm.trans ht
    | callCleared | clearStopEvent => exact .inl rfl
    | clearThread => exact .inr (.inl rfl)
    | clearLoop => exact .inr (.inr rfl)
    | readStopEvent h | checkFailed h =>
      refine .inl ((hinv.cleared ht hw).resolve_right ?_)
      simp [h]
    | _ h =>
      refine .inl ((hinv.cleared ht hw).resolve_right ?_)
      simp [h]
  unscheduled hs := by
    cases h with
    | schedule => cases hs
    | _ => exact hinv.unscheduled hs
  scheduled hs := by
    cases h with
    | start h =>
      refine (hinv.scheduled hs).imp_right (Or.imp_right fun hclosed => ?_)
      simp [h, Worker.isClosed] at hclosed
    | schedule => exact .inr (.inl (Nat.succ_pos _))
    | _ => exact hinv.scheduled hs

theorem Inv.step {s s' : State} (hinv : Inv s) (h : Step s s') : Inv s' :=
  h.elim hinv.worker_step hinv.loop_step

/-! ## Clearing safely -/

/-- The worker will not serve any more: it will take no event, or it is leaving. -/
def NeverServes (s : State) : Prop :=
  (s.worker.isUntaken = true ∧ s.stopEvent = false) ∨ s.worker.isLeaving = true

theorem NeverServes.step {s s' : State} (hnever : NeverServes s) (h : Step s s') :
    NeverServes s' := by
  rcases h with h | h
  · cases h with
    | runSet => exact hnever
    | assignLoop h | loopFailed h | assignStopEvent h =>
      simp [NeverServes, h, Worker.isUntaken, Worker.isLeaving] at hnever
    | _ h => simp_all [NeverServes, Worker.isUntaken, Worker.isLeaving]
  · cases h with
    | start h => simp [NeverServes, h, Worker.isUntaken, Worker.isLeaving] at hnever
    | clearStopEvent => exact hnever.imp_left fun h => ⟨h.1, rfl⟩
    | _ => exact hnever

theorem NeverServes.run {s s' : State} (hnever : NeverServes s) (h : ReflTransGen Step s s') :
    NeverServes s' := by
  induction h with
  | refl => exact hnever
  | tail _ hstep ih => exact ih.step hstep

theorem NeverServes.not_canServeOn {s : State} (hnever : NeverServes s) : ¬CanServeOn s := by
  rintro ⟨s', hrun, hserves⟩
  have hlast := hnever.run hrun
  simp [NeverServes, hserves.serving, Worker.isUntaken, Worker.isLeaving] at hlast

/-- Between the steps of a run that clears safely. -/
def Kept (s : State) : Prop := s.returned = true → s.scheduled = true ∨ NeverServes s

theorem Kept.not_lostStop {s : State} (hinv : Inv s) (hkept : Kept s) : ¬LostStop s := by
  rintro ⟨hreturned, hserves, hunset, hnone⟩
  have hnever : NeverServes s := by
    rcases hkept hreturned with hscheduled | hnever
    · rcases hinv.scheduled hscheduled with hset | hpending | hclosed
      · simp [hunset] at hset
      · omega
      · refine .inr ?_
        cases hw : s.worker <;> simp_all [Worker.isClosed, Worker.isLeaving]
    · exact hnever
  rcases hserves with hserving | hcan
  · exact hnever.not_canServeOn ⟨s, .refl, hserving, hunset, hnone⟩
  · exact hnever.not_canServeOn hcan

theorem Kept.step {s s' : State} (hinv : Inv s) (hkept : Kept s) (h : Step s s')
    (hsafe : ClearsSafely s s') : Kept s' := by
  intro hreturned
  by_cases hbefore : s.returned = true
  · rcases hkept hbefore with hscheduled | hnever
    · refine .inl ?_
      rcases h with h | h
      · exact h.frame.scheduled ▸ hscheduled
      · cases h with
        | schedule => rfl
        | _ => exact hscheduled
    · exact .inr (hnever.step h)
  · rcases h with h | h
    · exact absurd (h.frame.returned ▸ hreturned) hbefore
    · cases h with
      | callCleared h hstarted hthread =>
        -- `_thread` is cleared for good only by a call that then returns
        have hcleared := hinv.cleared hthread hstarted
        simp [hbefore, h] at hcleared
      | clearStopEvent h =>
        rcases hsafe h rfl with hscheduled | huntaken | hleaving
        · exact .inl hscheduled
        · exact .inr (.inl ⟨huntaken, rfl⟩)
        · exact .inr (.inr hleaving)
      | _ => exact absurd hreturned hbefore

/-! ## Clearing unsafely -/

/-- A worker that has not assigned its event can assign it and serve on. -/
theorem canServeOn_of_loopAssigned {s : State} (hw : s.worker = .loopAssigned)
    (hunset : s.eventSet = false) (hnone : s.pendingSets = 0) : CanServeOn s := by
  let s₁ := { s with worker := .importing, stopEvent := true }
  let s₂ := { s₁ with worker := .entered }
  let s₃ := { s₂ with worker := .asserted }
  refine ⟨{ s₃ with worker := .serving }, ?_, rfl, hunset, hnone⟩
  have h₁ : Step s s₁ := .inl (.assignStopEvent hw)
  have h₂ : Step s₁ s₂ := .inl (.imported rfl)
  have h₃ : Step s₂ s₃ := .inl (.assertPassed rfl rfl)
  have h₄ : Step s₃ { s₃ with worker := .serving } := .inl (.takeEvent rfl rfl)
  exact .head h₁ (.head h₂ (.head h₃ (.single h₄)))

theorem canServeOn_of_starting {s : State} (hw : s.worker = .starting)
    (hunset : s.eventSet = false) (hnone : s.pendingSets = 0) : CanServeOn s := by
  obtain ⟨s', hrun, hserves⟩ :=
    @canServeOn_of_loopAssigned { s with worker := .loopAssigned, loop := true } rfl hunset hnone
  exact ⟨s', .head (.inl (.assignLoop hw)) hrun, hserves⟩

/-- Clearing `_stop_event` when it may not be cleared loses the request. -/
theorem lostStop_of_not_clearsSafely {s s' : State} (hinv : Inv s) (h : Step s s')
    (hclean : ¬ClearsSafely s s') : LostStop s' := by
  simp only [ClearsSafely, MayClear, Classical.not_imp, not_or, Bool.not_eq_true] at hclean
  obtain ⟨hrunning, hnone, hscheduled, huntaken, hleaving⟩ := hclean
  obtain ⟨hunset, hpending⟩ := hinv.unscheduled hscheduled
  rcases h with h | h
  · rw [h.frame.running, hrunning] at hnone
    cases hnone
  · cases h with
    | clearStopEvent =>
      refine ⟨rfl, ?_, hunset, hpending⟩
      cases hw : s.worker with
      | idle => simp [hinv.idle hw] at hrunning
      | starting => exact .inr (canServeOn_of_starting rfl hunset hpending)
      | loopAssigned => exact .inr (canServeOn_of_loopAssigned rfl hunset hpending)
      | serving => exact .inl rfl
      | importing | entered | asserted => simp [hw, Worker.isUntaken] at huntaken
      | draining | finishing | closed | finished => simp [hw, Worker.isLeaving] at hleaving
    | readStopEvent h | checkFailed h => simp [hrunning] at h
    | _ h => simp_all

/-! ## The runs in which no request is lost -/

theorem not_lostStop_iff_of_step {s s' : State} (hinv : Inv s) (hkept : Kept s) (h : Step s s') :
    ¬LostStop s' ↔ ClearsSafely s s' := by
  constructor
  · intro hlost
    by_contra hclean
    exact hlost (lostStop_of_not_clearsSafely hinv h hclean)
  · intro hsafe
    exact (hkept.step hinv h hsafe).not_lostStop (hinv.step h)

theorem stop_kept_iff_of_inv {s : State} {run : List State} (hinv : Inv s) (hkept : Kept s)
    (hrun : (s :: run).IsChain Step) :
    (∀ s' ∈ run, ¬LostStop s') ↔ (s :: run).IsChain ClearsSafely := by
  induction run generalizing s with
  | nil => simp
  | cons s' run ih =>
    rw [List.isChain_cons_cons] at hrun
    rw [List.forall_mem_cons, List.isChain_cons_cons, not_lostStop_iff_of_step hinv hkept hrun.1]
    refine and_congr_right fun hsafe => ?_
    exact ih (hinv.step hrun.1) (hkept.step hinv hrun.1 hsafe) hrun.2

/-- A stop request is never lost, in any order of the steps of both threads, as long as each call
of `async_stop` that clears `_stop_event` may clear it. In every other run it is lost: the call
found a field unassigned, and the worker serves after it has returned. -/
theorem stop_kept_iff {run : List State} (hrun : (State.fresh :: run).IsChain Step) :
    (∀ s ∈ run, ¬LostStop s) ↔ (State.fresh :: run).IsChain ClearsSafely :=
  stop_kept_iff_of_inv inv_fresh (fun h => by cases h) hrun

/-- A call that finds both fields, and gives up joining while the worker imports. -/
def signalledRun : List State :=
  let started := { State.fresh with worker := .starting, thread := true }
  let importing := { started with worker := .importing, loop := true, stopEvent := true }
  let scheduled := { importing with joining := 1, pendingSets := 1, scheduled := true }
  [started,
    { started with worker := .loopAssigned, loop := true },
    importing,
    { importing with running := some .readLoop },
    { importing with running := some (.readStopEvent true) },
    { importing with running := some (.check true true) },
    { importing with running := some .schedule },
    scheduled,
    { scheduled with joining := 0, running := some .clearThread },
    { scheduled with joining := 0, running := some .clearLoop, thread := false },
    { scheduled with joining := 0, running := some .clearStopEvent, thread := false,
                     loop := false },
    { scheduled with joining := 0, thread := false, loop := false, stopEvent := false,
                     returned := true }]

theorem signalledRun_isChain : (State.fresh :: signalledRun).IsChain Step := by
  refine .cons_cons (.inr (.start rfl)) <| .cons_cons (.inl (.assignLoop rfl)) <|
    .cons_cons (.inl (.assignStopEvent rfl)) <| .cons_cons (.inr (.call rfl rfl)) <|
    .cons_cons (.inr (.readLoop rfl)) <| .cons_cons (.inr (.readStopEvent rfl)) <|
    .cons_cons (.inr (.checkPassed rfl rfl)) <| .cons_cons (.inr (.schedule rfl rfl)) <|
    .cons_cons (.inr (.joined rfl Nat.one_pos)) <| .cons_cons (.inr (.clearThread rfl)) <|
    .cons_cons (.inr (.clearLoop rfl)) <| .cons_cons (.inr (.clearStopEvent rfl)) <|
    .singleton _

theorem stop_kept_iff_signalled :
    (State.fresh :: signalledRun).IsChain Step ∧ ∀ s ∈ signalledRun, ¬LostStop s := by
  refine ⟨signalledRun_isChain, (stop_kept_iff signalledRun_isChain).mpr ?_⟩
  simp [signalledRun, State.fresh, ClearsSafely, MayClear]

/-- A call comes before the worker has assigned its fields, finds nothing to set, and gives up
joining when the worker already serves. -/
theorem not_forall_not_lostStop : ¬∀ s, ReflTransGen Step .fresh s → ¬LostStop s := by
  intro h
  have hcall : ReflTransGen Step .fresh _ :=
    .head (.inr (.start rfl)) <| .head (.inr (.call rfl rfl)) <| .head (.inr (.readLoop rfl)) <|
    .head (.inr (.readStopEvent rfl)) <| .single (.inr (.checkFailed rfl (.inl rfl)))
  have hserve := hcall.tail (.inl (.assignLoop rfl)) |>.tail (.inl (.assignStopEvent rfl))
    |>.tail (.inl (.imported rfl)) |>.tail (.inl (.assertPassed rfl rfl))
    |>.tail (.inl (.takeEvent rfl rfl))
  have hreturn := hserve.tail (.inr (.joined rfl Nat.one_pos)) |>.tail (.inr (.clearThread rfl))
    |>.tail (.inr (.clearLoop rfl)) |>.tail (.inr (.clearStopEvent rfl))
  exact h _ hreturn ⟨rfl, .inl rfl, rfl, rfl⟩

end EsphomeMcp.Server
