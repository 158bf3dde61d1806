import EsphomeMcp.Python.Links
import EsphomeMcp.Python.Str
import EsphomeMcp.Server.Ready
import Mathlib.Data.List.GetD
import Mathlib.Data.Rat.Defs

/-!
# Retrying the worker's imports

`_import_server_runtime_with_retry`, over any outcomes of the imports and any graph of `__cause__`
and `__context__` links between the exceptions. `retriesDeadlocks_iff` says when it retries a
module-lock deadlock whatever wraps it.
-/

namespace EsphomeMcp.Server

open Py Relation

/-! ## Definitions -/

/-- `_IMPORT_DEADLOCK_RETRY_DELAYS_SECONDS`. -/
def importDeadlockRetryDelaysSeconds : List ℚ := [1 / 4, 1 / 2, 1, 2]

/-- `_MODULE_LOCK_DEADLOCK_TEXT`. -/
def moduleLockDeadlockText : Str := str "deadlock detected by _ModuleLock"

/-- `total_attempts`. -/
def totalAttempts : ℕ := importDeadlockRetryDelaysSeconds.length + 1

/-- The exceptions the imports can raise, with what the code reads of them. -/
structure Exceptions (E : Type) where
  /-- `isinstance(err, RuntimeError)`. -/
  isRuntimeError : E → Bool
  /-- `str(err)`. -/
  text : E → Str
  /-- `bool(err)`. -/
  isTruthy : E → Bool
  /-- `err.__cause__`. -/
  cause : E → Option E
  /-- `err.__context__`. -/
  context : E → Option E

/-- How `_import_server_runtime_with_retry` ends. -/
inductive ImportResult (E : Type) where
  | returned
  /-- `raise err from cause`. -/
  | failed (err : EmbeddedServerError) (cause : E)
  | reraised (err : E)

/-- The attempts made, the sleeps between them and the end. -/
structure ImportRun (E : Type) where
  attempts : ℕ
  sleeps : List ℚ
  result : ImportResult E

/-- The error of the last attempt that collides. -/
def importsCollided : EmbeddedServerError where
  message := "Server imports repeatedly collided with another Home Assistant " ++
    "integration. Restart Home Assistant to clear the shared import state."
  kind := .restart

section

variable {E : Type} (x : Exceptions E)

/-- The test of one exception in the search. -/
def Exceptions.isDeadlock (err : E) : Bool :=
  x.isRuntimeError err && contains moduleLockDeadlockText (x.text err)

/-- `current.__cause__ or current.__context__`. -/
def Exceptions.followed (current : E) : Option E :=
  match x.cause current with
  | some cause => if x.isTruthy cause then some cause else x.context current
  | none => x.context current

/-- `_is_module_lock_deadlock`. -/
def Exceptions.isModuleLockDeadlock [Fintype E] [DecidableEq E] (err : E) : Bool :=
  searchLinks x.isDeadlock x.followed ∅ (some err)

/-- The body of the `try`, with `import_module` as the attempt has it answer. -/
def importServerRuntime (importModule : ℕ → Str → Except E Unit) (attempt : ℕ) :
    Except E Unit := do
  importModule attempt (str "uvicorn")
  importModule attempt (str "custom_components.esphome_mcp.server")

/-- The loop of `_import_server_runtime_with_retry`, over the attempts to come. -/
def importLoop [Fintype E] [DecidableEq E] (importModule : ℕ → Str → Except E Unit) :
    List ℕ → ImportRun E
  | [] => ⟨0, [], .returned⟩
  | attempt :: later =>
    match importServerRuntime importModule attempt with
    | .ok () => ⟨attempt, [], .returned⟩
    | .error err =>
      -- what is no `RuntimeError` passes the handler by
      if !x.isRuntimeError err then ⟨attempt, [], .reraised err⟩
      else if !x.isModuleLockDeadlock err then ⟨attempt, [], .reraised err⟩
      else if attempt = totalAttempts then ⟨attempt, [], .failed importsCollided err⟩
      else
        let delay := importDeadlockRetryDelaysSeconds.getD (attempt - 1) 0
        let run := importLoop importModule later
        ⟨run.attempts, delay :: run.sleeps, run.result⟩

/-- `_import_server_runtime_with_retry`. -/
def importServerRuntimeWithRetry [Fintype E] [DecidableEq E]
    (importModule : ℕ → Str → Except E Unit) : ImportRun E :=
  importLoop x importModule (List.range' 1 totalAttempts)

/-! ## What a run is to do -/

/-- A link of either kind. -/
def Exceptions.Links (err other : E) : Prop :=
  x.cause err = some other ∨ x.context err = some other

/-- A deadlock is reachable over links of either kind. -/
def Exceptions.HasDeadlock (err : E) : Prop :=
  ∃ d, ReflTransGen x.Links err d ∧ x.isDeadlock d = true

/-- What the handler sees: a `RuntimeError` from which the links that are followed, the context
only where there is no cause, lead to a deadlock. -/
def Exceptions.ShowsDeadlock (err : E) : Prop :=
  x.isRuntimeError err = true ∧
    ∃ d, ReflTransGen (Linked x.followed) err d ∧ x.isDeadlock d = true

/-- The attempt fails with an exception of the given kind. -/
def FailsWith (importModule : ℕ → Str → Except E Unit) (kind : E → Prop) (attempt : ℕ) : Prop :=
  ∃ err, importServerRuntime importModule attempt = .error err ∧ kind err

/-- The attempts before this one all fail with exceptions of the given kind. -/
def Reaches (importModule : ℕ → Str → Except E Unit) (kind : E → Prop) (attempt : ℕ) : Prop :=
  1 ≤ attempt ∧ ∀ j, 1 ≤ j → j < attempt → FailsWith importModule kind j

/-- The run retries the exceptions of one kind and no other. -/
structure RetriesOn (importModule : ℕ → Str → Except E Unit) (kind : E → Prop)
    (run : ImportRun E) : Prop where
  retries : ∀ attempt err, 1 ≤ attempt → attempt < totalAttempts → attempt ≤ run.attempts →
    importServerRuntime importModule attempt = .error err → (attempt < run.attempts ↔ kind err)
  returns : run.result = .returned ↔ ∃ attempt ≤ totalAttempts,
    Reaches importModule kind attempt ∧ importServerRuntime importModule attempt = .ok ()
  restarts : (∃ err, run.result = .failed importsCollided err) ↔
    ∀ attempt, 1 ≤ attempt → attempt ≤ totalAttempts → FailsWith importModule kind attempt
  reraises : ∀ attempt err, attempt ≤ totalAttempts → Reaches importModule kind attempt →
    importServerRuntime importModule attempt = .error err →
      (run.attempts = attempt ∧ run.result = .reraised err ↔ ¬kind err)

/-! ## One run -/

/-- How the run ends at the attempt that ends it. -/
inductive EndsWith (importModule : ℕ → Str → Except E Unit) (kind : E → Prop) (attempt : ℕ) :
    ImportResult E → Prop
  | returned (h : importServerRuntime importModule attempt = .ok ()) :
      EndsWith importModule kind attempt .returned
  | reraised {err : E} (h : importServerRuntime importModule attempt = .error err)
      (hkind : ¬kind err) : EndsWith importModule kind attempt (.reraised err)
  | failed {err : E} (h : importServerRuntime importModule attempt = .error err)
      (hkind : kind err) (hlast : attempt = totalAttempts) :
      EndsWith importModule kind attempt (.failed importsCollided err)

theorem showsDeadlock_iff [Fintype E] [DecidableEq E] {err : E} :
    x.ShowsDeadlock err ↔ x.isRuntimeError err = true ∧ x.isModuleLockDeadlock err = true := by
  rw [Exceptions.ShowsDeadlock, Exceptions.isModuleLockDeadlock, searchLinks_iff]

theorem Exceptions.HasDeadlock.of_shows {err : E} (h : x.ShowsDeadlock err) :
    x.HasDeadlock err := by
  obtain ⟨-, d, hreach, hd⟩ := h
  refine ⟨d, ReflTransGen.mono ?_ _ _ hreach, hd⟩
  intro a b hab
  have hfollowed : x.followed a = some b := hab
  rw [Exceptions.followed] at hfollowed
  split at hfollowed
  · next cause hcause =>
    split_ifs at hfollowed
    · exact .inl (hcause.trans hfollowed)
    · exact .inr hfollowed
  · exact .inr hfollowed

/-- One turn of the loop: it ends the run, or sleeps after a deadlock it sees. -/
theorem importLoop_cons [Fintype E] [DecidableEq E] (importModule : ℕ → Str → Except E Unit)
    (attempt : ℕ) (later : List ℕ) :
    (EndsWith importModule x.ShowsDeadlock attempt
        (importLoop x importModule (attempt :: later)).result ∧
      (importLoop x importModule (attempt :: later)).attempts = attempt ∧
      (importLoop x importModule (attempt :: later)).sleeps = []) ∨
    (FailsWith importModule x.ShowsDeadlock attempt ∧ attempt ≠ totalAttempts ∧
      importLoop x importModule (attempt :: later) =
        ⟨(importLoop x importModule later).attempts,
          importDeadlockRetryDelaysSeconds.getD (attempt - 1) 0 ::
            (importLoop x importModule later).sleeps,
          (importLoop x importModule later).result⟩) := by
  rw [importLoop]
  split
  · next h => exact .inl ⟨.returned h, rfl, rfl⟩
  · next err h =>
    by_cases hshows : x.ShowsDeadlock err
    · obtain ⟨hruntime, hfound⟩ := (showsDeadlock_iff x).mp hshows
      simp only [hruntime, hfound, Bool.not_true, Bool.false_eq_true, if_false]
      split_ifs with hlast
      · exact .inl ⟨.failed h hshows hlast, rfl, rfl⟩
      · exact .inr ⟨⟨err, h, hshows⟩, hlast, rfl⟩
    -- the two ways past the handler
    · have hpast : x.isRuntimeError err = false ∨ x.isModuleLockDeadlock err = false := by
        rw [showsDeadlock_iff, not_and_or] at hshows
        simpa only [Bool.not_eq_true] using hshows
      have hrun : EndsWith importModule x.ShowsDeadlock attempt (.reraised err) :=
        .reraised h hshows
      left
      by_cases hruntime : x.isRuntimeError err = true
      · have hfound := hpast.resolve_left (by rw [hruntime]; exact Bool.true_eq_false_eq_False)
        simp only [hruntime, hfound, Bool.not_true, Bool.not_false, Bool.false_eq_true, if_false,
          if_true]
        exact ⟨hrun, trivial, trivial⟩
      · rw [Bool.not_eq_true] at hruntime
        simp only [hruntime, Bool.not_false, if_true]
        exact ⟨hrun, trivial, trivial⟩

/-- The loop ends at the first attempt that does not fail with a deadlock it sees, and sleeps
between the attempts it makes. -/
theorem importLoop_spec [Fintype E] [DecidableEq E] (importModule : ℕ → Str → Except E Unit)
    {first count : ℕ} (hcount : first + count = totalAttempts) (hfirst : 1 ≤ first) :
    ∃ attempt, first ≤ attempt ∧ attempt ≤ totalAttempts ∧
      (∀ j, first ≤ j → j < attempt → FailsWith importModule x.ShowsDeadlock j) ∧
      (importLoop x importModule (List.range' first (count + 1))).attempts = attempt ∧
      (importLoop x importModule (List.range' first (count + 1))).sleeps =
        (importDeadlockRetryDelaysSeconds.drop (first - 1)).take (attempt - first) ∧
      EndsWith importModule x.ShowsDeadlock attempt
        (importLoop x importModule (List.range' first (count + 1))).result := by
  induction count generalizing first with
  | zero =>
    rw [List.range'_succ]
    obtain ⟨hend, hattempts, hsleeps⟩ | ⟨-, hlast, -⟩ :=
      importLoop_cons x importModule first (List.range' (first + 1) 0)
    · refine ⟨first, le_rfl, by omega, fun j hj hlt => by omega, hattempts, ?_, hend⟩
      rw [hsleeps, Nat.sub_self, List.take_zero]
    · exact absurd hcount hlast
  | succ count ih =>
    rw [List.range'_succ]
    obtain ⟨hend, hattempts, hsleeps⟩ | ⟨hfails, hlast, hrun⟩ :=
      importLoop_cons x importModule first (List.range' (first + 1) (count + 1))
    · refine ⟨first, le_rfl, by omega, fun j hj hlt => by omega, hattempts, ?_, hend⟩
      rw [hsleeps, Nat.sub_self, List.take_zero]
    · have hlater : first + 1 + count = totalAttempts := by omega
      obtain ⟨attempt, hle, htotal, hbefore, hattempts, hsleeps, hend⟩ :=
        ih hlater (by omega)
      rw [hrun]
      refine ⟨attempt, by omega, htotal, ?_, hattempts, ?_, hend⟩
      · intro j hj hlt
        obtain rfl | hne := eq_or_ne j first
        · exact hfails
        · exact hbefore j (by omega) hlt
      · have hlt : first - 1 < importDeadlockRetryDelaysSeconds.length := by
          show first - 1 < totalAttempts - 1
          omega
        have hsub : attempt - first = attempt - (first + 1) + 1 := by omega
        show _ :: (importLoop x importModule _).sleeps = _
        rw [hsleeps, hsub, List.drop_eq_getElem_cons hlt, List.take_succ_cons,
          List.getD_eq_getElem _ _ hlt, Nat.add_sub_cancel, Nat.sub_add_cancel hfirst]

/-! ## What the run retries -/

variable {x} {importModule : ℕ → Str → Except E Unit} {kind : E → Prop} {attempt : ℕ}

/-- An attempt that ends the run with a failure of the kind is the last there is. -/
theorem EndsWith.of_failsWith {result : ImportResult E}
    (hend : EndsWith importModule kind attempt result)
    (hfails : FailsWith importModule kind attempt) :
    attempt = totalAttempts ∧ ∃ err, result = .failed importsCollided err := by
  obtain ⟨err, herr, hkind⟩ := hfails
  cases hend with
  | returned h => exact absurd (h.symm.trans herr) nofun
  | reraised h hnot =>
    have heq := Except.error.inj (h.symm.trans herr)
    exact absurd (heq ▸ hkind) hnot
  | @failed other h _ hlast => exact ⟨hlast, other, rfl⟩

/-- A run that ends at an attempt as it should has retried one kind of failure and no other. -/
theorem retriesOn_of_endsWith {run : ImportRun E}
    (hreaches : Reaches importModule kind run.attempts) (htotal : run.attempts ≤ totalAttempts)
    (hend : EndsWith importModule kind run.attempts run.result) :
    RetriesOn importModule kind run := by
  -- no other attempt is reached and does not fail with the kind
  have hlast : ∀ attempt ≤ totalAttempts, Reaches importModule kind attempt →
      ¬FailsWith importModule kind attempt → attempt = run.attempts := by
    intro attempt hle hattempt hfails
    rcases Nat.lt_trichotomy attempt run.attempts with hlt | heq | hgt
    · exact absurd (hreaches.2 attempt hattempt.1 hlt) hfails
    · exact heq
    · have := (hend.of_failsWith (hattempt.2 run.attempts hreaches.1 hgt)).1
      omega
  refine ⟨?_, ?_, ?_, ?_⟩
  · intro attempt err hpos hlt hle herr
    constructor
    · intro hmade
      obtain ⟨other, hother, hkind⟩ := hreaches.2 attempt hpos hmade
      rwa [Except.error.inj (herr.symm.trans hother)]
    · intro hkind
      apply Nat.lt_of_le_of_ne hle
      rintro rfl
      exact absurd (hend.of_failsWith ⟨err, herr, hkind⟩).1 hlt.ne
  · constructor
    · intro hresult
      rw [hresult] at hend
      cases hend with
      | returned h => exact ⟨run.attempts, htotal, hreaches, h⟩
    · rintro ⟨attempt, hle, hattempt, hok⟩
      have heq : attempt = run.attempts := by
        apply hlast attempt hle hattempt
        rintro ⟨err, herr, -⟩
        exact absurd (hok.symm.trans herr) nofun
      rw [heq] at hok
      generalize run.result = result at hend
      cases hend with
      | returned h => rfl
      | reraised h _ => exact absurd (hok.symm.trans h) nofun
      | failed h _ _ => exact absurd (hok.symm.trans h) nofun
  · constructor
    · rintro ⟨err, hresult⟩ attempt hpos hle
      rw [hresult] at hend
      generalize hgoal : ImportResult.failed importsCollided err = result at hend
      cases hend with
      | returned h => exact absurd hgoal nofun
      | reraised h _ => exact absurd hgoal nofun
      | @failed other h hkind hmax =>
        rcases Nat.lt_or_ge attempt run.attempts with hlt | hge
        · exact hreaches.2 attempt hpos hlt
        · have heq : run.attempts = attempt := by omega
          exact heq ▸ ⟨other, h, hkind⟩
    · intro hall
      exact (hend.of_failsWith (hall run.attempts hreaches.1 htotal)).2
  · intro attempt err hle hattempt herr
    constructor
    · rintro ⟨rfl, hresult⟩
      rw [hresult] at hend
      cases hend with
      | reraised h hkind => exact hkind
    · intro hkind
      have heq : attempt = run.attempts := by
        apply hlast attempt hle hattempt
        rintro ⟨other, hother, hfails⟩
        exact hkind (Except.error.inj (herr.symm.trans hother) ▸ hfails)
      refine ⟨heq.symm, ?_⟩
      rw [heq] at herr
      generalize run.result = result at hend
      cases hend with
      | returned h => exact absurd (h.symm.trans herr) nofun
      | reraised h _ => rw [Except.error.inj (h.symm.trans herr)]
      | failed h hother _ => exact absurd (Except.error.inj (h.symm.trans herr) ▸ hother) hkind

/-- The code's run, on the deadlocks the handler sees. -/
theorem endsWith_showsDeadlock [Fintype E] [DecidableEq E] (x : Exceptions E)
    (importModule : ℕ → Str → Except E Unit) :
    Reaches importModule x.ShowsDeadlock (importServerRuntimeWithRetry x importModule).attempts ∧
      (importServerRuntimeWithRetry x importModule).attempts ≤ totalAttempts ∧
      EndsWith importModule x.ShowsDeadlock (importServerRuntimeWithRetry x importModule).attempts
        (importServerRuntimeWithRetry x importModule).result := by
  have hcount : 1 + importDeadlockRetryDelaysSeconds.length = totalAttempts := Nat.add_comm _ _
  obtain ⟨attempt, hfirst, htotal, hbefore, hattempts, -, hend⟩ :=
    importLoop_spec x importModule hcount le_rfl
  have hrun : (importServerRuntimeWithRetry x importModule).attempts = attempt := hattempts
  rw [hrun]
  exact ⟨⟨hfirst, hbefore⟩, htotal, hend⟩

/-- Without any condition the run retries the deadlocks the handler sees, and only these. -/
theorem retriesOn_showsDeadlock [Fintype E] [DecidableEq E] :
    RetriesOn importModule x.ShowsDeadlock (importServerRuntimeWithRetry x importModule) := by
  obtain ⟨hreaches, htotal, hend⟩ := endsWith_showsDeadlock x importModule
  exact retriesOn_of_endsWith hreaches htotal hend

theorem Reaches.mono {other : E → Prop} (hsub : ∀ err, kind err → other err)
    (h : Reaches importModule kind attempt) : Reaches importModule other attempt := by
  refine ⟨h.1, fun j hj hlt => ?_⟩
  obtain ⟨err, herr, hkind⟩ := h.2 j hj hlt
  exact ⟨err, herr, hsub err hkind⟩

/-- The run retries every deadlock, whatever wraps it, exactly when the handler sees each deadlock
that an attempt it makes fails with. -/
theorem retriesDeadlocks_iff {E : Type} [Fintype E] [DecidableEq E] (x : Exceptions E)
    (importModule : ℕ → Str → Except E Unit) :
    RetriesOn importModule x.HasDeadlock (importServerRuntimeWithRetry x importModule) ↔
      ∀ attempt ≤ totalAttempts, Reaches importModule x.ShowsDeadlock attempt →
        ∀ err, importServerRuntime importModule attempt = .error err →
          x.HasDeadlock err → x.ShowsDeadlock err := by
  have hsub : ∀ err, x.ShowsDeadlock err → x.HasDeadlock err := fun _ => .of_shows x
  constructor
  · intro hall attempt hle hattempt err herr hdeadlock
    by_contra hshows
    -- the code raises it again, at once
    have hraised := (retriesOn_showsDeadlock.reraises attempt err hle hattempt herr).mpr hshows
    exact (hall.reraises attempt err hle (hattempt.mono hsub) herr).mp hraised hdeadlock
  · intro hcond
    obtain ⟨hreaches, htotal, hend⟩ := endsWith_showsDeadlock x importModule
    apply retriesOn_of_endsWith (hreaches.mono hsub) htotal
    have hlast := hcond _ htotal hreaches
    generalize (importServerRuntimeWithRetry x importModule).result = result at hend
    cases hend with
    | returned h => exact .returned h
    | reraised h hnot => exact .reraised h (fun hdeadlock => hnot (hlast _ h hdeadlock))
    | failed h hshows hmax => exact .failed h (hsub _ hshows) hmax

/-- An `ImportError` that is raised from a deadlock. -/
def wrappedDeadlock : Exceptions Bool where
  isRuntimeError isCause := isCause
  text isCause :=
    if isCause then str "deadlock detected by _ModuleLock('fastmcp.server.server')"
    else str "cannot import name"
  isTruthy _ := true
  cause isCause := if isCause then none else some true
  context isCause := if isCause then none else some true

/-- The first import of the server fails so, and every later one succeeds. -/
def failsOnce (attempt : ℕ) (name : Str) : Except Bool Unit :=
  if attempt = 1 ∧ name ≠ str "uvicorn" then .error false else .ok ()

theorem not_retriesDeadlocks_wrapped :
    ¬RetriesOn failsOnce wrappedDeadlock.HasDeadlock
      (importServerRuntimeWithRetry wrappedDeadlock failsOnce) := by
  intro hall
  have hdeadlock : wrappedDeadlock.HasDeadlock false :=
    ⟨true, .single (.inl rfl), by decide⟩
  have hretried := (hall.retries 1 false le_rfl (by decide) le_rfl rfl).mpr hdeadlock
  exact lt_irrefl 1 hretried

end

end EsphomeMcp.Server
