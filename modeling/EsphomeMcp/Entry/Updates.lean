import EsphomeMcp.Entry.Lifecycle

/-!
# Edits of the options

Each edit of a loaded entry schedules a call of `_async_options_updated`, which has the entry
reloaded unless its options are those of the last setup. The calls run whenever they run, also while
a bring-up or an unload waits.

* `Home` is the world of the entry with the calls that are scheduled;
* `Meanwhile` is what edits and calls without effect can do while something else waits;
* `quiet_of_run` says what was started once no call is left.
-/

namespace EsphomeMcp.Entry

open Py Py.Prog Webhook Relation

/-- `dict(entry.options)`. -/
def ServerEntry.options (entry : ServerEntry) : Webhook.Options × Settings :=
  (entry.entry.options, entry.settings)

/-- `_async_options_updated`: whether it has the entry reloaded. -/
def asyncOptionsUpdated (lastOptions : Option (Webhook.Options × Settings)) (entry : ServerEntry) :
    Bool := decide (lastOptions ≠ some entry.options)

/-! ## Runs with the update listener -/

/-- The entry is edited, which schedules a call, or a call finds nothing to do. -/
inductive ListenerStep (last : Option (Webhook.Options × Settings)) :
    ServerEntry × ℕ → ServerEntry × ℕ → Prop
  | edit {entry : ServerEntry} {calls : ℕ} (options : Webhook.Options) (settings : Settings) :
      ListenerStep last (entry, calls)
        (⟨{ entry.entry with options := options }, settings⟩, calls + 1)
  | unchanged {entry : ServerEntry} {calls : ℕ} : asyncOptionsUpdated last entry = false →
      ListenerStep last (entry, calls + 1) (entry, calls)

/-- Edits and calls without effect, while something else waits. -/
abbrev Meanwhile (last : Option (Webhook.Options × Settings)) :
    ServerEntry × ℕ → ServerEntry × ℕ → Prop := ReflTransGen (ListenerStep last)

/-- The entry's world and its update listener. -/
structure Home where
  world : EntryWorld
  /-- The calls of the listener that have not run yet. -/
  calls : ℕ
  /-- There was an edit after the last setup and before its bring-up had ended. -/
  early : Bool

/-- Home Assistant with the entry just created. -/
def Home.init (settings : Settings) : Home := ⟨.init settings, 0, false⟩

section

variable [Runtime]

/-- The unload of a loaded entry, with what the listener does meanwhile. -/
def Unloads (W : EntryWorld) (calls : ℕ) (W' : EntryWorld) (calls' : ℕ) : Prop :=
  W.loaded = true ∧ ∃ W₁, Ends W asyncUnloadServerEntry (.ok ()) W₁ ∧
    Meanwhile W.lastOptions (W.entry, calls) (W₁.entry, calls') ∧ W' = { W₁ with loaded := false }

/-- A step of the entry's life, of an editor or of the listener. A reload unloads an entry that is
loaded and sets it up again, and there may be edits in between that nobody listens to. -/
inductive HomeStep (H : Home) : Home → Prop
  | listener {entry : ServerEntry} {calls : ℕ} : H.world.loaded = true →
      ListenerStep H.world.lastOptions (H.world.entry, H.calls) (entry, calls) →
      HomeStep H ⟨{ H.world with entry := entry }, calls,
        H.early || decide (H.world.task = some .pending)⟩
  | edit (options : Webhook.Options) (settings : Settings) : H.world.loaded = false →
      HomeStep H { H with world := H.world.edited options settings }
  | setup {draws : Draws} {out : Except EntryErr Unit} {W' : EntryWorld} :
      H.world.loaded = false → Ends H.world (asyncSetupServerEntry draws) out W' →
      HomeStep H ⟨{ W' with loaded := out.isOk }, H.calls, false⟩
  | bringUp {out : Except EntryErr Unit} {W' : EntryWorld} {calls : ℕ} : H.world.loaded = true →
      H.world.task = some .pending → BringUpEnds H.world out W' →
      Meanwhile H.world.lastOptions (H.world.entry, H.calls) (W'.entry, calls) →
      HomeStep H ⟨{ W' with task := some .done }, calls,
        H.early || decide (W'.entry ≠ H.world.entry)⟩
  | unload {W' : EntryWorld} {calls : ℕ} : Unloads H.world H.calls W' calls →
      HomeStep H ⟨W', calls, H.early⟩
  | remove {out : Except EntryErr Unit} {W' : EntryWorld} : H.world.loaded = false →
      Ends H.world asyncRemoveServer out W' → HomeStep H { H with world := W' }
  | reload {draws : Draws} {out : Except EntryErr Unit} {W₁ W' : EntryWorld} {calls calls' : ℕ}
      (options : Webhook.Options) (settings : Settings) : H.calls = calls + 1 →
      asyncOptionsUpdated H.world.lastOptions H.world.entry = true →
      (H.world.loaded = false ∧ W₁ = H.world ∧ calls' = calls ∨
        Unloads H.world calls W₁ calls') →
      Ends (W₁.edited options settings) (asyncSetupServerEntry draws) out W' →
      HomeStep H ⟨{ W' with loaded := out.isOk }, calls', false⟩

/-! ## What is kept -/

/-- Options that are not those of the last setup have a call scheduled. -/
def Noticed (last : Option (Webhook.Options × Settings)) (p : ServerEntry × ℕ) : Prop :=
  last ≠ some p.1.options → 0 < p.2

/-- The published manager has the port these options ask for, and is exposed as they ask. -/
def Shows (W : EntryWorld) (options : Webhook.Options × Settings) : Prop :=
  ∀ manager, W.manager = some manager →
    manager.port = options.2.port ∧ Exposes (W.edited options.1 options.2)

/-- What holds between any two steps. -/
structure HomeInv (H : Home) : Prop where
  life : LifeInv H.world
  noticed : H.world.loaded = true → Noticed H.world.lastOptions (H.world.entry, H.calls)
  fresh : H.world.loaded = true → H.world.task = some .pending → H.early = false →
    H.world.lastOptions = some H.world.entry.options
  shows : H.world.loaded = true → H.world.task = some .done → H.early = false →
    ∀ last, H.world.lastOptions = some last → Shows H.world last

/-- No call is left of a loaded entry, and its bring-up is over. -/
structure Quiet (H : Home) : Prop where
  loaded : H.world.loaded = true
  task : H.world.task = some .done
  calls : H.calls = 0

/-- Nothing is to be stopped, or one manager. The last setup was with the options as they are, and so
was the bring-up unless there were edits before its end, each of which undone by another. -/
structure UpToDate (H : Home) : Prop where
  options : H.world.lastOptions = some H.world.entry.options
  manager : Down H.world ∨ ∃ manager, IsStarted H.world manager ∧
    (H.early = false → manager.port = H.world.entry.settings.port ∧ Exposes H.world)

omit [Runtime] in
theorem Noticed.step {last : Option (Webhook.Options × Settings)} {p p' : ServerEntry × ℕ}
    (h : Noticed last p) (hstep : ListenerStep last p p') : Noticed last p' := by
  cases hstep with
  | edit options settings => exact fun _ => Nat.succ_pos _
  | unchanged hsame =>
    intro hne
    exact absurd (not_not.mp (of_decide_eq_false hsame)) hne

omit [Runtime] in
theorem ListenerStep.data {last : Option (Webhook.Options × Settings)} {p p' : ServerEntry × ℕ}
    (h : ListenerStep last p p') : p'.1.entry.data = p.1.entry.data := by
  cases h <;> rfl

omit [Runtime] in
theorem Noticed.run {last : Option (Webhook.Options × Settings)} {p p' : ServerEntry × ℕ}
    (h : Noticed last p) (hrun : Meanwhile last p p') : Noticed last p' := by
  induction hrun with
  | refl => exact h
  | tail _ hstep ih => exact ih.step hstep

/-- An unload is one step of the entry's life. -/
theorem Unloads.life {W W' : EntryWorld} {calls calls' : ℕ} (h : Unloads W calls W' calls')
    (hlife : LifeInv W) : LifeInv W' ∧ W'.loaded = false := by
  obtain ⟨hloaded, W₁, hends, -, rfl⟩ := h
  exact ⟨hlife.step (.unload hloaded hends), rfl⟩

/-- A setup that has returned is the one the listener compares with. -/
theorem homeInv_of_setup {draws : Draws} {out : Except EntryErr Unit} {W W' : EntryWorld}
    (calls : ℕ) (hlife : LifeInv W) (hloaded : W.loaded = false)
    (hends : Ends W (asyncSetupServerEntry draws) out W') :
    HomeInv ⟨{ W' with loaded := out.isOk }, calls, false⟩ := by
  have hsetup := ends_asyncSetupServerEntry (hlife.down (.inl hloaded)) hends
  have hok : out.isOk = true → out = .ok () := by
    cases out with
    | ok u => exact fun _ => rfl
    | error e => nofun
  refine ⟨hlife.step (.setup hloaded hends), fun hout hne => ?_, fun hout _ _ => ?_,
    fun hout hdone => ?_⟩
  · exact absurd (hsetup.lastOptions (hok hout)) hne
  · exact hsetup.lastOptions (hok hout)
  · -- the bring-up has only been scheduled
    cases (hsetup.scheduled (hok hout)).symm.trans hdone

omit [Runtime] in
theorem homeInv_of_unloaded {H : Home} (hlife : LifeInv H.world)
    (hloaded : H.world.loaded = false) : HomeInv H := by
  have hnot {p : Prop} (htrue : H.world.loaded = true) : p := by
    rw [hloaded] at htrue
    cases htrue
  exact ⟨hlife, fun htrue => hnot htrue, fun htrue => hnot htrue, fun htrue => hnot htrue⟩

omit [Runtime] in
theorem edited_of_data {W : EntryWorld} {entry : ServerEntry}
    (h : entry.entry.data = W.entry.entry.data) :
    { W with entry := entry } = W.edited entry.entry.options entry.settings := by
  obtain ⟨⟨data, options⟩, settings⟩ := entry
  obtain rfl : data = W.entry.entry.data := h
  rfl

/-- An edit or a call changes nothing but the options and what is scheduled. -/
theorem HomeInv.listener {H : Home} {entry : ServerEntry} {calls : ℕ} (h : HomeInv H)
    (hloaded : H.world.loaded = true)
    (hstep : ListenerStep H.world.lastOptions (H.world.entry, H.calls) (entry, calls)) :
    HomeInv ⟨{ H.world with entry := entry }, calls,
      H.early || decide (H.world.task = some .pending)⟩ := by
  have hedited := edited_of_data hstep.data
  refine ⟨?_, fun _ => (h.noticed hloaded).step hstep, fun _ hpending hearly => ?_,
    fun _ hdone hearly last hlast => ?_⟩
  · rw [hedited]
    exact h.life.step (.edit entry.entry.options entry.settings)
  · exact absurd hpending (of_decide_eq_false (Bool.or_eq_false_iff.mp hearly).2)
  · have hshows := h.shows hloaded hdone (Bool.or_eq_false_iff.mp hearly).1 last hlast
    rw [hedited]
    exact hshows

/-- Without an edit since the setup a bring-up has read the options of the setup. -/
theorem HomeInv.bringUp {H : Home} {out : Except EntryErr Unit} {W' : EntryWorld} {calls : ℕ}
    (h : HomeInv H) (hloaded : H.world.loaded = true) (hpending : H.world.task = some .pending)
    (hends : BringUpEnds H.world out W')
    (hmeanwhile : Meanwhile H.world.lastOptions (H.world.entry, H.calls) (W'.entry, calls)) :
    HomeInv ⟨{ W' with task := some .done }, calls,
      H.early || decide (W'.entry ≠ H.world.entry)⟩ := by
  obtain ⟨hkeeps, hbrought⟩ := ends_asyncBringUpServer h.life.webhookId
    (h.life.down (.inr hpending)) h.life.issues.ids hends
  refine ⟨h.life.step (.bringUp hloaded hpending hends), fun _ => ?_, nofun,
    fun _ _ hearly last hlast manager hmanager => ?_⟩
  · show Noticed W'.lastOptions (W'.entry, calls)
    rw [hkeeps.lastOptions]
    exact (h.noticed hloaded).run hmeanwhile
  · obtain ⟨hbefore, hsame⟩ := Bool.or_eq_false_iff.mp hearly
    have hentry : W'.entry = H.world.entry := by simpa using hsame
    have hcurrent : some last = some W'.entry.options := by
      rw [hentry, ← h.fresh hloaded hpending hbefore]
      exact hlast.symm.trans hkeeps.lastOptions
    obtain rfl := Option.some.inj hcurrent
    cases hbrought with
    | up hport hrunning hexposes =>
      obtain rfl := Option.some.inj (hmanager.symm.trans hrunning.published)
      refine ⟨?_, hexposes.enabled, hexposes.disabled, hexposes.notification⟩
      rw [hport, hentry]
      rfl
    | failed hdown _ _ => cases hmanager.symm.trans hdown.manager
    | cancelled hdown _ => cases hmanager.symm.trans hdown.manager

/-- Every step keeps the invariant. -/
theorem HomeInv.step {H H' : Home} (h : HomeInv H) (hstep : HomeStep H H') : HomeInv H' := by
  cases hstep with
  | listener hloaded hlistener => exact h.listener hloaded hlistener
  | edit options settings hloaded =>
    exact homeInv_of_unloaded (h.life.step (.edit options settings)) hloaded
  | setup hloaded hends => exact homeInv_of_setup H.calls h.life hloaded hends
  | bringUp hloaded hpending hends hmeanwhile => exact h.bringUp hloaded hpending hends hmeanwhile
  | unload hunloads =>
    obtain ⟨hlife, hloaded⟩ := hunloads.life h.life
    exact homeInv_of_unloaded hlife hloaded
  | remove hloaded hends =>
    have hlife := h.life.step (.remove hloaded hends)
    obtain rfl := ends_asyncRemoveServer hends h.life.issues
    exact homeInv_of_unloaded hlife hloaded
  | reload options settings _ _ hunloads hends =>
    rcases hunloads with ⟨hloaded, rfl, -⟩ | hunloads
    · exact homeInv_of_setup _ (h.life.step (.edit options settings)) hloaded hends
    · obtain ⟨hlife, hloaded⟩ := hunloads.life h.life
      exact homeInv_of_setup _ (hlife.step (.edit options settings)) hloaded hends

theorem homeInv_run {settings : Settings} {H : Home}
    (h : ReflTransGen HomeStep (Home.init settings) H) : HomeInv H := by
  induction h with
  | refl => exact ⟨lifeInv_init settings, nofun, nofun, nofun⟩
  | tail _ hstep ih => exact ih.step hstep

end

/-! ## An edit and its undoing -/

/-- The manager of `EntryWorld.localOnly` is started. -/
def EntryWorld.localUp [Runtime] : EntryWorld :=
  { (EntryWorld.localOnly.after (asyncSetupServerEntry zeroDraws)).after asyncBringUpServer with
    task := some .done }

/-- The calls for an edit and for its undoing both find the options of the setup. -/
theorem run_undone [Runtime] {W : EntryWorld} (hloaded : W.loaded = true)
    (htask : W.task = some .done) (hlast : W.lastOptions = some W.entry.options)
    (settings : Settings) : ReflTransGen HomeStep ⟨W, 0, false⟩ ⟨W, 0, false⟩ := by
  have hstep (entry entry' : ServerEntry) (calls calls' : ℕ)
      (h : ListenerStep W.lastOptions (entry, calls) (entry', calls')) :
      HomeStep ⟨{ W with entry := entry }, calls, false⟩
        ⟨{ W with entry := entry' }, calls', false⟩ := by
    have hnext := HomeStep.listener (H := ⟨{ W with entry := entry }, calls, false⟩) hloaded h
    simpa only [htask, Bool.false_or, Option.some.injEq, reduceCtorEq, decide_false] using hnext
  have hunchanged : asyncOptionsUpdated W.lastOptions W.entry = false := by
    rw [hlast]
    exact decide_eq_false (not_not.mpr rfl)
  have hedit := hstep W.entry ⟨W.entry.entry, settings⟩ 0 1 (.edit W.entry.entry.options settings)
  have hundo := hstep ⟨W.entry.entry, settings⟩ W.entry 1 2
    (.edit W.entry.entry.options W.entry.settings)
  exact (((ReflTransGen.single hedit).tail hundo).tail
    (hstep W.entry W.entry 2 1 (.unchanged hunchanged))).tail
    (hstep W.entry W.entry 1 0 (.unchanged hunchanged))

end EsphomeMcp.Entry
