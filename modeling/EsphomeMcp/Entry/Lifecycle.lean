import EsphomeMcp.Entry.BringUp

/-!
# Runs of the config entry

Setups, bring-ups, option edits, unloads and removals in any order Home Assistant allows, with
everything failing at will that can fail, except that closing a session does not raise. A bring-up
may be cancelled wherever it waits. `BroughtUp` is what one bring-up leaves behind, all or nothing;
`LifeInv` holds between any two steps.
-/

namespace EsphomeMcp.Entry

open Py Py.Prog Webhook Relation

/-! ## The world -/

/-- What outlives one call. -/
structure EntryWorld where
  entry : ServerEntry
  webhook : Webhook.World
  /-- `DATA_LAST_OPTIONS`. -/
  lastOptions : Option (Webhook.Options × Settings)
  /-- `DATA_BRINGUP_TASK`. -/
  task : Option Task
  /-- `DATA_MANAGER`. -/
  manager : Option Manager
  /-- How many managers have been made. -/
  made : ℕ
  /-- The managers whose `async_start` got as far as its thread and that have not been asked to stop
  since. A thread may outlive its `async_stop`, and may not serve before it; neither is said here. -/
  started : List Manager
  /-- The repair issues of the domain with their details. -/
  issues : List (Str × Str)
  notification : Option Str
  /-- A setup has returned, and there was no unload since. -/
  loaded : Bool

/-- The world once the options have been edited. -/
def EntryWorld.edited (W : EntryWorld) (options : Webhook.Options) (settings : Settings) :
    EntryWorld :=
  { W with entry := ⟨{ W.entry.entry with options := options }, settings⟩ }

/-- A command that does what a program of the webhook's module does. -/
def runsBelow {α : Type} (W : EntryWorld) (p : Webhook.Coro α) (r : Except EntryErr α)
    (W' : EntryWorld) : Prop :=
  ∃ out w', Webhook.Ends W.webhook p out w' ∧ r = out.mapError .py ∧
    W' = { W with webhook := w' }

/-- A call that is awaited fails, or it is cut off. -/
def raises {α : Type} (r : Except EntryErr α) : Prop :=
  ∃ e, r = .error e ∧ (e.isException = true ∨ e.isCancelled = true)

/-- How a task can end and what it leaves behind. -/
abbrev TaskEnds := EntryWorld → Except EntryErr Unit → EntryWorld → Prop

section

variable [Runtime]

/-- What each command may do, `runTask` being the rest of the scheduled bring-up. -/
def handle (runTask : TaskEnds) (W : EntryWorld) :
    (c : EntryCmd) → Except EntryErr c.Ans → EntryWorld → Prop
  | .entry, r, W' => r = .ok W.entry ∧ W' = W
  | .updateEntry entry, r, W' =>
    r = .ok () ∧ W' = { W with entry := { W.entry with entry := entry } }
  | .bindBundle bundle, r, W' => runsBelow W (Webhook.bindBundle bundle) r W'
  | .putLastOptions options, r, W' => r = .ok () ∧ W' = { W with lastOptions := some options }
  | .popLastOptions, r, W' => r = .ok () ∧ W' = { W with lastOptions := none }
  | .createTask, r, W' => r = .ok () ∧ W' = { W with task := some .pending }
  | .popTask, r, W' => r = .ok W.task ∧ W' = { W with task := none }
  | .cancelTask, r, W' => runTask W r W'
  | .deleteIssue issueId, r, W' =>
    r = .ok () ∧ W' = { W with issues := W.issues.filter fun issue => issue.1 ≠ issueId }
  | .createIssue issueId detail, r, W' => r = .ok () ∧ W' =
    { W with issues := (issueId, detail) :: W.issues.filter fun issue => issue.1 ≠ issueId }
  | .newManager, r, W' =>
    r = .ok ⟨W.made, W.entry.settings.port⟩ ∧ W' = { W with made := W.made + 1 }
  | .putManager manager, r, W' => r = .ok () ∧ W' = { W with manager := some manager }
  | .popManager, r, W' => r = .ok W.manager ∧ W' = { W with manager := none }
  -- A call that returns has found a listener on the port, which need not be its thread's; one that
  -- raises may have started the thread all the same. While it waits, the options may be edited.
  | .asyncStart manager, r, W' =>
    (r = .ok () ∧ ∃ options settings,
      W' = { W.edited options settings with started := manager :: W.started }) ∨
    raises r ∧ ∃ options settings, W' = W.edited options settings ∨
      W' = { W.edited options settings with started := manager :: W.started }
  -- The call asks the thread to end and waits for it, which can be cut off; the thread may not end.
  | .asyncStop manager, r, W' =>
    (r = .ok () ∨ ∃ text, r = .error (.py (.exn .cancelled text))) ∧
      ∃ options settings, W' =
        { W.edited options settings with started := W.started.filter (· ≠ manager) }
  | .registerWebhook args, r, W' => runsBelow W (asyncRegisterWebhook args) r W'
  | .unregisterWebhook, r, W' => runsBelow W asyncUnregisterWebhook r W'
  | .network, r, W' => ((∃ net, r = .ok net) ∨ ∃ e, r = .error e ∧ e.isException = true) ∧ W' = W
  | .createNotification message, r, W' => r = .ok () ∧ W' = { W with notification := some message }
  | .dismissNotification, r, W' => r = .ok () ∧ W' = { W with notification := none }

/-- A task that is cancelled before it has begun. -/
def notBegun : TaskEnds := fun W r W' => r = .error (.py (.exn .cancelled [])) ∧ W' = W

/-- How the bring-up, alone in `W`, can end. -/
def BringUpEnds (W : EntryWorld) (out : Except EntryErr Unit) (W' : EntryWorld) : Prop :=
  Prog.Ends (handle notBegun) W asyncBringUpServer out W'

/-- A scheduled bring-up that is cancelled has not begun, or goes on to its end. -/
def cancelledBringUp : TaskEnds := fun W r W' => notBegun W r W' ∨ BringUpEnds W r W'

/-- How `p`, alone in `W`, can end. -/
abbrev Ends {α : Type} (W : EntryWorld) (p : EntryProg α) (out : Except EntryErr α)
    (W' : EntryWorld) : Prop :=
  Prog.Ends (handle cancelledBringUp) W p out W'

/-- A step of the entry's life. Home Assistant sets up an entry that is not loaded and unloads one
that is; an unload is not cancelled. -/
inductive LifeStep (W : EntryWorld) : EntryWorld → Prop
  | edit (options : Webhook.Options) (settings : Settings) : LifeStep W (W.edited options settings)
  | setup {draws : Draws} {out : Except EntryErr Unit} {W' : EntryWorld} : W.loaded = false →
      Ends W (asyncSetupServerEntry draws) out W' → LifeStep W { W' with loaded := out.isOk }
  | bringUp {out : Except EntryErr Unit} {W' : EntryWorld} : W.loaded = true →
      W.task = some .pending → BringUpEnds W out W' → LifeStep W { W' with task := some .done }
  | unload {W' : EntryWorld} : W.loaded = true → Ends W asyncUnloadServerEntry (.ok ()) W' →
      LifeStep W { W' with loaded := false }
  | remove {out : Except EntryErr Unit} {W' : EntryWorld} : W.loaded = false →
      Ends W asyncRemoveServer out W' → LifeStep W W'

end

/-- Home Assistant with the entry just created. -/
def EntryWorld.init (settings : Settings) : EntryWorld :=
  ⟨⟨emptyEntry, settings⟩, Webhook.World.init, none, none, none, 0, [], [], none, false⟩

/-! ## What a step leaves behind -/

/-- There is no webhook, no manager, none that was not asked to stop, and no notification. -/
structure Down (W : EntryWorld) : Prop where
  webhook : Holds W.webhook none
  manager : W.manager = none
  started : W.started = []
  notification : W.notification = none

/-- The manager is the only one that was started and not asked to stop, it is the one that is
published, and nothing is reported. -/
structure IsStarted (W : EntryWorld) (manager : Manager) : Prop where
  webhook : ∃ live, Holds W.webhook live
  published : W.manager = some manager
  started : W.started = [manager]
  issues : W.issues = []

/-- What is exposed is what the options ask for. -/
structure Exposes (W : EntryWorld) : Prop where
  enabled : W.entry.settings.webhookEnabled = true → ∃ cfg, W.webhook.cfg = some cfg ∧
    cfg.authMode = W.entry.settings.authMode ∧ W.entry.entry.data.webhookId = some cfg.webhookId
  disabled : W.entry.settings.webhookEnabled = false → W.webhook.cfg = none
  notification : W.notification = if W.entry.settings.notifies then
    some (connectMessage W.entry.settings.authMode W.entry.settings.webhookEnabled) else none

/-- A bring-up ends with its manager started on its port and exposed, or with nothing to be stopped
and one issue, or it was cancelled and leaves neither. -/
inductive BroughtUp (port : ℤ) (W : EntryWorld) : Except EntryErr Unit → Prop
  | up {manager : Manager} : manager.port = port → IsStarted W manager → Exposes W →
      BroughtUp port W (.ok ())
  | failed {issueId detail : Str} : Down W → issueId ∈ issueIds → W.issues = [(issueId, detail)] →
      BroughtUp port W (.ok ())
  | cancelled {text : Str} : Down W → W.issues = [] →
      BroughtUp port W (.error (.py (.exn .cancelled text)))

/-- Nothing is to be stopped, or one manager is. -/
def Settled (W : EntryWorld) : Prop := Down W ∨ ∃ manager, IsStarted W manager

/-- At most one issue is filed. -/
def FewIssues (W : EntryWorld) : Prop :=
  W.issues = [] ∨ ∃ issueId ∈ issueIds, ∃ detail, W.issues = [(issueId, detail)]

/-- What holds between any two steps. -/
structure LifeInv (W : EntryWorld) : Prop where
  hasSlash : W.entry.entry.HasSlash
  webhookId : W.entry.entry.data.webhookId ≠ some []
  issues : FewIssues W
  settled : Settled W
  /-- Before its bring-up and after an unload an entry has nothing to be stopped. -/
  down : W.loaded = false ∨ W.task = some .pending → Down W

/-- What is to hold of an entry, whatever has been done to it: between two steps at most one manager
is to be stopped and none while the entry is unloaded, the next bring-up is all or nothing, and the
next unload leaves nothing that was not asked to stop. -/
structure LivesWell [Runtime] (W : EntryWorld) : Prop where
  inv : LifeInv W
  bringUp : ∀ out W', W.loaded = true → W.task = some .pending → BringUpEnds W out W' →
    BroughtUp W.entry.settings.port W' out
  unload : ∀ W', W.loaded = true → Ends W asyncUnloadServerEntry (.ok ()) W' → Down W'

/-! ## The webhook below -/

section

variable [Runtime]

omit [Runtime] in
/-- Unregistering the webhook does not raise. -/
theorem ends_asyncUnregisterWebhook {w w' : Webhook.World} {live : Option RegisterArgs}
    {out : Except Err Unit} (h : Holds w live)
    (hr : Webhook.Ends w asyncUnregisterWebhook out w') : out = .ok () := by
  rcases ends_bind_iff.mp hr with ⟨popped, w₁, h₁, h₂⟩ | ⟨e, h₁, -⟩
  swap
  · cases (ends_await_iff.mp h₁).1.1
  obtain ⟨⟨hp, rfl⟩, -⟩ := ends_await_iff.mp h₁
  cases hp
  cases hcfg : w.cfg with
  | none =>
    rw [hcfg] at h₂
    exact (ends_ret_iff.mp h₂).1
  | some cfg =>
    rw [hcfg] at h₂
    have hid {out : Except Err Unit} {w₁ w₂ : Webhook.World}
        (hid : Webhook.Ends w₁ (unregisterId cfg.webhookId) out w₂) : out = .ok () := by
      rw [unregisterId, if_neg (h.nonempty cfg hcfg)] at hid
      exact (ends_asyncUnregister hid).1
    rcases ends_bind_iff.mp h₂ with ⟨u, w₂, -, h₄⟩ | ⟨e, h₃, -⟩
    swap
    · cases hid h₃
    rcases ends_bind_iff.mp h₄ with ⟨u, w₃, -, h₆⟩ | ⟨e, h₅, -⟩
    swap
    · cases (ends_closeSession h₅).1
    exact (ends_closeIfOpen h₆).1

/-- What leaves a registration is an `Exception`. -/
theorem isException_of_ends_register {args : RegisterArgs} {w w' : Webhook.World} {e : Err}
    (h : Webhook.Ends w (asyncRegisterWebhook args) (.error e) w') : e.isException = true := by
  have hopens {w₁ w₂ : Webhook.World} {r : Except Err SessionId} (hr : opens w₁ r w₂)
      (he : r = .error e) : e.isException = true := by
    rcases hr with ⟨s, hs, -⟩ | ⟨⟨e', he', hx⟩, -⟩
    · cases hs.symm.trans he
    · rw [Except.error.inj (he.symm.trans he')]
      exact hx
  unfold asyncRegisterWebhook at h
  split at h
  · obtain ⟨he, -⟩ := ends_raise_iff.mp h
    rw [Except.error.inj he]
    rfl
  split at h
  · obtain ⟨he, -⟩ := ends_raise_iff.mp h
    rw [Except.error.inj he]
    rfl
  rename_i webhookId _
  rcases ends_bind_iff.mp h with ⟨u, w₁, -, h⟩ | ⟨e, h₁, -⟩
  swap
  · cases (ends_asyncUnregister h₁).1
  rcases ends_bind_iff.mp h with ⟨session, w₂, -, h⟩ | ⟨e', h₂, he⟩
  swap
  · obtain rfl := Except.error.inj he
    exact hopens (ends_await_iff.mp h₂).1 rfl
  rcases ends_bind_iff.mp h with ⟨cimd, w₃, -, h⟩ | ⟨e', h₃, he⟩
  swap
  · -- the second session did not open, and the first one closes
    obtain rfl := Except.error.inj he
    unfold openCimd at h₃
    split at h₃
    swap
    · cases (ends_ret_iff.mp h₃).1
    rcases ends_tryCatch_iff.mp h₃ with ⟨_, -, he⟩ | ⟨e₁, w₄, h₄, h₅⟩
    · cases he
    rcases ends_bind_iff.mp h₄ with ⟨_, _, -, h₆⟩ | ⟨e₂, h₆, he⟩
    · cases (ends_ret_iff.mp h₆).1
    obtain rfl := Except.error.inj he
    split at h₅
    · rename_i hx
      rcases ends_bind_iff.mp h₅ with ⟨_, _, -, h₇⟩ | ⟨_, h₇, -⟩
      · rw [Except.error.inj (ends_raise_iff.mp h₇).1]
        exact hx
      · cases (ends_closeSession h₇).1
    · obtain ⟨he, -⟩ := ends_raise_iff.mp h₅
      obtain rfl := Except.error.inj he
      exact hopens (ends_await_iff.mp h₆).1 rfl
  rcases ends_bind_iff.mp h with ⟨cfg, w₄, -, h⟩ | ⟨e', h₄, he⟩
  · cases (ends_await_iff.mp h).1.1
  obtain rfl := Except.error.inj he
  rcases ends_tryCatch_iff.mp h₄ with ⟨_, -, he⟩ | ⟨e₁, w₅, h₅, h₆⟩
  · cases he
  obtain ⟨⟨e₂, he, hx⟩, -⟩ | ⟨_, he, -⟩ := ends_surface
    (initialCfg args webhookId session cimd) ⟨rfl, rfl, rfl⟩ h₅
  swap
  · cases he
  cases he
  rw [if_pos hx] at h₆
  rcases ends_bind_iff.mp h₆ with ⟨_, _, -, h₇⟩ | ⟨_, h₇, -⟩
  · rw [Except.error.inj (ends_raise_iff.mp h₇).1]
    exact hx
  · cases (ends_discard h₇).1

/-! ## Teardown -/

/-- What a bring-up and a teardown leave alone. -/
structure Keeps (W W' : EntryWorld) : Prop where
  data : W'.entry.entry.data = W.entry.entry.data
  task : W'.task = W.task
  loaded : W'.loaded = W.loaded
  lastOptions : W'.lastOptions = W.lastOptions

omit [Runtime] in
theorem Keeps.refl (W : EntryWorld) : Keeps W W := ⟨rfl, rfl, rfl, rfl⟩

omit [Runtime] in
theorem Keeps.trans {W₁ W₂ W₃ : EntryWorld} (h : Keeps W₁ W₂) (h' : Keeps W₂ W₃) : Keeps W₁ W₃ :=
  ⟨h'.data.trans h.data, h'.task.trans h.task, h'.loaded.trans h.loaded,
    h'.lastOptions.trans h.lastOptions⟩

variable {t : TaskEnds}

theorem ends_entryAwait_iff {W W' : EntryWorld} {c : EntryCmd} {out : Except EntryErr c.Ans} :
    Prog.Ends (handle t) W (await c) out W' ↔ handle t W c out W' := ends_perform_iff

theorem ends_deleteIssues {ids : List Str} {W W' : EntryWorld} {out : Except EntryErr Unit}
    (h : Prog.Ends (handle t) W (deleteIssues ids) out W') :
    out = .ok () ∧ W' = { W with issues := W.issues.filter fun issue => issue.1 ∉ ids } := by
  induction ids generalizing W with
  | nil =>
    obtain ⟨rfl, rfl⟩ := ends_ret_iff.mp h
    refine ⟨rfl, ?_⟩
    simp
  | cons issueId ids ih =>
    rcases ends_bind_iff.mp h with ⟨u, W₁, h₁, h₂⟩ | ⟨e, h₁, -⟩
    · obtain ⟨-, rfl⟩ := ends_entryAwait_iff.mp h₁
      obtain ⟨rfl, rfl⟩ := ih h₂
      refine ⟨rfl, ?_⟩
      simp only [List.filter_filter, List.mem_cons, not_or, ne_eq, Bool.decide_and, Bool.and_comm]
    · cases (ends_entryAwait_iff.mp h₁).1

theorem ends_clearIssues {W W' : EntryWorld} {out : Except EntryErr Unit}
    (hissues : ∀ issue ∈ W.issues, issue.1 ∈ issueIds)
    (h : Prog.Ends (handle t) W clearIssues out W') :
    out = .ok () ∧ W' = { W with issues := [] } := by
  obtain ⟨rfl, rfl⟩ := ends_deleteIssues h
  have hnil : W.issues.filter (fun issue => issue.1 ∉ issueIds) = [] := by
    rw [List.filter_eq_nil_iff]
    intro issue hmem
    simpa using hissues issue hmem
  rw [hnil]
  exact ⟨rfl, rfl⟩

/-- What a teardown leaves behind: no webhook and no manager that was not asked to stop. Only its wait
for the thread can be cut off, and then the notification stays. -/
structure TornDown (W W' : EntryWorld) (out : Except EntryErr Unit) : Prop where
  keeps : Keeps W W'
  issues : W'.issues = W.issues
  webhook : Holds W'.webhook none
  manager : W'.manager = none
  started : W'.started = []
  outcome : out = .ok () ∧ W'.notification = none ∨
    (∃ text, out = .error (.py (.exn .cancelled text))) ∧ W'.notification = W.notification

theorem ends_asyncTeardownServer {W W' : EntryWorld} {live : Option RegisterArgs}
    {out : Except EntryErr Unit} (hweb : Holds W.webhook live)
    (hstarted : ∀ manager ∈ W.started, W.manager = some manager)
    (h : Prog.Ends (handle t) W asyncTeardownServer out W') : TornDown W W' out := by
  rcases ends_bind_iff.mp h with ⟨u, W₁, h₁, h⟩ | ⟨e, h₁, rfl⟩
  swap
  · obtain ⟨out, w', hunregister, he, -⟩ := ends_entryAwait_iff.mp h₁
    obtain rfl := ends_asyncUnregisterWebhook hweb hunregister
    cases he
  obtain ⟨out', w', hunregister, -, rfl⟩ := ends_entryAwait_iff.mp h₁
  have hdown := hweb.unregistered hunregister
  rcases ends_bind_iff.mp h with ⟨popped, W₂, h₂, h⟩ | ⟨e, h₂, -⟩
  swap
  · cases (ends_entryAwait_iff.mp h₂).1
  obtain ⟨hp, rfl⟩ := ends_entryAwait_iff.mp h₂
  obtain rfl := Except.ok.inj hp
  have hdismiss {W₃ W₄ : EntryWorld} {out : Except EntryErr Unit}
      (h : Prog.Ends (handle t) W₃ (await .dismissNotification) out W₄) :
      out = .ok () ∧ W₄ = { W₃ with notification := none } := by
    obtain ⟨hout, hworld⟩ := ends_entryAwait_iff.mp h
    exact ⟨hout, hworld⟩
  cases hmanager : W.manager with
  | none =>
    simp only [hmanager] at h
    obtain ⟨rfl, rfl⟩ := hdismiss h
    refine ⟨⟨rfl, rfl, rfl, rfl⟩, rfl, hdown, rfl, ?_, .inl ⟨rfl, rfl⟩⟩
    apply List.eq_nil_iff_forall_not_mem.mpr
    intro manager hmem
    cases hmanager.symm.trans (hstarted manager hmem)
  | some manager =>
    simp only [hmanager] at h
    have hfilter : W.started.filter (· ≠ manager) = [] := by
      rw [List.filter_eq_nil_iff]
      intro other hmem
      have hsame := Option.some.inj (hmanager.symm.trans (hstarted other hmem))
      simp [hsame]
    rcases ends_bind_iff.mp h with ⟨u, W₃, h₃, h⟩ | ⟨e, h₃, rfl⟩
    · obtain ⟨-, options, settings, rfl⟩ := ends_entryAwait_iff.mp h₃
      obtain ⟨rfl, rfl⟩ := hdismiss h
      exact ⟨⟨rfl, rfl, rfl, rfl⟩, rfl, hdown, rfl, hfilter, .inl ⟨rfl, rfl⟩⟩
    · obtain ⟨hr | ⟨text, hr⟩, options, settings, rfl⟩ := ends_entryAwait_iff.mp h₃
      · cases hr
      · refine ⟨⟨rfl, rfl, rfl, rfl⟩, rfl, hdown, rfl, hfilter, .inr ⟨⟨text, ?_⟩, rfl⟩⟩
        exact congrArg Except.error (Except.error.inj hr)

/-! ## Bring-up -/

/-- An exception some handler of the bring-up takes. -/
def EntryErr.IsCaught (e : EntryErr) : Prop := e.isException = true ∨ e.isCancelled = true

/-- The world in which the server is started: nothing is there but the manager. -/
structure Prepared (W : EntryWorld) (manager : Manager) : Prop where
  webhookId : W.entry.entry.data.webhookId ≠ some []
  webhook : Holds W.webhook none
  published : W.manager = some manager
  started : W.started = []
  issues : W.issues = []
  notification : W.notification = none

/-- How far starting the server got. -/
structure Started (W W' : EntryWorld) (manager : Manager) (out : Except EntryErr Unit) : Prop where
  keeps : Keeps W W'
  webhook : ∃ live, Holds W'.webhook live
  published : W'.manager = some manager
  started : ∀ other ∈ W'.started, other = manager
  issues : W'.issues = []
  done : out = .ok () → W'.started = [manager] ∧ Exposes W'
  caught : ∀ e, out = .error e → e.IsCaught ∧ W'.notification = none

omit [Runtime] in
/-- Reading a member of the entry's data raises a `KeyError`. -/
theorem isException_item {value : Option Str} {key : String} {e : EntryErr}
    (h : item value key = .error e) : e.isException = true := by
  cases value with
  | some value => cases h
  | none =>
    obtain rfl := Except.error.inj h
    rfl

theorem isException_buildConnectUrls {net : Network} {entry : ServerEntry} {enabled : Bool}
    {e : EntryErr} (h : buildConnectUrls net entry enabled = .error e) : e.isException = true := by
  unfold buildConnectUrls at h
  cases hbase : net.localBase with
  | none =>
    simp only [hbase] at h
    split_ifs at h <;> cases h
  | some base =>
    simp only [hbase] at h
    cases hparse : urlparse base with
    | none =>
      simp only [hparse] at h
      obtain rfl := Except.error.inj h
      rfl
    | some parsed =>
      simp only [hparse] at h
      split_ifs at h <;> cases h

/-- Telling where to connect sets the notification, or nothing has been said. -/
theorem ends_surfaceConnectUrls {entry : ServerEntry} {authMode : Str} {enabled : Bool}
    {W W' : EntryWorld} {out : Except EntryErr Unit}
    (h : Prog.Ends (handle t) W (surfaceConnectUrls entry authMode enabled) out W') :
    (out = .ok () ∧ W' = { W with notification :=
      if entry.settings.notifies then some (connectMessage authMode enabled) else none }) ∨
    (∃ e, out = .error e ∧ e.isException = true) ∧ W' = W := by
  rcases ends_bind_iff.mp h with ⟨net, W₁, h₁, hurls⟩ | ⟨e, h₁, rfl⟩
  swap
  · obtain ⟨⟨net, he⟩ | ⟨e', he, hx⟩, rfl⟩ := ends_entryAwait_iff.mp h₁
    · cases he
    · exact .inr ⟨⟨e, rfl, (Except.error.inj he) ▸ hx⟩, rfl⟩
  obtain ⟨-, rfl⟩ := ends_entryAwait_iff.mp h₁
  rcases ends_bind_iff.mp hurls with ⟨urls, W₂, h₂, hnotify⟩ | ⟨e, h₂, rfl⟩
  swap
  · obtain ⟨he, rfl⟩ := ends_ofExcept_iff.mp h₂
    exact .inr ⟨⟨e, rfl, isException_buildConnectUrls he.symm⟩, rfl⟩
  obtain ⟨-, rfl⟩ := ends_ofExcept_iff.mp h₂
  left
  split_ifs at hnotify ⊢
  · obtain ⟨rfl, rfl⟩ := ends_entryAwait_iff.mp hnotify
    exact ⟨rfl, rfl⟩
  · obtain ⟨rfl, rfl⟩ := ends_entryAwait_iff.mp hnotify
    exact ⟨rfl, rfl⟩

/-- What has started is exposed, or the exception is one the bring-up takes. -/
theorem ends_exposeServer {manager : Manager} {W W' : EntryWorld} {out : Except EntryErr Unit}
    (h : Prog.Ends (handle t) W (exposeServer manager) out W')
    (hid : W.entry.entry.data.webhookId ≠ some []) (hweb : Holds W.webhook none)
    (hquiet : W.notification = none) :
    Keeps W W' ∧ W'.manager = W.manager ∧ W'.started = W.started ∧ W'.issues = W.issues ∧
      (∃ live, Holds W'.webhook live) ∧ (out = .ok () → Exposes W') ∧
      ∀ e, out = .error e → e.IsCaught ∧ W'.notification = none := by
  rcases ends_bind_iff.mp h with ⟨entry, W₁, h₁, hpath⟩ | ⟨e, h₁, -⟩
  swap
  · cases (ends_entryAwait_iff.mp h₁).1
  obtain ⟨hentry, rfl⟩ := ends_entryAwait_iff.mp h₁
  obtain rfl := Except.ok.inj hentry
  rcases ends_bind_iff.mp hpath with ⟨secretPath, W₂, h₂, hexpose⟩ | ⟨e, h₂, rfl⟩
  swap
  · obtain ⟨he, rfl⟩ := ends_ofExcept_iff.mp h₂
    refine ⟨.refl _, rfl, rfl, rfl, ⟨_, hweb⟩, nofun, fun e' he' => ?_⟩
    obtain rfl := Except.error.inj he'
    exact ⟨.inl (isException_item he.symm), hquiet⟩
  obtain ⟨-, rfl⟩ := ends_ofExcept_iff.mp h₂
  -- with the webhook as it is to be, the URLs remain to be told
  have hsurface (W₃ : EntryWorld) {live : Option RegisterArgs} (hentry : W₃.entry = W₂.entry)
      (hkeeps : W₃.task = W₂.task ∧ W₃.loaded = W₂.loaded ∧ W₃.lastOptions = W₂.lastOptions)
      (hmanager : W₃.manager = W₂.manager ∧ W₃.started = W₂.started)
      (hissues : W₃.issues = W₂.issues ∧ W₃.notification = none)
      (hlive : Holds W₃.webhook live)
      (henabled : W₂.entry.settings.webhookEnabled = true → ∃ cfg, W₃.webhook.cfg = some cfg ∧
        cfg.authMode = W₂.entry.settings.authMode ∧
        W₂.entry.entry.data.webhookId = some cfg.webhookId)
      (hdisabled : W₂.entry.settings.webhookEnabled = false → W₃.webhook.cfg = none)
      (h : Prog.Ends (handle t) W₃ (surfaceConnectUrls W₂.entry W₂.entry.settings.authMode
        W₂.entry.settings.webhookEnabled) out W') :
      Keeps W₂ W' ∧ W'.manager = W₂.manager ∧ W'.started = W₂.started ∧ W'.issues = W₂.issues ∧
        (∃ live, Holds W'.webhook live) ∧ (out = .ok () → Exposes W') ∧
        ∀ e, out = .error e → e.IsCaught ∧ W'.notification = none := by
    have hkept : Keeps W₂ W₃ :=
      ⟨by rw [hentry], hkeeps.1, hkeeps.2.1, hkeeps.2.2⟩
    rcases ends_surfaceConnectUrls h with ⟨rfl, rfl⟩ | ⟨⟨e, rfl, hx⟩, rfl⟩
    · refine ⟨⟨hkept.data, hkept.task, hkept.loaded, hkept.lastOptions⟩, hmanager.1, hmanager.2,
        hissues.1, ⟨_, hlive⟩, fun _ => ⟨?_, ?_, ?_⟩, nofun⟩
      · simp only [hentry]
        exact henabled
      · simp only [hentry]
        exact hdisabled
      · simp only [hentry]
    · refine ⟨hkept, hmanager.1, hmanager.2, hissues.1, ⟨_, hlive⟩, nofun, fun e' he' => ?_⟩
      obtain rfl := Except.error.inj he'
      exact ⟨.inl hx, hissues.2⟩
  cases henabled : W₂.entry.settings.webhookEnabled with
  | false =>
    simp only [henabled, Bool.false_eq_true, if_false] at hexpose
    refine hsurface W₂ rfl ⟨rfl, rfl, rfl⟩ ⟨rfl, rfl⟩ ⟨rfl, hquiet⟩ hweb (fun htrue => ?_)
      (fun _ => hweb.down rfl) (by rw [henabled]; exact hexpose)
    cases henabled.symm.trans htrue
  | true =>
    simp only [henabled, if_true] at hexpose
    rcases ends_bind_iff.mp hexpose with ⟨key, W₃, h₃, hregister⟩ | ⟨e, h₃, rfl⟩
    swap
    · obtain ⟨he, rfl⟩ := ends_ofExcept_iff.mp h₃
      refine ⟨.refl _, rfl, rfl, rfl, ⟨_, hweb⟩, nofun, fun e' he' => ?_⟩
      obtain rfl := Except.error.inj he'
      exact ⟨.inl (isException_item he.symm), hquiet⟩
    obtain ⟨-, rfl⟩ := ends_ofExcept_iff.mp h₃
    have hfree : ∀ i, W₃.entry.entry.data.webhookId = some i → i ∉ W₃.webhook.webhooks := by
      intro i _
      rw [hweb.empty.1]
      exact List.not_mem_nil
    rcases ends_bind_iff.mp hregister with ⟨u, W₄, h₄, htold⟩ | ⟨e, h₄, rfl⟩
    · obtain ⟨registered, w', hends, hr, rfl⟩ := ends_entryAwait_iff.mp h₄
      cases registered with
      | error e => cases hr
      | ok u' =>
        rcases ends_asyncRegisterWebhook hends hfree with ⟨e, he, -⟩ | ⟨-, cfg, hcfg⟩
        · cases he
        refine hsurface { W₃ with webhook := w' } rfl ⟨rfl, rfl, rfl⟩ ⟨rfl, rfl⟩ ⟨rfl, hquiet⟩
          (hweb.registered hid hends)
          (fun _ => ⟨cfg, hcfg.published, hcfg.authMode, hcfg.webhookId⟩) (fun hfalse => ?_)
          (by rw [henabled]; exact htold)
        cases henabled.symm.trans hfalse
    · obtain ⟨registered, w', hends, hr, rfl⟩ := ends_entryAwait_iff.mp h₄
      cases registered with
      | ok u' => cases hr
      | error e' =>
        obtain rfl := Except.error.inj hr
        refine ⟨⟨rfl, rfl, rfl, rfl⟩, rfl, rfl, rfl, ⟨_, (hweb.failed hends).2⟩, nofun,
          fun e he => ?_⟩
        obtain rfl := Except.error.inj he
        exact ⟨.inl (isException_of_ends_register hends), hquiet⟩

theorem ends_startServer {manager : Manager} {W W' : EntryWorld} {out : Except EntryErr Unit}
    (hprepared : Prepared W manager)
    (h : Prog.Ends (handle t) W (startServer manager) out W') : Started W W' manager out := by
  rcases ends_bind_iff.mp h with ⟨u, W₁, h₁, hexpose⟩ | ⟨e, h₁, rfl⟩
  · obtain ⟨-, options, settings, rfl⟩ | ⟨⟨e, he, -⟩, -⟩ := ends_entryAwait_iff.mp h₁
    swap
    · cases he
    obtain ⟨hkeeps, hmanager, hstarted, hissues, hweb, hdone, hcaught⟩ :=
      ends_exposeServer hexpose hprepared.webhookId hprepared.webhook hprepared.notification
    have honly : W'.started = [manager] := by
      rw [hstarted]
      exact congrArg (manager :: ·) hprepared.started
    refine ⟨⟨hkeeps.data, hkeeps.task, hkeeps.loaded, hkeeps.lastOptions⟩, hweb,
      hmanager.trans hprepared.published, ?_, hissues.trans hprepared.issues,
      fun hout => ⟨honly, hdone hout⟩, hcaught⟩
    intro other hmem
    rw [honly] at hmem
    exact List.mem_singleton.mp hmem
  · obtain ⟨he, -⟩ | ⟨⟨e', he, hcaught⟩, options, settings, hworld⟩ := ends_entryAwait_iff.mp h₁
    · cases he
    obtain rfl := Except.error.inj he
    have hnone : ∀ other ∈ W.started, other = manager := by
      rw [hprepared.started]
      nofun
    rcases hworld with rfl | rfl
    · refine ⟨⟨rfl, rfl, rfl, rfl⟩, ⟨_, hprepared.webhook⟩, hprepared.published, hnone,
        hprepared.issues, nofun, fun e'' he'' => ?_⟩
      exact ⟨(Except.error.inj he'') ▸ hcaught, hprepared.notification⟩
    · refine ⟨⟨rfl, rfl, rfl, rfl⟩, ⟨_, hprepared.webhook⟩, hprepared.published, ?_,
        hprepared.issues, nofun, fun e'' he'' => ?_⟩
      · intro other hmem
        exact (List.mem_cons.mp hmem).elim id (hnone other)
      · exact ⟨(Except.error.inj he'') ▸ hcaught, hprepared.notification⟩

omit [Runtime] in
/-- Nothing is to be stopped after a teardown of what had not been announced. -/
theorem TornDown.down {W W' : EntryWorld} {out : Except EntryErr Unit} (h : TornDown W W' out)
    (hquiet : W.notification = none) : Down W' := by
  refine ⟨h.webhook, h.manager, h.started, ?_⟩
  rcases h.outcome with ⟨-, hnone⟩ | ⟨-, hsame⟩
  · exact hnone
  · exact hsame.trans hquiet

/-- A cut-off wait is no `Exception`, so suppressing these changes nothing. -/
theorem ends_suppress_teardown {W W' : EntryWorld} {live : Option RegisterArgs}
    {out : Except EntryErr Unit} (hweb : Holds W.webhook live)
    (hstarted : ∀ manager ∈ W.started, W.manager = some manager)
    (h : Prog.Ends (handle t) W (suppress EntryErr.isException asyncTeardownServer) out W') :
    TornDown W W' out := by
  rcases ends_tryCatch_iff.mp h with ⟨u, h₁, rfl⟩ | ⟨e, W₁, h₁, h₂⟩
  · exact ends_asyncTeardownServer hweb hstarted h₁
  · have htorn := ends_asyncTeardownServer hweb hstarted h₁
    obtain ⟨hok, -⟩ | ⟨⟨text, he⟩, -⟩ := htorn.outcome
    · cases hok
    · obtain rfl := Except.error.inj he
      obtain ⟨rfl, rfl⟩ := ends_raise_iff.mp h₂
      exact htorn

/-- A failure is filed as the one issue once nothing is left, unless the wait is cut off. -/
theorem ends_fileIssue {port : ℤ} {W W' : EntryWorld} {live : Option RegisterArgs}
    {issueId detail : Str} {out : Except EntryErr Unit} (hweb : Holds W.webhook live)
    (hstarted : ∀ manager ∈ W.started, W.manager = some manager) (hissues : W.issues = [])
    (hquiet : W.notification = none) (hid : issueId ∈ issueIds)
    (h : Prog.Ends (handle t) W (do
      suppress EntryErr.isException asyncTeardownServer
      await (.createIssue issueId detail)) out W') : Keeps W W' ∧ BroughtUp port W' out := by
  rcases ends_bind_iff.mp h with ⟨u, W₁, h₁, h₂⟩ | ⟨e, h₁, rfl⟩
  · have htorn := ends_suppress_teardown hweb hstarted h₁
    have hdown := htorn.down hquiet
    obtain ⟨rfl, rfl⟩ := ends_entryAwait_iff.mp h₂
    have hone : W₁.issues = [] := htorn.issues.trans hissues
    have hfiled : (issueId, detail) :: W₁.issues.filter (fun issue => issue.1 ≠ issueId) =
        [(issueId, detail)] := by
      simp [hone]
    have hkeeps := htorn.keeps
    exact ⟨⟨hkeeps.data, hkeeps.task, hkeeps.loaded, hkeeps.lastOptions⟩, .failed
      ⟨hdown.webhook, hdown.manager, hdown.started, hdown.notification⟩ hid hfiled⟩
  · have htorn := ends_suppress_teardown hweb hstarted h₁
    obtain ⟨hok, -⟩ | ⟨⟨text, he⟩, -⟩ := htorn.outcome
    · cases hok
    · obtain rfl := Except.error.inj he
      exact ⟨htorn.keeps, .cancelled (htorn.down hquiet) (htorn.issues.trans hissues)⟩

omit [Runtime] in
theorem issueByKind_mem (kind : Server.FailureKind) : issueByKind kind ∈ issueIds := by
  cases kind <;> simp [issueByKind, issueIds]

/-- Whatever the handlers of the bring-up take leaves nothing to be stopped. -/
theorem ends_bringUpFailed {port : ℤ} {W W' : EntryWorld} {live : Option RegisterArgs}
    {e : EntryErr} {out : Except EntryErr Unit} (hweb : Holds W.webhook live)
    (hstarted : ∀ manager ∈ W.started, W.manager = some manager) (hissues : W.issues = [])
    (hquiet : W.notification = none) (hcaught : e.IsCaught)
    (h : Prog.Ends (handle t) W (bringUpFailed e) out W') :
    Keeps W W' ∧ BroughtUp port W' out := by
  cases e with
  | server err =>
    exact ends_fileIssue hweb hstarted hissues hquiet (issueByKind_mem err.kind) h
  | py err =>
    cases err with
    | diverged => exact absurd hcaught (by simp [EntryErr.IsCaught, EntryErr.isException,
        EntryErr.isCancelled, Err.isException])
    | exn kind text =>
      by_cases hkind : kind = .cancelled
      · subst hkind
        rcases ends_bind_iff.mp h with ⟨u, W₁, h₁, h₂⟩ | ⟨e, h₁, rfl⟩
        · obtain ⟨rfl, rfl⟩ := ends_raise_iff.mp h₂
          have htorn := ends_asyncTeardownServer hweb hstarted h₁
          exact ⟨htorn.keeps, .cancelled (htorn.down hquiet) (htorn.issues.trans hissues)⟩
        · have htorn := ends_asyncTeardownServer hweb hstarted h₁
          obtain ⟨hok, -⟩ | ⟨⟨text', he⟩, -⟩ := htorn.outcome
          · cases hok
          · obtain rfl := Except.error.inj he
            exact ⟨htorn.keeps, .cancelled (htorn.down hquiet) (htorn.issues.trans hissues)⟩
      · have hfailed : bringUpFailed (.py (.exn kind text)) = (do
            suppress EntryErr.isException asyncTeardownServer
            await (.createIssue (issueByKind .start) text)) := by
          cases kind <;> first | rfl | exact absurd rfl hkind
        rw [hfailed] at h
        exact ends_fileIssue hweb hstarted hissues hquiet (issueByKind_mem .start) h

/-- The `try` statement of the bring-up, its manager started or asked to stop again. -/
theorem ends_startServer_caught {manager : Manager} {W W' : EntryWorld}
    {out : Except EntryErr Unit}
    (h : Prog.Ends (handle t) W (tryCatch (startServer manager) bringUpFailed) out W')
    (hprepared : Prepared W manager) : Keeps W W' ∧ BroughtUp manager.port W' out := by
  rcases ends_tryCatch_iff.mp h with ⟨u, h₁, rfl⟩ | ⟨e, W₁, h₁, h₂⟩
  · have hstart := ends_startServer hprepared h₁
    obtain ⟨honly, hexposes⟩ := hstart.done rfl
    exact ⟨hstart.keeps,
      .up rfl ⟨hstart.webhook, hstart.published, honly, hstart.issues⟩ hexposes⟩
  · have hstart := ends_startServer hprepared h₁
    obtain ⟨live, hlive⟩ := hstart.webhook
    obtain ⟨hcaught, hquiet⟩ := hstart.caught e rfl
    have hstarted : ∀ other ∈ W₁.started, W₁.manager = some other := by
      intro other hmem
      rw [hstart.published, hstart.started other hmem]
    obtain ⟨hkeeps, hbrought⟩ :=
      ends_bringUpFailed hlive hstarted hstart.issues hquiet hcaught h₂
    exact ⟨hstart.keeps.trans hkeeps, hbrought⟩

/-- A bring-up is all or nothing. -/
theorem ends_asyncBringUpServer {W W' : EntryWorld} {out : Except EntryErr Unit}
    (hid : W.entry.entry.data.webhookId ≠ some []) (hdown : Down W)
    (hissues : ∀ issue ∈ W.issues, issue.1 ∈ issueIds)
    (h : Prog.Ends (handle t) W asyncBringUpServer out W') :
    Keeps W W' ∧ BroughtUp W.entry.settings.port W' out := by
  rcases ends_bind_iff.mp h with ⟨u, W₁, h₁, hmanager⟩ | ⟨e, h₁, -⟩
  swap
  · cases (ends_clearIssues hissues h₁).1
  obtain ⟨-, rfl⟩ := ends_clearIssues hissues h₁
  rcases ends_bind_iff.mp hmanager with ⟨manager, W₂, h₂, hput⟩ | ⟨e, h₂, -⟩
  swap
  · cases (ends_entryAwait_iff.mp h₂).1
  obtain ⟨hmade, rfl⟩ := ends_entryAwait_iff.mp h₂
  obtain rfl := Except.ok.inj hmade
  rcases ends_bind_iff.mp hput with ⟨u', W₃, h₃, htry⟩ | ⟨e, h₃, -⟩
  swap
  · cases (ends_entryAwait_iff.mp h₃).1
  obtain ⟨-, rfl⟩ := ends_entryAwait_iff.mp h₃
  obtain ⟨hkeeps, hbrought⟩ := ends_startServer_caught htry
    ⟨hid, hdown.webhook, rfl, hdown.started, rfl, hdown.notification⟩
  exact ⟨⟨hkeeps.data, hkeeps.task, hkeeps.loaded, hkeeps.lastOptions⟩, hbrought⟩

/-! ## Setup and unload -/

/-- Only views have been bound. -/
def Bound (W W' : EntryWorld) : Prop :=
  ∃ w', W' = { W with webhook := w' } ∧ Binds W.webhook w'

omit [Runtime] in
theorem Bound.refl (W : EntryWorld) : Bound W W := ⟨W.webhook, rfl, .refl _⟩

omit [Runtime] in
theorem Bound.trans {W₁ W₂ W₃ : EntryWorld} (h : Bound W₁ W₂) (h' : Bound W₂ W₃) :
    Bound W₁ W₃ := by
  obtain ⟨w, rfl, hw⟩ := h
  obtain ⟨w', rfl, hw'⟩ := h'
  exact ⟨w', rfl, hw.trans hw'⟩

theorem bound_bindBundle {bundle : Bundle} {W W' : EntryWorld} {out : Except EntryErr Unit}
    (h : Prog.Ends (handle t) W (await (.bindBundle bundle)) out W') : Bound W W' := by
  obtain ⟨out', w', hends, -, rfl⟩ := ends_entryAwait_iff.mp h
  exact ⟨w', rfl, (ends_bindBundle hends).1⟩

theorem bound_prebindOauthViews {settings : Settings} {W W' : EntryWorld}
    {out : Except EntryErr Unit}
    (h : Prog.Ends (handle t) W (prebindOauthViews settings) out W') : Bound W W' := by
  have hbundles {W' : EntryWorld} {out : Except EntryErr Unit}
      (h : Prog.Ends (handle t) W (do
        await (.bindBundle .metadata)
        await (.bindBundle .autoapprove)
        await (.bindBundle .dcr)) out W') : Bound W W' := by
    rcases ends_bind_iff.mp h with ⟨u, W₁, h₁, hrest⟩ | ⟨e, h₁, -⟩
    swap
    · exact bound_bindBundle h₁
    rcases ends_bind_iff.mp hrest with ⟨u', W₂, h₂, h₃⟩ | ⟨e, h₂, -⟩
    · exact ((bound_bindBundle h₁).trans (bound_bindBundle h₂)).trans (bound_bindBundle h₃)
    · exact (bound_bindBundle h₁).trans (bound_bindBundle h₂)
  unfold prebindOauthViews at h
  split_ifs at h
  · obtain ⟨-, rfl⟩ := ends_ret_iff.mp h
    exact .refl W'
  · rcases ends_tryCatch_iff.mp h with ⟨u, h₁, -⟩ | ⟨e, W₁, h₁, h₂⟩
    · exact hbundles h₁
    · split_ifs at h₂
      · obtain ⟨-, rfl⟩ := ends_ret_iff.mp h₂
        exact hbundles h₁
      · obtain ⟨-, rfl⟩ := ends_raise_iff.mp h₂
        exact hbundles h₁
  · obtain ⟨-, rfl⟩ := ends_ret_iff.mp h
    exact .refl W'

/-- What a setup leaves behind: the secrets are complete, nothing is to be stopped, and a bring-up is
scheduled if it returned. -/
structure SetUp (W W' : EntryWorld) (draws : Draws) (out : Except EntryErr Unit) : Prop where
  entry : W'.entry = { W.entry with entry := ensureSecrets draws W.entry.entry }
  down : Down W'
  issues : W'.issues = W.issues
  scheduled : out = .ok () → W'.task = some .pending
  lastOptions : out = .ok () →
    W'.lastOptions = some (W'.entry.entry.options, W'.entry.settings)

theorem ends_asyncSetupServerEntry {draws : Draws} {W W' : EntryWorld}
    {out : Except EntryErr Unit} (hdown : Down W)
    (h : Prog.Ends (handle t) W (asyncSetupServerEntry draws) out W') : SetUp W W' draws out := by
  rcases ends_bind_iff.mp h with ⟨before, W₁, h₁, hupdate⟩ | ⟨e, h₁, -⟩
  swap
  · cases (ends_entryAwait_iff.mp h₁).1
  obtain ⟨hbefore, rfl⟩ := ends_entryAwait_iff.mp h₁
  obtain rfl := Except.ok.inj hbefore
  rcases ends_bind_iff.mp hupdate with ⟨u, W₂, h₂, hread⟩ | ⟨e, h₂, -⟩
  swap
  · cases (ends_entryAwait_iff.mp h₂).1
  obtain ⟨-, rfl⟩ := ends_entryAwait_iff.mp h₂
  rcases ends_bind_iff.mp hread with ⟨entry, W₃, h₃, hprebind⟩ | ⟨e, h₃, -⟩
  swap
  · cases (ends_entryAwait_iff.mp h₃).1
  obtain ⟨hentry, rfl⟩ := ends_entryAwait_iff.mp h₃
  obtain rfl := Except.ok.inj hentry
  rcases ends_bind_iff.mp hprebind with ⟨u', W₄, h₄, hoptions⟩ | ⟨e, h₄, rfl⟩
  · obtain ⟨w', rfl, hbinds⟩ := bound_prebindOauthViews h₄
    rcases ends_bind_iff.mp hoptions with ⟨u'', W₅, h₅, htask⟩ | ⟨e, h₅, -⟩
    swap
    · cases (ends_entryAwait_iff.mp h₅).1
    obtain ⟨-, rfl⟩ := ends_entryAwait_iff.mp h₅
    obtain ⟨rfl, rfl⟩ := ends_entryAwait_iff.mp htask
    refine ⟨rfl, ⟨?_, hdown.manager, hdown.started, hdown.notification⟩, rfl, fun _ => rfl,
      fun _ => rfl⟩
    exact hdown.webhook.binds hbinds
  · obtain ⟨w', rfl, hbinds⟩ := bound_prebindOauthViews h₄
    refine ⟨rfl, ⟨?_, hdown.manager, hdown.started, hdown.notification⟩, rfl, nofun, nofun⟩
    exact hdown.webhook.binds hbinds

omit [Runtime] in
theorem Settled.teardown {W : EntryWorld} (h : Settled W) : (∃ live, Holds W.webhook live) ∧
    ∀ manager ∈ W.started, W.manager = some manager := by
  rcases h with hdown | ⟨manager, hrunning⟩
  · refine ⟨⟨_, hdown.webhook⟩, ?_⟩
    rw [hdown.started]
    nofun
  · refine ⟨hrunning.webhook, fun other hmem => ?_⟩
    rw [hrunning.started, List.mem_singleton] at hmem
    rw [hrunning.published, hmem]

omit [Runtime] in
theorem FewIssues.ids {W : EntryWorld} (h : FewIssues W) :
    ∀ issue ∈ W.issues, issue.1 ∈ issueIds := by
  intro issue hmem
  rcases h with hnil | ⟨issueId, hid, detail, hone⟩
  · rw [hnil] at hmem
    cases hmem
  · rw [hone, List.mem_singleton] at hmem
    rw [hmem]
    exact hid

omit [Runtime] in
theorem BroughtUp.settled {port : ℤ} {W : EntryWorld} {out : Except EntryErr Unit}
    (h : BroughtUp port W out) :
    Settled W ∧ FewIssues W ∧ ∀ e, out = .error e → e.isCancelled = true := by
  cases h with
  | up _ hrunning _ => exact ⟨.inr ⟨_, hrunning⟩, .inl hrunning.issues, nofun⟩
  | failed hdown hid hone => exact ⟨.inl hdown, .inr ⟨_, hid, _, hone⟩, nofun⟩
  | cancelled hdown hnil =>
    refine ⟨.inl hdown, .inl hnil, fun e he => ?_⟩
    obtain rfl := Except.error.inj he
    rfl

/-- The bring-up an unload waits for leaves nothing to be stopped, or one manager. -/
theorem ends_cancelledTask {W W' : EntryWorld} {out : Except EntryErr Unit}
    (h : Ends W (suppress EntryErr.isCancelled (await .cancelTask)) out W')
    (hid : W.entry.entry.data.webhookId ≠ some []) (hdown : Down W) (hissues : FewIssues W) :
    out = .ok () ∧ W'.entry.entry.data = W.entry.entry.data ∧ Settled W' ∧ FewIssues W' := by
  have htask {r : Except EntryErr Unit} {W₁ : EntryWorld}
      (h : Ends W (await .cancelTask) r W₁) : W₁.entry.entry.data = W.entry.entry.data ∧
        Settled W₁ ∧ FewIssues W₁ ∧ ∀ e, r = .error e → e.isCancelled = true := by
    obtain ⟨rfl, rfl⟩ | hends := ends_entryAwait_iff.mp h
    · refine ⟨rfl, .inl hdown, hissues, fun e he => ?_⟩
      obtain rfl := Except.error.inj he
      rfl
    · obtain ⟨hkeeps, hbrought⟩ := ends_asyncBringUpServer hid hdown hissues.ids hends
      exact ⟨hkeeps.data, hbrought.settled⟩
  rcases ends_tryCatch_iff.mp h with ⟨u, h₁, rfl⟩ | ⟨e, W₁, h₁, h₂⟩
  · obtain ⟨hdata, hsettled, hfew, -⟩ := htask h₁
    exact ⟨rfl, hdata, hsettled, hfew⟩
  · obtain ⟨hdata, hsettled, hfew, hcancelled⟩ := htask h₁
    rw [if_pos (hcancelled e rfl)] at h₂
    obtain ⟨rfl, rfl⟩ := ends_ret_iff.mp h₂
    exact ⟨rfl, hdata, hsettled, hfew⟩

/-- An unload leaves nothing to be stopped. -/
theorem ends_asyncUnloadServerEntry {W W' : EntryWorld} (hinv : LifeInv W)
    (h : Ends W asyncUnloadServerEntry (.ok ()) W') :
    W'.entry.entry.data = W.entry.entry.data ∧ Down W' ∧ FewIssues W' := by
  have hrest {W₁ : EntryWorld}
      (h : Ends W₁ (do
        asyncTeardownServer
        await .popLastOptions) (.ok ()) W')
      (hdata : W₁.entry.entry.data = W.entry.entry.data) (hsettled : Settled W₁)
      (hfew : FewIssues W₁) :
      W'.entry.entry.data = W.entry.entry.data ∧ Down W' ∧ FewIssues W' := by
    obtain ⟨⟨live, hlive⟩, hstarted⟩ := hsettled.teardown
    rcases ends_bind_iff.mp h with ⟨u, W₂, h₁, h₂⟩ | ⟨e, -, he⟩
    swap
    · cases he
    have htorn := ends_asyncTeardownServer hlive hstarted h₁
    obtain ⟨-, hquiet⟩ | ⟨⟨text, he⟩, -⟩ := htorn.outcome
    swap
    · cases he
    obtain ⟨-, rfl⟩ := ends_entryAwait_iff.mp h₂
    refine ⟨htorn.keeps.data.trans hdata,
      ⟨htorn.webhook, htorn.manager, htorn.started, hquiet⟩, ?_⟩
    unfold FewIssues at hfew ⊢
    rw [← htorn.issues] at hfew
    exact hfew
  rcases ends_bind_iff.mp h with ⟨task, W₁, h₁, hmatch⟩ | ⟨e, -, he⟩
  swap
  · cases he
  obtain ⟨htask, rfl⟩ := ends_entryAwait_iff.mp h₁
  obtain rfl := Except.ok.inj htask
  have hpopped : Settled { W with task := none } := by
    rcases hinv.settled with hdown | ⟨manager, hrunning⟩
    · exact .inl ⟨hdown.webhook, hdown.manager, hdown.started, hdown.notification⟩
    · exact .inr ⟨manager, hrunning.webhook, hrunning.published, hrunning.started,
        hrunning.issues⟩
  cases hpending : W.task with
  | none =>
    simp only [hpending] at hmatch
    exact hrest hmatch rfl hpopped hinv.issues
  | some task =>
    cases task with
    | done =>
      simp only [hpending] at hmatch
      exact hrest hmatch rfl hpopped hinv.issues
    | pending =>
      simp only [hpending] at hmatch
      have hdown := hinv.down (.inr hpending)
      rcases ends_bind_iff.mp hmatch with ⟨u, W₂, h₂, hteardown⟩ | ⟨e, -, he⟩
      swap
      · cases he
      obtain ⟨-, hdata, hsettled, hfew⟩ := ends_cancelledTask h₂ hinv.webhookId
        ⟨hdown.webhook, hdown.manager, hdown.started, hdown.notification⟩ hinv.issues
      exact hrest hteardown hdata hsettled hfew

/-! ## Whole lives -/

omit [Runtime] in
theorem Down.edited {W : EntryWorld} (h : Down W) (options : Webhook.Options)
    (settings : Settings) : Down (W.edited options settings) :=
  ⟨h.webhook, h.manager, h.started, h.notification⟩

omit [Runtime] in
theorem Settled.edited {W : EntryWorld} (h : Settled W) (options : Webhook.Options)
    (settings : Settings) : Settled (W.edited options settings) := by
  rcases h with hdown | ⟨manager, hrunning⟩
  · exact .inl (hdown.edited options settings)
  · exact .inr ⟨manager, hrunning.webhook, hrunning.published, hrunning.started, hrunning.issues⟩

/-- A removal deletes the issues of an entry that has nothing to be stopped. -/
theorem ends_asyncRemoveServer {W W' : EntryWorld} {out : Except EntryErr Unit}
    (h : Ends W asyncRemoveServer out W') (hissues : FewIssues W) :
    W' = { W with issues := [], notification := none } := by
  rcases ends_bind_iff.mp h with ⟨u, W₁, h₁, hdismiss⟩ | ⟨e, h₁, -⟩
  · obtain ⟨-, rfl⟩ := ends_clearIssues hissues.ids h₁
    exact (ends_entryAwait_iff.mp hdismiss).2
  · cases (ends_clearIssues hissues.ids h₁).1

/-- Every step keeps the invariant. -/
theorem LifeInv.step {W W' : EntryWorld} (h : LifeInv W) (hstep : LifeStep W W') :
    LifeInv W' := by
  cases hstep with
  | edit options settings =>
    refine ⟨h.hasSlash, h.webhookId, h.issues, h.settled.edited options settings, fun hcond => ?_⟩
    exact (h.down hcond).edited options settings
  | @setup draws out W₁ hloaded hends =>
    have hsetup := ends_asyncSetupServerEntry (h.down (.inl hloaded)) hends
    have hcomplete := isComplete_ensureSecrets draws h.hasSlash
    have hdown : Down { W₁ with loaded := out.isOk } :=
      ⟨hsetup.down.webhook, hsetup.down.manager, hsetup.down.started, hsetup.down.notification⟩
    have hfew := h.issues
    unfold FewIssues at hfew
    rw [← hsetup.issues] at hfew
    refine ⟨?_, ?_, hfew, .inl hdown, fun _ => hdown⟩
    · show W₁.entry.entry.HasSlash
      rw [hsetup.entry]
      exact hcomplete.hasSlash
    · -- the identifier that is filled in is not empty
      show W₁.entry.entry.data.webhookId ≠ some []
      obtain ⟨webhookId, hid, hne⟩ := hcomplete.webhookId
      rw [hsetup.entry]
      show (ensureSecrets draws W.entry.entry).data.webhookId ≠ some []
      rw [hid]
      exact fun hnil => hne (Option.some.inj hnil)
  | @bringUp out W₁ hloaded hpending hends =>
    obtain ⟨hkeeps, hbrought⟩ :=
      ends_asyncBringUpServer h.webhookId (h.down (.inr hpending)) h.issues.ids hends
    obtain ⟨hsettled, hfew, -⟩ := hbrought.settled
    refine ⟨?_, ?_, hfew, ?_, fun hcond => ?_⟩
    · intro path hpath
      exact h.hasSlash path (hkeeps.data ▸ hpath)
    · show W₁.entry.entry.data.webhookId ≠ some []
      rw [hkeeps.data]
      exact h.webhookId
    · rcases hsettled with hdown | ⟨manager, hrunning⟩
      · exact .inl ⟨hdown.webhook, hdown.manager, hdown.started, hdown.notification⟩
      · exact .inr ⟨manager, hrunning.webhook, hrunning.published, hrunning.started,
          hrunning.issues⟩
    · -- a loaded entry whose bring-up is done has neither condition
      rcases hcond with hunloaded | hnext
      · cases (hkeeps.loaded.trans hloaded).symm.trans hunloaded
      · cases hnext
  | @unload W₁ hloaded hends =>
    obtain ⟨hdata, hdown, hfew⟩ := ends_asyncUnloadServerEntry h hends
    have hdown' : Down { W₁ with loaded := false } :=
      ⟨hdown.webhook, hdown.manager, hdown.started, hdown.notification⟩
    refine ⟨?_, ?_, hfew, .inl hdown', fun _ => hdown'⟩
    · intro path hpath
      exact h.hasSlash path (hdata ▸ hpath)
    · show W₁.entry.entry.data.webhookId ≠ some []
      rw [hdata]
      exact h.webhookId
  | @remove out W₁ hloaded hends =>
    obtain rfl := ends_asyncRemoveServer hends h.issues
    have hdown := h.down (.inl hloaded)
    exact ⟨h.hasSlash, h.webhookId, .inl rfl,
      .inl ⟨hdown.webhook, hdown.manager, hdown.started, rfl⟩,
      fun _ => ⟨hdown.webhook, hdown.manager, hdown.started, rfl⟩⟩

omit [Runtime] in
theorem lifeInv_init (settings : Settings) : LifeInv (EntryWorld.init settings) := by
  have hdown : Down (EntryWorld.init settings) := ⟨holds_init, rfl, rfl, rfl⟩
  refine ⟨fun path hpath => ?_, nofun, .inl rfl, .inl hdown, fun _ => hdown⟩
  cases hpath

theorem lifeInv_run {settings : Settings} {W : EntryWorld}
    (h : ReflTransGen LifeStep (EntryWorld.init settings) W) : LifeInv W := by
  induction h with
  | refl => exact lifeInv_init settings
  | tail _ hstep ih => exact ih.step hstep

/-- Whatever is done to an entry, at most one manager is left to be stopped, a bring-up is all or
nothing, and an unload leaves none that was not asked to stop. -/
theorem entry_lives_well {settings : Settings} {W : EntryWorld}
    (h : ReflTransGen LifeStep (EntryWorld.init settings) W) : LivesWell W := by
  have hinv := lifeInv_run h
  refine ⟨hinv, fun out W' _ hpending hends => ?_, fun W' _ hends => ?_⟩
  · exact (ends_asyncBringUpServer hinv.webhookId (hinv.down (.inr hpending)) hinv.issues.ids
      hends).2
  · exact (ends_asyncUnloadServerEntry hinv hends).2.1

end

/-! ## A life that succeeds -/

/-- The answer of a command and the world after it, where everything succeeds that can. -/
def serve [Runtime] (W : EntryWorld) : (c : EntryCmd) → Except EntryErr c.Ans × EntryWorld
  | .entry => (.ok W.entry, W)
  | .updateEntry entry => (.ok (), { W with entry := { W.entry with entry := entry } })
  | .bindBundle bundle =>
    let r := execIn Webhook.serve W.webhook (Webhook.bindBundle bundle)
    (r.1.mapError .py, { W with webhook := r.2 })
  | .putLastOptions options => (.ok (), { W with lastOptions := some options })
  | .popLastOptions => (.ok (), { W with lastOptions := none })
  | .createTask => (.ok (), { W with task := some .pending })
  | .popTask => (.ok W.task, { W with task := none })
  | .cancelTask => (.error (.py (.exn .cancelled [])), W)
  | .deleteIssue issueId =>
    (.ok (), { W with issues := W.issues.filter fun issue => issue.1 ≠ issueId })
  | .createIssue issueId detail => (.ok (), { W with
      issues := (issueId, detail) :: W.issues.filter fun issue => issue.1 ≠ issueId })
  | .newManager => (.ok ⟨W.made, W.entry.settings.port⟩, { W with made := W.made + 1 })
  | .putManager manager => (.ok (), { W with manager := some manager })
  | .popManager => (.ok W.manager, { W with manager := none })
  | .asyncStart manager => (.ok (), { W with started := manager :: W.started })
  | .asyncStop manager => (.ok (), { W with started := W.started.filter (· ≠ manager) })
  | .registerWebhook args =>
    let r := execIn Webhook.serve W.webhook (asyncRegisterWebhook args)
    (r.1.mapError .py, { W with webhook := r.2 })
  | .unregisterWebhook =>
    let r := execIn Webhook.serve W.webhook asyncUnregisterWebhook
    (r.1.mapError .py, { W with webhook := r.2 })
  | .network => (.ok ⟨.absent, none, []⟩, W)
  | .createNotification message => (.ok (), { W with notification := some message })
  | .dismissNotification => (.ok (), { W with notification := none })

theorem handle_serve [Runtime] {t : TaskEnds}
    (ht : ∀ W, t W (.error (.py (.exn .cancelled []))) W) (W : EntryWorld) (c : EntryCmd) :
    handle t W c (serve W c).1 (serve W c).2 := by
  have hbelow {α : Type} (p : Webhook.Coro α) :
      runsBelow W p ((execIn Webhook.serve W.webhook p).1.mapError .py)
        { W with webhook := (execIn Webhook.serve W.webhook p).2 } :=
    ⟨_, _, ends_execIn handleClosing_serve W.webhook p, rfl, rfl⟩
  cases c with
  | bindBundle bundle => exact hbelow _
  | registerWebhook args => exact hbelow _
  | unregisterWebhook => exact hbelow _
  | cancelTask => exact ht W
  | asyncStart manager => exact .inl ⟨rfl, W.entry.entry.options, W.entry.settings, rfl⟩
  | asyncStop manager => exact ⟨.inl rfl, W.entry.entry.options, W.entry.settings, rfl⟩
  | network => exact ⟨.inl ⟨_, rfl⟩, rfl⟩
  | _ => exact ⟨rfl, rfl⟩

/-- Draws of nothing but zeros. -/
def zeroDraws : Draws := ⟨⟨List.replicate 16 0, rfl⟩, ⟨List.replicate 16 0, rfl⟩,
  ⟨List.replicate 32 0, rfl⟩⟩

/-- An entry without a webhook. -/
def EntryWorld.localOnly : EntryWorld := .init ⟨none, none, none, some false, none⟩

/-- The world after one program in which everything succeeds that can. -/
def EntryWorld.after [Runtime] (W : EntryWorld) (p : EntryProg Unit) : EntryWorld :=
  { (execIn serve W p).2 with loaded := true }

theorem entry_lives_well_broughtUp :
    letI := asciiRuntime
    let W := (EntryWorld.localOnly.after (asyncSetupServerEntry zeroDraws)).after asyncBringUpServer
    W.loaded = true ∧ W.started.length = 1 ∧ LivesWell { W with task := some .done } := by
  let := asciiRuntime
  have hsetup := ends_execIn (handle_serve (t := cancelledBringUp) fun W => .inl ⟨rfl, rfl⟩)
    .localOnly (asyncSetupServerEntry zeroDraws)
  have hbringUp := ends_execIn (handle_serve (t := notBegun) fun W => ⟨rfl, rfl⟩)
    (EntryWorld.localOnly.after (asyncSetupServerEntry zeroDraws)) asyncBringUpServer
  have hlife := (ReflTransGen.single (LifeStep.setup rfl hsetup)).tail (.bringUp rfl rfl hbringUp)
  exact ⟨rfl, rfl, entry_lives_well hlife⟩

end EsphomeMcp.Entry
