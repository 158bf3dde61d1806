import EsphomeMcp.Webhook.AdminGate

/-!
# What registering leaves behind

Registrations and unregistrations one after the other, with every step that may fail failing
at will, except that closing a session does not raise. `ends_asyncRegisterWebhook` says what
one registration does to the world: it publishes a cfg that matches its mode, or it leaves
nothing but bound views and their flags. `Invariant` is what then holds between any two of
them.
-/

namespace EsphomeMcp.Webhook

open Py Py.Prog

/-- Closing a session does not raise. -/
def Closes : Event → Prop
  | ⟨.closeSession _, .error _⟩ => False
  | _ => True

/-- `handle`, where closing a session does not raise. -/
def handleClosing (w : World) (c : Cmd) (r : Except Err c.Ans) (w' : World) : Prop :=
  handle w c r w' ∧ Closes ⟨c, r⟩

/-- How `p`, alone in `w`, can end. -/
abbrev Ends {α : Type} (w : World) (p : Coro α) (out : Except Err α) (w' : World) : Prop :=
  Prog.Ends handleClosing w p out w'

theorem ends_await_iff {w w' : World} {c : Cmd} {out : Except Err c.Ans} :
    Ends w (await c) out w' ↔ handle w c out w' ∧ Closes ⟨c, out⟩ :=
  ends_perform_iff

/-! ## Views -/

/-- A bundle's flag is set only when all its views are bound. -/
def FlagsSound (w : World) : Prop := ∀ b ∈ w.viewFlags, ∀ v ∈ b.views, v ∈ w.views

/-- What binding views may change: views and flags are added, and the flags stay sound. -/
structure Binds (w w' : World) : Prop where
  cfg : w'.cfg = w.cfg
  webhooks : w'.webhooks = w.webhooks
  openSessions : w'.openSessions = w.openSessions
  sent : w'.sent = w.sent
  views : ∀ v ∈ w.views, v ∈ w'.views
  viewFlags : ∀ b ∈ w.viewFlags, b ∈ w'.viewFlags
  sound : FlagsSound w → FlagsSound w'

theorem Binds.refl (w : World) : Binds w w :=
  ⟨rfl, rfl, rfl, rfl, fun _ h => h, fun _ h => h, id⟩

theorem Binds.trans {w₁ w₂ w₃ : World} (h : Binds w₁ w₂) (h' : Binds w₂ w₃) : Binds w₁ w₃ where
  cfg := h'.cfg.trans h.cfg
  webhooks := h'.webhooks.trans h.webhooks
  openSessions := h'.openSessions.trans h.openSessions
  sent := h'.sent.trans h.sent
  views v hv := h'.views v (h.views v hv)
  viewFlags b hb := h'.viewFlags b (h.viewFlags b hb)
  sound hs := h'.sound (h.sound hs)

/-- What ended with an error, where it could be done or fail, has failed. -/
theorem fails_error {α β : Type} {e : Err} {a : α} {P : Prop}
    (h : ((.error e : Except Err α) = .ok a ∧ P) ∨ fails (.error e : Except Err α)) :
    fails (.error e : Except Err β) := by
  rcases h with ⟨he, -⟩ | ⟨e', he, hx⟩
  · cases he
  · cases he
    exact ⟨e, rfl, hx⟩

theorem ends_registerViews {vs : List View} {w w' : World} {out : Except Err Unit}
    (h : Ends w (registerViews vs) out w') :
    Binds w w' ∧ ((out = .ok () ∧ ∀ v ∈ vs, v ∈ w'.views) ∨ fails out) := by
  induction vs generalizing w with
  | nil =>
    obtain ⟨rfl, rfl⟩ := ends_ret_iff.mp h
    exact ⟨.refl _, .inl ⟨rfl, nofun⟩⟩
  | cons v vs ih =>
    have hone {r : Except Err Unit} {w₁ : World} (h : handle w (.registerView v) r w₁) :
        Binds w w₁ ∧ ((r = .ok () ∧ v ∈ w₁.views) ∨ fails r) := by
      have hbind : Binds w { w with views := v :: w.views } :=
        ⟨rfl, rfl, rfl, rfl, fun _ h => List.mem_cons_of_mem _ h, fun _ h => h,
          fun hs b hb v' hv' => List.mem_cons_of_mem _ (hs b hb v' hv')⟩
      rcases h with ⟨rfl, rfl | hf⟩ | ⟨hf, rfl⟩
      · exact ⟨hbind, .inl ⟨rfl, List.mem_cons_self⟩⟩
      · exact ⟨hbind, .inr hf⟩
      · exact ⟨.refl _, .inr hf⟩
    rcases ends_bind_iff.mp h with ⟨u, w₁, h₁, h₂⟩ | ⟨e, h₁, rfl⟩
    · obtain ⟨hb, ⟨-, hv⟩ | ⟨e, he, -⟩⟩ := hone (ends_await_iff.mp h₁).1
      · obtain ⟨hb', ⟨rfl, hvs⟩ | hf⟩ := ih h₂
        · refine ⟨hb.trans hb', .inl ⟨rfl, fun v' hv' => ?_⟩⟩
          rcases List.mem_cons.mp hv' with rfl | hv'
          · exact hb'.views _ hv
          · exact hvs v' hv'
        · exact ⟨hb.trans hb', .inr hf⟩
      · cases he
    · obtain ⟨hb, hf⟩ := hone (ends_await_iff.mp h₁).1
      exact ⟨hb, .inr (fails_error hf)⟩

theorem ends_bindBundle {b : Bundle} {w w' : World} {out : Except Err Unit}
    (h : Ends w (bindBundle b) out w') :
    Binds w w' ∧ ((out = .ok () ∧ b ∈ w'.viewFlags) ∨ fails out) := by
  rcases ends_bind_iff.mp h with ⟨set, w₁, h₁, h₂⟩ | ⟨e, h₁, -⟩
  swap
  · obtain ⟨⟨he, -⟩, -⟩ := ends_await_iff.mp h₁
    cases he
  obtain ⟨⟨he, rfl⟩, -⟩ := ends_await_iff.mp h₁
  cases he
  by_cases hb : b ∈ w₁.viewFlags
  · rw [decide_eq_true hb] at h₂
    obtain ⟨rfl, rfl⟩ := ends_ret_iff.mp h₂
    exact ⟨.refl _, .inl ⟨rfl, hb⟩⟩
  rw [decide_eq_false hb] at h₂
  rcases ends_bind_iff.mp h₂ with ⟨u, w₂, h₃, h₄⟩ | ⟨e, h₃, rfl⟩
  · obtain ⟨hbinds, ⟨-, hviews⟩ | ⟨e, he, -⟩⟩ := ends_registerViews h₃
    · obtain ⟨⟨rfl, rfl⟩, -⟩ := ends_await_iff.mp h₄
      refine ⟨hbinds.trans ⟨rfl, rfl, rfl, rfl, fun _ h => h,
        fun _ h => List.mem_cons_of_mem _ h, fun hs b' hb' v hv => ?_⟩, .inl ⟨rfl, by simp⟩⟩
      rcases List.mem_cons.mp hb' with rfl | hb'
      · exact hviews v hv
      · exact hs b' hb' v hv
    · cases he
  · obtain ⟨hbinds, hf⟩ := ends_registerViews h₃
    exact ⟨hbinds, .inr (fails_error hf)⟩

/-- The three bundles in turn, then what needs them. -/
theorem ends_bindBundles {α : Type} {f : Coro α} {w w' : World} {out : Except Err α}
    (h : Ends w (do registerMetadataViews; bindAutoapproveViews; bindDcrView; f) out w') :
    (fails out ∧ Binds w w') ∨
    ∃ w₁, Binds w w₁ ∧ (∀ b, b ∈ w₁.viewFlags) ∧ Ends w₁ f out w' := by
  rcases ends_bind_iff.mp h with ⟨u, w₁, h₁, h⟩ | ⟨e, h₁, rfl⟩
  swap
  · obtain ⟨hb₁, hf₁⟩ := ends_bindBundle h₁
    exact .inl ⟨fails_error hf₁, hb₁⟩
  obtain ⟨hb₁, ⟨-, hf₁⟩ | ⟨_, he, -⟩⟩ := ends_bindBundle h₁
  swap
  · cases he
  rcases ends_bind_iff.mp h with ⟨u, w₂, h₂, h⟩ | ⟨e, h₂, rfl⟩
  swap
  · obtain ⟨hb₂, hf₂⟩ := ends_bindBundle h₂
    exact .inl ⟨fails_error hf₂, hb₁.trans hb₂⟩
  obtain ⟨hb₂, ⟨-, hf₂⟩ | ⟨_, he, -⟩⟩ := ends_bindBundle h₂
  swap
  · cases he
  rcases ends_bind_iff.mp h with ⟨u, w₃, h₃, h⟩ | ⟨e, h₃, rfl⟩
  swap
  · obtain ⟨hb₃, hf₃⟩ := ends_bindBundle h₃
    exact .inl ⟨fails_error hf₃, hb₁.trans (hb₂.trans hb₃)⟩
  obtain ⟨hb₃, ⟨-, hf₃⟩ | ⟨_, he, -⟩⟩ := ends_bindBundle h₃
  swap
  · cases he
  refine .inr ⟨w₃, hb₁.trans (hb₂.trans hb₃), fun b => ?_, h⟩
  cases b with
  | metadata => exact hb₃.viewFlags _ (hb₂.viewFlags _ hf₁)
  | autoapprove => exact hb₃.viewFlags _ hf₂
  | dcr => exact hf₃

/-! ## Surfaces -/

/-- Setting the key is the only step of a surface that can fail on its own. -/
theorem setSigningKey_cases (cfg : Cfg) (key : Option Str) :
    (key = none ∨ key = some []) ∧ setSigningKey cfg key = .ok cfg ∨
    (∃ k, setSigningKey cfg key = .ok { cfg with dcrSigningKey := some k }) ∨
    ∃ e, setSigningKey cfg key = .error e ∧ e.isException := by
  unfold setSigningKey
  split
  · rename_i c key
    right
    unfold parseKey
    cases fromHex (c :: key) with
    | ok k => exact .inl ⟨k, rfl⟩
    | error i => exact .inr ⟨_, rfl, rfl⟩
  · rename_i hkey
    refine .inl ⟨?_, rfl⟩
    cases key with
    | none => exact .inl rfl
    | some key =>
      cases key with
      | nil => exact .inr rfl
      | cons c key => exact absurd rfl (hkey c key)

/-- A `ha_auth` surface is bound with its resource server, or it fails. -/
theorem ends_bindHaAuthSurface {cfg : Cfg} {webhookId : Str} {key : Option Str} {w w' : World}
    {out : Except Err Cfg} (h : Ends w (bindHaAuthSurface cfg webhookId key) out w') :
    Binds w w' ∧ (fails out ∨ (∀ b, b ∈ w'.viewFlags) ∧
      ∃ k, out = .ok { cfg with resourceServer := some ⟨webhookId⟩, dcrSigningKey := k }) := by
  rcases ends_bindBundles h with ⟨hf, hb⟩ | ⟨w₁, hb, hflags, h⟩
  · exact ⟨hb, .inl hf⟩
  obtain ⟨rfl, rfl⟩ := ends_ofExcept_iff.mp h
  refine ⟨hb, ?_⟩
  rcases setSigningKey_cases { cfg with resourceServer := some ⟨webhookId⟩ } key with
    ⟨-, he⟩ | ⟨k, he⟩ | ⟨e, he, hx⟩
  · exact .inr ⟨hflags, cfg.dcrSigningKey, he⟩
  · exact .inr ⟨hflags, some k, he⟩
  · exact .inl ⟨e, he, hx⟩

/-- The `none` surface is always usable: bound whole, or not at all. -/
theorem ends_bindNoneSurface {cfg : Cfg} {key : Option Str} {w w' : World}
    {out : Except Err Cfg} (h : Ends w (bindNoneSurface cfg key) out w') :
    Binds w w' ∧ (out = .ok cfg ∨ (∀ b, b ∈ w'.viewFlags) ∧
      ∃ k, out = .ok { cfg with dcrSigningKey := k, autoapproveProvider := some {} } ∧
        (k.isSome ∨ k = cfg.dcrSigningKey ∧ (key = none ∨ key = some []))) := by
  have hbody {out : Except Err Cfg} {w' : World}
      (h : Ends w (do
        registerMetadataViews
        bindAutoapproveViews
        bindDcrView
        let cfg ← ofExcept (setSigningKey cfg key)
        return { cfg with autoapproveProvider := some {} }) out w') :
      Binds w w' ∧ (fails out ∨ (∀ b, b ∈ w'.viewFlags) ∧
        ∃ k, out = .ok { cfg with dcrSigningKey := k, autoapproveProvider := some {} } ∧
          (k.isSome ∨ k = cfg.dcrSigningKey ∧ (key = none ∨ key = some []))) := by
    rcases ends_bindBundles h with ⟨hf, hb⟩ | ⟨w₁, hb, hflags, h⟩
    · exact ⟨hb, .inl hf⟩
    rcases ends_bind_iff.mp h with ⟨cfg', w₂, h₁, h₂⟩ | ⟨e, h₁, rfl⟩
    · obtain ⟨hset, rfl⟩ := ends_ofExcept_iff.mp h₁
      obtain ⟨rfl, rfl⟩ := ends_ret_iff.mp h₂
      refine ⟨hb, .inr ⟨hflags, ?_⟩⟩
      rcases setSigningKey_cases cfg key with ⟨hkey, he⟩ | ⟨k, he⟩ | ⟨e, he, -⟩
      · obtain rfl := Except.ok.inj (hset.trans he)
        exact ⟨cfg'.dcrSigningKey, rfl, .inr ⟨rfl, hkey⟩⟩
      · obtain rfl := Except.ok.inj (hset.trans he)
        exact ⟨some k, rfl, .inl rfl⟩
      · cases hset.trans he
    · obtain ⟨hset, rfl⟩ := ends_ofExcept_iff.mp h₁
      refine ⟨hb, .inl ?_⟩
      rcases setSigningKey_cases cfg key with ⟨-, he⟩ | ⟨k, he⟩ | ⟨e', he, hx⟩
      · cases hset.trans he
      · cases hset.trans he
      · cases hset.trans he
        exact ⟨e, rfl, hx⟩
  rcases ends_tryCatch_iff.mp h with ⟨cfg', h₁, rfl⟩ | ⟨e, w₁, h₁, h₂⟩
  · obtain ⟨hb, ⟨e, he, -⟩ | hok⟩ := hbody h₁
    · cases he
    · exact ⟨hb, .inr hok⟩
  · obtain ⟨hb, ⟨e', he, hx⟩ | ⟨-, k, he, -⟩⟩ := hbody h₁
    · cases he
      rw [if_pos hx] at h₂
      obtain ⟨rfl, rfl⟩ := ends_ret_iff.mp h₂
      exact ⟨hb, .inl rfl⟩
    · cases he

/-! ## Sessions and the registry -/

theorem ends_closeSession {s : SessionId} {w w' : World} {out : Except Err Unit}
    (h : Ends w (await (.closeSession s)) out w') : out = .ok () ∧ w' = w.closed s := by
  obtain ⟨hclose, hok⟩ := ends_await_iff.mp h
  cases out with
  | error e => exact absurd hok id
  | ok u =>
    rcases hclose with rfl | ⟨⟨e, he⟩, -⟩
    · exact ⟨rfl, rfl⟩
    · cases he

/-- A world in which the given session, if any, has been closed. -/
def World.closedIf (w : World) : Option SessionId → World
  | some s => w.closed s
  | none => w

/-- A world in which the given session, if any, has been opened. -/
def World.openedIf (w : World) : Option SessionId → World
  | some s => w.opened s
  | none => w

theorem World.mem_opened {w : World} {session : SessionId} {cimd : Option SessionId}
    {s : SessionId} : s ∈ ((w.opened session).openedIf cimd).openSessions ↔
      s = session ∨ cimd = some s ∨ s ∈ w.openSessions := by
  cases cimd with
  | none => simp [World.openedIf, World.opened]
  | some c =>
    simp only [World.openedIf, World.opened, List.mem_cons, Option.some.injEq]
    constructor
    · rintro (rfl | rfl | h)
      exacts [.inr (.inl rfl), .inl rfl, .inr (.inr h)]
    · rintro (rfl | rfl | h)
      exacts [.inr (.inl rfl), .inl rfl, .inr (.inr h)]

theorem ends_closeIfOpen {s : Option SessionId} {w w' : World} {out : Except Err Unit}
    (h : Ends w (closeIfOpen s) out w') : out = .ok () ∧ w' = w.closedIf s := by
  cases s with
  | none => exact ends_ret_iff.mp h
  | some s => exact ends_closeSession h

/-- A world without the given webhook. -/
def World.without (w : World) (webhookId : Str) : World :=
  { w with webhooks := w.webhooks.filter (· ≠ webhookId) }

theorem World.without_of_not_mem {w : World} {webhookId : Str} (h : webhookId ∉ w.webhooks) :
    w.without webhookId = w := by
  have hfilter : w.webhooks.filter (· ≠ webhookId) = w.webhooks := by
    refine List.filter_eq_self.mpr fun i hi => ?_
    simpa using fun he : i = webhookId => h (he ▸ hi)
  rw [World.without, hfilter]

theorem ends_asyncUnregister {i : Str} {w w' : World} {out : Except Err Unit}
    (h : Ends w (await (.asyncUnregister i)) out w') : out = .ok () ∧ w' = w.without i :=
  (ends_await_iff.mp h).1

/-- Suppressing exceptions of what does not raise. -/
theorem ends_suppress {kind : Err → Bool} {p : Coro Unit} {w w' w₁ : World}
    {out : Except Err Unit} (hp : ∀ out w', Ends w p out w' → out = .ok () ∧ w' = w₁)
    (h : Ends w (suppress kind p) out w') : out = .ok () ∧ w' = w₁ := by
  rcases ends_tryCatch_iff.mp h with ⟨u, h₁, rfl⟩ | ⟨e, w₂, h₁, -⟩
  · exact hp _ _ h₁
  · cases (hp _ _ h₁).1

theorem ends_discard {webhookId : Str} {session : SessionId} {cimd : Option SessionId}
    {w w' : World} {out : Except Err Unit} (h : Ends w (discard webhookId session cimd) out w') :
    out = .ok () ∧ w' = ((w.without webhookId).closed session).closedIf cimd := by
  rcases ends_bind_iff.mp h with ⟨u, w₁, h₁, h⟩ | ⟨e, h₁, rfl⟩
  swap
  · cases (ends_suppress (fun _ _ => ends_asyncUnregister) h₁).1
  obtain ⟨-, rfl⟩ := ends_suppress (fun _ _ => ends_asyncUnregister) h₁
  rcases ends_bind_iff.mp h with ⟨u, w₂, h₂, h⟩ | ⟨e, h₂, rfl⟩
  swap
  · cases (ends_suppress (fun _ _ => ends_closeSession) h₂).1
  obtain ⟨-, rfl⟩ := ends_suppress (fun _ _ => ends_closeSession) h₂
  exact ends_suppress (fun _ _ => ends_closeIfOpen) h

/-- The second session is opened for `ha_auth` only; when that fails the first is closed. -/
theorem ends_openCimd {authMode : Str} {session : SessionId} {w w' : World}
    {out : Except Err (Option SessionId)} (h : Ends w (openCimd authMode session) out w') :
    (∃ e, out = .error e ∧ w' = w.closed session) ∨
    ∃ cimd, out = .ok cimd ∧ (cimd.isSome ↔ authMode = webhookAuthHa) ∧
      (∀ c ∈ cimd, c ∉ w.openSessions) ∧ w' = w.openedIf cimd := by
  unfold openCimd at h
  split at h
  swap
  · obtain ⟨rfl, rfl⟩ := ends_ret_iff.mp h
    exact .inr ⟨none, rfl, by simp [*], nofun, rfl⟩
  rename_i hmode
  rcases ends_tryCatch_iff.mp h with ⟨cimd, h₁, rfl⟩ | ⟨e, w₁, h₁, h₂⟩
  · rcases ends_bind_iff.mp h₁ with ⟨c, w₂, h₃, h₄⟩ | ⟨e, -, he⟩
    swap
    · cases he
    obtain ⟨hc, rfl⟩ := ends_ret_iff.mp h₄
    obtain rfl : cimd = some c := by simpa using hc
    rcases (ends_await_iff.mp h₃).1 with ⟨c', hc', hfresh, -, rfl⟩ | ⟨⟨e, he, -⟩, -⟩
    · cases hc'
      exact .inr ⟨some c, rfl, by simp [hmode], by simpa using hfresh, rfl⟩
    · cases he
  · have hfailed : w₁ = w ∧ e.isException := by
      rcases ends_bind_iff.mp h₁ with ⟨c, w₂, -, h₄⟩ | ⟨e', h₃, he⟩
      · cases (ends_ret_iff.mp h₄).1
      · cases he
        rcases (ends_await_iff.mp h₃).1 with ⟨c', hc', -⟩ | ⟨⟨e', he', hx⟩, rfl⟩
        · cases hc'
        · cases he'
          exact ⟨rfl, hx⟩
    obtain ⟨rfl, hx⟩ := hfailed
    rw [if_pos hx] at h₂
    rcases ends_bind_iff.mp h₂ with ⟨u, w₂, h₃, h₄⟩ | ⟨e', h₃, rfl⟩
    · obtain ⟨-, rfl⟩ := ends_closeSession h₃
      obtain ⟨rfl, rfl⟩ := ends_raise_iff.mp h₄
      exact .inl ⟨e, rfl, rfl⟩
    · cases (ends_closeSession h₃).1

/-! ## One registration -/

/-- How a bound surface differs from the cfg it was bound for. -/
structure Surfaced (key : Option Str) (cfg cfg' : Cfg) (w : World) : Prop where
  webhookId : cfg'.webhookId = cfg.webhookId
  session : cfg'.session = cfg.session
  cimdSession : cfg'.cimdSession = cfg.cimdSession
  authMode : cfg'.authMode = cfg.authMode
  /-- `ha_auth`: the resource server, and no auto-approve provider. -/
  haAuth : cfg.authMode = webhookAuthHa →
    cfg'.resourceServer = some ⟨cfg.webhookId⟩ ∧ cfg'.autoapproveProvider = none
  /-- `none`: no resource server; provider and key together, or neither. -/
  noneAuth : cfg.authMode = webhookAuthNone → cfg'.resourceServer = none ∧
    (key ≠ none → key ≠ some [] → (cfg'.autoapproveProvider.isSome ↔ cfg'.dcrSigningKey.isSome))
  provider : cfg'.resourceServer.isSome ∨ cfg'.autoapproveProvider.isSome →
    ∀ b, b ∈ w.viewFlags

/-- A world with one more webhook. -/
def World.withWebhook (w : World) (webhookId : Str) : World :=
  { w with webhooks := webhookId :: w.webhooks }

/-- The guarded part of a registration: the webhook and its surface, or an `Exception`. -/
theorem ends_surface (cfg : Cfg) {key : Option Str} {w w' : World} {out : Except Err Cfg}
    (hcfg : cfg.resourceServer = none ∧ cfg.autoapproveProvider = none ∧ cfg.dcrSigningKey = none)
    (h : Ends w (do
      await (.asyncRegister cfg.webhookId)
      if cfg.authMode = webhookAuthHa then bindHaAuthSurface cfg cfg.webhookId key
      else bindNoneSurface cfg key) out w') :
    (fails out ∧ (w' = w ∨ Binds (w.withWebhook cfg.webhookId) w')) ∨
    ∃ cfg', out = .ok cfg' ∧ Binds (w.withWebhook cfg.webhookId) w' ∧
      Surfaced key cfg cfg' w' := by
  obtain ⟨hrs, hprovider, hkey⟩ := hcfg
  rcases ends_bind_iff.mp h with ⟨u, w₁, h₁, h⟩ | ⟨e, h₁, rfl⟩
  swap
  · rcases (ends_await_iff.mp h₁).1 with ⟨he, -⟩ | ⟨⟨e', he, hx⟩, rfl⟩
    · cases he
    · cases he
      exact .inl ⟨⟨e, rfl, hx⟩, .inl rfl⟩
  rcases (ends_await_iff.mp h₁).1 with ⟨-, -, rfl⟩ | ⟨⟨e', he, -⟩, -⟩
  swap
  · cases he
  by_cases hmode : cfg.authMode = webhookAuthHa
  · rw [if_pos hmode] at h
    obtain ⟨hb, hf | ⟨hflags, k, rfl⟩⟩ := ends_bindHaAuthSurface h
    · exact .inl ⟨hf, .inr hb⟩
    · refine .inr ⟨_, rfl, hb, rfl, rfl, rfl, rfl, fun _ => ⟨rfl, hprovider⟩, fun hnone => ?_,
        fun _ => hflags⟩
      exact absurd (hmode.symm.trans hnone) (by decide)
  · rw [if_neg hmode] at h
    obtain ⟨hb, rfl | ⟨hflags, k, rfl, hk⟩⟩ := ends_bindNoneSurface h
    · refine .inr ⟨cfg, rfl, hb, rfl, rfl, rfl, rfl, fun hha => absurd hha hmode,
        fun _ => ⟨hrs, fun _ _ => by simp [hprovider, hkey]⟩, ?_⟩
      simp [hrs, hprovider]
    · refine .inr ⟨_, rfl, hb, rfl, rfl, rfl, rfl, fun hha => absurd hha hmode,
        fun _ => ⟨hrs, fun hne hne' => ?_⟩, fun _ => hflags⟩
      rcases hk with hk | ⟨-, hk | hk⟩
      · simp [hk]
      · exact absurd hk hne
      · exact absurd hk hne'

/-- What a successful registration leaves behind. -/
structure Registered (args : RegisterArgs) (w : World) (cfg : Cfg) (w' : World) : Prop where
  authMode : cfg.authMode = args.authMode
  webhookId : args.webhookId = some cfg.webhookId
  cimdSession : cfg.cimdSession.isSome ↔ cfg.authMode = webhookAuthHa
  published : w'.cfg = some cfg
  webhooks : w'.webhooks = cfg.webhookId :: w.webhooks
  openSessions : ∀ s, s ∈ w'.openSessions ↔
    s = cfg.session ∨ cfg.cimdSession = some s ∨ s ∈ w.openSessions
  sound : FlagsSound w → FlagsSound w'
  haAuth : cfg.authMode = webhookAuthHa →
    cfg.resourceServer = some ⟨cfg.webhookId⟩ ∧ cfg.autoapproveProvider = none
  noneAuth : cfg.authMode = webhookAuthNone → cfg.resourceServer = none ∧
    (args.dcrSigningKey ≠ none → args.dcrSigningKey ≠ some [] →
      (cfg.autoapproveProvider.isSome ↔ cfg.dcrSigningKey.isSome))
  provider : cfg.resourceServer.isSome ∨ cfg.autoapproveProvider.isSome → ∀ b, b ∈ w'.viewFlags

theorem filter_ne_of_not_mem {α : Type} [DecidableEq α] {l : List α} {a : α} (h : a ∉ l) :
    l.filter (· ≠ a) = l :=
  List.filter_eq_self.mpr fun b hb => by simpa using fun he : b = a => h (he ▸ hb)

/-- Discarding a registration that never got further than its surface undoes all but the
views. -/
theorem binds_discard {w w₁ w' : World} {webhookId : Str} {session : SessionId}
    {cimd : Option SessionId} (hfree : webhookId ∉ w.webhooks) (hfresh : session ∉ w.openSessions)
    (hcimd : ∀ c ∈ cimd, c ∉ (w.opened session).openSessions)
    (hw₁ : w₁ = (w.opened session).openedIf cimd ∨
      Binds (((w.opened session).openedIf cimd).withWebhook webhookId) w₁)
    (hw' : w' = ((w₁.without webhookId).closed session).closedIf cimd) : Binds w w' := by
  have hweb : (w₁.without webhookId).webhooks = w.webhooks := by
    rcases hw₁ with rfl | hb
    · cases cimd <;> exact filter_ne_of_not_mem hfree
    · have : w₁.webhooks = webhookId :: w.webhooks := by
        rw [hb.webhooks]
        cases cimd <;> rfl
      rw [World.without, this, List.filter_cons_of_neg (by simp)]
      exact filter_ne_of_not_mem hfree
  have hopen : w₁.openSessions = ((w.opened session).openedIf cimd).openSessions := by
    rcases hw₁ with rfl | hb
    · rfl
    · exact hb.openSessions
  have hclosed : (((w₁.without webhookId).closed session).closedIf cimd).openSessions =
      w.openSessions := by
    cases cimd with
    | none =>
      simp only [World.closedIf, World.closed, World.without, hopen, World.openedIf, World.opened]
      rw [List.filter_cons_of_neg (by simp), filter_ne_of_not_mem hfresh]
    | some c =>
      have hc : c ≠ session ∧ c ∉ w.openSessions := by
        simpa [World.opened] using hcimd c rfl
      simp only [World.closedIf, World.closed, World.without, hopen, World.openedIf, World.opened]
      rw [List.filter_cons_of_pos (by simpa using hc.1), List.filter_cons_of_neg (by simp),
        List.filter_cons_of_neg (by simp), filter_ne_of_not_mem hfresh,
        filter_ne_of_not_mem hc.2]
  have hrest : Binds { w with openSessions := w₁.openSessions, webhooks := w₁.webhooks } w₁ := by
    rcases hw₁ with rfl | hb
    · cases cimd <;> exact ⟨rfl, rfl, rfl, rfl, fun _ h => h, fun _ h => h, id⟩
    · cases cimd <;> exact ⟨hb.cfg, rfl, rfl, hb.sent, hb.views, hb.viewFlags, hb.sound⟩
  subst hw'
  refine ⟨?_, ?_, hclosed, ?_, ?_, ?_, ?_⟩ <;> cases cimd
  all_goals first
    | exact hrest.cfg | exact hweb | exact hrest.sent | exact hrest.views | exact hrest.viewFlags
    | exact hrest.sound

section

variable [Runtime]

/-- A registration publishes a cfg of its mode, or leaves nothing but bound views. -/
theorem ends_asyncRegisterWebhook {args : RegisterArgs} {w w' : World} {out : Except Err Unit}
    (h : Ends w (asyncRegisterWebhook args) out w')
    (hfree : ∀ i, args.webhookId = some i → i ∉ w.webhooks) :
    (∃ e, out = .error e ∧ Binds w w') ∨ out = .ok () ∧ ∃ cfg, Registered args w cfg w' := by
  unfold asyncRegisterWebhook at h
  split at h
  · obtain ⟨rfl, rfl⟩ := ends_raise_iff.mp h
    exact .inl ⟨_, rfl, .refl _⟩
  rename_i hmode
  split at h
  · obtain ⟨rfl, rfl⟩ := ends_raise_iff.mp h
    exact .inl ⟨_, rfl, .refl _⟩
  rename_i webhookId hid
  have hfree := hfree webhookId hid
  -- clearing a leftover registration changes nothing
  rcases ends_bind_iff.mp h with ⟨u, w₁, h₁, h⟩ | ⟨e, h₁, rfl⟩
  swap
  · cases (ends_asyncUnregister h₁).1
  obtain ⟨-, rfl⟩ := ends_asyncUnregister h₁
  rw [World.without_of_not_mem hfree] at h
  -- the relay session
  rcases ends_bind_iff.mp h with ⟨session, w₂, h₂, h⟩ | ⟨e, h₂, rfl⟩
  swap
  · rcases (ends_await_iff.mp h₂).1 with ⟨s, hs, -⟩ | ⟨-, rfl⟩
    · cases hs
    · exact .inl ⟨e, rfl, .refl _⟩
  rcases (ends_await_iff.mp h₂).1 with ⟨s, hs, hfresh, -, rfl⟩ | ⟨⟨e, he, -⟩, -⟩
  swap
  · cases he
  cases hs
  have hreopen : (w.opened session).openSessions.filter (· ≠ session) = w.openSessions := by
    have : w.openSessions.filter (· ≠ session) = w.openSessions := by
      refine List.filter_eq_self.mpr fun s hs => ?_
      simpa using fun he : s = session => hfresh (he ▸ hs)
    simpa [World.opened] using this
  -- the CIMD session
  rcases ends_bind_iff.mp h with ⟨cimd, w₃, h₃, h⟩ | ⟨e, h₃, rfl⟩
  swap
  · rcases ends_openCimd h₃ with ⟨_, -, rfl⟩ | ⟨_, he, -⟩
    · exact .inl ⟨e, rfl, rfl, rfl, hreopen, rfl, fun _ h => h, fun _ h => h, id⟩
    · cases he
  obtain ⟨_, he, -⟩ | ⟨cimd', hcimd, hcimdMode, hcimdFresh, rfl⟩ := ends_openCimd h₃
  · cases he
  cases hcimd
  -- the webhook and its surface
  rcases ends_bind_iff.mp h with ⟨cfg, w₄, h₄, h⟩ | ⟨e, h₄, rfl⟩
  · obtain ⟨⟨rfl, rfl⟩, -⟩ := ends_await_iff.mp h
    refine .inr ⟨rfl, cfg, ?_⟩
    rcases ends_tryCatch_iff.mp h₄ with ⟨cfg', h₅, he⟩ | ⟨e, w₅, -, h₆⟩
    swap
    · split at h₆
      · rcases ends_bind_iff.mp h₆ with ⟨_, _, -, h₇⟩ | ⟨_, -, he⟩
        · cases (ends_raise_iff.mp h₇).1
        · cases he
      · cases (ends_raise_iff.mp h₆).1
    cases he
    obtain ⟨⟨e, he, -⟩, -⟩ | ⟨cfg', hcfg', hb, hs⟩ := ends_surface
      (initialCfg args webhookId session cimd) ⟨rfl, rfl, rfl⟩ h₅
    · cases he
    cases hcfg'
    refine ⟨hs.authMode, hid.trans (congrArg some hs.webhookId.symm), ?_, rfl, ?_, ?_, ?_, ?_, ?_,
      hs.provider⟩
    · rw [hs.cimdSession, hs.authMode]
      exact hcimdMode
    · have := hb.webhooks
      rw [hs.webhookId]
      cases cimd <;> exact this
    · intro s
      rw [hs.session, hs.cimdSession]
      have hopen : w₄.openSessions = ((w.opened session).openedIf cimd).openSessions :=
        hb.openSessions
      exact (iff_of_eq (congrArg (s ∈ ·) hopen)).trans World.mem_opened
    · intro hsound
      exact hb.sound (by cases cimd <;> exact hsound)
    · rw [hs.authMode, hs.webhookId]
      exact hs.haAuth
    · rw [hs.authMode]
      exact hs.noneAuth
  · rcases ends_tryCatch_iff.mp h₄ with ⟨_, -, he⟩ | ⟨e', w₅, h₅, h₆⟩
    · cases he
    obtain ⟨⟨e'', he, hx⟩, hw₅⟩ | ⟨_, he, -⟩ := ends_surface
      (initialCfg args webhookId session cimd) ⟨rfl, rfl, rfl⟩ h₅
    swap
    · cases he
    cases he
    rw [if_pos hx] at h₆
    rcases ends_bind_iff.mp h₆ with ⟨_, w₆, h₇, h₈⟩ | ⟨_, h₇, -⟩
    · obtain ⟨-, rfl⟩ := ends_raise_iff.mp h₈
      exact .inl ⟨e, rfl, binds_discard hfree hfresh hcimdFresh hw₅ (ends_discard h₇).2⟩
    · cases (ends_discard h₇).1

end

/-! ## Runs -/

/-- What holds between any two operations, `live` being the registration that is up. -/
structure Invariant (w : World) (live : Option RegisterArgs) : Prop where
  published : ∀ cfg, w.cfg = some cfg → ∃ args, live = some args ∧
    cfg.authMode = args.authMode ∧ args.webhookId = some cfg.webhookId
  /-- The webhook is registered with Home Assistant iff a cfg is published. -/
  webhooks : ∀ i, i ∈ w.webhooks ↔ ∃ cfg, w.cfg = some cfg ∧ cfg.webhookId = i
  /-- The open sessions are those of the published cfg. -/
  openSessions : ∀ s, s ∈ w.openSessions ↔
    ∃ cfg, w.cfg = some cfg ∧ (s = cfg.session ∨ cfg.cimdSession = some s)
  haAuth : ∀ cfg, w.cfg = some cfg → cfg.authMode = webhookAuthHa →
    cfg.resourceServer = some ⟨cfg.webhookId⟩ ∧ cfg.autoapproveProvider = none
  noneAuth : ∀ cfg args, w.cfg = some cfg → live = some args → cfg.authMode = webhookAuthNone →
    cfg.resourceServer = none ∧ (args.dcrSigningKey ≠ none → args.dcrSigningKey ≠ some [] →
      (cfg.autoapproveProvider.isSome ↔ cfg.dcrSigningKey.isSome))
  /-- While a provider is live, all three bundles are bound. -/
  provider : ∀ cfg, w.cfg = some cfg →
    cfg.resourceServer.isSome ∨ cfg.autoapproveProvider.isSome →
      ∀ b : Bundle, ∀ v ∈ b.views, v ∈ w.views

/-- What the invariant rests on besides: the flags are sound and the published id is not
empty, so that unregistering takes it down. -/
structure Holds (w : World) (live : Option RegisterArgs) : Prop extends Invariant w live where
  sound : FlagsSound w
  nonempty : ∀ cfg, w.cfg = some cfg → cfg.webhookId ≠ []
  down : live = none → w.cfg = none

theorem holds_init : Holds World.init none where
  published _ h := by cases h
  webhooks i := by simp [World.init]
  openSessions s := by simp [World.init]
  haAuth _ h := by cases h
  noneAuth _ _ h := by cases h
  provider _ h := by cases h
  sound b hb := by cases hb
  nonempty _ h := by cases h
  down _ := rfl

/-- While nothing is registered, no webhook and no session is there. -/
theorem Holds.empty {w : World} (h : Holds w none) : w.webhooks = [] ∧ w.openSessions = [] := by
  have hcfg := h.down rfl
  refine ⟨List.eq_nil_iff_forall_not_mem.mpr fun i hi => ?_,
    List.eq_nil_iff_forall_not_mem.mpr fun s hs => ?_⟩
  · obtain ⟨cfg, hc, -⟩ := (h.webhooks i).mp hi
    cases hcfg.symm.trans hc
  · obtain ⟨cfg, hc, -⟩ := (h.openSessions s).mp hs
    cases hcfg.symm.trans hc

/-- Binding views keeps an invariant of a world with nothing registered. -/
theorem Holds.binds {w w' : World} (h : Holds w none) (hb : Binds w w') : Holds w' none := by
  have hcfg : w'.cfg = none := hb.cfg.trans (h.down rfl)
  obtain ⟨hweb, hopen⟩ := h.empty
  refine ⟨⟨?_, ?_, ?_, ?_, ?_, ?_⟩, hb.sound h.sound, ?_, fun _ => hcfg⟩
  · rw [hcfg]
    nofun
  · simp [hcfg, hb.webhooks, hweb]
  · simp [hcfg, hb.openSessions, hopen]
  all_goals
    rw [hcfg]
    nofun

/-- Unregistering takes down what was registered. -/
theorem Holds.unregistered {w w' : World} {live : Option RegisterArgs} {out : Except Err Unit}
    (h : Holds w live) (hr : Ends w asyncUnregisterWebhook out w') : Holds w' none := by
  have hnone {w₁ : World} (hcfg : w₁.cfg = none) (hweb : ∀ i, i ∉ w₁.webhooks)
      (hopen : ∀ s, s ∉ w₁.openSessions) (hsound : FlagsSound w₁) : Holds w₁ none := by
    refine ⟨⟨?_, by simp [hweb, hcfg], by simp [hopen, hcfg], ?_, ?_, ?_⟩, hsound, ?_, fun _ => hcfg⟩
    all_goals
      rw [hcfg]
      nofun
  rcases ends_bind_iff.mp hr with ⟨popped, w₁, h₁, h₂⟩ | ⟨e, h₁, -⟩
  swap
  · cases (ends_await_iff.mp h₁).1.1
  obtain ⟨⟨hp, rfl⟩, -⟩ := ends_await_iff.mp h₁
  cases hp
  cases hcfg : w.cfg with
  | none =>
    rw [hcfg] at h₂
    obtain ⟨-, rfl⟩ := ends_ret_iff.mp h₂
    refine hnone rfl (fun i hi => ?_) (fun s hs => ?_) h.sound
    · obtain ⟨cfg, hc, -⟩ := (h.webhooks i).mp hi
      cases hcfg.symm.trans hc
    · obtain ⟨cfg, hc, -⟩ := (h.openSessions s).mp hs
      cases hcfg.symm.trans hc
  | some cfg =>
    rw [hcfg] at h₂
    have honly {cfg' : Cfg} (hc : w.cfg = some cfg') : cfg' = cfg :=
      Option.some.inj (hc.symm.trans hcfg)
    have hid {out : Except Err Unit} {w₁ w₂ : World}
        (h : Ends w₁ (unregisterId cfg.webhookId) out w₂) :
        out = .ok () ∧ w₂ = w₁.without cfg.webhookId := by
      rw [unregisterId, if_neg (‹Holds w live›.nonempty cfg hcfg)] at h
      exact ends_asyncUnregister h
    rcases ends_bind_iff.mp h₂ with ⟨u, w₂, h₃, h₄⟩ | ⟨e, h₃, -⟩
    swap
    · cases (hid h₃).1
    obtain ⟨-, rfl⟩ := hid h₃
    rcases ends_bind_iff.mp h₄ with ⟨u, w₃, h₅, h₆⟩ | ⟨e, h₅, -⟩
    swap
    · cases (ends_closeSession h₅).1
    obtain ⟨-, rfl⟩ := ends_closeSession h₅
    obtain ⟨-, rfl⟩ := ends_closeIfOpen h₆
    have hkeep (c : Option SessionId) (w₁ : World) : (w₁.closedIf c).cfg = w₁.cfg ∧
        (w₁.closedIf c).webhooks = w₁.webhooks ∧ (w₁.closedIf c).views = w₁.views ∧
        (w₁.closedIf c).viewFlags = w₁.viewFlags := by
      cases c <;> exact ⟨rfl, rfl, rfl, rfl⟩
    refine hnone (hkeep _ _).1 (fun i hi => ?_) (fun s hs => ?_) ?_
    · rw [(hkeep _ _).2.1] at hi
      obtain ⟨hi, hne⟩ := List.mem_filter.mp hi
      obtain ⟨cfg', hc, rfl⟩ := (h.webhooks i).mp hi
      simp [honly hc] at hne
    · have hs' : s ∈ w.openSessions ∧ s ≠ cfg.session ∧ cfg.cimdSession ≠ some s := by
        cases hcimd : cfg.cimdSession with
        | none => simpa [hcimd, World.closedIf, World.closed, World.without] using hs
        | some c =>
          obtain ⟨hmem, hc, hne⟩ : s ∈ w.openSessions ∧ s ≠ c ∧ s ≠ cfg.session := by
            simpa [hcimd, World.closedIf, World.closed, World.without] using hs
          exact ⟨hmem, hne, fun he => hc (Option.some.inj he).symm⟩
      obtain ⟨hmem, hne, hne'⟩ := hs'
      obtain ⟨cfg', hc, hor⟩ := (h.openSessions s).mp hmem
      rw [honly hc] at hor
      exact hor.elim hne hne'
    · intro b hb v hv
      rw [(hkeep _ _).2.2.2] at hb
      rw [(hkeep _ _).2.2.1]
      exact h.sound b hb v hv

section

variable [Runtime]

/-- A failed registration keeps the invariant and leaves nothing but bound views. -/
theorem Holds.failed {w w' : World} {args : RegisterArgs} {e : Err} (h : Holds w none)
    (hr : Ends w (asyncRegisterWebhook args) (.error e) w') : Binds w w' ∧ Holds w' none := by
  have hfree : ∀ i, args.webhookId = some i → i ∉ w.webhooks := fun i _ => by
    rw [h.empty.1]
    exact List.not_mem_nil
  rcases ends_asyncRegisterWebhook hr hfree with ⟨e', -, hb⟩ | ⟨he, -⟩
  · exact ⟨hb, h.binds hb⟩
  · cases he

theorem Holds.registered {w w' : World} {args : RegisterArgs} (h : Holds w none)
    (hid : args.webhookId ≠ some []) (hr : Ends w (asyncRegisterWebhook args) (.ok ()) w') :
    Holds w' (some args) := by
  obtain ⟨hweb, hopen⟩ := h.empty
  have hfree : ∀ i, args.webhookId = some i → i ∉ w.webhooks := fun i _ => by simp [hweb]
  rcases ends_asyncRegisterWebhook hr hfree with ⟨e, he, -⟩ | ⟨-, cfg, hc⟩
  · cases he
  have honly {cfg' : Cfg} (hcfg' : w'.cfg = some cfg') : cfg' = cfg :=
    Option.some.inj (hcfg'.symm.trans hc.published)
  have hsound := hc.sound h.sound
  refine ⟨⟨?_, ?_, ?_, ?_, ?_, ?_⟩, hsound, ?_, nofun⟩
  · rintro cfg' hcfg'
    rw [honly hcfg']
    exact ⟨args, rfl, hc.authMode, hc.webhookId⟩
  · intro i
    simp only [hc.webhooks, hweb, List.mem_singleton, hc.published, Option.some.injEq,
      exists_eq_left']
    exact eq_comm
  · intro s
    simp only [hc.openSessions, hopen, List.not_mem_nil, or_false, hc.published,
      Option.some.injEq, exists_eq_left']
  · rintro cfg' hcfg'
    rw [honly hcfg']
    exact hc.haAuth
  · rintro cfg' args' hcfg' hargs'
    rw [honly hcfg', ← Option.some.inj hargs']
    exact hc.noneAuth
  · rintro cfg' hcfg' hlive b
    rw [honly hcfg'] at hlive
    exact hsound b (hc.provider hlive b)
  · rintro cfg' hcfg' hnil
    rw [honly hcfg'] at hnil
    exact hid (hc.webhookId.trans (congrArg some hnil))

/-- The worlds between operations, with the last successful registration that has not been
unregistered. A registration is only started where there is none. -/
inductive Reaches : World → Option RegisterArgs → Prop
  | init : Reaches World.init none
  | registered {w w' : World} {args : RegisterArgs} : Reaches w none → args.webhookId ≠ some [] →
      Ends w (asyncRegisterWebhook args) (.ok ()) w' → Reaches w' (some args)
  | failed {w w' : World} {args : RegisterArgs} {e : Err} : Reaches w none →
      args.webhookId ≠ some [] → Ends w (asyncRegisterWebhook args) (.error e) w' → Reaches w' none
  | unregistered {w w' : World} {live : Option RegisterArgs} {out : Except Err Unit} :
      Reaches w live → Ends w asyncUnregisterWebhook out w' → Reaches w' none

theorem Reaches.holds {w : World} {live : Option RegisterArgs} (h : Reaches w live) :
    Holds w live := by
  induction h with
  | init => exact holds_init
  | registered _ hid hr ih => exact ih.registered hid hr
  | failed _ _ hr ih => exact (ih.failed hr).2
  | unregistered _ hr ih => exact ih.unregistered hr

/-- The registration invariant, and what a registration that fails leaves behind. -/
theorem registrationInvariant {w : World} {live : Option RegisterArgs} (h : Reaches w live) :
    Invariant w live ∧
    ∀ args e w', live = none → Ends w (asyncRegisterWebhook args) (.error e) w' → Binds w w' := by
  refine ⟨h.holds.toInvariant, fun args e w' hlive hr => ?_⟩
  subst hlive
  exact (h.holds.failed hr).1

end

/-! ## Runs that succeed, and one that does not -/

theorem handleClosing_serve (w : World) (c : Cmd) :
    handleClosing w c (serve w c).1 (serve w c).2 := by
  refine ⟨handle_serve w c, ?_⟩
  cases c <;> trivial

/-- A `ha_auth` entry with a given key. -/
def haEntry (key : Str) : RegisterArgs := ⟨some "hook", 9590, "/mcp", webhookAuthHa, some key⟩

/-- The world after one operation in which everything succeeds that can. -/
def World.after (w : World) (p : Coro Unit) : World := (execIn serve w p).2

theorem registrationInvariant_haEntry :
    letI := asciiRuntime
    let w := World.init.after (asyncRegisterWebhook (haEntry "00ff"))
    w.webhooks = ["hook"] ∧ w.openSessions = [2, 1] ∧ Invariant w (some (haEntry "00ff")) := by
  let := asciiRuntime
  have hends := ends_execIn handleClosing_serve World.init (asyncRegisterWebhook (haEntry "00ff"))
  exact ⟨rfl, rfl, (registrationInvariant (.registered .init (by decide) hends)).1⟩

/-- A registration that leaves nothing at all behind. -/
def LeavesNoTrace (w w' : World) : Prop :=
  w'.cfg = w.cfg ∧ w'.webhooks = w.webhooks ∧ w'.openSessions = w.openSessions ∧
    w'.sent = w.sent ∧ w'.views = w.views ∧ w'.viewFlags = w.viewFlags

/-- A key that is no hexadecimal text makes a `ha_auth` registration fail with its views
bound. -/
theorem not_forall_leavesNoTrace :
    letI := asciiRuntime
    ¬ ∀ w live, Reaches w live → Invariant w live ∧ ∀ args e w', live = none →
      Ends w (asyncRegisterWebhook args) (.error e) w' → LeavesNoTrace w w' := by
  let := asciiRuntime
  intro h
  have hends := ends_execIn handleClosing_serve World.init (asyncRegisterWebhook (haEntry "zz"))
  obtain ⟨-, -, -, -, -, hflags⟩ := (h _ _ .init).2 _ _ _ rfl hends
  cases hflags

end EsphomeMcp.Webhook
