import EsphomeMcp.Webhook.Forward
import EsphomeMcp.Webhook.Setup

/-!
# The admin gate

Webhook requests, registrations and unregistrations take turns in one Home Assistant, one
command at a time and in any order. A request reads the cfg before it validates the token and
reads its body, so the cfg it passed the gate of may be long gone when it sends.

* A request is sent only after its own cfg let it in (`sends_admitted`).
* A cfg without a resource server was registered in `none` mode: `async_register_webhook`
  publishes no other (`issues_asyncRegisterWebhook`).
* What a request sends goes through the session of the cfg it read, which
  `async_unregister_webhook` has closed when it returns (`closes_of_returns`).
-/

namespace EsphomeMcp.Webhook

open Py Py.Prog

/-! ## Threads -/

/-- What a thread runs. -/
inductive Job where
  | request (fuel : ℕ) (request : Request)
  | register (args : RegisterArgs)
  | unregister

/-- What a request's cfg is, as read from `hass.data`. -/
def ReadCfg (past : List Event) (cfg : Cfg) : Prop :=
  ⟨.activeWebhookCfg, .ok (some cfg)⟩ ∈ past

/-- Core's validator has accepted `token` and returned `user`, awaited or not. -/
def Validated (past : List Event) (token : Str) (user : User) : Prop :=
  ⟨.asyncValidateAccessToken token, .ok (.result (some (some user)))⟩ ∈ past ∨
  ∃ i, ⟨.asyncValidateAccessToken token, .ok (.awaitable i)⟩ ∈ past ∧
    ⟨.awaitValidation i, .ok (some (some user))⟩ ∈ past

/-- The bearer token of the request was accepted, as that of an active human administrator. -/
def AcceptedAdmin [Runtime] (request : Request) (past : List Event) : Prop :=
  ∃ token user, bearerToken request = some token ∧ token ≠ [] ∧ Validated past token user ∧
    user.isActive ∧ user.isAdmin ∧ ¬ user.systemGenerated

/-- A cfg whose gate is open was registered in `none` mode. -/
def WellModed (cfg : Cfg) : Prop := cfg.resourceServer = none → cfg.authMode = webhookAuthNone

/-- What setting up and tearing down may issue: nothing is sent, and what is published is
well moded. -/
def SetsUp : Cmd → Prop
  | .publish cfg => WellModed cfg
  | .sessionRequest _ => False
  | _ => True

/-- What the gate may issue: calls of core's validator. -/
def Validates : Cmd → Prop
  | .asyncValidateAccessToken _ => True
  | .awaitValidation _ => True
  | _ => False

theorem SetsUp.of_validates {c : Cmd} (h : Validates c) : SetsUp c := by
  cases c with
  | asyncValidateAccessToken _ | awaitValidation _ => trivial
  | _ => cases h

/-! ## Exceptions -/

theorem Issues.except {P : Cmd → Prop} {α : Type} {kind : Err → Bool} {p : Coro α}
    {h : Err → Coro α} (hp : Issues P p) (hh : ∀ e, Issues P (h e)) :
    Issues P (except kind p h) := by
  refine Issues.tryCatch hp fun e => ?_
  split
  · exact hh e
  · trivial

theorem Issues.suppress {P : Cmd → Prop} {kind : Err → Bool} {p : Coro Unit} (hp : Issues P p) :
    Issues P (suppress kind p) :=
  Issues.except hp fun _ => trivial

theorem runs_except_ok {α : Type} {kind : Err → Bool} {p : Coro α} {h : Err → Coro α}
    {tr : List Event} {a : α} (hr : Runs (except kind p h) tr (.ok a)) :
    Runs p tr (.ok a) ∨ ∃ e tr₁ tr₂, Runs p tr₁ (.error e) ∧ Runs (h e) tr₂ (.ok a) := by
  rcases runs_tryCatch_iff.mp hr with ⟨b, hp, hb⟩ | ⟨e, tr₁, tr₂, hp, hh, rfl⟩
  · cases hb
    exact .inl hp
  · split at hh
    · exact .inr ⟨e, tr₁, tr₂, hp, hh⟩
    · simp at hh

/-! ## What a registration publishes -/

theorem issues_registerViews (vs : List View) : Issues SetsUp (registerViews vs) := by
  induction vs with
  | nil => trivial
  | cons v vs ih => exact Issues.bind (Issues.perform trivial) fun _ => ih

theorem issues_bindBundle (bundle : Bundle) : Issues SetsUp (bindBundle bundle) := by
  refine Issues.bind (Issues.perform trivial) fun registered => ?_
  cases registered with
  | true => trivial
  | false => exact Issues.bind (issues_registerViews _) fun _ => Issues.perform trivial

theorem issues_bindHaAuthSurface (cfg : Cfg) (webhookId : Str) (key : Option Str) :
    Issues SetsUp (bindHaAuthSurface cfg webhookId key) :=
  Issues.bind (issues_bindBundle _) fun _ => Issues.bind (issues_bindBundle _) fun _ =>
    Issues.bind (issues_bindBundle _) fun _ => Issues.ofExcept _

theorem issues_bindNoneSurface (cfg : Cfg) (key : Option Str) :
    Issues SetsUp (bindNoneSurface cfg key) :=
  Issues.except
    (Issues.bind (issues_bindBundle _) fun _ => Issues.bind (issues_bindBundle _) fun _ =>
      Issues.bind (issues_bindBundle _) fun _ => Issues.bind (Issues.ofExcept _) fun _ => trivial)
    fun _ => trivial

theorem issues_closeIfOpen (session : Option SessionId) : Issues SetsUp (closeIfOpen session) := by
  cases session with
  | none => trivial
  | some s => exact Issues.perform trivial

theorem issues_unregisterId (webhookId : Str) : Issues SetsUp (unregisterId webhookId) := by
  unfold unregisterId
  split
  · trivial
  · exact Issues.perform trivial

theorem issues_discard (webhookId : Str) (session : SessionId) (cimd : Option SessionId) :
    Issues SetsUp (discard webhookId session cimd) := by
  exact Issues.bind (Issues.suppress (Issues.perform trivial)) fun _ =>
    Issues.bind (Issues.suppress (Issues.perform trivial)) fun _ =>
      Issues.suppress (issues_closeIfOpen cimd)

theorem issues_openCimd (authMode : Str) (session : SessionId) :
    Issues SetsUp (openCimd authMode session) := by
  unfold openCimd
  split
  · exact Issues.except (Issues.bind (Issues.perform trivial) fun _ => trivial) fun _ =>
      Issues.bind (Issues.perform trivial) fun _ => trivial
  · trivial

/-- Setting the key changes nothing else. -/
theorem setSigningKey_ok {cfg cfg' : Cfg} {key : Option Str} (h : setSigningKey cfg key = .ok cfg') :
    ∃ k, cfg' = { cfg with dcrSigningKey := k } := by
  unfold setSigningKey at h
  split at h
  · rename_i c key
    cases hk : parseKey (c :: key) with
    | error e => simp [hk, Except.map] at h
    | ok k =>
      simp only [hk, Except.map, Except.ok.injEq] at h
      exact ⟨some k, h.symm⟩
  · cases h
    exact ⟨cfg.dcrSigningKey, rfl⟩

/-- A `ha_auth` surface that is bound has a resource server. -/
theorem returns_bindHaAuthSurface {cfg cfg' : Cfg} {webhookId : Str} {key : Option Str}
    {tr : List Event} (h : Runs (bindHaAuthSurface cfg webhookId key) tr (.ok cfg')) :
    ∃ k, cfg' = { cfg with resourceServer := some ⟨webhookId⟩, dcrSigningKey := k } := by
  simp only [bindHaAuthSurface, bind_eq, runs_bind_iff, runs_ofExcept_iff] at h
  obtain ⟨_, _, _, -, ⟨_, _, _, -, ⟨_, _, _, -, ⟨-, h⟩, -⟩ | ⟨_, -, h⟩, -⟩ | ⟨_, -, h⟩, -⟩ |
    ⟨_, -, h⟩ := h
  · exact setSigningKey_ok h.symm
  all_goals cases h

/-- Binding the `none` surface sets no resource server and leaves the mode alone. -/
theorem returns_bindNoneSurface {cfg cfg' : Cfg} {key : Option Str} {tr : List Event}
    (h : Runs (bindNoneSurface cfg key) tr (.ok cfg')) :
    cfg'.authMode = cfg.authMode := by
  rcases runs_except_ok h with h | ⟨e, _, _, -, h⟩
  · simp only [bind_eq, runs_bind_iff, runs_ofExcept_iff, pure_eq, runs_ret_iff] at h
    obtain ⟨_, _, _, -, ⟨_, _, _, -, ⟨_, _, _, -, ⟨cfg₁, _, _, ⟨-, h₁⟩, ⟨-, h⟩, -⟩ | ⟨_, -, h⟩, -⟩ |
      ⟨_, -, h⟩, -⟩ | ⟨_, -, h⟩, -⟩ | ⟨_, -, h⟩ := h
    · obtain ⟨k, rfl⟩ := setSigningKey_ok h₁.symm
      cases h
      rfl
    all_goals cases h
  · simp only [pure_eq, runs_ret_iff, Except.ok.injEq] at h
    rw [h.2]

section

variable [Runtime]

/-- A registration sends nothing and publishes only a well-moded cfg. -/
theorem issues_asyncRegisterWebhook (args : RegisterArgs) :
    Issues SetsUp (asyncRegisterWebhook args) := by
  unfold asyncRegisterWebhook
  split
  · trivial
  rename_i hmode
  split
  · trivial
  rename_i webhookId _
  refine Issues.bind (Issues.perform trivial) fun _ => Issues.bind (Issues.perform trivial)
    fun session => Issues.bind (issues_openCimd _ _) fun cimd => ?_
  refine Issues.bind_of_returns (Q := WellModed) ?_ ?_ fun cfg hcfg => Issues.perform hcfg
  · refine Issues.except (Issues.bind (Issues.perform trivial) fun _ => ?_) fun e =>
      Issues.bind (issues_discard _ _ _) fun _ => trivial
    split
    · exact issues_bindHaAuthSurface _ _ _
    · exact issues_bindNoneSurface _ _
  · intro tr cfg h
    rcases runs_except_ok h with h | ⟨e, _, _, -, h⟩
    · rw [bind_eq, runs_bind_iff] at h
      obtain ⟨_, _, _, -, h, -⟩ | ⟨_, -, h⟩ := h
      · by_cases ha : args.authMode = webhookAuthHa
        · rw [if_pos ha] at h
          obtain ⟨k, rfl⟩ := returns_bindHaAuthSurface h
          nofun
        · rw [if_neg ha] at h
          have hnone : args.authMode = webhookAuthNone := by simpa [ha] using hmode
          exact fun _ => (returns_bindNoneSurface h).trans hnone
      · cases h
    · simp [runs_bind_iff] at h

end

/-- Unregistering sends and publishes nothing. -/
theorem issues_asyncUnregisterWebhook : Issues SetsUp asyncUnregisterWebhook := by
  refine Issues.bind (Issues.perform trivial) fun cfg => ?_
  cases cfg with
  | none => trivial
  | some cfg =>
    exact Issues.bind (issues_unregisterId _) fun _ =>
      Issues.bind (Issues.perform trivial) fun _ => issues_closeIfOpen _

/-- An unregistration that returned has closed the session of the cfg it took down. -/
theorem closes_of_returns {tr : List Event} (h : Runs asyncUnregisterWebhook tr (.ok ()))
    {cfg : Cfg} (hcfg : ⟨.popCfg, .ok (some cfg)⟩ ∈ tr) :
    ⟨.closeSession cfg.session, .ok ()⟩ ∈ tr := by
  rcases runs_bind_iff.mp h with ⟨popped, tr₁, tr₂, h₁, h₂, rfl⟩ | ⟨_, -, h⟩
  swap
  · cases h
  rw [await, runs_perform_iff] at h₁
  subst h₁
  cases popped with
  | none =>
    simp only [pure_eq, runs_ret_iff] at h₂
    simp [h₂.1] at hcfg
  | some cfg' =>
    rcases runs_bind_iff.mp h₂ with ⟨u, tr₃, tr₄, h₃, h₄, rfl⟩ | ⟨_, -, h⟩
    swap
    · cases h
    rcases runs_bind_iff.mp h₄ with ⟨u', tr₅, tr₆, h₅, h₆, rfl⟩ | ⟨_, -, h⟩
    swap
    · cases h
    rw [await, runs_perform_iff] at h₅
    subst h₅
    -- the cfg is popped once
    have hid : Issues (fun c : Cmd => c ≠ Cmd.popCfg) (unregisterId cfg'.webhookId) := by
      unfold unregisterId
      split
      · trivial
      · exact Issues.perform (by simp)
    have hclose : Issues (fun c : Cmd => c ≠ Cmd.popCfg) (closeIfOpen cfg'.cimdSession) := by
      unfold closeIfOpen
      split
      · exact Issues.perform (by simp)
      · trivial
    have hsame : cfg = cfg' := by
      simp only [List.cons_append, List.nil_append, List.mem_cons, List.mem_append] at hcfg
      rcases hcfg with he | hmem | he | hmem
      · simpa using he
      · exact absurd rfl (hid.of_runs h₃ _ hmem)
      · cases congrArg Event.cmd he
      · exact absurd rfl (hclose.of_runs h₆ _ hmem)
    subst hsame
    simp

/-! ## What a request exchanges before it sends -/

theorem issues_relayChunks (fuel : ℕ) : Issues SetsUp (relayChunks fuel) := by
  induction fuel with
  | zero => trivial
  | succ fuel ih =>
    refine Issues.bind (Issues.perform trivial) fun chunk => ?_
    cases chunk with
    | none => trivial
    | some chunk => exact Issues.bind (Issues.perform trivial) fun _ => ih

section

variable [Runtime]

/-- Relaying an answer sends nothing more. -/
theorem issues_relay (fuel : ℕ) (upstream : Upstream) : Issues SetsUp (relay fuel upstream) := by
  simp only [relay]
  split
  · exact Issues.bind (Issues.perform trivial) fun _ =>
      Issues.bind (Issues.except (issues_relayChunks fuel) fun _ => trivial) fun _ =>
        Issues.bind (Issues.suppress (Issues.perform trivial)) fun _ => trivial
  · exact Issues.bind (Issues.perform trivial) fun _ => trivial

theorem issues_validateRequest (request : Request) : Issues Validates (validateRequest request) := by
  unfold validateRequest
  split
  · trivial
  · refine Issues.bind (Issues.except (Issues.bind (Issues.perform trivial) fun v => ?_)
      fun _ => trivial) fun result => ?_
    · cases v with
      | result v => trivial
      | awaitable i => exact Issues.bind (Issues.perform trivial) fun _ => trivial
    · split <;> trivial

theorem issues_checkWebhookAuth (request : Request) (cfg : Cfg) :
    Issues Validates (checkWebhookAuth request cfg) := by
  unfold checkWebhookAuth
  split
  · trivial
  · refine Issues.bind (issues_validateRequest request) fun ok => ?_
    cases ok <;> trivial

/-- The gate is passed by an open cfg, without an exchange, or by an administrator's token. -/
theorem accepted_of_checkWebhookAuth {request : Request} {cfg : Cfg} {tr : List Event}
    (h : Runs (checkWebhookAuth request cfg) tr (.ok none)) :
    cfg.resourceServer = none ∨ AcceptedAdmin request tr := by
  unfold checkWebhookAuth at h
  split at h
  · exact .inl ‹_›
  right
  rcases runs_bind_iff.mp h with ⟨ok, tr₁, tr₂, h₁, h₂, rfl⟩ | ⟨_, -, h⟩
  swap
  · cases h
  cases ok with
  | false => simp at h₂
  | true =>
    obtain rfl : tr₂ = [] := by simpa using h₂
    rw [List.append_nil]
    unfold validateRequest at h₁
    split at h₁
    · simp at h₁
    rename_i token htoken
    rcases runs_bind_iff.mp h₁ with ⟨result, tr₃, tr₄, h₃, h₄, rfl⟩ | ⟨_, -, h⟩
    swap
    · cases h
    split at h₄
    swap
    · simp at h₄
    rename_i user
    obtain ⟨rfl, huser⟩ : tr₄ = [] ∧ true = userAllowed user := by simpa using h₄
    rw [List.append_nil]
    have hvalid : Validated tr₃ token user := by
      rcases runs_except_ok h₃ with h | ⟨e, _, _, -, h⟩
      · rcases runs_bind_iff.mp h with ⟨v, tr₅, tr₆, h₅, h₆, rfl⟩ | ⟨_, -, h⟩
        swap
        · cases h
        rw [await, runs_perform_iff] at h₅
        subst h₅
        cases v with
        | result v =>
          obtain ⟨rfl, rfl⟩ : tr₆ = [] ∧ some (some user) = v := by simpa using h₆
          exact .inl (by simp)
        | awaitable i =>
          rcases runs_bind_iff.mp h₆ with ⟨v, tr₇, tr₈, h₇, h₈, rfl⟩ | ⟨_, -, h⟩
          swap
          · cases h
          rw [await, runs_perform_iff] at h₇
          subst h₇
          obtain ⟨rfl, rfl⟩ : tr₈ = [] ∧ some (some user) = v := by simpa using h₈
          exact .inr ⟨i, by simp, by simp⟩
      · simp at h
    have hne : token ≠ [] := by
      simp only [bearerToken] at htoken
      split_ifs at htoken with _ hempty
      cases htoken
      exact hempty
    have hallowed : user.isActive ∧ user.isAdmin ∧ ¬ user.systemGenerated := by
      simp only [userAllowed] at huser
      split_ifs at huser with hsys hactive
      exact ⟨by simpa using hactive, huser.symm, hsys⟩
    exact ⟨token, user, htoken, hne, hvalid, hallowed⟩

/-- Sending is the first thing `forward` does, and the only time it sends. -/
theorem runs_forward {fuel : ℕ} {o : Outgoing} {tr : List Event} {out : Except Err Response}
    (h : Runs (forward fuel o) tr out) :
    ∃ r rest, tr = ⟨.sessionRequest o, r⟩ :: rest ∧ ∀ ev ∈ rest, SetsUp ev.cmd := by
  obtain ⟨r, rest, rfl, hk⟩ := runs_call_iff.mp h
  have hhandler : ∀ e : Err, Issues SetsUp (if e.isClientError then
      (return ⟨502, [], .text "ESPHome MCP server unavailable"⟩ : Coro Response)
      else if e.isException then return ⟨500, [], .text "ESPHome MCP server internal error"⟩
      else .raise e) := by
    intro e
    split
    · trivial
    · split <;> trivial
  refine ⟨r, rest, rfl, Issues.of_runs ?_ hk⟩
  cases r with
  | error e => exact hhandler e
  | ok upstream => exact Issues.tryCatch (issues_relay fuel upstream) hhandler

/-- Up to a send, a request reads one cfg, passes its gate and reads its body; behind it,
nothing more is sent. -/
theorem runs_asyncHandleWebhook {fuel : ℕ} {request : Request} {tr : List Event}
    {out : Except Err Response} (h : Runs (asyncHandleWebhook fuel request) tr out) :
    (∀ ev ∈ tr, SetsUp ev.cmd) ∨
    ∃ cfg gate body r rest,
      tr = ⟨.activeWebhookCfg, .ok (some cfg)⟩ :: (gate ++ [⟨.readBody, .ok body⟩]) ++
        ⟨.sessionRequest (outgoing request cfg body), r⟩ :: rest ∧
      Runs (checkWebhookAuth request cfg) gate (.ok none) ∧ ∀ ev ∈ rest, SetsUp ev.cmd := by
  rcases runs_bind_iff.mp h with ⟨read, tr₁, tr₂, h₁, h₂, rfl⟩ | ⟨e, h₁, -⟩
  swap
  · have hread : Issues SetsUp (await .activeWebhookCfg) := Issues.perform trivial
    exact .inl (hread.of_runs h₁)
  rw [await, runs_perform_iff] at h₁
  subst h₁
  cases read with
  | none =>
    obtain rfl : tr₂ = [] := by
      simp only [pure_eq, runs_ret_iff] at h₂
      exact h₂.1
    exact .inl fun ev hev => by rw [List.mem_singleton.mp hev]; trivial
  | some cfg =>
    have hsetsUp {gate : List Event} {answer : Except Err (Option Response)}
        (h : Runs (checkWebhookAuth request cfg) gate answer) : ∀ ev ∈ gate, SetsUp ev.cmd :=
      fun ev hev => .of_validates ((issues_checkWebhookAuth request cfg).of_runs h ev hev)
    rcases runs_bind_iff.mp h₂ with ⟨answer, gate, tr₃, h₃, h₄, rfl⟩ | ⟨e, h₃, -⟩
    swap
    · exact .inl fun ev hev => by
        rcases List.mem_cons.mp hev with rfl | hev
        · trivial
        · exact hsetsUp h₃ ev hev
    have hgate := hsetsUp h₃
    cases answer with
    | some response =>
      obtain rfl : tr₃ = [] := by
        simp only [pure_eq, runs_ret_iff] at h₄
        exact h₄.1
      rw [List.append_nil]
      exact .inl fun ev hev => by
        rcases List.mem_cons.mp hev with rfl | hev
        · trivial
        · exact hgate ev hev
    | none =>
      rcases runs_bind_iff.mp h₄ with ⟨body, tr₄, tr₅, h₅, h₆, rfl⟩ | ⟨e, h₅, -⟩
      · rw [await, runs_perform_iff] at h₅
        subst h₅
        obtain ⟨r, rest, rfl, hrest⟩ := runs_forward h₆
        exact .inr ⟨cfg, gate, body, r, rest, by simp, h₃, hrest⟩
      · rw [await, runs_perform_iff] at h₅
        subst h₅
        refine .inl fun ev hev => ?_
        simp only [List.cons_append, List.nil_append, List.mem_cons, List.mem_append,
          List.not_mem_nil, or_false] at hev
        rcases hev with rfl | hev | rfl
        · trivial
        · exact hgate ev hev
        · trivial

end

/-- In a list with one element in `P`, what stands before it is determined. -/
theorem before_unique {α : Type} {P : α → Prop} {pre pre' post post' : List α} {x x' : α}
    (hpre : ∀ a ∈ pre', ¬ P a) (hpost : ∀ a ∈ post', ¬ P a) (hx : P x)
    (h : pre ++ x :: post = pre' ++ x' :: post') : pre = pre' := by
  induction pre' generalizing pre with
  | nil =>
    cases pre with
    | nil => rfl
    | cons a pre =>
      simp only [List.cons_append, List.nil_append, List.cons.injEq] at h
      exact absurd hx (hpost x (h.2 ▸ by simp))
  | cons b pre' ih =>
    cases pre with
    | nil =>
      simp only [List.cons_append, List.nil_append, List.cons.injEq] at h
      exact absurd hx (hpre x (by simp [h.1]))
    | cons a pre =>
      simp only [List.cons_append, List.cons.injEq] at h
      rw [h.1, ih (fun a ha => hpre a (List.mem_cons_of_mem _ ha)) h.2]

section

variable [Runtime]

/-- What a request has exchanged when it sends: it read one cfg, whose gate let it in. -/
theorem sends_admitted {fuel : ℕ} {request : Request} {pre post : List Event} {o : Outgoing}
    {r : Except Err Upstream} {out : Except Err Response}
    (h : Runs (asyncHandleWebhook fuel request) (pre ++ ⟨.sessionRequest o, r⟩ :: post) out) :
    ∃ cfg, ReadCfg pre cfg ∧ (∀ cfg', ReadCfg pre cfg' → cfg' = cfg) ∧ o.session = cfg.session ∧
      (cfg.resourceServer = none ∨ AcceptedAdmin request pre) := by
  rcases runs_asyncHandleWebhook h with hno | ⟨cfg, gate, body, r', rest, htr, hgate, hrest⟩
  · exact absurd (hno ⟨.sessionRequest o, r⟩ (by simp)) id
  have hgate' := (issues_checkWebhookAuth request cfg).of_runs hgate
  have hpre : pre = ⟨.activeWebhookCfg, .ok (some cfg)⟩ :: (gate ++ [⟨.readBody, .ok body⟩]) := by
    refine before_unique (P := fun ev : Event => ¬ SetsUp ev.cmd) ?_ ?_ id htr
    · intro ev hev
      simp only [List.mem_cons, List.mem_append, List.not_mem_nil, or_false] at hev
      rcases hev with rfl | hev | rfl
      · exact not_not_intro trivial
      · exact not_not_intro (.of_validates (hgate' ev hev))
      · exact not_not_intro trivial
    · exact fun ev hev => not_not_intro (hrest ev hev)
  subst hpre
  obtain ⟨he, -⟩ := List.cons.inj (List.append_cancel_left htr)
  obtain rfl : o = outgoing request cfg body := by
    simpa using congrArg Event.cmd he
  refine ⟨cfg, by simp [ReadCfg], fun cfg' hcfg' => ?_, rfl, ?_⟩
  · simp only [ReadCfg, List.mem_cons, List.mem_append, List.not_mem_nil, or_false] at hcfg'
    rcases hcfg' with he | hmem | he
    · simpa using he
    · exact absurd (hgate' _ hmem) id
    · cases congrArg Event.cmd he
  · refine (accepted_of_checkWebhookAuth hgate).imp_right ?_
    rintro ⟨token, user, htoken, hne, hvalid, huser⟩
    refine ⟨token, user, htoken, hne, ?_, huser⟩
    rcases hvalid with hmem | ⟨i, hmem, hmem'⟩
    · exact .inl (by simp [hmem])
    · exact .inr ⟨i, by simp [hmem], by simp [hmem']⟩

/-! ## Taking turns -/

/-- The program of a job, with the response of a request. -/
def start : Job → Coro (Option Response)
  | .request fuel request => do return some (← asyncHandleWebhook fuel request)
  | .register args => do
    asyncRegisterWebhook args
    return none
  | .unregister => do
    asyncUnregisterWebhook
    return none

/-- One Home Assistant with everything under way in it. -/
abbrev State := Pool Sig Err (Option Response) Job World

/-- What can be reached from a fresh Home Assistant, by any interleaving of requests,
registrations and unregistrations. -/
abbrev Reachable (σ : State) : Prop := Pool.Reachable start handle World.init σ

/-- Any number of further steps. -/
abbrev Steps (σ σ' : State) : Prop := Pool.Steps start handle σ σ'

/-- Thread `i` takes one turn. -/
abbrev Turn (i : ℕ) (σ σ' : State) : Prop := Pool.Turn handle i σ σ'

/-- Nothing is sent but by requests whose own cfg let them in. -/
def SendsOnlyAdmitted (σ : State) : Prop :=
  ∀ i σ', Turn i σ σ' → σ'.world.sent ≠ σ.world.sent →
    ∃ past rest fuel request cfg, σ.threads[i]? = some ⟨.request fuel request, past, rest⟩ ∧
      ReadCfg past cfg ∧ (cfg.authMode = webhookAuthNone ∨ AcceptedAdmin request past)

/-- Behind an unregistration that took down `cfg` and returned, no request that read `cfg`
sends any more. -/
def SilentAfterUnregister (σ : State) : Prop :=
  ∀ t ∈ σ.threads, t.job = .unregister → (∃ a, t.rest = .ret a) →
    ∀ cfg, ⟨.popCfg, .ok (some cfg)⟩ ∈ t.past →
      ∀ σ₁ σ₂ i t', Steps σ σ₁ → σ₁.threads[i]? = some t' → ReadCfg t'.past cfg →
        Turn i σ₁ σ₂ → σ₂.world.sent = σ₁.world.sent

end

/-- A send is the one command that changes what has been sent, and only on an open session. -/
theorem sent_of_handle {w w' : World} {c : Cmd} {r : Except Err c.Ans} (h : handle w c r w')
    (hne : w'.sent ≠ w.sent) : ∃ o, c = .sessionRequest o ∧ o.session ∈ w.openSessions := by
  cases c with
  | sessionRequest o =>
    rcases h with ⟨-, rfl⟩ | ⟨ho, -⟩
    · exact absurd rfl hne
    · exact ⟨o, rfl, ho⟩
  | openSession | openCimdSession =>
    rcases h with ⟨s, -, -, -, rfl⟩ | ⟨-, rfl⟩ <;> exact absurd rfl hne
  | asyncRegister i => rcases h with ⟨-, -, rfl⟩ | ⟨-, rfl⟩ <;> exact absurd rfl hne
  | closeSession s => rcases h with rfl | ⟨-, rfl⟩ <;> exact absurd rfl hne
  | registerView v => rcases h with ⟨rfl, -⟩ | ⟨-, rfl⟩ <;> exact absurd rfl hne
  | asyncUnregister _ | activeWebhookCfg | viewsRegistered _ | setViewsRegistered _ | publish _
  | popCfg => obtain ⟨-, rfl⟩ := h; exact absurd rfl hne
  | asyncValidateAccessToken _ | awaitValidation _ | readBody | prepare _ _ | nextChunk
  | writeChunk _ | writeEof | readUpstream => cases h; exact absurd rfl hne

/-- A session that was closed stays closed. -/
def Closed (s : SessionId) (w : World) : Prop := s ∈ w.closedSessions ∧ s ∉ w.openSessions

theorem closed_of_handle {s : SessionId} {w w' : World} {c : Cmd} {r : Except Err c.Ans}
    (h : handle w c r w') (hs : Closed s w) : Closed s w' := by
  obtain ⟨hc, ho⟩ := hs
  cases c with
  | openSession | openCimdSession =>
    rcases h with ⟨s', -, -, hfresh, rfl⟩ | ⟨-, rfl⟩
    · have hne : s ≠ s' := fun he => hfresh (he ▸ hc)
      exact ⟨hc, by simp [World.opened, hne, ho]⟩
    · exact ⟨hc, ho⟩
  | closeSession s' =>
    rcases h with rfl | ⟨-, rfl⟩
    · exact ⟨by simp [World.closed, hc], by simp [World.closed, ho]⟩
    · exact ⟨hc, ho⟩
  | sessionRequest o => rcases h with ⟨-, rfl⟩ | ⟨-, rfl⟩ <;> exact ⟨hc, ho⟩
  | asyncRegister i => rcases h with ⟨-, -, rfl⟩ | ⟨-, rfl⟩ <;> exact ⟨hc, ho⟩
  | registerView v => rcases h with ⟨rfl, -⟩ | ⟨-, rfl⟩ <;> exact ⟨hc, ho⟩
  | asyncUnregister _ | activeWebhookCfg | viewsRegistered _ | setViewsRegistered _ | publish _
  | popCfg => obtain ⟨-, rfl⟩ := h; exact ⟨hc, ho⟩
  | asyncValidateAccessToken _ | awaitValidation _ | readBody | prepare _ _ | nextChunk
  | writeChunk _ | writeEof | readUpstream => cases h; exact ⟨hc, ho⟩

/-! ## The invariant -/

/-- What holds of the world between any two turns: the published cfg is well moded, and no
session is open and closed. -/
structure World.Ok (w : World) : Prop where
  wellModed : ∀ cfg, w.cfg = some cfg → WellModed cfg
  disjoint : ∀ s ∈ w.closedSessions, s ∉ w.openSessions

theorem ok_init : World.init.Ok where
  wellModed cfg h := by cases h
  disjoint s hs := by cases hs

/-- What an exchange of some thread keeps telling about the world. -/
def Recalls (w : World) : Event → Prop
  | ⟨.activeWebhookCfg, .ok (some cfg)⟩ => WellModed cfg
  | ⟨.closeSession s, .ok _⟩ => Closed s w
  | _ => True

/-- The commands that may be issued at all. -/
def Allowed : Cmd → Prop
  | .publish cfg => WellModed cfg
  | _ => True

theorem Allowed.of_setsUp {c : Cmd} (h : SetsUp c) : Allowed c := by
  cases c <;> trivial

/-- An allowed command keeps the invariant, and what it exchanged is recalled. -/
theorem ok_of_handle {w w' : World} {c : Cmd} {r : Except Err c.Ans} (hw : w.Ok)
    (hc : Allowed c) (h : handle w c r w') : w'.Ok ∧ Recalls w' ⟨c, r⟩ := by
  have hopens {r : Except Err SessionId} (h : opens w r w') : w'.Ok := by
    rcases h with ⟨s, -, -, hfresh, rfl⟩ | ⟨-, rfl⟩
    · refine ⟨hw.wellModed, fun s' hs' ho => ?_⟩
      rcases List.mem_cons.mp ho with rfl | ho
      · exact hfresh hs'
      · exact hw.disjoint s' hs' ho
    · exact hw
  cases c with
  | publish cfg =>
    obtain ⟨-, rfl⟩ := h
    exact ⟨⟨fun cfg' he => Option.some.inj he ▸ hc, hw.disjoint⟩, trivial⟩
  | popCfg =>
    obtain ⟨-, rfl⟩ := h
    exact ⟨⟨nofun, hw.disjoint⟩, trivial⟩
  | activeWebhookCfg =>
    obtain ⟨rfl, rfl⟩ := h
    refine ⟨hw, ?_⟩
    cases hcfg : w'.cfg with
    | none => trivial
    | some cfg => exact hw.wellModed cfg hcfg
  | openSession | openCimdSession => exact ⟨hopens h, trivial⟩
  | closeSession s =>
    rcases h with rfl | ⟨⟨e, rfl⟩, rfl⟩
    · have hclosed : Closed s (w.closed s) := by simp [Closed, World.closed]
      refine ⟨⟨hw.wellModed, fun s' hs' ho => ?_⟩, ?_⟩
      · rcases List.mem_cons.mp hs' with rfl | hs'
        · exact hclosed.2 ho
        · exact hw.disjoint s' hs' (List.mem_filter.mp ho).1
      · cases r with
        | ok u => exact hclosed
        | error e => trivial
    · exact ⟨hw, trivial⟩
  | sessionRequest o =>
    rcases h with ⟨-, rfl⟩ | ⟨-, rfl⟩ <;> exact ⟨⟨hw.wellModed, hw.disjoint⟩, trivial⟩
  | asyncRegister i =>
    rcases h with ⟨-, -, rfl⟩ | ⟨-, rfl⟩ <;> exact ⟨⟨hw.wellModed, hw.disjoint⟩, trivial⟩
  | registerView v =>
    rcases h with ⟨rfl, -⟩ | ⟨-, rfl⟩ <;> exact ⟨⟨hw.wellModed, hw.disjoint⟩, trivial⟩
  | asyncUnregister _ | viewsRegistered _ | setViewsRegistered _ =>
    obtain ⟨-, rfl⟩ := h
    exact ⟨⟨hw.wellModed, hw.disjoint⟩, trivial⟩
  | asyncValidateAccessToken _ | awaitValidation _ | readBody | prepare _ _ | nextChunk
  | writeChunk _ | writeEof | readUpstream =>
    cases h
    exact ⟨hw, trivial⟩

theorem recalls_of_handle {w w' : World} {c : Cmd} {r : Except Err c.Ans} {ev : Event}
    (h : handle w c r w') (hev : Recalls w ev) : Recalls w' ev := by
  unfold Recalls at hev ⊢
  split
  · exact hev
  · exact closed_of_handle h hev
  · trivial

section

variable [Runtime]

theorem issues_asyncHandleWebhook (fuel : ℕ) (request : Request) :
    Issues Allowed (asyncHandleWebhook fuel request) := by
  refine Issues.bind (Issues.perform trivial) fun cfg => ?_
  cases cfg with
  | none => trivial
  | some cfg =>
    have hgate : Issues Allowed (checkWebhookAuth request cfg) :=
      Issues.mono (fun _ hc => .of_setsUp (.of_validates hc)) (issues_checkWebhookAuth request cfg)
    refine Issues.bind hgate fun answer => ?_
    cases answer with
    | some response => trivial
    | none =>
      refine Issues.bind (Issues.perform trivial) fun body => Issues.tryCatch ?_ fun e => ?_
      · exact Issues.bind (Issues.perform trivial) fun upstream =>
          Issues.mono (fun _ => .of_setsUp) (issues_relay fuel upstream)
      · split
        · trivial
        · split <;> trivial

theorem issues_start (j : Job) : Issues Allowed (start j) := by
  cases j with
  | register args =>
    exact Issues.bind (Issues.mono (fun _ => .of_setsUp) (issues_asyncRegisterWebhook args))
      fun _ => trivial
  | unregister =>
    exact Issues.bind (Issues.mono (fun _ => .of_setsUp) issues_asyncUnregisterWebhook)
      fun _ => trivial
  | request fuel request =>
    exact Issues.bind (issues_asyncHandleWebhook fuel request) fun _ => trivial

theorem reachable_ok {σ : State} (h : Reachable σ) :
    σ.world.Ok ∧ ∀ t ∈ σ.threads, ∀ ev ∈ t.past, Recalls σ.world ev := by
  have hnew : ∀ w c r w', World.Ok w → Allowed c → handle w c r w' →
      World.Ok w' ∧ Recalls w' ⟨c, r⟩ := fun _ _ _ _ hw hc hh => ok_of_handle hw hc hh
  have hold : ∀ w c r w' ev, handle w c r w' → Recalls w ev → Recalls w' ev :=
    fun _ _ _ _ _ hh hev => recalls_of_handle hh hev
  exact Pool.Reachable.events _ _ _ issues_start ok_init hnew hold h

/-- What a thread has exchanged and what it is about to send is part of a run of its job. -/
theorem runs_of_turn {σ σ' : State} {i : ℕ} (h : Reachable σ) (ht : Turn i σ σ') :
    ∃ j past c k r post out, σ.threads[i]? = some ⟨j, past, .call c k⟩ ∧
      handle σ.world c r σ'.world ∧ Runs (start j) (past ++ ⟨c, r⟩ :: post) out := by
  cases ht with
  | @mk w w' ts j past c k r hi hh =>
    obtain ⟨post, out, hpost⟩ := exists_runs (k r)
    exact ⟨j, past, c, k, r, post, out, hi, hh,
      (Pool.Reachable.follows h _ (List.mem_of_getElem? hi)).runs (.call r hpost)⟩

/-- The request a turn that sends belongs to, with the cfg that let it in. -/
theorem admitted_of_turn {σ σ' : State} {i : ℕ} (h : Reachable σ) (ht : Turn i σ σ')
    (hne : σ'.world.sent ≠ σ.world.sent) :
    ∃ past rest fuel request cfg, σ.threads[i]? = some ⟨.request fuel request, past, rest⟩ ∧
      ReadCfg past cfg ∧ (∀ cfg', ReadCfg past cfg' → cfg' = cfg) ∧
      cfg.session ∈ σ.world.openSessions ∧
      (cfg.resourceServer = none ∨ AcceptedAdmin request past) := by
  obtain ⟨j, past, c, k, r, post, out, hi, hh, hrun⟩ := runs_of_turn h ht
  obtain ⟨o, rfl, hopen⟩ := sent_of_handle hh hne
  cases j with
  | register args =>
    have hissues : Issues SetsUp (start (.register args)) :=
      Issues.bind (issues_asyncRegisterWebhook args) fun _ => trivial
    exact absurd (hissues.of_runs hrun ⟨.sessionRequest o, r⟩ (by simp)) id
  | unregister =>
    have hissues : Issues SetsUp (start .unregister) :=
      Issues.bind issues_asyncUnregisterWebhook fun _ => trivial
    exact absurd (hissues.of_runs hrun ⟨.sessionRequest o, r⟩ (by simp)) id
  | request fuel request =>
    have hrequest : ∃ out, Runs (asyncHandleWebhook fuel request)
        (past ++ ⟨.sessionRequest o, r⟩ :: post) out := by
      rcases runs_bind_iff.mp hrun with ⟨a, tr₁, tr₂, h₁, h₂, htr⟩ | ⟨e, h₁, -⟩
      · obtain rfl : tr₂ = [] := by
          simp only [pure_eq, runs_ret_iff] at h₂
          exact h₂.1
        rw [List.append_nil] at htr
        exact ⟨_, htr ▸ h₁⟩
      · exact ⟨_, h₁⟩
    obtain ⟨out', hrun'⟩ := hrequest
    obtain ⟨cfg, hread, honly, hsession, hin⟩ := sends_admitted hrun'
    exact ⟨past, _, fuel, request, cfg, hi, hread, honly, hsession ▸ hopen, hin⟩

theorem sendsOnlyAdmitted {σ : State} (h : Reachable σ) : SendsOnlyAdmitted σ := by
  intro i σ' ht hne
  obtain ⟨past, rest, fuel, request, cfg, hi, hread, -, -, hin⟩ := admitted_of_turn h ht hne
  refine ⟨past, rest, fuel, request, cfg, hi, hread, hin.imp_left ?_⟩
  exact (reachable_ok h).2 _ (List.mem_of_getElem? hi) _ hread

theorem silentAfterUnregister {σ : State} (h : Reachable σ) : SilentAfterUnregister σ := by
  intro t ht hjob ⟨a, ha⟩ cfg hpop σ₁ σ₂ i t' hsteps hi hread hturn
  -- the thread has returned, so it has closed the session
  have hfollows := Pool.Reachable.follows h t ht
  rw [hjob, ha] at hfollows
  have hrun : Runs (start .unregister) t.past (.ok a) := by
    simpa using hfollows.runs (.ret a)
  have hclosed : Closed cfg.session σ.world := by
    rcases runs_bind_iff.mp hrun with ⟨u, tr₁, tr₂, h₁, h₂, htr⟩ | ⟨_, -, he⟩
    · obtain rfl : tr₂ = [] := by
        simp only [pure_eq, runs_ret_iff] at h₂
        exact h₂.1
      rw [List.append_nil] at htr
      exact (reachable_ok h).2 t ht _ (htr ▸ closes_of_returns h₁ (htr ▸ hpop))
    · cases he
  -- it stays closed, and nobody sends on it
  have hkeep : ∀ w c r w', handle w c r w' → Closed cfg.session w → Closed cfg.session w' :=
    fun _ _ _ _ hh hs => closed_of_handle hh hs
  have hclosed₁ : Closed cfg.session σ₁.world := Pool.Steps.preserves hkeep hsteps hclosed
  by_contra hne
  obtain ⟨past, rest, fuel, request, cfg', hi', -, honly, hopen, -⟩ :=
    admitted_of_turn (h.trans hsteps) hturn hne
  obtain rfl : t' = ⟨.request fuel request, past, rest⟩ := Option.some.inj (hi.symm.trans hi')
  rw [← honly cfg hread] at hopen
  exact hclosed₁.2 hopen

/-- The admin gate, in every state any interleaving can reach. -/
theorem adminGate {σ : State} (h : Reachable σ) : SendsOnlyAdmitted σ ∧ SilentAfterUnregister σ :=
  ⟨sendsOnlyAdmitted h, silentAfterUnregister h⟩

end

/-! ## A schedule -/

/-- A Home Assistant in which everything succeeds that can. -/
def serve (w : World) : (c : Cmd) → Except Err c.Ans × World
  | .activeWebhookCfg => (.ok w.cfg, w)
  | .asyncValidateAccessToken _ => (.ok (.result (some (some ⟨true, true, false⟩))), w)
  | .awaitValidation _ => (.ok none, w)
  | .readBody => (.ok [], w)
  | .sessionRequest o =>
    if o.session ∈ w.openSessions then (.ok ⟨200, []⟩, { w with sent := w.sent ++ [o] })
    else (.error (.exn .other "Session is closed"), w)
  | .prepare _ _ => (.ok (), w)
  | .nextChunk => (.ok none, w)
  | .writeChunk _ => (.ok (), w)
  | .writeEof => (.ok (), w)
  | .readUpstream => (.ok [], w)
  | .asyncUnregister i => (.ok (), { w with webhooks := w.webhooks.filter (· ≠ i) })
  | .asyncRegister i =>
    if i ∈ w.webhooks then (.error (.exn .value "Handler is already defined!"), w)
    else (.ok (), { w with webhooks := i :: w.webhooks })
  | .openSession => (.ok w.freshSession, w.opened w.freshSession)
  | .openCimdSession => (.ok w.freshSession, w.opened w.freshSession)
  | .closeSession s => (.ok (), w.closed s)
  | .viewsRegistered b => (.ok (decide (b ∈ w.viewFlags)), w)
  | .registerView v => (.ok (), { w with views := v :: w.views })
  | .setViewsRegistered b => (.ok (), { w with viewFlags := b :: w.viewFlags })
  | .publish cfg => (.ok (), { w with cfg := some cfg })
  | .popCfg => (.ok w.cfg, { w with cfg := none })

theorem opens_freshSession (w : World) : opens w (.ok w.freshSession) (w.opened w.freshSession) := by
  have hfresh := w.freshSession_not_mem
  exact .inl ⟨_, rfl, fun h => hfresh (List.mem_append_left _ h),
    fun h => hfresh (List.mem_append_right _ h), rfl⟩

theorem handle_serve (w : World) (c : Cmd) : handle w c (serve w c).1 (serve w c).2 := by
  cases c with
  | sessionRequest o =>
    by_cases h : o.session ∈ w.openSessions
    · simp only [serve, if_pos h]
      exact .inr ⟨h, rfl⟩
    · simp only [serve, if_neg h]
      exact .inl ⟨⟨_, rfl⟩, rfl⟩
  | asyncRegister i =>
    by_cases h : i ∈ w.webhooks
    · simp only [serve, if_pos h]
      exact .inr ⟨⟨_, rfl, rfl⟩, rfl⟩
    · simp only [serve, if_neg h]
      exact .inl ⟨rfl, h, rfl⟩
  | openSession | openCimdSession => exact opens_freshSession w
  | closeSession s => exact .inl rfl
  | registerView v => exact .inl ⟨rfl, .inl rfl⟩
  | activeWebhookCfg | asyncUnregister _ | viewsRegistered _ | setViewsRegistered _ | publish _
  | popCfg => exact ⟨rfl, rfl⟩
  | asyncValidateAccessToken _ | awaitValidation _ | readBody | prepare _ _ | nextChunk
  | writeChunk _ | writeEof | readUpstream => rfl

/-- An entry in `none` mode. -/
def noneEntry : RegisterArgs := ⟨some "hook", 9590, "/mcp", webhookAuthNone, some "00ff"⟩

/-- A request with nothing but a method. -/
def ping : Request := ⟨"POST", "https", []⟩

/-- Two requests read the same cfg; one sends before the cfg is unregistered, the other has
still to send when it has been. -/
def lateSend : State :=
  letI := asciiRuntime
  Pool.drive start serve ⟨World.init, []⟩ <|
    .spawn (.register noneEntry) :: List.replicate 21 (.turn 0) ++
    .spawn (.request 0 ping) :: .spawn (.request 0 ping) :: List.replicate 2 (.turn 2) ++
    List.replicate 4 (.turn 1) ++ .spawn .unregister :: List.replicate 3 (.turn 3)

theorem adminGate_lateSend :
    letI := asciiRuntime
    (lateSend.world.cfg = none ∧ lateSend.world.closedSessions = [1] ∧
      lateSend.world.sent = [⟨1, "POST", "http://127.0.0.1:9590/mcp", [], none⟩]) ∧
    SendsOnlyAdmitted lateSend ∧ SilentAfterUnregister lateSend := by
  let := asciiRuntime
  exact ⟨⟨rfl, rfl, rfl⟩, adminGate (Pool.steps_drive handle_serve _ _)⟩

end EsphomeMcp.Webhook
