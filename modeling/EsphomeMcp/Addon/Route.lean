import EsphomeMcp.Addon.Supervisor
import EsphomeMcp.Python.Percent

/-!
# Routes into an add-on

The URL a request to the add-on goes to: straight to its address when a port is given,
else through Home Assistant's ingress proxy under a fresh session cookie.
-/

namespace EsphomeMcp.Addon

open Py Py.Prog

/-- `_normalize_path`: decode once, drop leading slashes, refuse a `..` component. -/
def normalizePath (path : Str) : Option Str :=
  let normalized := lstrip (· = ch '/') (unquote path)
  if str ".." ∈ normalized.splitOn (ch '/') then none else some normalized

/-- `s.replace(old, new, 1)`. -/
def replaceFirst (old new : Str) : Str → Str
  | [] => if old = [] then new else []
  | c :: s =>
    if startsWith (c :: s) old then new ++ (c :: s).drop old.length
    else c :: replaceFirst old new s

/-- `getattr(http, "server_port", None) or 8123`. -/
def Hass.port (hass : Hass) : ℕ :=
  match hass.serverPort with
  | none => 8123
  | some port => if port = 0 then 8123 else port

/-- `_ha_core_base_url`. -/
def haCoreBaseUrl (hass : Hass) : Str := str "http://127.0.0.1:" ++ natRepr hass.port

/-- `_ingress_user_id`: the first active human administrator. -/
def ingressUserId : Coro (Option Str) := do
  let users ← await .users
  return (users.find? fun user => user.isActive && user.isAdmin && !user.systemGenerated).map User.id

/-- The scheme and address in front of an ingress entry. -/
def ingressBase (hass : Hass) (websocket : Bool) : Str :=
  let base := rstrip (· = ch '/') (haCoreBaseUrl hass)
  if websocket then replaceFirst "http://" "ws://" (replaceFirst "https://" "wss://" base) else base

theorem replaceFirst_of_not_mem {c : CodePoint} {old new s : Str} (h : c ∉ s) :
    replaceFirst (c :: old) new s = s := by
  induction s with
  | nil => rfl
  | cons x s ih =>
    rw [List.mem_cons, not_or] at h
    have hpre : startsWith (x :: s) (c :: old) = false := by
      simp [startsWith, List.isPrefixOf, h.1]
    rw [replaceFirst, hpre, if_neg (by simp), ih h.2]

theorem ingressBase_eq (hass : Hass) (websocket : Bool) :
    ingressBase hass websocket =
      (if websocket then str "ws" else str "http") ++ str "://127.0.0.1:" ++ natRepr hass.port := by
  have hdigits : ∀ c ∈ natRepr hass.port, isDigit c = true := fun c => isDigit_of_mem_natRepr
  have hstrip : rstrip (· = ch '/') (haCoreBaseUrl hass) = haCoreBaseUrl hass := by
    obtain ⟨init, last, hl⟩ : ∃ init last, natRepr hass.port = init ++ [last] :=
      ⟨_, _, (List.dropLast_append_getLast (natRepr_ne_nil _)).symm⟩
    have hlast : last ≠ ch '/' := by
      rintro rfl
      exact absurd (hdigits (ch '/') (by simp [hl])) (by decide)
    rw [rstrip, haCoreBaseUrl, hl, ← List.append_assoc, List.reverse_append,
      List.reverse_singleton, List.singleton_append, List.dropWhile_cons, if_neg (by simpa using hlast)]
    simp
  cases websocket with
  | false =>
    rw [ingressBase, hstrip]
    rfl
  | true =>
    have hno : ch 'h' ∉ str "ttp://127.0.0.1:" ++ natRepr hass.port := by
      rw [List.mem_append, not_or]
      exact ⟨by decide, fun hm => absurd (hdigits _ hm) (by decide)⟩
    have hsecure : replaceFirst "https://" "wss://" (haCoreBaseUrl hass) = haCoreBaseUrl hass := by
      have hcons : haCoreBaseUrl hass =
          ch 'h' :: (str "ttp://127.0.0.1:" ++ natRepr hass.port) := rfl
      rw [hcons, replaceFirst, if_neg (by simp [startsWith, str, List.isPrefixOf, ch])]
      exact congrArg _ (@replaceFirst_of_not_mem _ (str "ttps://") _ _ hno)
    rw [ingressBase, hstrip]
    simp only [if_true, hsecure]
    rfl

section

variable [Runtime]

/-- `_create_ingress_session`. -/
def createIngressSession : Coro Dict := do
  match ← ingressUserId with
  | none =>
    return error "No active human administrator is available for the Supervisor ingress session."
      "ingress_user_unavailable" []
  | some userId =>
    let response ← supervisorApiCall "/ingress/session" "POST" (.dict [("user_id", .str userId)])
      (some 30)
    if !isSuccess response then return response
    match (dictGet response "result").get "session" with
    | .str (c :: s) => return success [("session", .str (c :: s))]
    | _ =>
      return error "Supervisor returned no ingress session token." "bad_ingress_session"
        [("supervisor_response", .obj response)]

/-- `_route_for_addon`: a URL with its headers, or an error payload. -/
def routeForAddon (hass : Hass) (addon : Dict) (normalizedPath : Str) (port : Option ℤ)
    (websocket : Bool) : Coro (Except Dict (Str × Headers)) := do
  let addonIp := dictGet addon "ip_address"
  let scheme := if websocket then str "ws" else str "http"
  match port with
  | some port =>
    if !addonIp.truthy then
      return .error (error "ESPHome add-on is missing ip_address." "bad_addon_info" [])
    return .ok (scheme ++ str "://" ++ strOf addonIp ++ str ":" ++ intRepr port ++ str "/" ++
      normalizedPath, [])
  | none =>
    if !(dictGet addon "ingress").truthy then
      return .error (error "ESPHome add-on does not support ingress." "no_ingress" [])
    let ingressEntry := dictGet addon "ingress_entry"
    if !ingressEntry.truthy then
      return .error (error "ESPHome add-on is missing ingress route details." "bad_addon_info" [])
    let session ← createIngressSession
    if !isSuccess session then return .error session
    return .ok (ingressBase hass websocket ++ strOf ingressEntry ++ str "/" ++ normalizedPath,
      [(str "Cookie", str "ingress_session=" ++ strOf (dictGet session "session"))])

/-! ## What a route looks like -/

/-- A route through ingress is the entry and the path behind the base URL. -/
theorem runs_routeForAddon {hass : Hass} {addon : Dict} {path : Str} {websocket : Bool}
    {tr : List Exchange} {url : Str} {headers : Headers}
    (h : Runs (routeForAddon hass addon path none websocket) tr (.ok (.ok (url, headers)))) :
    url = ingressBase hass websocket ++ strOf (dictGet addon "ingress_entry") ++ str "/" ++ path := by
  unfold routeForAddon at h
  simp only at h
  split_ifs at h with hingress hentry
  · obtain ⟨-, he⟩ := runs_ret_iff.mp h
    cases he
  · obtain ⟨-, he⟩ := runs_ret_iff.mp h
    cases he
  · rcases runs_bind_iff.mp h with ⟨session, tr₁, tr₂, -, h₂, -⟩ | ⟨e, -, he⟩
    · split_ifs at h₂
      · obtain ⟨-, he⟩ := runs_ret_iff.mp h₂
        cases he
      · obtain ⟨-, he⟩ := runs_ret_iff.mp h₂
        cases he
        rfl
    · cases he

/-- An ingress session is a token that is not empty. -/
theorem runs_createIngressSession {tr : List Exchange} {d : Dict}
    (h : Runs createIngressSession tr (.ok d)) (hd : isSuccess d = true) :
    ∃ session, session ≠ [] ∧ d = success [("session", .str session)] := by
  have hfailed {p : Dict} {tr : List Exchange} (hp : isSuccess p = false)
      (hr : Runs (ret p : Coro Dict) tr (.ok d)) : False := by
    obtain ⟨-, he⟩ := runs_ret_iff.mp hr
    cases he
    rw [hp] at hd
    cases hd
  rcases runs_bind_iff.mp h with ⟨user, tr₁, tr₂, -, h₂, -⟩ | ⟨e, -, he⟩
  · cases user with
    | none => exact (hfailed (isSuccess_error _ _ _) h₂).elim
    | some userId =>
      rcases runs_bind_iff.mp h₂ with ⟨response, tr₃, tr₄, -, h₄, -⟩ | ⟨e, -, he⟩
      · split_ifs at h₄ with hresponse
        · exact (hfailed (by simpa using hresponse) h₄).elim
        · split at h₄
          · rename_i c s _
            obtain ⟨-, he⟩ := runs_ret_iff.mp h₄
            exact ⟨c :: s, List.cons_ne_nil c s, Except.ok.inj he⟩
          · exact (hfailed (isSuccess_error _ _ _) h₄).elim
      · cases he
  · cases he

/-- A route through ingress carries the cookie of the session that was created for it. -/
theorem runs_routeForAddon_session {hass : Hass} {addon : Dict} {path : Str} {websocket : Bool}
    {tr : List Exchange} {url : Str} {headers : Headers}
    (h : Runs (routeForAddon hass addon path none websocket) tr (.ok (.ok (url, headers)))) :
    ∃ session, Runs createIngressSession tr (.ok (success [("session", .str session)])) ∧
      headers = [(str "Cookie", str "ingress_session=" ++ session)] := by
  unfold routeForAddon at h
  simp only at h
  split_ifs at h with hingress hentry
  · obtain ⟨-, he⟩ := runs_ret_iff.mp h
    cases he
  · obtain ⟨-, he⟩ := runs_ret_iff.mp h
    cases he
  · rcases runs_bind_iff.mp h with ⟨d, tr₁, tr₂, h₁, h₂, rfl⟩ | ⟨e, -, he⟩
    · split_ifs at h₂ with hsuccess
      · obtain ⟨-, he⟩ := runs_ret_iff.mp h₂
        cases he
      · obtain ⟨rfl, he⟩ := runs_ret_iff.mp h₂
        cases he
        obtain ⟨session, -, rfl⟩ := runs_createIngressSession h₁ (by simpa using hsuccess)
        rw [List.append_nil]
        exact ⟨session, h₁, by rw [dictGet_success_cons _ _ _ (by decide), strOf_str]⟩
    · cases he

/-- A refused route comes with an error payload. -/
theorem runs_routeForAddon_error {hass : Hass} {addon : Dict} {path : Str} {port : Option ℤ}
    {websocket : Bool} {tr : List Exchange} {payload : Dict}
    (h : Runs (routeForAddon hass addon path port websocket) tr (.ok (.error payload))) :
    isSuccess payload = false := by
  have hexit {p : Dict} {tr : List Exchange} (hp : isSuccess p = false)
      (hr : Runs (ret (.error p) : Coro (Except Dict (Str × Headers))) tr (.ok (.error payload))) :
      isSuccess payload = false := by
    obtain ⟨-, he⟩ := runs_ret_iff.mp hr
    cases he
    exact hp
  have hroute {r : Str × Headers} {tr : List Exchange}
      (hr : Runs (ret (.ok r) : Coro (Except Dict (Str × Headers))) tr (.ok (.error payload))) :
      isSuccess payload = false := by
    obtain ⟨-, he⟩ := runs_ret_iff.mp hr
    cases he
  unfold routeForAddon at h
  cases port with
  | some port =>
    simp only at h
    split_ifs at h
    · exact hexit (isSuccess_error _ _ _) h
    all_goals exact hroute h
  | none =>
    simp only at h
    split_ifs at h
    · exact hexit (isSuccess_error _ _ _) h
    · exact hexit (isSuccess_error _ _ _) h
    all_goals
      rcases runs_bind_iff.mp h with ⟨session, tr₁, tr₂, -, h₂, -⟩ | ⟨e, -, he⟩
      · split_ifs at h₂ with hs
        · exact hexit (by simpa using hs) h₂
        · exact hroute h₂
      · cases he

/-- With an ingress entry, an administrator and a session token there is a route. -/
theorem exists_runs_routeForAddon (hass : Hass) (addon : Dict) (path : Str) (websocket : Bool)
    (hingress : (dictGet addon "ingress").truthy = true)
    (hentry : (dictGet addon "ingress_entry").truthy = true) :
    ∃ tr headers, Runs (routeForAddon hass addon path none websocket) tr
      (.ok (.ok (ingressBase hass websocket ++ strOf (dictGet addon "ingress_entry") ++ str "/" ++
        path, headers))) := by
  have hsession : ∃ tr, Runs createIngressSession tr (.ok (success [("session", .lit "token")])) := by
    refine ⟨[⟨.users, .ok [⟨"admin", true, true, false⟩]⟩, ⟨.component, .ok .loaded⟩,
      supervisorExchange "/ingress/session" "POST" (.dict [("user_id", .lit "admin")]) (some 30)
        (.ok (.dict [("session", .lit "token")]))], ?_⟩
    exact .call _ (.call _ (.call _ (.ret _)))
  obtain ⟨tr, hsession⟩ := hsession
  refine ⟨tr ++ [], [(str "Cookie", str "ingress_session=" ++ str "token")], ?_⟩
  unfold routeForAddon
  simp only [hingress, hentry, Bool.not_true, Bool.false_eq_true, if_false]
  refine runs_bind_iff.mpr (.inl ⟨_, tr, [], hsession, ?_, rfl⟩)
  rw [isSuccess_success]
  exact .ret _

/-- A route is found by listing the users and opening an ingress session. -/
theorem issues_routeForAddon {P : Cmd → Prop} (husers : P .users)
    (hsession : ∀ c, IsSupervisorCall "/ingress/session" "POST" c → P c) (hass : Hass) (addon : Dict)
    (path : Str) (port : Option ℤ) (websocket : Bool) :
    Issues P (routeForAddon hass addon path port websocket) := by
  have hcreate : Issues P createIngressSession := by
    refine Issues.bind (Issues.bind (Issues.perform husers) fun _ => trivial) fun user => ?_
    cases user with
    | none => trivial
    | some userId =>
      refine Issues.bind (Issues.mono hsession (issues_supervisorApiCall _ _ _ _)) fun response => ?_
      split_ifs
      · trivial
      · split <;> trivial
  unfold routeForAddon
  cases port with
  | some port =>
    simp only
    split_ifs <;> trivial
  | none =>
    simp only
    split_ifs
    · trivial
    · trivial
    · refine Issues.bind hcreate fun session => ?_
      split_ifs <;> trivial

end

end EsphomeMcp.Addon
