import EsphomeMcp.Addon.Route
import EsphomeMcp.Python.ClientUrl

/-!
# Add-on paths and the ingress entry

`_normalize_path` refuses a `..` component in the once-decoded path, and the HTTP client
decodes and resolves dot segments once more when it parses the URL. This file says which
accepted paths still lead to a place below the ingress entry: those whose segments, as the
client reads them, never climb above their start (`staysInIngress`).
-/

namespace EsphomeMcp.Addon

open Py Py.Prog

/-- The client requests the URL from the ingress host, below the entry `pathOf segs`. -/
def UrlUnderIngress (hass : Hass) (websocket : Bool) (segs : List Str) (url : Str) : Prop :=
  ∃ c, clientUrl url = some c ∧ c.origin = ingressBase hass websocket ∧ LiesUnder segs c.path

/-- Whenever the path is accepted, every route to it through an ingress entry, over HTTP or
WebSocket, lies below that entry. -/
def RoutesInside [Runtime] (path : Str) : Prop :=
  ∀ normalized, normalizePath path = some normalized →
  ∀ (hass : Hass) (websocket : Bool) (addon : Dict) (segs : List Str) (tr : List Exchange)
    (url : Str) (headers : Headers),
    segs ≠ [] → (∀ seg ∈ segs, isPlainName seg = true) →
    dictGet addon "ingress_entry" = .str (pathOf segs) →
    Runs (routeForAddon hass addon normalized none websocket) tr (.ok (.ok (url, headers))) →
    UrlUnderIngress hass websocket segs url

/-- The path is refused, or its segments never climb above where they start: up to the query
or the fragment, with unsafe characters dropped and needless escapes decoded, no prefix of
them has more `..` than ordinary segments. -/
def staysInIngress (path : Str) : Bool :=
  match normalizePath path with
  | none => true
  | some normalized => staysInside 0 ((clientPath normalized).splitOn (ch '/'))

/-- A route through ingress as the client requests it. -/
theorem clientUrl_ingress (hass : Hass) (websocket : Bool) {segs : List Str} (hsegs : segs ≠ [])
    (h : ∀ seg ∈ segs, isPlainName seg = true) (normalized : Str) :
    clientUrl (ingressBase hass websocket ++ pathOf segs ++ str "/" ++ normalized) =
      some ⟨ingressBase hass websocket,
        normalizeUrlPath (pathOf segs ++ ch '/' :: clientPath normalized)⟩ := by
  have hauthority : ∀ c ∈ str "127.0.0.1:" ++ natRepr hass.port,
      0x20 < c.val ∧ endsAuthority c = false := by
    intro c hc
    rcases List.mem_append.mp hc with hc | hc
    · have hall : (str "127.0.0.1:").all
          (fun x => decide (0x20 < x.val) && !endsAuthority x) = true := rfl
      simpa using List.all_eq_true.mp hall c hc
    · have hd := isDigit_of_mem_natRepr hc
      have hne : ∀ x, endsAuthority x = true → isDigit x = false := by
        intro x hx
        rw [endsAuthority, decide_eq_true_eq] at hx
        rcases hx with rfl | rfl | rfl <;> rfl
      refine ⟨?_, ?_⟩
      · rw [isDigit, decide_eq_true_eq] at hd
        omega
      · by_contra hx
        simp [hne c (by simpa using hx)] at hd
  have hbase : ingressBase hass websocket = (if websocket then str "ws" else str "http") ++
      str "://" ++ (str "127.0.0.1:" ++ natRepr hass.port) := by
    have hsplit : str "://127.0.0.1:" = str "://" ++ str "127.0.0.1:" := rfl
    rw [ingressBase_eq, hsplit]
    simp only [List.append_assoc]
  rw [hbase]
  exact clientUrl_pathOf (by cases websocket <;> decide)
    (by cases websocket <;> exact List.all_eq_true.mp rfl)
    hauthority hsegs h normalized

/-- Some name is none of finitely many segments. -/
theorem exists_plainName_not_mem (segs : List Str) : ∃ name, isPlainName name = true ∧ name ∉ segs := by
  -- a name longer than all the segments together
  refine ⟨List.replicate (segs.flatten.length + 1) (ch 'a'), ?_, ?_⟩
  · rw [isPlainName, Bool.and_eq_true, List.all_eq_true]
    refine ⟨by simp, fun c hc => ?_⟩
    rw [List.eq_of_mem_replicate hc]
    rfl
  · intro hmem
    have hle := (List.sublist_flatten_of_mem hmem).length_le
    rw [List.length_replicate] at hle
    omega

section

variable [Runtime]

theorem routesInside_of_staysInIngress {path : Str} (h : staysInIngress path = true) :
    RoutesInside path := by
  intro normalized hn hass websocket addon segs tr url headers hsegs hplain hentry hrun
  rw [staysInIngress, hn] at h
  obtain rfl := runs_routeForAddon hrun
  rw [hentry, strOf_str]
  exact ⟨_, clientUrl_ingress hass websocket hsegs hplain normalized, rfl,
    liesUnder_of_staysInside hplain h⟩

theorem not_routesInside_of_climbs {path : Str} (h : staysInIngress path = false) :
    ¬RoutesInside path := by
  intro hin
  rw [staysInIngress] at h
  cases hn : normalizePath path with
  | none => simp [hn] at h
  | some normalized =>
    simp only [hn] at h
    obtain ⟨name, hname, hnot⟩ :=
      exists_plainName_not_mem ((clientPath normalized).splitOn (ch '/'))
    have hplain : ∀ seg ∈ [name], isPlainName seg = true := by simpa using hname
    let hass : Hass := ⟨none⟩
    let addon : Dict := [(str "ingress", .bool true), (str "ingress_entry", .str (pathOf [name]))]
    have hentry : dictGet addon "ingress_entry" = .str (pathOf [name]) := by
      simp [addon, dictGet, dictGet?_cons]
    obtain ⟨tr, headers, hrun⟩ := exists_runs_routeForAddon hass addon normalized false
      (by simp [addon, dictGet, dictGet?_cons])
      (by rw [hentry]; simp [Json.truthy, pathOf])
    rw [hentry, strOf_str] at hrun
    obtain ⟨c, hc, -, hunder⟩ := hin normalized hn hass false addon [name] tr _ headers (by simp)
      hplain hentry hrun
    rw [clientUrl_ingress hass false (by simp) hplain, Option.some.injEq] at hc
    subst hc
    exact not_liesUnder_of_climbs hname h hnot hunder

/-- Exactly the paths that never climb stay inside every ingress entry. -/
theorem routesInside_iff_staysInIngress (path : Str) :
    RoutesInside path ↔ staysInIngress path = true := by
  refine ⟨fun hin => ?_, routesInside_of_staysInIngress⟩
  by_contra h
  exact not_routesInside_of_climbs (by simpa using h) hin

end

/-- A `..` encoded twice is accepted, and the client decodes the second layer: under the entry
`/api/hassio_ingress/token` it requests `/api/hassio_ingress/config`. -/
theorem not_forall_routesInside : ¬∀ path, @RoutesInside asciiRuntime path := by
  let _ : Runtime := asciiRuntime
  intro h
  let segs : List Str := [str "api", str "hassio_ingress", str "token"]
  let addon : Dict := [(str "ingress", .bool true), (str "ingress_entry", .str (pathOf segs))]
  have hplain : ∀ seg ∈ segs, isPlainName seg = true := List.all_eq_true.mp rfl
  obtain ⟨tr, headers, hrun⟩ :=
    exists_runs_routeForAddon ⟨none⟩ addon (str "%2e%2e/config") false rfl rfl
  obtain ⟨c, hc, -, hunder⟩ := h (str "%252e%252e/config") (str "%2e%2e/config") rfl ⟨none⟩ false
    addon segs tr _ headers (by simp [segs]) hplain rfl hrun
  rw [show dictGet addon "ingress_entry" = .str (pathOf segs) from rfl, strOf_str,
    clientUrl_ingress ⟨none⟩ false (by simp [segs]) hplain, Option.some.injEq] at hc
  subst hc
  have hpath : normalizeUrlPath (pathOf segs ++ ch '/' :: clientPath (str "%2e%2e/config")) =
      str "/api/hassio_ingress/config" := rfl
  rw [hpath] at hunder
  exact absurd hunder (by decide +kernel)

end EsphomeMcp.Addon
