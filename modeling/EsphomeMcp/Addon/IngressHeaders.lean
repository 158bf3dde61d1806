import EsphomeMcp.Addon.Proxy

/-!
# The headers of an ingress request

`_call_addon_http` merges the caller's headers with the session cookie in a dict, where `cookie`
and `Cookie` are two keys. The client that gets them reads header names without regard to case.
-/

namespace EsphomeMcp.Addon

open Py Py.Prog

/-! ## Names without regard to case -/

/-- The headers of a name that is given in lower case. -/
def Headers.named (headers : Headers) (name : Str) : Headers :=
  headers.filter fun h => h.1.map asciiLower = name

theorem lower_cookie : (str "Cookie").map asciiLower = str "cookie" := by decide

theorem lower_contentType : (str "Content-Type").map asciiLower = str "content-type" := by decide

theorem mem_named {headers : Headers} {name : Str} {h : Str × Str} :
    h ∈ headers.named name ↔ h ∈ headers ∧ h.1.map asciiLower = name := by
  rw [Headers.named, List.mem_filter, decide_eq_true_eq]

/-- The caller's headers. -/
def HttpArgs.callerHeaders (args : HttpArgs) : Headers := args.requestHeaders.getD []

/-- The headers carry the cookie of the session and no other, and one content type at most, the
caller's if there is one. -/
structure CarriesSession (session : Str) (caller headers : Headers) : Prop where
  cookie : (headers.named (str "cookie")).map Prod.snd = [str "ingress_session=" ++ session]
  contentType : (headers.named (str "content-type")).length ≤ 1
  callers : ∀ h ∈ caller.named (str "content-type"), headers.named (str "content-type") = [h]

/-- The caller spells the names the code looks up the way the code spells them: `Cookie` always,
and `Content-Type` when the body is a string. -/
structure SpellsAsLookedUp (args : HttpArgs) : Prop where
  cookie : ∀ h ∈ args.callerHeaders.named (str "cookie"), h.1 = str "Cookie"
  contentType : (args.callerHeaders.named (str "content-type")).length ≤ 1
  ofText : ∀ text, args.body = .str text →
    ∀ h ∈ args.callerHeaders.named (str "content-type"), h.1 = str "Content-Type"

/-! ## The merge -/

/-- The caller's headers with the cookie set. -/
theorem httpPayload_headers (args : HttpArgs) (cookie : Str) :
    (httpPayload args [(str "Cookie", cookie)]).1 =
      match args.body with
      | .str _ =>
        if dictHas (dictSet (str "Cookie") cookie args.callerHeaders) (str "Content-Type") then
          dictSet (str "Cookie") cookie args.callerHeaders
        else dictSet (str "Content-Type") (str "application/json")
          (dictSet (str "Cookie") cookie args.callerHeaders)
      | _ => dictSet (str "Cookie") cookie args.callerHeaders := by
  obtain ⟨path, method, body, port, debug, requestHeaders⟩ := args
  rcases requestHeaders with _ | _ | ⟨h, hs⟩ <;> cases body <;> rfl

/-- A cookie that was set is the only one exactly when the others are spelled the same. -/
theorem cookie_dictSet_iff {caller : Headers} (hdict : (caller.map Prod.fst).Nodup) (v : Str) :
    ((Headers.named (dictSet (str "Cookie") v caller) (str "cookie")).map Prod.snd = [v]) ↔
      ∀ h ∈ caller.named (str "cookie"), h.1 = str "Cookie" := by
  have hset : (str "Cookie", v) ∈ dictSet (str "Cookie") v caller :=
    mem_of_dictGet? (by rw [dictGet?_dictSet, if_pos rfl])
  constructor
  · intro hone h hh
    obtain ⟨hmem, hname⟩ := mem_named.mp hh
    by_contra hne
    -- another spelling survives beside the cookie that was set
    have hlen := congrArg List.length hone
    rw [List.length_map, List.length_singleton, List.length_eq_one_iff] at hlen
    obtain ⟨e, he⟩ := hlen
    have h₁ : h ∈ Headers.named (dictSet (str "Cookie") v caller) (str "cookie") :=
      mem_named.mpr ⟨mem_dictSet_of_ne hmem hne v, hname⟩
    have h₂ : (str "Cookie", v) ∈ Headers.named (dictSet (str "Cookie") v caller) (str "cookie") :=
      mem_named.mpr ⟨hset, lower_cookie⟩
    rw [he, List.mem_singleton] at h₁ h₂
    exact hne (by rw [h₁, ← h₂])
  · intro hsame
    have hnamed : Headers.named (dictSet (str "Cookie") v caller) (str "cookie") =
        (dictSet (str "Cookie") v caller).filter fun e => e.1 = str "Cookie" := by
      refine List.filter_congr fun e he => ?_
      rw [decide_eq_decide]
      constructor
      · intro hname
        rcases mem_dictSet he with hmem | rfl
        · exact hsame e (mem_named.mpr ⟨hmem, hname⟩)
        · rfl
      · intro hname
        rw [hname]
        exact lower_cookie
    rw [hnamed, filter_dictSet_self _ _ hdict]
    rfl

/-- What the merge makes of the content types: the caller's, and one more for a string when the
caller has none that is spelled like it. -/
theorem named_contentType (args : HttpArgs) (cookie : Str) :
    Headers.named (httpPayload args [(str "Cookie", cookie)]).1 (str "content-type") =
      match args.body with
      | .str _ =>
        if dictHas args.callerHeaders (str "Content-Type") then
          args.callerHeaders.named (str "content-type")
        else args.callerHeaders.named (str "content-type") ++
          [(str "Content-Type", str "application/json")]
      | _ => args.callerHeaders.named (str "content-type") := by
  have hbase : Headers.named (dictSet (str "Cookie") cookie args.callerHeaders)
      (str "content-type") = args.callerHeaders.named (str "content-type") := by
    refine filter_dictSet_of_neg (fun w => ?_) cookie
    rw [lower_cookie]
    decide
  have hhas : dictHas (dictSet (str "Cookie") cookie args.callerHeaders) (str "Content-Type") =
      dictHas args.callerHeaders (str "Content-Type") := by
    rw [dictHas, dictGet?_dictSet, if_neg (by decide), dictHas]
  rw [httpPayload_headers]
  cases args.body with
  | str text =>
    simp only [hhas]
    split_ifs with hct
    · exact hbase
    · have hfresh : str "Content-Type" ∉
          (dictSet (str "Cookie") cookie args.callerHeaders).map Prod.fst := by
        intro hmem
        obtain ⟨e, he, hkey⟩ := List.mem_map.mp hmem
        have hnone : dictGet? (dictSet (str "Cookie") cookie args.callerHeaders)
            (str "Content-Type") = none := by
          rw [← Option.not_isSome_iff_eq_none]
          exact fun hsome => hct (hhas ▸ hsome)
        have hne := List.lookup_eq_none_iff.mp hnone e he
        rw [hkey] at hne
        simp at hne
      rw [dictSet_of_not_mem _ hfresh, Headers.named, List.filter_append]
      congr 1
  | _ => exact hbase

theorem eq_singleton_of_mem {α : Type} {l : List α} (hlen : l.length ≤ 1) {a : α} (h : a ∈ l) :
    l = [a] := by
  match l, hlen, h with
  | [b], _, h => rw [List.mem_singleton.mp h]

/-- The content type is the caller's exactly when there is one at most, which for a string is
spelled the way the code looks it up. -/
theorem contentType_iff (args : HttpArgs) (cookie : Str) :
    ((Headers.named (httpPayload args [(str "Cookie", cookie)]).1 (str "content-type")).length ≤ 1 ∧
      ∀ h ∈ args.callerHeaders.named (str "content-type"),
        Headers.named (httpPayload args [(str "Cookie", cookie)]).1 (str "content-type") = [h]) ↔
    (args.callerHeaders.named (str "content-type")).length ≤ 1 ∧
      ∀ text, args.body = .str text →
        ∀ h ∈ args.callerHeaders.named (str "content-type"), h.1 = str "Content-Type" := by
  rw [named_contentType]
  set own := args.callerHeaders.named (str "content-type") with hown
  have hkept : (own.length ≤ 1 ∧ ∀ h ∈ own, own = [h]) ↔ own.length ≤ 1 :=
    ⟨And.left, fun hlen => ⟨hlen, fun h hh => eq_singleton_of_mem hlen hh⟩⟩
  cases hbody : args.body with
  | str text =>
    simp only
    by_cases hct : dictHas args.callerHeaders (str "Content-Type") = true
    · rw [if_pos hct, hkept]
      obtain ⟨v, hv⟩ := Option.isSome_iff_exists.mp hct
      have hmem : (str "Content-Type", v) ∈ own :=
        mem_named.mpr ⟨mem_of_dictGet? hv, lower_contentType⟩
      refine ⟨fun hlen => ⟨hlen, fun text _ h hh => ?_⟩, And.left⟩
      rw [eq_singleton_of_mem hlen hmem] at hh
      rw [List.mem_singleton.mp hh]
    · rw [if_neg hct]
      constructor
      · rintro ⟨hlen, -⟩
        rw [List.length_append, List.length_singleton] at hlen
        have hnil : own = [] := List.eq_nil_of_length_eq_zero (by omega)
        rw [hnil]
        exact ⟨Nat.zero_le _, by simp⟩
      · rintro ⟨-, hspelled⟩
        -- a content type spelled so would have been looked up
        have hnil : own = [] := by
          rw [List.eq_nil_iff_forall_not_mem]
          intro h hh
          have hkey := hspelled text rfl h hh
          have hne := List.lookup_eq_none_iff.mp
            (Option.not_isSome_iff_eq_none.mp hct) h (mem_named.mp hh).1
          rw [hkey] at hne
          simp at hne
        rw [hnil]
        exact ⟨le_rfl, by simp⟩
  | _ => simpa using hkept

/-- Over ingress, the headers are the caller's and the session's exactly when the caller spells
what the code looks up as the code does. -/
theorem carriesSession_iff {args : HttpArgs} (hdict : (args.callerHeaders.map Prod.fst).Nodup)
    (session : Str) :
    CarriesSession session args.callerHeaders
        (httpPayload args [(str "Cookie", str "ingress_session=" ++ session)]).1 ↔
      SpellsAsLookedUp args := by
  have hcookie : Headers.named (httpPayload args
      [(str "Cookie", str "ingress_session=" ++ session)]).1 (str "cookie") =
      Headers.named (dictSet (str "Cookie") (str "ingress_session=" ++ session) args.callerHeaders)
        (str "cookie") := by
    rw [httpPayload_headers]
    cases args.body with
    | str text =>
      simp only
      split_ifs
      · rfl
      · refine filter_dictSet_of_neg (fun w => ?_) _
        rw [lower_contentType]
        decide
    | _ => rfl
  have hset := cookie_dictSet_iff hdict (str "ingress_session=" ++ session)
  rw [← hcookie] at hset
  have hcontent := contentType_iff args (str "ingress_session=" ++ session)
  constructor
  · rintro ⟨hone, hlen, hcallers⟩
    obtain ⟨hown, htext⟩ := hcontent.mp ⟨hlen, hcallers⟩
    exact ⟨hset.mp hone, hown, htext⟩
  · rintro ⟨hspelled, hown, htext⟩
    obtain ⟨hlen, hcallers⟩ := hcontent.mpr ⟨hown, htext⟩
    exact ⟨hset.mpr hspelled, hlen, hcallers⟩

/-! ## Any call -/

section

variable [Runtime]

/-- The command is not a request. -/
def IsNoRequest : Cmd → Prop
  | .request .. => False
  | _ => True

/-- The one request of a call through ingress carries the headers of `httpPayload`, with the
session that was created in this call. -/
theorem request_of_callAddonHttp {hass : Hass} {addon : Dict} {slug : Str} {args : HttpArgs}
    (hport : args.port = none) {tr : List Exchange} {out : Except Err Dict}
    (hrun : Runs (callAddonHttp hass addon slug args) tr out) {method url : Str}
    {headers : Headers} {body : HttpBody} {answer : Except Err HttpHead}
    (hrequest : (⟨.request method url headers body, answer⟩ : Exchange) ∈ tr) :
    ∃ session tr₁ tr₂, tr = tr₁ ++ tr₂ ∧
      Runs createIngressSession tr₁ (.ok (success [("session", .str session)])) ∧
      headers = (httpPayload args [(str "Cookie", str "ingress_session=" ++ session)]).1 := by
  have hroute {path : Str} {tr : List Exchange} {r : Except Err (Except Dict (Str × Headers))}
      (h : Runs (routeForAddon hass addon path none false) tr r) :
      (⟨.request method url headers body, answer⟩ : Exchange) ∉ tr := by
    have hissues : Issues IsNoRequest (routeForAddon hass addon path none false) := by
      refine issues_routeForAddon trivial (fun c hc => ?_) hass addon path none false
      cases c with
      | request => exact hc.elim
      | _ => trivial
    exact fun hmem => Issues.of_runs hissues h _ hmem
  rw [callAddonHttp, hport] at hrun
  split at hrun
  · obtain ⟨rfl, -⟩ := runs_ret_iff.mp hrun
    cases hrequest
  · rcases runs_bind_iff.mp hrun with ⟨route, tr₁, tr₂, h₁, h₂, rfl⟩ | ⟨e, h₁, -⟩
    · have hmem := (List.mem_append.mp hrequest).resolve_left (hroute h₁)
      cases route with
      | error payload =>
        obtain ⟨rfl, -⟩ := runs_ret_iff.mp h₂
        cases hmem
      | ok route =>
        obtain ⟨base, routeHeaders⟩ := route
        obtain ⟨session, hsession, rfl⟩ := runs_routeForAddon_session h₁
        refine ⟨session, tr₁, tr₂, rfl, hsession, ?_⟩
        -- the exchange makes one request, with these headers
        refine Issues.of_runs (S := addonSignature) (P := fun c : Cmd => ∀ m u hs b,
          c = .request m u hs b →
            hs = (httpPayload args [(str "Cookie", str "ingress_session=" ++ session)]).1)
          ?_ h₂ _ hmem _ _ _ _ rfl
        refine Issues.tryCatch (Issues.bind (Issues.perform ?_) fun head => ?_) fun e => ?_
        · rintro m u hs b ⟨⟩
          rfl
        · refine Issues.bind (Issues.perform (by simp)) fun raw => ?_
          refine Issues.bind (Issues.ofExcept _) fun parsed => ?_
          exact Issues.bind (Issues.ofExcept _) fun data => trivial
        · split <;> trivial
    · exact absurd hrequest (hroute h₁)

/-- Every request of a call through ingress carries the freshly created session as its one cookie,
and the caller's content type if there is one, exactly when the caller spells these names as the
code does. -/
theorem request_carriesSession_iff {hass : Hass} {addon : Dict} {slug : Str} {args : HttpArgs}
    (hport : args.port = none) (hdict : (args.callerHeaders.map Prod.fst).Nodup)
    {tr : List Exchange} {out : Except Err Dict}
    (hrun : Runs (callAddonHttp hass addon slug args) tr out) {method url : Str}
    {headers : Headers} {body : HttpBody} {answer : Except Err HttpHead}
    (hrequest : (⟨.request method url headers body, answer⟩ : Exchange) ∈ tr) :
    ∃ session tr₁ tr₂, tr = tr₁ ++ tr₂ ∧
      Runs createIngressSession tr₁ (.ok (success [("session", .str session)])) ∧
      (CarriesSession session args.callerHeaders headers ↔ SpellsAsLookedUp args) := by
  obtain ⟨session, tr₁, tr₂, htr, hsession, rfl⟩ := request_of_callAddonHttp hport hrun hrequest
  exact ⟨session, tr₁, tr₂, htr, hsession, carriesSession_iff hdict session⟩

end

/-! ## One call -/

/-- An add-on behind ingress. -/
def ingressAddon : Dict :=
  [(str "ingress", .bool true), (str "ingress_entry", .lit "/api/hassio_ingress/esphome")]

/-- A GET of the devices with some headers. -/
def getDevices (requestHeaders : Headers) : HttpArgs :=
  ⟨"/devices", "get", .null, none, false, some requestHeaders⟩

/-- A call that gets its session and then runs into the timeout. -/
def timedOut (headers : Headers) : List Exchange :=
  letI := asciiRuntime
  [⟨.users, .ok [⟨"admin", true, true, false⟩]⟩, ⟨.component, .ok .loaded⟩,
    supervisorExchange "/ingress/session" "POST" (.dict [("user_id", .lit "admin")]) (some 30)
      (.ok (.dict [("session", .lit "token")])),
    ⟨.request "GET" "http://127.0.0.1:8123/api/hassio_ingress/esphome/devices" headers .none,
      .error (.exn .timeout [])⟩]

theorem runs_timedOut (requestHeaders : Headers) :
    letI := asciiRuntime
    Runs (callAddonHttp ⟨none⟩ ingressAddon "esphome" (getDevices requestHeaders))
      (timedOut (httpPayload (getDevices requestHeaders)
        [(str "Cookie", str "ingress_session=token")]).1)
      (.ok (error (str "Timed out calling ESPHome add-on endpoint '/devices'.") "timeout"
        [("slug", .lit "esphome")])) := by
  let := asciiRuntime
  exact .call _ (.call _ (.call _ (.call _ (.ret _))))

/-- A cookie of the caller that is spelled `Cookie` is overridden. -/
theorem request_carriesSession_iff_overridden :
    letI := asciiRuntime
    ∃ session tr₁ tr₂,
      timedOut [(str "Cookie", str "ingress_session=token"), (str "X-Test", str "ok")] =
        tr₁ ++ tr₂ ∧
      Runs createIngressSession tr₁ (.ok (success [("session", .str session)])) ∧
      CarriesSession session [(str "Cookie", str "caller=ignored"), (str "X-Test", str "ok")]
        [(str "Cookie", str "ingress_session=token"), (str "X-Test", str "ok")] := by
  let := asciiRuntime
  have hdict : ((getDevices [(str "Cookie", str "caller=ignored"),
      (str "X-Test", str "ok")]).callerHeaders.map Prod.fst).Nodup := by decide
  have hspelled : SpellsAsLookedUp (getDevices [(str "Cookie", str "caller=ignored"),
      (str "X-Test", str "ok")]) := ⟨by decide, by decide, nofun⟩
  obtain ⟨session, tr₁, tr₂, htr, hsession, hiff⟩ :=
    request_carriesSession_iff rfl hdict (runs_timedOut _)
      (List.mem_cons_of_mem _ (List.mem_cons_of_mem _ (List.mem_cons_of_mem _ List.mem_cons_self)))
  exact ⟨session, tr₁, tr₂, htr, hsession, hiff.mpr hspelled⟩

/-- A cookie that is spelled `cookie` is sent beside the one of the session. -/
theorem not_carriesSession_lowerCase :
    letI := asciiRuntime
    ∃ tr out headers, Runs (callAddonHttp ⟨none⟩ ingressAddon "esphome"
        (getDevices [(str "cookie", str "ingress_session=mine")])) tr out ∧
      (∃ method url body answer, (⟨.request method url headers body, answer⟩ : Exchange) ∈ tr) ∧
      ∀ session, ¬CarriesSession session [(str "cookie", str "ingress_session=mine")] headers := by
  let := asciiRuntime
  refine ⟨_, _, _, runs_timedOut _, ⟨_, _, _, _, List.mem_cons_of_mem _ (List.mem_cons_of_mem _
    (List.mem_cons_of_mem _ List.mem_cons_self))⟩, fun session h => ?_⟩
  have hlen := congrArg List.length h.cookie
  rw [List.length_singleton] at hlen
  revert hlen
  decide

end EsphomeMcp.Addon
