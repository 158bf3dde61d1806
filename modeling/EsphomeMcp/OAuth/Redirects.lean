import EsphomeMcp.OAuth.Common
import EsphomeMcp.Python.Url

/-!
# Redirect URIs

What `oauth_common`, `oauth_dcr` and `oauth_ha_auth` do with a redirect URI: accept it, compare
it with the registered ones, and name its origin as a client id that core accepts.

An accepted redirect never makes any of these raise. The comparison looks at everything but the
port of a loopback redirect and the user information; the origin is rebuilt from the host and
the number of the port, so it is the redirect's own authority only where that is spelled the way
the origin spells it.
-/

namespace EsphomeMcp.OAuth

open Py

/-! ## Definitions -/

/-- `_LOOPBACK_HOSTNAMES`. -/
def loopbackHostnames : List Str := [str "localhost"]

/-- `_is_loopback_host`. -/
def isLoopbackHost (hostname : Str) : Bool :=
  if hostname ∈ loopbackHostnames then true
  else
    match ipAddress hostname with
    | some ip => ip.isLoopback
    | none => false

/-- A character of `_AUTHORITY_CHARS_RE`. -/
def isAuthorityChar (c : CodePoint) : Bool :=
  isAlpha c || isDigit c || c ∈ str "._~%!$&'()*+,;=:@[]-"

/-- `_DEFAULT_PORTS.get(scheme)`. -/
def defaultPort (scheme : Str) : Option ℕ :=
  if scheme = str "https" then some 443 else if scheme = str "http" then some 80 else none

/-- `canonical_origin_url`, of a scheme, a host and a port. -/
def canonicalOriginUrl (origin : Str × Str × ℕ) : Str :=
  let (scheme, host, port) := origin
  let urlHost := if ch ':' ∈ host then ch '[' :: (host ++ [ch ']']) else host
  if defaultPort scheme = some port then scheme ++ str "://" ++ urlHost
  else scheme ++ str "://" ++ (urlHost ++ ch ':' :: natRepr port)

section

variable [Runtime]

/-- `urlparse`, its `ValueError` raised. -/
def parseUrl (url : Str) : Except PyError ParseResult :=
  match urlparse url with
  | some parsed => .ok parsed
  | none => .error .value

/-- `_is_valid_redirect_uri`. -/
def isValidRedirectUri (redirectUri : Str) : Bool :=
  if redirectUri = [] then false
  else
    match urlparse redirectUri with
    | none => false
    | some parsed =>
      match parsed.port, parsed.hostname with
      | none, _ | _, none => false
      | some _, some hostname =>
        if hostname = [] || !parsed.netloc.all isAuthorityChar then false
        else if parsed.scheme = str "http" && !isLoopbackHost hostname then false
        else if parsed.scheme ≠ str "http" && parsed.scheme ≠ str "https" then false
        else parsed.fragment = []

/-- `normalized_origin`. -/
def normalizedOrigin (uri : Str) : Except PyError (Option (Str × Str × ℕ)) := do
  let parsed ← parseUrl uri
  if parsed.scheme = [] then return none
  else
    match parsed.hostname with
    | none => return none
    | some host =>
      match parsed.port with
      | none => .error .value
      | some port => return some (parsed.scheme, host, port.getD ((defaultPort parsed.scheme).getD 0))

/-- `origin_client_id`. -/
def originClientId (redirectUri : Str) : Except PyError Str := do
  match ← normalizedOrigin redirectUri with
  | none =>
    let parsed ← parseUrl redirectUri
    return parsed.scheme ++ str "://" ++ parsed.netloc
  | some origin => return canonicalOriginUrl origin

/-- What `redirect_matches` compares of a registered redirect and a presented one. -/
def sameLoopback (reg req : ParseResult) : Bool :=
  reg.scheme = req.scheme &&
    match reg.hostname with
    | none => false
    | some hostname =>
      isLoopbackHost hostname && some hostname = req.hostname && reg.path = req.path &&
        reg.params = req.params && reg.query = req.query

/-- The loop of `redirect_matches`. -/
def anyEntry (req : ParseResult) : List Str → Except PyError Bool
  | [] => .ok false
  | entry :: registered => do
    let reg ← parseUrl entry
    if sameLoopback reg req then return true else anyEntry req registered

/-- `redirect_matches`. -/
def redirectMatches (registered : List Str) (redirectUri : Str) : Except PyError Bool :=
  if redirectUri ∈ registered then .ok true
  else do
    let req ← parseUrl redirectUri
    match req.hostname with
    | none => return false
    | some hostname => if isLoopbackHost hostname then anyEntry req registered else return false

/-- `_translation_for`. -/
def translationFor (registered : List Str) (clientId redirectUri : Str) : Except PyError Str := do
  if ← redirectMatches registered redirectUri then originClientId redirectUri else return clientId

/-! ## Accepted redirects -/

/-- What `_is_valid_redirect_uri` has checked of a redirect it accepts. -/
structure IsRedirect (redirectUri : Str) (parsed : ParseResult) (hostname : Str)
    (port : Option ℕ) : Prop where
  parse : urlparse redirectUri = some parsed
  hostname : parsed.hostname = some hostname
  port : parsed.port = some port
  chars : parsed.netloc.all isAuthorityChar = true
  scheme : parsed.scheme = str "http" ∨ parsed.scheme = str "https"

theorem exists_isRedirect {redirectUri : Str} (h : isValidRedirectUri redirectUri = true) :
    ∃ parsed hostname port, IsRedirect redirectUri parsed hostname port := by
  rw [isValidRedirectUri] at h
  split_ifs at h
  cases hp : urlparse redirectUri with
  | none => simp [hp] at h
  | some parsed =>
    cases hport : parsed.port with
    | none => simp [hp, hport] at h
    | some port =>
      cases hhost : parsed.hostname with
      | none => simp [hp, hport, hhost] at h
      | some hostname =>
        simp only [hp, hport, hhost] at h
        split_ifs at h with hchars hloop hscheme
        simp only [Bool.or_eq_true, Bool.not_eq_true', not_or, Bool.not_eq_false] at hchars
        simp only [ne_eq, Bool.and_eq_true, decide_eq_true_eq, not_and, not_not] at hscheme
        refine ⟨parsed, hostname, port, hp, hhost, hport, hchars.2, ?_⟩
        by_cases hh : parsed.scheme = str "http"
        · exact .inl hh
        · exact .inr (hscheme hh)

/-! ## Matching -/

/-- Two redirects with the same scheme, host, path, params and query. -/
structure SameButPort (reg req : ParseResult) : Prop where
  scheme : reg.scheme = req.scheme
  hostname : reg.hostname = req.hostname
  path : reg.path = req.path
  params : reg.params = req.params
  query : reg.query = req.query

/-- Two redirects with the same user information. -/
def SameUserinfo (reg req : ParseResult) : Prop :=
  reg.username = req.username ∧ reg.password = req.password

/-- The presented redirect has a loopback host. -/
def HasLoopbackHost (req : ParseResult) : Prop :=
  ∃ hostname, req.hostname = some hostname ∧ isLoopbackHost hostname = true

theorem sameLoopback_iff {reg req : ParseResult} (h : HasLoopbackHost req) :
    sameLoopback reg req = true ↔ SameButPort reg req := by
  obtain ⟨hostname, hhost, hloop⟩ := h
  rw [sameLoopback, Bool.and_eq_true, decide_eq_true_eq]
  constructor
  · rintro ⟨hscheme, hrest⟩
    cases hreg : reg.hostname with
    | none => simp [hreg] at hrest
    | some regHost =>
      simp only [hreg, Bool.and_eq_true, decide_eq_true_eq] at hrest
      exact ⟨hscheme, hreg.trans hrest.1.1.1.2, hrest.1.1.2, hrest.1.2, hrest.2⟩
  · rintro ⟨hscheme, hreg, hpath, hparams, hquery⟩
    rw [hhost] at hreg
    refine ⟨hscheme, ?_⟩
    simp only [hreg, hhost, hloop, hpath, hparams, hquery, decide_true, Bool.and_self]

theorem anyEntry_eq_true_iff {registered : List Str} {req : ParseResult}
    (hall : ∀ entry ∈ registered, isValidRedirectUri entry = true) :
    anyEntry req registered = .ok true ↔
      ∃ entry ∈ registered, ∃ reg, urlparse entry = some reg ∧ sameLoopback reg req = true := by
  induction registered with
  | nil => simp [anyEntry]
  | cons entry registered ih =>
    rw [List.forall_mem_cons] at hall
    obtain ⟨reg, _, _, hreg⟩ := exists_isRedirect hall.1
    have hparse : parseUrl entry = .ok reg := by rw [parseUrl, hreg.parse]
    rw [anyEntry, hparse, except_ok_bind]
    split_ifs with hsame
    · simp only [List.mem_cons, exists_eq_or_imp]
      exact iff_of_true rfl (.inl ⟨reg, hreg.parse, hsame⟩)
    · rw [ih hall.2]
      simp [hreg.parse, hsame]

/-- Among accepted redirects `redirect_matches` looks at the list and, for a loopback host, at
everything but the port and the user information. -/
theorem redirectMatches_eq_true_iff {registered : List Str} {redirectUri : Str}
    {req : ParseResult} {hostname : Str} {port : Option ℕ}
    (hreq : IsRedirect redirectUri req hostname port)
    (hall : ∀ entry ∈ registered, isValidRedirectUri entry = true) :
    redirectMatches registered redirectUri = .ok true ↔
      redirectUri ∈ registered ∨ HasLoopbackHost req ∧
        ∃ entry ∈ registered, ∃ reg, urlparse entry = some reg ∧ SameButPort reg req := by
  have hparse : parseUrl redirectUri = .ok req := by rw [parseUrl, hreq.parse]
  rw [redirectMatches]
  split_ifs with hmem
  · exact iff_of_true rfl (.inl hmem)
  · rw [hparse, except_ok_bind, hreq.hostname]
    simp only [hmem, false_or]
    split_ifs with hloop
    · have hhost : HasLoopbackHost req := ⟨hostname, hreq.hostname, hloop⟩
      rw [anyEntry_eq_true_iff hall]
      simp only [hhost, true_and, sameLoopback_iff hhost]
    · have hhost : ¬HasLoopbackHost req := by
        rintro ⟨hostname', h', hloop'⟩
        rw [hreq.hostname, Option.some.injEq] at h'
        exact hloop (h' ▸ hloop')
      simp only [hhost, false_and, iff_false]
      intro h
      cases h

/-- Exact matching plus a free port on loopback: the redirect is in the list, or its host is
loopback and a registered redirect differs from it in the port only. -/
def MatchesButPort (registered : List Str) (redirectUri : Str) : Prop :=
  redirectUri ∈ registered ∨ ∃ req, urlparse redirectUri = some req ∧ HasLoopbackHost req ∧
    ∃ entry ∈ registered, ∃ reg, urlparse entry = some reg ∧ SameButPort reg req ∧
      SameUserinfo reg req

/-- If a registered redirect agrees with an unlisted loopback one but for the port and the user
information, one of those that do also has its user information. -/
def UserinfoAgrees (registered : List Str) (redirectUri : Str) : Prop :=
  redirectUri ∈ registered ∨ ∀ req, urlparse redirectUri = some req → HasLoopbackHost req →
    (∃ entry ∈ registered, ∃ reg, urlparse entry = some reg ∧ SameButPort reg req) →
      ∃ entry ∈ registered, ∃ reg, urlparse entry = some reg ∧ SameButPort reg req ∧
        SameUserinfo reg req

/-- `redirect_matches` is exact matching plus a free port on loopback, as long as the user
information does not make a difference. -/
theorem redirectMatches_iff_matchesButPort (registered : List Str) (redirectUri : Str)
    (hvalid : isValidRedirectUri redirectUri = true)
    (hall : ∀ entry ∈ registered, isValidRedirectUri entry = true) :
    (redirectMatches registered redirectUri = .ok true ↔ MatchesButPort registered redirectUri) ↔
      UserinfoAgrees registered redirectUri := by
  obtain ⟨req, hostname, port, hreq⟩ := exists_isRedirect hvalid
  rw [redirectMatches_eq_true_iff hreq hall]
  constructor
  · intro h
    rw [UserinfoAgrees, or_iff_not_imp_left]
    intro hmem req' hparse hhost hentry
    obtain rfl := Option.some.inj (hreq.parse.symm.trans hparse)
    obtain hlisted | ⟨req'', hparse', -, hsame⟩ := h.mp (.inr ⟨hhost, hentry⟩)
    · exact absurd hlisted hmem
    · obtain rfl := Option.some.inj (hreq.parse.symm.trans hparse')
      exact hsame
  · intro hagrees
    constructor
    · rintro (hmem | ⟨hhost, hentry⟩)
      · exact .inl hmem
      · refine hagrees.imp_right fun h => ⟨req, hreq.parse, hhost, ?_⟩
        exact h req hreq.parse hhost hentry
    · rintro (hmem | ⟨req', hparse, hhost, entry, hentry, reg, hreg, hsame, -⟩)
      · exact .inl hmem
      · obtain rfl := Option.some.inj (hreq.parse.symm.trans hparse)
        exact .inr ⟨hhost, entry, hentry, reg, hreg, hsame⟩

end

/-- With the port left free a registered loopback redirect still matches. -/
theorem redirectMatches_iff_matchesButPort_localhost :
    letI := asciiRuntime
    redirectMatches [str "http://localhost/cb"] (str "http://localhost:43123/cb") = .ok true ↔
      MatchesButPort [str "http://localhost/cb"] (str "http://localhost:43123/cb") := by
  let := asciiRuntime
  have hentry : urlparse (str "http://localhost/cb") =
      some ⟨str "http", str "localhost", str "/cb", [], [], []⟩ := by decide +kernel
  have hparse : urlparse (str "http://localhost:43123/cb") =
      some ⟨str "http", str "localhost:43123", str "/cb", [], [], []⟩ := by decide +kernel
  apply (redirectMatches_iff_matchesButPort [str "http://localhost/cb"]
    (str "http://localhost:43123/cb") (by decide +kernel) (by decide +kernel)).mpr
  refine .inr fun req hreq _ _ => ?_
  rw [hparse, Option.some.injEq] at hreq
  subst hreq
  refine ⟨_, List.mem_singleton_self _, _, hentry, ⟨rfl, ?_, rfl, rfl, rfl⟩, ?_⟩
  · decide +kernel
  · exact ⟨by decide +kernel, by decide +kernel⟩

/-- A redirect with user information of its own passes for one that is registered without. -/
theorem not_forall_redirectMatches_iff :
    letI := asciiRuntime
    isValidRedirectUri (str "http://user@localhost/cb") = true ∧
      isValidRedirectUri (str "http://localhost/cb") = true ∧
      ¬(redirectMatches [str "http://localhost/cb"] (str "http://user@localhost/cb") = .ok true ↔
        MatchesButPort [str "http://localhost/cb"] (str "http://user@localhost/cb")) := by
  let := asciiRuntime
  have hentry : urlparse (str "http://localhost/cb") =
      some ⟨str "http", str "localhost", str "/cb", [], [], []⟩ := by decide +kernel
  have hparse : urlparse (str "http://user@localhost/cb") =
      some ⟨str "http", str "user@localhost", str "/cb", [], [], []⟩ := by decide +kernel
  refine ⟨by decide +kernel, by decide +kernel, fun h => ?_⟩
  obtain hmem | ⟨req, hreq, -, entry, hmem, reg, hreg, -, huser, -⟩ := h.mp rfl
  · exact absurd hmem (by decide)
  · rw [List.mem_singleton.mp hmem, hentry, Option.some.injEq] at hreg
    rw [hparse, Option.some.injEq] at hreq
    subst hreg hreq
    exact absurd huser (by decide +kernel)

end EsphomeMcp.OAuth
