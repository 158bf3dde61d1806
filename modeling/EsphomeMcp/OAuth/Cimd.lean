import EsphomeMcp.OAuth.Origins
import EsphomeMcp.OAuth.Signed
import EsphomeMcp.Python.Program
import EsphomeMcp.Python.UrlRoundTrip
import Mathlib.Data.List.Lex
import Mathlib.Data.List.Sort

/-!
# Client id metadata documents

`fetch_cimd_redirects`: the list of redirects in the document a client id points at. The name in
the URL is resolved once, every answer has to be a global address, and the requests go to these
addresses themselves, in sorted order, until one of them answers.

The lookup is a program over the clock, the cache, the slots, the resolver and the connection.
`Body` and `Exchange` say what came of one request, `FirstAnswer` what came of a whole RRset.
-/

namespace EsphomeMcp.OAuth

open Py Py.Prog

/-! ## Commands -/

/-- What is raised at an `await`. -/
inductive OAuthError where
  | py (e : PyError)
  | timeout
  | client
  | os
  /-- The cancellation by which `asyncio.timeout` ends its block. -/
  | deadline
  | other
deriving DecidableEq

/-- A request of `_fetch_pinned_cimd`. -/
structure CimdRequest where
  url : Str
  allowRedirects : Bool
  timeout : ℕ
  host : Str
  serverHostname : Option Str
deriving DecidableEq

/-- What a lookup asks of its environment. -/
inductive CimdCmd (T : Type) where
  | monotonic
  | cached (clientId : Str)
  | cacheCimd (clientId : Str) (now : T) (result : Option (List Str))
  | acquire
  | release
  | getaddrinfo (hostname : Str) (port : ℕ)
  | get (request : CimdRequest)
  | readChunk

/-- The answers: a reading of the clock, a cache entry, the numeric hosts, a status, a chunk that
is empty at the end of the body. -/
abbrev CimdCmd.Ans {T : Type} : CimdCmd T → Type
  | .monotonic => T
  | .cached _ => Option (T × Option (List Str))
  | .cacheCimd _ _ _ | .acquire | .release => Unit
  | .getaddrinfo _ _ => List Str
  | .get _ => ℕ
  | .readChunk => Bytes

/-- The commands of a lookup. -/
abbrev cimdSignature (T : Type) : Signature := ⟨CimdCmd T, CimdCmd.Ans⟩

/-- A coroutine of a lookup. -/
abbrev CimdProg (T : Type) (α : Type) := Prog (cimdSignature T) OAuthError α

/-- `await` of one command. -/
def ask {T : Type} (c : CimdCmd T) : CimdProg T c.Ans := @perform (cimdSignature T) OAuthError c

/-- A command of the interpreter itself, which does not fail. -/
def tell {T : Type} (c : CimdCmd T) : CimdProg T Unit :=
  @Prog.call (cimdSignature T) OAuthError Unit c fun _ => .ret ()

/-! ## Definitions -/

/-- `CIMD_MAX_BYTES`. -/
def cimdMaxBytes : ℕ := 10 * 1024

/-- `CIMD_FETCH_TIMEOUT`. -/
def cimdFetchTimeout : ℕ := 5

/-- `CIMD_CACHE_TTL`. -/
def cimdCacheTtl {T : Type} [OfNat T 300] : T := 300

/-- `CIMD_NEGATIVE_TTL`. -/
def cimdNegativeTtl {T : Type} [OfNat T 60] : T := 60

/-- `_CIMD_CACHE_MAX`. -/
def cimdCacheMax : ℕ := 64

/-- `_ALLOWED_SCHEMES`. -/
def allowedSchemes : List Str := [str "https"]

/-- `_cimd_cache`. -/
abbrev CimdCache (T : Type) := List (Str × T × Option (List Str))

/-- The second loop of `_cache_cimd`: the oldest entries go until there is room for one. -/
def evictOldest {T : Type} : CimdCache T → CimdCache T
  | [] => []
  | e :: cache => if cimdCacheMax ≤ (e :: cache).length then evictOldest cache else e :: cache

/-- `_cache_cimd`. -/
def cacheCimd {T : Type} [LinearOrder T] [Add T] [OfNat T 300] [OfNat T 60] (cache : CimdCache T)
    (clientId : Str) (now : T) (result : Option (List Str)) : CimdCache T :=
  let cache := cache.filter fun e => e.1 ≠ clientId
  let cache := if cimdCacheMax ≤ cache.length then cache.filter fun e => now < e.2.1 else cache
  let ttl := if result.isSome then cimdCacheTtl else cimdNegativeTtl
  dictSet clientId (now + ttl, result) (evictOldest cache)

/-- Whether an answer of the resolver parses and is globally routable. -/
def isGlobalAddress (address : Str) : Bool :=
  match ipAddress address with
  | some ip => ip.isGlobal
  | none => false

/-- What `_resolve_public_addresses` makes of the answers. -/
def publicAddresses (answers : List Str) : List Str :=
  let addresses := answers.dedup
  if addresses.all isGlobalAddress then addresses.insertionSort (· ≤ ·) else []

/-- `_pinned_url`. -/
def pinnedUrl (parsed : ParseResult) (address : Str) : Except PyError Str :=
  let host := if ch ':' ∈ address then ch '[' :: (address ++ [ch ']']) else address
  match parsed.port with
  | none => .error .value
  | some none => .ok (urlunparse { parsed with netloc := host })
  | some (some port) => .ok (urlunparse { parsed with netloc := host ++ ch ':' :: natRepr port })

/-- The methods by which a client would have a secret. -/
def secretAuthMethods : List Json :=
  [.lit "client_secret_basic", .lit "client_secret_jwt", .lit "client_secret_post"]

section

variable [Runtime]

/-- `_valid_cimd_client_id`. -/
def validCimdClientId (clientId : Str) : Bool :=
  match urlparse clientId with
  | none => false
  | some parsed =>
    match parsed.port with
    | none => false
    | some _ =>
      parsed.scheme ∈ allowedSchemes && parsed.hostname.any (· ≠ []) && parsed.path ≠ [] &&
        parsed.path ≠ str "/" && ch '#' ∉ clientId && parsed.username = none &&
        parsed.password = none &&
        !(parsed.path.splitOn (ch '/')).any fun segment => segment = str "." || segment = str ".."

/-- The checks `_parse_cimd` makes on a document before it looks at the redirects. -/
def acceptsDocument (doc : Dict) (clientId : Str) : Bool :=
  dictGet doc (str "client_id") = .str clientId &&
    (match dictGet doc (str "client_name") with
      | .str name => strip name ≠ []
      | _ => false) &&
    !dictHas doc (str "client_secret") && !dictHas doc (str "client_secret_expires_at") &&
    dictGet doc (str "token_endpoint_auth_method") ∉ secretAuthMethods

/-- `_parse_cimd`. -/
def parseCimd (raw : Bytes) (clientId : Str) : Option (List Str) :=
  match (decodeUtf8 raw).map (loadsWith true) with
  | some (.ok (.obj doc)) =>
    if acceptsDocument doc clientId then
      match dictGet doc (str "redirect_uris") with
      | .arr items =>
        match strItems items with
        | some uris => if uris ≠ [] && uris.all isValidRedirectUri then some uris else none
        | none => none
      | _ => none
    else none
  | _ => none

variable {T : Type}

/-- `_resolve_public_addresses`. -/
def resolvePublicAddresses (hostname : Str) (port : ℕ) : CimdProg T (List Str) :=
  Prog.tryCatch (do
    let answers ← ask (.getaddrinfo hostname port)
    return publicAddresses answers) fun
    | .os | .py .value | .py .unicodeEncode | .timeout => return []
    | e => .raise e

/-- The loop over the chunks of a body; every turn but the last reads at least one byte. -/
def readCapped : ℕ → Bytes → CimdProg T (Option Bytes)
  | 0, _ => return none
  | fuel + 1, raw => do
    let chunk ← ask .readChunk
    if chunk = [] then return some raw
    else if cimdMaxBytes < (raw ++ chunk).length then return none
    else readCapped fuel (raw ++ chunk)

/-- The request `_fetch_pinned_cimd` makes. -/
def cimdRequest (parsed : ParseResult) (url : Str) : CimdRequest where
  url := url
  allowRedirects := false
  timeout := cimdFetchTimeout
  host := parsed.netloc
  serverHostname := if parsed.scheme = str "https" then parsed.hostname else none

/-- `_fetch_pinned_cimd`. -/
def fetchPinnedCimd (clientId : Str) (parsed : ParseResult) (address : Str) :
    CimdProg T (Bool × Option (List Str)) :=
  Prog.tryCatch (do
    let url ← ofExcept ((pinnedUrl parsed address).mapError .py)
    let status ← ask (.get (cimdRequest parsed url))
    if status ≠ 200 then return (true, none)
    else
      match ← readCapped (cimdMaxBytes + 1) [] with
      | none => return (true, none)
      | some raw => return (true, parseCimd raw clientId)) fun
    | .timeout | .client => return (false, none)
    | e => .raise e

/-- The loop of `_lookup_cimd`. -/
def tryAddresses (clientId : Str) (parsed : ParseResult) (now : T) :
    List Str → CimdProg T (Option (List Str))
  | [] => do
    tell (.cacheCimd clientId now none)
    return none
  | address :: addresses => do
    let (reached, result) ← fetchPinnedCimd clientId parsed address
    if !reached then tryAddresses clientId parsed now addresses
    else
      match result with
      | none => return none
      | some uris =>
        tell (.cacheCimd clientId now (some uris))
        return some uris

/-- `parsed.port or 443`. -/
def resolvePort (port : Option ℕ) : ℕ :=
  match port with
  | none | some 0 => 443
  | some port => port

/-- `_lookup_cimd`. -/
def lookupCimd (clientId : Str) (parsed : ParseResult) (now : T) :
    CimdProg T (Option (List Str)) := do
  match parsed.port with
  | none => .raise (.py .value)
  | some port =>
    let addresses ← resolvePublicAddresses (parsed.hostname.getD []) (resolvePort port)
    tryAddresses clientId parsed now addresses

/-- The part of `fetch_cimd_redirects` under the total deadline. -/
def lookupUnderDeadline (clientId : Str) (parsed : ParseResult) (now : T) :
    CimdProg T (Option (List Str)) :=
  Prog.tryCatch (do
    ask .acquire
    let result ← attempt (lookupCimd clientId parsed now)
    tell .release
    ofExcept result) fun
    | .timeout | .deadline => do
      tell (.cacheCimd clientId now none)
      return none
    | e => .raise e

/-- `fetch_cimd_redirects`. -/
def fetchCimdRedirects [LinearOrder T] (clientId : Str) : CimdProg T (Option (List Str)) :=
  if validCimdClientId clientId then do
    let parsed ← ofExcept ((parseUrl clientId).mapError .py)
    match parsed.hostname with
    | none => .raise .other
    | some hostname =>
      if isLoopbackHost hostname then return none
      else if (ipAddress hostname).isSome then return none
      else
        let now ← ask .monotonic
        match ← ask (.cached clientId) with
        | some (expires, result) =>
          if now < expires then return result else lookupUnderDeadline clientId parsed now
        | none => lookupUnderDeadline clientId parsed now
  else return none

/-! ## What came of a request -/

/-- A command with what came back. -/
abbrev CimdEvent (T : Type) := Event (cimdSignature T) OAuthError

/-- The requests in a run. -/
def requests (tr : List (CimdEvent T)) : List CimdRequest :=
  tr.filterMap fun ev =>
    match ev.cmd with
    | .get request => some request
    | _ => none

/-- The answers of the resolutions in a run. -/
def resolutions (tr : List (CimdEvent T)) : List (List Str) :=
  tr.filterMap fun
    | ⟨.getaddrinfo _ _, .ok answers⟩ => some answers
    | _ => none

/-- What came of reading a body, the bytes in the first argument already read. -/
inductive Body : Bytes → List (CimdEvent T) → Except OAuthError (Option Bytes) → Prop
  | eof (raw : Bytes) : Body raw [⟨.readChunk, .ok []⟩] (.ok (some raw))
  | pastCap {raw chunk : Bytes} : chunk ≠ [] → cimdMaxBytes < (raw ++ chunk).length →
      Body raw [⟨.readChunk, .ok chunk⟩] (.ok none)
  | more {raw chunk : Bytes} {tr : List (CimdEvent T)} {out : Except OAuthError (Option Bytes)} :
      chunk ≠ [] → (raw ++ chunk).length ≤ cimdMaxBytes → Body (raw ++ chunk) tr out →
      Body raw (⟨.readChunk, .ok chunk⟩ :: tr) out
  | error (raw : Bytes) (e : OAuthError) : Body raw [⟨.readChunk, .error e⟩] (.error e)

/-- What came of a request: the redirects of the document in a 200 response, nothing for any other
response, or the exception that ended the exchange. -/
inductive Answered (clientId : Str) (request : CimdRequest) :
    List (CimdEvent T) → Except OAuthError (Option (List Str)) → Prop
  | status {status : ℕ} : status ≠ 200 →
      Answered clientId request [⟨.get request, .ok status⟩] (.ok none)
  | body {tr : List (CimdEvent T)} {out : Except OAuthError (Option Bytes)} : Body [] tr out →
      Answered clientId request (⟨.get request, .ok (200 : ℕ)⟩ :: tr)
        (out.map fun raw => raw.bind (parseCimd · clientId))
  | error (e : OAuthError) : Answered clientId request [⟨.get request, .error e⟩] (.error e)

/-- The exceptions that let another address be tried. -/
def IsTransport (e : OAuthError) : Prop := e = .timeout ∨ e = .client

/-- What `_lookup_cimd` makes of the addresses: the first that answers decides, and those before it
failed in transport. -/
def FirstAnswer (clientId : Str) (request : Str → CimdRequest) (addresses : List Str)
    (tr : List (CimdEvent T)) (out : Except OAuthError (Option (List Str))) : Prop :=
  ∃ (failed rest : List Str) (exchanges : List (List (CimdEvent T))) (post : List (CimdEvent T)),
    addresses = failed ++ rest ∧
    List.Forall₂ (fun address exchange => ∃ e, IsTransport e ∧
      Answered clientId (request address) exchange (.error e)) failed exchanges ∧
    requests post = [] ∧ resolutions post = [] ∧
    match rest with
    | [] => tr = exchanges.flatten ++ post ∧ out = .ok none
    | address :: _ => ∃ exchange, Answered clientId (request address) exchange out ∧
        (∀ e, out = .error e → ¬IsTransport e) ∧ tr = exchanges.flatten ++ (exchange ++ post)

omit [Runtime] in
theorem readCapped_spec {fuel : ℕ} {raw : Bytes} (hraw : raw.length ≤ cimdMaxBytes)
    (hfuel : cimdMaxBytes < fuel + raw.length) : Spec (readCapped (T := T) fuel raw) (Body raw) := by
  induction fuel generalizing raw with
  | zero => omega
  | succ fuel ih =>
    intro tr out h
    rw [readCapped, bind_eq, ask, runs_bind_iff] at h
    obtain ⟨chunk, tr₁, tr₂, h₁, h₂, rfl⟩ | ⟨e, h₁, rfl⟩ := h
    · rw [runs_perform_iff] at h₁
      subst h₁
      split_ifs at h₂ with hnil hover
      · obtain ⟨rfl, rfl⟩ := runs_ret_iff.mp h₂
        rw [hnil]
        exact .eof raw
      · obtain ⟨rfl, rfl⟩ := runs_ret_iff.mp h₂
        exact .pastCap hnil hover
      · have hpos : 0 < chunk.length := List.length_pos_of_ne_nil hnil
        have hlen : (raw ++ chunk).length = raw.length + chunk.length := List.length_append
        exact .more hnil (by omega) (ih (by omega) (by omega) _ _ h₂)
    · rw [runs_perform_iff] at h₁
      subst h₁
      exact .error raw e

/-- `_fetch_pinned_cimd` reports what came of its request. -/
theorem fetchPinnedCimd_spec {clientId url address : Str} {parsed : ParseResult}
    (hurl : pinnedUrl parsed address = .ok url) :
    Spec (fetchPinnedCimd (T := T) clientId parsed address) fun tr out =>
      (∃ result, Answered clientId (cimdRequest parsed url) tr (.ok result) ∧
        out = .ok (true, result)) ∨
      (∃ e, IsTransport e ∧ Answered clientId (cimdRequest parsed url) tr (.error e) ∧
        out = .ok (false, none)) ∨
      ∃ e, ¬IsTransport e ∧ Answered clientId (cimdRequest parsed url) tr (.error e) ∧
        out = .error e := by
  rw [fetchPinnedCimd, hurl]
  refine Spec.tryCatch (Q := fun tr out => ∃ result,
    Answered clientId (cimdRequest parsed url) tr result ∧ out = result.map (true, ·)) ?_ ?_ ?_
  · intro tr out h
    simp only [Except.mapError, ofExcept_ok, bind_eq, bind_ret] at h
    obtain ⟨status, tr₁, tr₂, h₁, h₂, rfl⟩ | ⟨e, h₁, rfl⟩ := runs_bind_iff.mp h
    · obtain rfl := runs_perform_iff.mp h₁
      split_ifs at h₂ with hstatus
      · obtain ⟨rfl, rfl⟩ := runs_ret_iff.mp h₂
        exact ⟨.ok none, .status hstatus, rfl⟩
      · obtain rfl : status = (200 : ℕ) := not_not.mp hstatus
        obtain ⟨raw, tr₃, tr₄, h₃, h₄, rfl⟩ | ⟨e, h₃, rfl⟩ := runs_bind_iff.mp h₂
        · have hbody := readCapped_spec (by decide) (by simp) _ _ h₃
          cases raw with
          | none =>
            obtain ⟨rfl, rfl⟩ := runs_ret_iff.mp h₄
            rw [List.append_nil]
            exact ⟨_, .body hbody, rfl⟩
          | some raw =>
            obtain ⟨rfl, rfl⟩ := runs_ret_iff.mp h₄
            rw [List.append_nil]
            exact ⟨_, .body hbody, rfl⟩
        · exact ⟨_, .body (readCapped_spec (by decide) (by simp) _ _ h₃), rfl⟩
    · obtain rfl := runs_perform_iff.mp h₁
      exact ⟨_, .error e, rfl⟩
  · rintro ⟨reached, result⟩ tr ⟨r, hr, hout⟩
    cases r with
    | error e => cases hout
    | ok result' =>
      obtain ⟨rfl, rfl⟩ := Prod.mk.inj (Except.ok.inj hout)
      exact .inl ⟨result, hr, rfl⟩
  · rintro e tr ⟨r, hr, hout⟩
    cases r with
    | ok result' => cases hout
    | error e' =>
      obtain rfl : e = e' := Except.error.inj hout
      cases e with
      | timeout =>
        refine spec_ret_iff.mpr ?_
        rw [List.append_nil]
        exact .inr (.inl ⟨_, .inl rfl, hr, rfl⟩)
      | client =>
        refine spec_ret_iff.mpr ?_
        rw [List.append_nil]
        exact .inr (.inl ⟨_, .inr rfl, hr, rfl⟩)
      | py | os | deadline | other =>
        refine spec_raise_iff.mpr ?_
        rw [List.append_nil]
        exact .inr (.inr ⟨_, by simp [IsTransport], hr, rfl⟩)

/-- The address that answers first decides. -/
theorem tryAddresses_spec {clientId : Str} {parsed : ParseResult} {url : Str → Str}
    (hurl : ∀ address, pinnedUrl parsed address = .ok (url address)) (now : T)
    (addresses : List Str) :
    Spec (tryAddresses clientId parsed now addresses)
      (FirstAnswer clientId (fun address => cimdRequest parsed (url address)) addresses) := by
  induction addresses with
  | nil =>
    intro tr out h
    obtain ⟨r, tr', rfl, hret⟩ := runs_call_iff.mp h
    obtain ⟨rfl, rfl⟩ := runs_ret_iff.mp hret
    exact ⟨[], [], [], [_], rfl, .nil, rfl, rfl, rfl, rfl⟩
  | cons address addresses ih =>
    intro tr out h
    rw [tryAddresses] at h
    obtain ⟨⟨reached, result⟩, tr₁, tr₂, h₁, h₂, rfl⟩ | ⟨e, h₁, rfl⟩ := runs_bind_iff.mp h
    · obtain ⟨r, hr, hout⟩ | ⟨e, he, hr, hout⟩ | ⟨e, -, -, hout⟩ :=
        fetchPinnedCimd_spec (hurl address) _ _ h₁
      · obtain ⟨rfl, rfl⟩ := Prod.mk.inj (Except.ok.inj hout)
        cases result with
        | none =>
          obtain ⟨rfl, rfl⟩ := runs_ret_iff.mp h₂
          exact ⟨[], _, [], [], rfl, .nil, rfl, rfl, tr₁, hr, by simp, rfl⟩
        | some uris =>
          obtain ⟨r, tr', rfl, hret⟩ := runs_call_iff.mp h₂
          obtain ⟨rfl, rfl⟩ := runs_ret_iff.mp hret
          exact ⟨[], _, [], [_], rfl, .nil, rfl, rfl, tr₁, hr, by simp, rfl⟩
      · obtain ⟨rfl, rfl⟩ := Prod.mk.inj (Except.ok.inj hout)
        obtain ⟨failed, rest, exchanges, post, rfl, hfailed, hpost, hpost', hrest⟩ := ih _ _ h₂
        refine ⟨address :: failed, rest, tr₁ :: exchanges, post, rfl, .cons ⟨e, he, hr⟩ hfailed,
          hpost, hpost', ?_⟩
        cases rest with
        | nil =>
          obtain ⟨rfl, hout⟩ := hrest
          exact ⟨by simp, hout⟩
        | cons next rest =>
          obtain ⟨exchange, hanswered, herr, rfl⟩ := hrest
          exact ⟨exchange, hanswered, herr, by simp⟩
      · cases hout
    · obtain ⟨r, -, hout⟩ | ⟨e', -, -, hout⟩ | ⟨e', he, hr, hout⟩ :=
        fetchPinnedCimd_spec (hurl address) _ _ h₁
      · cases hout
      · cases hout
      · obtain rfl := Except.error.inj hout
        refine ⟨[], _, [], [], rfl, .nil, rfl, rfl, tr, hr, ?_, by simp⟩
        rintro e' he'
        exact Except.error.inj he' ▸ he

/-! ## A whole lookup -/

/-- The request a lookup pins to an address. -/
def pinnedRequest (parsed : ParseResult) (port : Option ℕ) (address : Str) : CimdRequest :=
  cimdRequest parsed (urlunparse { parsed with netloc := originNetloc address port })

omit [Runtime] in
theorem pinnedUrl_eq {parsed : ParseResult} {port : Option ℕ} (hport : parsed.port = some port)
    (address : Str) :
    pinnedUrl parsed address =
      .ok (urlunparse { parsed with netloc := originNetloc address port }) := by
  rw [pinnedUrl, hport, originNetloc]
  cases port with
  | none => simp only [portSuffix, List.append_nil]
  | some port => rfl

/-- No request was made and no name was resolved. -/
def Quiet (tr : List (CimdEvent T)) : Prop := requests tr = [] ∧ resolutions tr = []

/-- What the total deadline makes of an outcome. -/
def atDeadline : Except OAuthError (Option (List Str)) → Except OAuthError (Option (List Str))
  | .error .timeout | .error .deadline => .ok none
  | out => out

/-- One resolution, and what came of the addresses it gave. -/
def Looked (clientId : Str) (parsed : ParseResult) (port : Option ℕ) (tr : List (CimdEvent T))
    (out : Except OAuthError (Option (List Str))) : Prop :=
  ∃ r tr', tr = ⟨.getaddrinfo (parsed.hostname.getD []) (resolvePort port), r⟩ :: tr' ∧
    ((∃ answers, r = .ok answers ∧
        FirstAnswer clientId (pinnedRequest parsed port) (publicAddresses answers) tr' out) ∨
      (∃ e, r = .error e) ∧ Quiet tr' ∧ ∀ uris, out ≠ .ok (some uris))

omit [Runtime] in
theorem requests_append (tr tr' : List (CimdEvent T)) :
    requests (tr ++ tr') = requests tr ++ requests tr' := List.filterMap_append

omit [Runtime] in
theorem resolutions_append (tr tr' : List (CimdEvent T)) :
    resolutions (tr ++ tr') = resolutions tr ++ resolutions tr' := List.filterMap_append

omit [Runtime] in
theorem Quiet.append {tr tr' : List (CimdEvent T)} (h : Quiet tr) (h' : Quiet tr') :
    Quiet (tr ++ tr') := by
  rw [Quiet, requests_append, resolutions_append, h.1, h.2, h'.1, h'.2]
  exact ⟨rfl, rfl⟩

theorem FirstAnswer.append {clientId : Str} {request : Str → CimdRequest} {addresses : List Str}
    {tr tr' : List (CimdEvent T)} {out : Except OAuthError (Option (List Str))}
    (h : FirstAnswer clientId request addresses tr out) (hq : Quiet tr') :
    FirstAnswer clientId request addresses (tr ++ tr') out := by
  obtain ⟨failed, rest, exchanges, post, haddresses, hfailed, hpost, hpost', hrest⟩ := h
  have hquiet := Quiet.append ⟨hpost, hpost'⟩ hq
  refine ⟨failed, rest, exchanges, post ++ tr', haddresses, hfailed, hquiet.1, hquiet.2, ?_⟩
  cases rest with
  | nil =>
    obtain ⟨rfl, hout⟩ := hrest
    exact ⟨by rw [List.append_assoc], hout⟩
  | cons address rest =>
    obtain ⟨exchange, hanswered, herr, rfl⟩ := hrest
    exact ⟨exchange, hanswered, herr, by simp only [List.append_assoc]⟩

theorem Looked.append {clientId : Str} {parsed : ParseResult} {port : Option ℕ}
    {tr tr' : List (CimdEvent T)} {out : Except OAuthError (Option (List Str))}
    (h : Looked clientId parsed port tr out) (hq : Quiet tr') :
    Looked clientId parsed port (tr ++ tr') out := by
  obtain ⟨r, tr₁, rfl, ⟨answers, hr, hfirst⟩ | ⟨hr, hquiet, hout⟩⟩ := h
  · exact ⟨r, tr₁ ++ tr', rfl, .inl ⟨answers, hr, hfirst.append hq⟩⟩
  · exact ⟨r, tr₁ ++ tr', rfl, .inr ⟨hr, hquiet.append hq, hout⟩⟩

theorem lookupCimd_spec {clientId : Str} {parsed : ParseResult} {port : Option ℕ}
    (hport : parsed.port = some port) (now : T) :
    Spec (lookupCimd clientId parsed now) (Looked clientId parsed port) := by
  intro tr out h
  rw [lookupCimd, hport] at h
  obtain ⟨addresses, tr₁, tr₂, h₁, h₂, rfl⟩ | ⟨e, h₁, rfl⟩ := runs_bind_iff.mp h
  · have hlookup := tryAddresses_spec (pinnedUrl_eq hport) now addresses _ _ h₂
    obtain ⟨a, h₃, ha⟩ | ⟨e, tr₃, tr₄, h₃, h₄, rfl⟩ := runs_tryCatch_iff.mp h₁
    · obtain ⟨answers, tr₅, tr₆, h₅, h₆, rfl⟩ | ⟨e, -, he⟩ := runs_bind_iff.mp h₃
      · obtain rfl := runs_perform_iff.mp h₅
        obtain ⟨rfl, ha'⟩ := runs_ret_iff.mp h₆
        obtain rfl := Except.ok.inj ha
        obtain rfl := Except.ok.inj ha'
        exact ⟨.ok answers, tr₂, rfl, .inl ⟨answers, rfl, hlookup⟩⟩
      · cases he
    · obtain ⟨answers, tr₅, tr₆, h₅, h₆, rfl⟩ | ⟨e', h₅, he⟩ := runs_bind_iff.mp h₃
      · cases (runs_ret_iff.mp h₆).2
      · obtain rfl := runs_perform_iff.mp h₅
        obtain rfl := Except.error.inj he
        -- a resolution that failed gives no addresses
        have hnil : tr₄ = [] ∧ addresses = [] := by
          split at h₄
          all_goals first
            | exact ⟨(runs_ret_iff.mp h₄).1, (Except.ok.inj (runs_ret_iff.mp h₄).2)⟩
            | cases (runs_raise_iff.mp h₄).2
        obtain ⟨rfl, rfl⟩ := hnil
        obtain ⟨failed, rest, exchanges, post, hsplit, hfailed, hpost, hpost', hrest⟩ := hlookup
        obtain ⟨rfl, rfl⟩ := List.append_eq_nil_iff.mp hsplit.symm
        cases hfailed
        obtain ⟨rfl, rfl⟩ := hrest
        exact ⟨.error e, _, rfl, .inr ⟨⟨e, rfl⟩, ⟨hpost, hpost'⟩, by simp⟩⟩
  · obtain ⟨a, -, ha⟩ | ⟨e', tr₃, tr₄, h₃, h₄, rfl⟩ := runs_tryCatch_iff.mp h₁
    · cases ha
    · obtain ⟨answers, tr₅, tr₆, h₅, h₆, rfl⟩ | ⟨e'', h₅, he⟩ := runs_bind_iff.mp h₃
      · cases (runs_ret_iff.mp h₆).2
      · obtain rfl := runs_perform_iff.mp h₅
        have hnil : tr₄ = [] := by
          split at h₄
          all_goals first
            | exact (runs_ret_iff.mp h₄).1
            | exact (runs_raise_iff.mp h₄).1
        subst hnil
        exact ⟨_, [], rfl, .inr ⟨⟨_, rfl⟩, ⟨rfl, rfl⟩, by simp⟩⟩

/-- Nothing goes out before the slot and after the lookup. -/
theorem lookupUnderDeadline_spec {clientId : Str} {parsed : ParseResult} {port : Option ℕ}
    (hport : parsed.port = some port) (now : T) :
    Spec (lookupUnderDeadline clientId parsed now) fun tr out =>
      (Quiet tr ∧ ∀ uris, out ≠ .ok (some uris)) ∨
      ∃ tr' r, tr = ⟨.acquire, .ok ()⟩ :: tr' ∧ Looked clientId parsed port tr' r ∧
        out = atDeadline r := by
  refine Spec.tryCatch (Q := fun tr out => (Quiet tr ∧ ∀ uris, out ≠ .ok (some uris)) ∨
      ∃ tr', tr = ⟨.acquire, .ok ()⟩ :: tr' ∧ Looked clientId parsed port tr' out) ?_ ?_ ?_
  · intro tr out h
    obtain ⟨⟨⟩, tr₁, tr₂, h₁, h₂, rfl⟩ | ⟨e, h₁, rfl⟩ := runs_bind_iff.mp h
    · obtain rfl := runs_perform_iff.mp h₁
      obtain ⟨result, tr₃, tr₄, h₃, h₄, rfl⟩ | ⟨e, h₃, -⟩ := runs_bind_iff.mp h₂
      · obtain ⟨r, h₅, hr⟩ := runs_attempt_iff.mp h₃
        obtain rfl := Except.ok.inj hr
        obtain ⟨answer, tr₅, rfl, h₆⟩ := runs_call_iff.mp h₄
        obtain ⟨rfl, rfl⟩ := runs_ofExcept_iff.mp h₆
        refine .inr ⟨_, rfl, (lookupCimd_spec hport now _ _ h₅).append ⟨rfl, rfl⟩⟩
      · obtain ⟨r, -, hr⟩ := runs_attempt_iff.mp h₃
        cases hr
    · obtain rfl := runs_perform_iff.mp h₁
      exact .inl ⟨⟨rfl, rfl⟩, by simp⟩
  · rintro a tr (hquiet | ⟨tr', htr, hlooked⟩)
    · exact .inl hquiet
    · exact .inr ⟨tr', _, htr, hlooked, rfl⟩
  · rintro e tr hQ tr₂ out h
    have hhandled : Quiet tr₂ ∧ out = atDeadline (.error e) := by
      split at h
      all_goals first
        | exact ⟨by rw [(runs_raise_iff.mp h).1]; exact ⟨rfl, rfl⟩, by
            rw [(runs_raise_iff.mp h).2, atDeadline]
            all_goals simp_all⟩
        | obtain ⟨answer, tr₃, rfl, h₁⟩ := runs_call_iff.mp h
          obtain ⟨rfl, rfl⟩ := runs_ret_iff.mp h₁
          exact ⟨⟨rfl, rfl⟩, rfl⟩
    obtain ⟨hquiet, rfl⟩ := hhandled
    rcases hQ with ⟨hquiet', -⟩ | ⟨tr', rfl, hlooked⟩
    · refine .inl ⟨hquiet'.append hquiet, ?_⟩
      intro uris
      cases e <;> simp [atDeadline]
    · exact .inr ⟨tr' ++ tr₂, _, rfl, hlooked.append hquiet, rfl⟩

/-! ## The URL of a request -/

/-- What `_valid_cimd_client_id` has checked of a client id it accepts. -/
structure IsCimdUrl (clientId : Str) (parsed : ParseResult) (port : Option ℕ) : Prop where
  parse : urlparse clientId = some parsed
  port : parsed.port = some port
  scheme : parsed.scheme = str "https"
  hostname : parsed.hostname ≠ none
  path : parsed.path ≠ []
  hash : ch '#' ∉ clientId

theorem exists_isCimdUrl {clientId : Str} (h : validCimdClientId clientId = true) :
    ∃ parsed port, IsCimdUrl clientId parsed port := by
  rw [validCimdClientId] at h
  cases hp : urlparse clientId with
  | none => simp [hp] at h
  | some parsed =>
    cases hport : parsed.port with
    | none => simp [hp, hport] at h
    | some port =>
      simp only [hp, hport, Bool.and_eq_true, decide_eq_true_eq, allowedSchemes,
        List.mem_singleton, Option.any_eq_true] at h
      obtain ⟨⟨⟨⟨⟨⟨⟨hscheme, hostname, hhost, -⟩, hpath⟩, -⟩, hhash⟩, -⟩, -⟩, -⟩ := h
      exact ⟨parsed, port, hp, hport, hscheme, by simp [hhost], hpath, hhash⟩

/-- What a request is pinned to: the URL of the client id, its host replaced by an address. -/
structure PinnedTo (parsed : ParseResult) (port : Option ℕ) (address : Str)
    (request : CimdRequest) : Prop where
  url : request.url = urlunparse { parsed with netloc := originNetloc address port }
  scheme : parsed.scheme = str "https"
  host : request.host = parsed.netloc
  serverHostname : request.serverHostname = parsed.hostname
  allowRedirects : request.allowRedirects = false
  /-- An address as the resolver gives it has no scope id. -/
  target : ch '%' ∉ address → ∃ target, urlparse request.url = some target ∧
    target.scheme = str "https" ∧ (hostinfo target.netloc).1 = address ∧
    target.port = some port ∧ target.path = parsed.path ∧ target.params = parsed.params ∧
    target.query = parsed.query

omit [Runtime] in
theorem isNetlocChar_of_isAddressChar {c : CodePoint} (h : isAddressChar c = true) :
    isNetlocChar c = true ∧ c ≠ ch '@' ∧ c ≠ ch '[' ∧ c ≠ ch ']' := by
  have hauthority : isAuthorityChar c = true := by
    simp only [isAddressChar, Bool.or_eq_true, decide_eq_true_eq] at h
    obtain (h | rfl) | rfl := h
    · simp only [hexDigitVal] at h
      simp only [isAuthorityChar, isAlpha, isDigit, Bool.or_eq_true, decide_eq_true_eq]
      split_ifs at h
      · omega
      · omega
      · omega
      · cases h
    · decide
    · decide
  refine ⟨isNetlocChar_of_isAuthorityChar hauthority, ?_, ?_, ?_⟩
  all_goals
    rintro rfl
    exact absurd h (by decide)

theorem pinnedTo_pinnedRequest {clientId address : Str} {parsed : ParseResult} {port : Option ℕ}
    (h : IsCimdUrl clientId parsed port) (haddress : isGlobalAddress address = true) :
    PinnedTo parsed port address (pinnedRequest parsed port address) := by
  refine ⟨rfl, h.scheme, rfl, by rw [pinnedRequest, cimdRequest, if_pos h.scheme], rfl, ?_⟩
  intro hscope
  obtain ⟨ip, hip⟩ : ∃ ip, ipAddress address = some ip := by
    rw [isGlobalAddress] at haddress
    split at haddress
    · exact ⟨_, ‹_›⟩
    · cases haddress
  have hchars (c : CodePoint) (hc : c ∈ address) :=
    isNetlocChar_of_isAddressChar (isAddressChar_of_ipAddress hip hscope c hc)
  have hat : ch '@' ∉ address := fun hc => (hchars _ hc).2.1 rfl
  have hopen : ch '[' ∉ address := fun hc => (hchars _ hc).2.2.1 rfl
  have hclose : ch ']' ∉ address := fun hc => (hchars _ hc).2.2.2 rfl
  have hbracketed (hc : ch ':' ∈ address) : checkBracketedHost address = true := by
    apply checkBracketedHost_of_v6
    rw [ipAddress_of_colon hc, parseScopedIpv6, partition_eq_none_iff.mpr hscope] at hip
    split_ifs at hip with hslash
    obtain ⟨n, hn, -⟩ := Option.map_eq_some_iff.mp hip
    refine ⟨n, none, ?_⟩
    rw [ipAddress_of_colon hc, parseScopedIpv6, partition_eq_none_iff.mpr hscope, if_neg hslash, hn]
    rfl
  have hnetloc : (originNetloc address port).all isNetlocChar = true :=
    isNetlocChar_originNetloc (List.all_eq_true.mpr fun c hc => (hchars c hc).1) port
  have hbrackets : checkBrackets (originNetloc address port) = true :=
    checkBrackets_originNetloc hat (fun hc => ⟨hbracketed hc, hclose⟩)
      (fun _ => ⟨hopen, hclose⟩) port
  have hinfo := hostinfo_originNetloc hat (fun _ => hclose) (fun _ => hopen) port
  have hscheme : parsed.scheme ∈ usesParams := by
    rw [h.scheme]
    decide
  have hne : parsed.netloc ≠ [] := by
    intro hnil
    exact h.hostname (by rw [ParseResult.hostname, hnil]; rfl)
  have hcut := isCut_of_urlparse h.parse hscheme hne h.path
  refine ⟨{ parsed with netloc := originNetloc address port }, ?_, h.scheme, ?_, ?_, rfl, rfl, rfl⟩
  · exact urlparse_urlunparse (.inr h.scheme) hnetloc hbrackets
      ⟨hcut.slash, hcut.chars, hcut.path, hcut.query, hcut.params, hcut.noParams⟩
      (show parsed.fragment = [] from fragment_of_urlparse h.parse h.hash)
  · rw [hinfo]
  · apply ParseResult.port_eq_of_natRepr (by rw [hinfo])
    rintro n rfl
    exact ParseResult.port_le h.port

/-! ## What a run shows -/

omit [Runtime] in
theorem quiet_body {raw : Bytes} {tr : List (CimdEvent T)} {out : Except OAuthError (Option Bytes)}
    (h : Body raw tr out) : Quiet tr := by
  induction h with
  | eof | pastCap | error => exact ⟨rfl, rfl⟩
  | more _ _ _ ih => exact ih

/-- An exchange is one request. -/
theorem requests_answered {clientId : Str} {request : CimdRequest} {tr : List (CimdEvent T)}
    {out : Except OAuthError (Option (List Str))} (h : Answered clientId request tr out) :
    requests tr = [request] ∧ resolutions tr = [] := by
  cases h with
  | status | error => exact ⟨rfl, rfl⟩
  | body hbody =>
    obtain ⟨hreq, hres⟩ := quiet_body hbody
    exact ⟨congrArg (request :: ·) hreq, hres⟩

/-- The requests go to the addresses that failed and to the one that answered. -/
theorem requests_firstAnswer {clientId : Str} {request : Str → CimdRequest} {addresses : List Str}
    {tr : List (CimdEvent T)} {out : Except OAuthError (Option (List Str))}
    (h : FirstAnswer clientId request addresses tr out) :
    resolutions tr = [] ∧ ∀ r ∈ requests tr, ∃ address ∈ addresses, r = request address := by
  obtain ⟨failed, rest, exchanges, post, rfl, hfailed, hpost, hpost', hrest⟩ := h
  have hflat : resolutions exchanges.flatten = [] ∧
      requests exchanges.flatten = failed.map request := by
    clear hrest
    induction hfailed with
    | nil => exact ⟨rfl, rfl⟩
    | cons hx _ ih =>
      obtain ⟨e, -, hanswered⟩ := hx
      obtain ⟨hreq, hres⟩ := requests_answered hanswered
      rw [List.flatten_cons, resolutions_append, requests_append, hreq, hres, ih.1, ih.2]
      exact ⟨rfl, rfl⟩
  cases rest with
  | nil =>
    obtain ⟨rfl, -⟩ := hrest
    rw [resolutions_append, requests_append, hflat.1, hflat.2, hpost, hpost', List.append_nil,
      List.append_nil]
    refine ⟨rfl, fun r hr => ?_⟩
    obtain ⟨a, ha, rfl⟩ := List.mem_map.mp hr
    exact ⟨a, List.mem_append_left _ ha, rfl⟩
  | cons address rest =>
    obtain ⟨exchange, hanswered, -, rfl⟩ := hrest
    obtain ⟨hreq, hres⟩ := requests_answered hanswered
    rw [resolutions_append, requests_append, resolutions_append, requests_append, hflat.1, hflat.2,
      hpost, hpost', hreq, hres]
    refine ⟨rfl, fun r hr => ?_⟩
    rw [List.append_nil, List.mem_append, List.mem_singleton, List.mem_map] at hr
    rcases hr with ⟨a, ha, rfl⟩ | rfl
    · exact ⟨a, List.mem_append_left _ ha, rfl⟩
    · exact ⟨address, by simp, rfl⟩

omit [Runtime] in
/-- The addresses that are tried: the answers in order, if all of them are global. -/
theorem publicAddresses_spec (answers : List Str) :
    (∃ a ∈ answers, isGlobalAddress a = false) ∧ publicAddresses answers = [] ∨
      (∀ a ∈ answers, isGlobalAddress a = true) ∧ (publicAddresses answers).Pairwise (· < ·) ∧
        ∀ a, a ∈ publicAddresses answers ↔ a ∈ answers := by
  rw [publicAddresses]
  split_ifs with hall
  · rw [List.all_eq_true] at hall
    refine .inr ⟨fun a ha => hall a (List.mem_dedup.mpr ha), ?_, fun a => ?_⟩
    · have hsorted : (answers.dedup.insertionSort (· ≤ ·)).Pairwise (· ≤ ·) :=
        List.pairwise_insertionSort (· ≤ ·) _
      have hnodup : (answers.dedup.insertionSort (· ≤ ·)).Nodup :=
        (List.perm_insertionSort (· ≤ ·) _).nodup_iff.mpr (List.nodup_dedup answers)
      exact (hsorted.and hnodup).imp fun h => lt_of_le_of_ne h.1 h.2
    · rw [List.mem_insertionSort, List.mem_dedup]
  · simp only [List.all_eq_true, List.mem_dedup, not_forall, Bool.not_eq_true] at hall
    obtain ⟨a, ha, hglobal⟩ := hall
    exact .inl ⟨⟨a, ha, hglobal⟩, rfl⟩

/-- What every run of a lookup shows. -/
structure PinnedRun [LinearOrder T] (clientId : Str) (tr : List (CimdEvent T))
    (out : Except OAuthError (Option (List Str))) : Prop where
  pinned : ∀ request ∈ requests tr, ∃ parsed port answers address,
    urlparse clientId = some parsed ∧ parsed.port = some port ∧ resolutions tr = [answers] ∧
      (∀ a ∈ answers, isGlobalAddress a = true) ∧ address ∈ answers ∧
      PinnedTo parsed port address request
  nonGlobal : ∀ answers ∈ resolutions tr, (∃ a ∈ answers, isGlobalAddress a = false) →
    requests tr = []
  refused : ∀ parsed hostname, urlparse clientId = some parsed → parsed.hostname = some hostname →
    isLoopbackHost hostname = true ∨ (ipAddress hostname).isSome = true → tr = []
  cached : ∀ now expires result rest,
    tr = ⟨.monotonic, .ok now⟩ :: ⟨.cached clientId, .ok (some (expires, result))⟩ :: rest →
      now < expires → rest = [] ∧ out = .ok result
  firstAnswer : requests tr ≠ [] → ∃ parsed port answers addresses tr₁ tr₂ r,
    urlparse clientId = some parsed ∧ parsed.port = some port ∧ resolutions tr = [answers] ∧
      addresses.Pairwise (· < ·) ∧ (∀ a, a ∈ addresses ↔ a ∈ answers) ∧
      tr = tr₁ ++ tr₂ ∧ requests tr₁ = [] ∧
      FirstAnswer clientId (pinnedRequest parsed port) addresses tr₂ r ∧ out = atDeadline r
  returned : ∀ uris, out = .ok (some uris) → requests tr ≠ [] ∨ ∃ now expires,
    tr = [⟨.monotonic, .ok now⟩, ⟨.cached clientId, .ok (some (expires, some uris))⟩] ∧
      now < expires

/-- A run that makes no request and returns no list. -/
theorem pinnedRun_quiet [LinearOrder T] {clientId : Str} {tr : List (CimdEvent T)}
    {out : Except OAuthError (Option (List Str))} (hreq : requests tr = [])
    (hout : ∀ uris, out ≠ .ok (some uris))
    (hrefused : ∀ parsed hostname, urlparse clientId = some parsed →
      parsed.hostname = some hostname →
        isLoopbackHost hostname = true ∨ (ipAddress hostname).isSome = true → tr = [])
    (hcached : ∀ now expires result rest,
      tr = ⟨.monotonic, .ok now⟩ :: ⟨.cached clientId, .ok (some (expires, result))⟩ :: rest →
        now < expires → rest = [] ∧ out = .ok result) : PinnedRun clientId tr out where
  pinned := by simp [hreq]
  nonGlobal := fun _ _ _ => hreq
  refused := hrefused
  cached := hcached
  firstAnswer := fun h => absurd hreq h
  returned := fun uris h => absurd h (hout uris)

/-- A run that resolved the name of the client id. -/
theorem pinnedRun_looked [LinearOrder T] {clientId : Str} {parsed : ParseResult}
    {port : Option ℕ} (h : IsCimdUrl clientId parsed port)
    {pre tr : List (CimdEvent T)} {r : Except OAuthError (Option (List Str))} (hpre : Quiet pre)
    (hlooked : Looked clientId parsed port tr r)
    (hrefused : ∀ parsed hostname, urlparse clientId = some parsed →
      parsed.hostname = some hostname →
        isLoopbackHost hostname = true ∨ (ipAddress hostname).isSome = true → pre ++ tr = [])
    (hcached : ∀ now expires result rest,
      pre ++ tr = ⟨.monotonic, .ok now⟩ :: ⟨.cached clientId, .ok (some (expires, result))⟩ :: rest →
        now < expires → rest = [] ∧ atDeadline r = .ok result) :
    PinnedRun clientId (pre ++ tr) (atDeadline r) := by
  obtain ⟨answer, tr', rfl, ⟨answers, rfl, hfirst⟩ | ⟨⟨e, rfl⟩, hquiet, hout⟩⟩ := hlooked
  · obtain ⟨hres, hreq⟩ := requests_firstAnswer hfirst
    have hresolutions : resolutions (pre ++
        ⟨.getaddrinfo (parsed.hostname.getD []) (resolvePort port), .ok answers⟩ :: tr') =
          [answers] := by
      rw [resolutions_append, hpre.2]
      exact congrArg (answers :: ·) hres
    have hrequests : requests (pre ++
        ⟨.getaddrinfo (parsed.hostname.getD []) (resolvePort port), .ok answers⟩ :: tr') =
          requests tr' := by
      rw [requests_append, hpre.1]
      rfl
    have hspec := publicAddresses_spec answers
    constructor
    · intro request hrequest
      rw [hrequests] at hrequest
      obtain ⟨address, haddress, rfl⟩ := hreq request hrequest
      obtain ⟨-, hnil⟩ | ⟨hall, -, hmem⟩ := hspec
      · rw [hnil] at haddress
        cases haddress
      · have hanswer := (hmem address).mp haddress
        exact ⟨parsed, port, answers, address, h.parse, h.port, hresolutions, hall, hanswer,
          pinnedTo_pinnedRequest h (hall address hanswer)⟩
    · intro answers' hanswers' hsome
      rw [hresolutions, List.mem_singleton] at hanswers'
      subst hanswers'
      obtain ⟨-, hnil⟩ | ⟨hall, -⟩ := hspec
      · rw [hrequests, List.eq_nil_iff_forall_not_mem]
        intro request hrequest
        obtain ⟨address, haddress, -⟩ := hreq request hrequest
        rw [hnil] at haddress
        cases haddress
      · obtain ⟨a, ha, hglobal⟩ := hsome
        rw [hall a ha] at hglobal
        cases hglobal
    · exact hrefused
    · exact hcached
    · intro hne
      obtain ⟨-, hnil⟩ | ⟨-, hsorted, hmem⟩ := hspec
      · obtain ⟨request, hrequest⟩ := List.exists_mem_of_ne_nil _ hne
        rw [hrequests] at hrequest
        obtain ⟨address, haddress, -⟩ := hreq request hrequest
        rw [hnil] at haddress
        cases haddress
      · refine ⟨parsed, port, answers, _, pre ++ [_], tr', r, h.parse, h.port, hresolutions, hsorted,
          hmem, by rw [List.append_assoc]; rfl, ?_, hfirst, rfl⟩
        rw [requests_append, hpre.1]
        rfl
    · intro uris huris
      left
      rw [hrequests]
      obtain ⟨failed, rest, exchanges, post, -, -, -, -, hrest⟩ := hfirst
      cases rest with
      | nil =>
        rw [hrest.2] at huris
        cases huris
      | cons address rest =>
        obtain ⟨exchange, hanswered, -, rfl⟩ := hrest
        rw [requests_append, requests_append, (requests_answered hanswered).1]
        simp
  · apply pinnedRun_quiet _ _ hrefused hcached
    · rw [requests_append, hpre.1]
      exact hquiet.1
    · intro uris huris
      cases r with
      | error e => cases e <;> cases huris
      | ok result => exact hout uris huris

/-- Every request of a lookup is pinned to a public address of its one resolution, and the first
address that answers decides. -/
theorem fetchCimdRedirects_pinned [LinearOrder T] (clientId : Str) :
    Spec (fetchCimdRedirects (T := T) clientId) (PinnedRun clientId) := by
  intro tr out hrun
  rw [fetchCimdRedirects] at hrun
  split_ifs at hrun with hvalid
  · obtain ⟨parsed, port, h⟩ := exists_isCimdUrl hvalid
    obtain ⟨hostname, hhost⟩ := Option.ne_none_iff_exists'.mp h.hostname
    have hparse : parseUrl clientId = .ok parsed := by rw [parseUrl, h.parse]
    rw [hparse] at hrun
    simp only [Except.mapError, ofExcept_ok, bind_eq, bind_ret, hhost] at hrun
    split_ifs at hrun with hloop hliteral
    · obtain ⟨rfl, rfl⟩ := runs_ret_iff.mp hrun
      exact pinnedRun_quiet rfl (by simp) (fun _ _ _ _ _ => rfl) (by simp)
    · obtain ⟨rfl, rfl⟩ := runs_ret_iff.mp hrun
      exact pinnedRun_quiet rfl (by simp) (fun _ _ _ _ _ => rfl) (by simp)
    · have hrefused (tr : List (CimdEvent T)) : ∀ parsed hostname,
          urlparse clientId = some parsed → parsed.hostname = some hostname →
            isLoopbackHost hostname = true ∨ (ipAddress hostname).isSome = true → tr = [] := by
        intro parsed' hostname' hparsed' hhost' hnot
        obtain rfl := Option.some.inj (h.parse.symm.trans hparsed')
        obtain rfl := Option.some.inj (hhost.symm.trans hhost')
        exact absurd hnot (not_or.mpr ⟨hloop, hliteral⟩)
      obtain ⟨now, tr₁, tr₂, h₁, h₂, rfl⟩ | ⟨e, h₁, rfl⟩ := runs_bind_iff.mp hrun
      · obtain rfl := runs_perform_iff.mp h₁
        obtain ⟨entry, tr₃, tr₄, h₃, h₄, rfl⟩ | ⟨e, h₃, rfl⟩ := runs_bind_iff.mp h₂
        · obtain rfl := runs_perform_iff.mp h₃
          -- without a live entry the name is resolved, under the deadline
          have hlookup (hnot : ∀ expires result, entry = some (expires, result) → ¬now < expires)
              (h₅ : Runs (lookupUnderDeadline clientId parsed now) tr₄ out) :
              PinnedRun clientId ([⟨.monotonic, .ok now⟩] ++ ([⟨.cached clientId, .ok entry⟩] ++ tr₄))
                out := by
            have hcached (out : Except OAuthError (Option (List Str))) : ∀ now' expires result rest,
                [⟨.monotonic, .ok now⟩] ++ ([⟨.cached clientId, .ok entry⟩] ++ tr₄) =
                  (⟨.monotonic, .ok now'⟩ :: ⟨.cached clientId, .ok (some (expires, result))⟩ ::
                    rest : List (CimdEvent T)) → now' < expires → rest = [] ∧ out = .ok result := by
              intro now' expires result rest heq hlive
              simp only [List.singleton_append, List.cons.injEq, Event.mk.injEq, heq_eq_eq,
                Except.ok.injEq, true_and] at heq
              obtain ⟨rfl, hentry, -⟩ := heq
              exact absurd hlive (hnot expires result hentry)
            obtain ⟨hquiet, hout⟩ | ⟨tr', r, rfl, hlooked, rfl⟩ :=
              lookupUnderDeadline_spec h.port now _ _ h₅
            · exact pinnedRun_quiet hquiet.1 hout (hrefused _) (hcached out)
            · have hquiet : Quiet (T := T) [⟨.monotonic, .ok now⟩, ⟨.cached clientId, .ok entry⟩,
                ⟨.acquire, .ok ()⟩] := ⟨rfl, rfl⟩
              have hrun := pinnedRun_looked h hquiet hlooked
              exact hrun (hrefused _) (hcached _)
          split at h₄
          · next expires result =>
            split_ifs at h₄ with hlive
            · obtain ⟨rfl, rfl⟩ := runs_ret_iff.mp h₄
              refine ⟨by simp [requests], by simp [resolutions], hrefused _, ?_, by simp [requests], ?_⟩
              · intro now' expires' result' rest heq _
                simp only [List.singleton_append, List.append_nil, List.cons.injEq, Event.mk.injEq,
                  heq_eq_eq, Except.ok.injEq, Option.some.injEq, Prod.mk.injEq, true_and] at heq
                obtain ⟨-, ⟨-, rfl⟩, rfl⟩ := heq
                exact ⟨rfl, rfl⟩
              · rintro uris huris
                obtain rfl := Except.ok.inj huris
                exact .inr ⟨now, expires, rfl, hlive⟩
            · refine hlookup ?_ h₄
              rintro expires' result' heq
              obtain ⟨rfl, -⟩ := Prod.mk.inj (Option.some.inj heq)
              exact hlive
          · exact hlookup (by simp) h₄
        · obtain rfl := runs_perform_iff.mp h₃
          exact pinnedRun_quiet rfl (by simp) (hrefused _) (by simp)
      · obtain rfl := runs_perform_iff.mp h₁
        exact pinnedRun_quiet rfl (by simp) (hrefused _) (by simp)
  · obtain ⟨rfl, rfl⟩ := runs_ret_iff.mp hrun
    exact pinnedRun_quiet rfl (by simp) (fun _ _ _ _ _ => rfl) (by simp)

end

end EsphomeMcp.OAuth
