import EsphomeMcp.OAuth.Redirects
import EsphomeMcp.OAuth.SignedRoundTrip
import EsphomeMcp.Webhook.World

/-!
# Dynamic client registration

`DcrRegisterView.post`: a body read up to a cap, the redirects in it checked, and a client id
minted that carries them. Nothing is stored, so what the authorize leg later reads back is what
the client id says.
-/

namespace EsphomeMcp.OAuth

open Py Webhook

/-! ## Definitions -/

/-- `MAX_DCR_BODY_BYTES`. -/
def maxDcrBodyBytes : ℕ := 64 * 1024

/-- `MAX_REDIRECT_URIS`. -/
def maxRedirectUris : ℕ := 10

/-- `MAX_REDIRECT_URI_LEN`. -/
def maxRedirectUriLen : ℕ := 512

/-- A JSON response. -/
structure JsonResponse where
  status : ℕ
  payload : Dict

/-- `request.content`: the fragments of the body that have not been read. -/
abbrev StreamReader := List Bytes

/-- `read(n)` returns at once with what one fragment has, and nothing at the end of the body. -/
def StreamReader.read (n : ℕ) : StreamReader → Bytes × StreamReader
  | [] => ([], [])
  | [] :: content => StreamReader.read n content
  | (b :: chunk) :: content =>
    ((b :: chunk).take n,
      if n < (b :: chunk).length then (b :: chunk).drop n :: content else content)

/-- The loop of `_read_capped_body`; every turn but the last reads at least one byte. -/
def readRemaining : ℕ → ℕ → StreamReader → Bytes
  | 0, _, _ => []
  | fuel + 1, remaining, content =>
    if remaining = 0 then []
    else
      let (chunk, content) := StreamReader.read remaining content
      if chunk = [] then []
      else chunk ++ readRemaining fuel (remaining - chunk.length) content

/-- `_read_capped_body`. -/
def readCappedBody (content : StreamReader) : Option Bytes :=
  let raw := readRemaining (maxDcrBodyBytes + 1) (maxDcrBodyBytes + 1) content
  if maxDcrBodyBytes < raw.length then none else some raw

/-- `_dcr_error`. -/
def dcrError (error description : Str) : JsonResponse :=
  ⟨400, [(str "error", .str error), (str "error_description", .str description)]⟩

/-- `_active_dcr_key`. -/
def activeDcrKey (cfg : Option Cfg) : Option Bytes := cfg.bind (·.dcrSigningKey)

/-- `_active_grant_types`. -/
def activeGrantTypes (cfg : Option Cfg) : List Str :=
  if (cfg.bind (·.resourceServer)).isSome then [str "authorization_code", str "refresh_token"]
  else [str "authorization_code"]

section

variable [Runtime]

/-- Whether `_redirect_uris_error` lets an item pass. -/
def isAcceptableUri : Json → Bool
  | .str uri => uri.length ≤ maxRedirectUriLen && isValidRedirectUri uri
  | _ => false

/-- `_redirect_uris_error`. -/
def redirectUrisError (value : Json) : Option (Str × Str) :=
  match value with
  | .arr items =>
    if items = [] then
      some (str "invalid_redirect_uri", str "redirect_uris must be a non-empty array")
    else if maxRedirectUris < items.length then
      some (str "invalid_redirect_uri",
        str "at most " ++ natRepr maxRedirectUris ++ str " redirect_uris are accepted")
    else if items.any (!isAcceptableUri ·) then
      some (str "invalid_redirect_uri", str "redirect_uris must be https URLs or http loopback " ++
        str "URLs (RFC 8252) without fragments")
    else none
  | _ => some (str "invalid_redirect_uri", str "redirect_uris must be a non-empty array")

/-- `cast(list[str], raw_uris)`, of a value that has passed the checks. -/
def castUris : Json → List Str
  | .arr items => (strItems items).getD []
  | _ => []

/-- The client metadata `post` echoes if it is a string. -/
def echoedFields : List Str := [str "client_name", str "application_type", str "scope"]

/-- The client information response, with what is echoed of the metadata. -/
def registrationResponse (cfg : Option Cfg) (clientId : Str) (body : Dict) (issuedAt : UnixTime) :
    Dict :=
  let response := [(str "client_id", .str clientId),
    (str "client_id_issued_at", .int issuedAt.val),
    (str "redirect_uris", dictGet body (str "redirect_uris")),
    (str "token_endpoint_auth_method", .lit "none"),
    (str "grant_types", .arr ((activeGrantTypes cfg).map .str)),
    (str "response_types", .arr [.lit "code"])]
  dictUpdate response (echoedFields.filterMap fun field =>
    if (dictGet body field).isStr then some (field, dictGet body field) else none)

/-- `DcrRegisterView.post`, with the two readings of the clock. -/
def registerPost (cfg : Option Cfg) (content : StreamReader) (mintedAt issuedAt : UnixTime) :
    JsonResponse :=
  match activeDcrKey cfg with
  | none => ⟨404, [(str "error", .lit "not_found")]⟩
  | some key =>
    match (readCappedBody content).map loadsBytes with
    | none => dcrError (str "invalid_client_metadata") (str "body is too large")
    | some (.error _) => dcrError (str "invalid_client_metadata") (str "body must be JSON")
    | some (.ok (.obj body)) =>
      let rawUris := dictGet body (str "redirect_uris")
      match redirectUrisError rawUris with
      | some (error, description) => dcrError error description
      | none =>
        let clientId := mintClientId key (castUris rawUris) mintedAt
        ⟨201, registrationResponse cfg clientId body issuedAt⟩
    | some (.ok _) => dcrError (str "invalid_client_metadata") (str "body must be an object")

end

/-! ## Reading the body -/

theorem read_spec (n : ℕ) (content : StreamReader) :
    (StreamReader.read n content).1 ++ (StreamReader.read n content).2.flatten = content.flatten ∧
      (StreamReader.read n content).1.length ≤ n ∧
      ((StreamReader.read n content).1 = [] → n = 0 ∨ content.flatten = []) := by
  fun_induction StreamReader.read n content with
  | case1 => simp
  | case2 content ih => simpa using ih
  | case3 b chunk content =>
    refine ⟨?_, by simp, ?_⟩
    · split_ifs with h
      · rw [List.flatten_cons, ← List.append_assoc, List.take_append_drop, List.flatten_cons]
      · rw [List.take_of_length_le (by omega), List.flatten_cons]
    · cases n <;> simp

/-- The loop reads the body up to the limit, however it is fragmented. -/
theorem readRemaining_eq {fuel remaining : ℕ} (h : remaining ≤ fuel) (content : StreamReader) :
    readRemaining fuel remaining content = content.flatten.take remaining := by
  induction fuel generalizing remaining content with
  | zero =>
    obtain rfl : remaining = 0 := by omega
    rfl
  | succ fuel ih =>
    rw [readRemaining]
    split_ifs with hzero
    · rw [hzero, List.take_zero]
    · obtain ⟨happend, hlen, hnil⟩ := read_spec remaining content
      simp only
      split_ifs with hchunk
      · rw [(hnil hchunk).resolve_left hzero, List.take_nil]
      · have hpos := List.length_pos_of_ne_nil hchunk
        rw [ih (by omega), ← happend, List.take_append, List.take_of_length_le hlen]

theorem readCappedBody_eq {content : StreamReader} (h : content.flatten.length ≤ maxDcrBodyBytes) :
    readCappedBody content = some content.flatten := by
  have hraw : readRemaining (maxDcrBodyBytes + 1) (maxDcrBodyBytes + 1) content = content.flatten := by
    rw [readRemaining_eq le_rfl, List.take_of_length_le (by omega)]
  rw [readCappedBody, hraw]
  exact if_neg (by omega)

section

variable [Runtime]

/-! ## The redirects a registration is checked for -/

/-- A list of redirects a client may register. -/
structure IsRegistrable (uris : List Str) : Prop where
  nonempty : uris ≠ []
  count : uris.length ≤ maxRedirectUris
  each : ∀ uri ∈ uris, uri.length ≤ maxRedirectUriLen ∧ isValidRedirectUri uri = true

theorem isAcceptableUri_iff {item : Json} :
    isAcceptableUri item = true ↔
      ∃ uri, item = .str uri ∧ uri.length ≤ maxRedirectUriLen ∧ isValidRedirectUri uri = true := by
  cases item <;> simp [isAcceptableUri]

omit [Runtime] in
/-- Items that are strings are a list of strings. -/
theorem exists_map_str_iff {p : Str → Prop} {items : List Json} :
    (∀ item ∈ items, ∃ uri, item = .str uri ∧ p uri) ↔
      ∃ uris : List Str, items = uris.map .str ∧ ∀ uri ∈ uris, p uri := by
  constructor
  · intro h
    induction items with
    | nil => exact ⟨[], rfl, by simp⟩
    | cons item items ih =>
      rw [List.forall_mem_cons] at h
      obtain ⟨⟨uri, rfl, huri⟩, hrest⟩ := h
      obtain ⟨uris, rfl, huris⟩ := ih hrest
      exact ⟨uri :: uris, rfl, List.forall_mem_cons.mpr ⟨huri, huris⟩⟩
  · rintro ⟨uris, rfl, huris⟩ item hitem
    obtain ⟨uri, huri, rfl⟩ := List.mem_map.mp hitem
    exact ⟨uri, rfl, huris uri huri⟩

theorem redirectUrisError_eq_none_iff {value : Json} :
    redirectUrisError value = none ↔
      ∃ uris : List Str, value = .arr (uris.map .str) ∧ IsRegistrable uris := by
  cases value with
  | arr items =>
    rw [redirectUrisError]
    split_ifs with hnil hcount hitems
    · subst hnil
      simp only [false_iff, not_exists, not_and, Json.arr.injEq]
      intro uris huris hreg
      exact hreg.nonempty (List.map_eq_nil_iff.mp huris.symm)
    · simp only [false_iff, not_exists, not_and, Json.arr.injEq]
      rintro uris rfl hreg
      rw [List.length_map] at hcount
      exact absurd hreg.count (by omega)
    · simp only [false_iff, not_exists, not_and, Json.arr.injEq]
      intro uris huris hreg
      obtain ⟨item, hitem, hbad⟩ := List.any_eq_true.mp hitems
      obtain ⟨uri, heq, hgood⟩ := exists_map_str_iff.mpr ⟨uris, huris, hreg.each⟩ item hitem
      rw [isAcceptableUri_iff.mpr ⟨uri, heq, hgood⟩] at hbad
      cases hbad
    · simp only [List.any_eq_true, Bool.not_eq_true', not_exists, not_and,
        Bool.not_eq_false] at hitems
      obtain ⟨uris, rfl, huris⟩ :=
        exists_map_str_iff.mp fun item hitem => isAcceptableUri_iff.mp (hitems item hitem)
      refine iff_of_true rfl ⟨uris, rfl, fun h => hnil (by rw [h]; rfl), ?_, huris⟩
      rw [List.length_map] at hcount
      omega
  | _ => simp [redirectUrisError]

omit [Runtime] in
theorem strItems_map_str (uris : List Str) : strItems (uris.map .str) = some uris := by
  induction uris with
  | nil => rfl
  | cons uri uris ih => rw [List.map_cons, strItems, ih, Option.map_some]

omit [Runtime] in
theorem map_rejoinStr_eq_self_iff {uris : List Str} :
    uris.map rejoinStr = uris ↔ ∀ uri ∈ uris, ¬HasSplitPair uri := by
  have h := @List.map_inj_left _ _ uris rejoinStr id
  rw [List.map_id] at h
  simp only [h, id, rejoinStr_eq_self_iff]

/-! ## The round trip -/

/-- What registering promises: 201 for a list that may be registered and for nothing else, and a
client id that opens to that list, every redirect of which the authorize leg then accepts. -/
structure RegistrationRoundTrip (signingKey : Bytes) (rawUris : Json) (response : JsonResponse) :
    Prop where
  created : response.status = 201 ↔
    ∃ uris : List Str, rawUris = .arr (uris.map .str) ∧ IsRegistrable uris
  decoded : ∀ uris : List Str, rawUris = .arr (uris.map .str) → IsRegistrable uris →
    ∃ clientId registered, dictGet? response.payload (str "client_id") = some (.str clientId) ∧
      clientRedirectUris signingKey clientId = .ok (some registered) ∧ registered = uris ∧
      ∀ uri ∈ registered, redirectMatches registered uri = .ok true

variable {cfg : Option Cfg} {signingKey : Bytes} {content : StreamReader} {body : Dict}
  {mintedAt issuedAt : UnixTime}

/-- The answer to an object body within the cap. -/
theorem registerPost_eq (hkey : activeDcrKey cfg = some signingKey)
    (hsize : content.flatten.length ≤ maxDcrBodyBytes)
    (hbody : loadsBytes content.flatten = .ok (.obj body)) :
    registerPost cfg content mintedAt issuedAt =
      match redirectUrisError (dictGet body (str "redirect_uris")) with
      | some (error, description) => dcrError error description
      | none => ⟨201, registrationResponse cfg (mintClientId signingKey
          (castUris (dictGet body (str "redirect_uris"))) mintedAt) body issuedAt⟩ := by
  rw [registerPost, hkey]
  simp only [readCappedBody_eq hsize, Option.map_some, hbody]

omit [Runtime] in
/-- No echoed field replaces the client id. -/
theorem dictGet?_registrationResponse (clientId : Str) :
    dictGet? (registrationResponse cfg clientId body issuedAt) (str "client_id") =
      some (.str clientId) := by
  rw [registrationResponse, dictGet?_dictUpdate_of_notMem, dictGet?_cons, if_pos rfl]
  intro hmem
  obtain ⟨⟨field, value⟩, hfield, heq⟩ := List.mem_map.mp hmem
  obtain ⟨name, hname, hsome⟩ := List.mem_filterMap.mp hfield
  split_ifs at hsome
  simp only [Option.some.injEq, Prod.mk.injEq] at hsome
  obtain rfl : name = str "client_id" := hsome.1.trans heq
  exact absurd hname (by decide)

theorem registerPost_of_registrable (hkey : activeDcrKey cfg = some signingKey)
    (hsize : content.flatten.length ≤ maxDcrBodyBytes)
    (hbody : loadsBytes content.flatten = .ok (.obj body)) {uris : List Str}
    (huris : dictGet body (str "redirect_uris") = .arr (uris.map .str))
    (hreg : IsRegistrable uris) :
    registerPost cfg content mintedAt issuedAt =
      ⟨201, registrationResponse cfg (mintClientId signingKey uris mintedAt) body issuedAt⟩ := by
  rw [registerPost_eq hkey hsize hbody, redirectUrisError_eq_none_iff.mpr ⟨uris, huris, hreg⟩]
  simp only [huris, castUris, strItems_map_str, Option.getD_some]

/-- 201 is the answer to lists that may be registered. -/
theorem status_registerPost_iff (hkey : activeDcrKey cfg = some signingKey)
    (hsize : content.flatten.length ≤ maxDcrBodyBytes)
    (hbody : loadsBytes content.flatten = .ok (.obj body)) :
    (registerPost cfg content mintedAt issuedAt).status = 201 ↔
      ∃ uris : List Str, dictGet body (str "redirect_uris") = .arr (uris.map .str) ∧
        IsRegistrable uris := by
  rw [registerPost_eq hkey hsize hbody, ← redirectUrisError_eq_none_iff]
  cases redirectUrisError (dictGet body (str "redirect_uris")) with
  | none => simp
  | some error => simp [dcrError]

/-- What the round trip leaves as it is has no pairs to join. -/
theorem not_hasSplitPair_of_roundTrip (hkey : activeDcrKey cfg = some signingKey)
    (hsize : content.flatten.length ≤ maxDcrBodyBytes)
    (hbody : loadsBytes content.flatten = .ok (.obj body))
    (h : RegistrationRoundTrip signingKey (dictGet body (str "redirect_uris"))
      (registerPost cfg content mintedAt issuedAt)) {uris : List Str}
    (huris : dictGet body (str "redirect_uris") = .arr (uris.map .str))
    (hreg : IsRegistrable uris) : ∀ uri ∈ uris, ¬HasSplitPair uri := by
  obtain ⟨clientId, registered, hid, hopen, rfl, -⟩ := h.decoded uris huris hreg
  rw [registerPost_of_registrable hkey hsize hbody huris hreg, dictGet?_registrationResponse,
    Option.some.injEq, Json.str.injEq] at hid
  rw [← hid, clientRedirectUris_mintClientId, Except.ok.injEq, Option.some.injEq] at hopen
  exact map_rejoinStr_eq_self_iff.mp hopen

/-- The round trip of registration. It fails on redirects with a split surrogate pair, which the
signed JSON joins. -/
theorem registrationRoundTrip_iff (hkey : activeDcrKey cfg = some signingKey)
    (hsize : content.flatten.length ≤ maxDcrBodyBytes)
    (hbody : loadsBytes content.flatten = .ok (.obj body)) :
    RegistrationRoundTrip signingKey (dictGet body (str "redirect_uris"))
        (registerPost cfg content mintedAt issuedAt) ↔
      ∀ uris : List Str, dictGet body (str "redirect_uris") = .arr (uris.map .str) →
        IsRegistrable uris → ∀ uri ∈ uris, ¬HasSplitPair uri := by
  constructor
  · intro h uris huris hreg
    exact not_hasSplitPair_of_roundTrip hkey hsize hbody h huris hreg
  · intro h
    refine ⟨status_registerPost_iff hkey hsize hbody, fun uris huris hreg => ?_⟩
    have hself := map_rejoinStr_eq_self_iff.mpr (h uris huris hreg)
    refine ⟨mintClientId signingKey uris mintedAt, uris, ?_, ?_, rfl, fun uri huri => ?_⟩
    · rw [registerPost_of_registrable hkey hsize hbody huris hreg, dictGet?_registrationResponse]
    · rw [clientRedirectUris_mintClientId, hself]
    · rw [redirectMatches, if_pos huri]

end

/-- A body whose one redirect ends in some bytes. -/
def oneUriBody (tail : Bytes) : Bytes :=
  asciiBytes (str "\x7b\"redirect_uris\":[\"https://client.example/") ++ tail ++
    asciiBytes (str "\"]\x7d")

/-- A none-mode configuration with an empty key. -/
def noneModeCfg : Cfg where
  webhookId := "hook"
  targetUrl := "http://127.0.0.1:9583/private_x"
  session := 0
  cimdSession := none
  authMode := webhookAuthNone
  resourceServer := none
  autoapproveProvider := none
  dcrSigningKey := some []

theorem natAbs_lt_floatMax : (1700000000 : ℤ).natAbs < 2 ^ floatMaxExp := by decide +kernel

theorem registrationRoundTrip_iff_client :
    letI := asciiRuntime
    RegistrationRoundTrip [] (.arr [.str (str "https://client.example/cb")])
      (registerPost (some noneModeCfg) [oneUriBody (asciiBytes (str "cb"))]
        ⟨1700000000, natAbs_lt_floatMax⟩ ⟨1700000000, natAbs_lt_floatMax⟩) := by
  let := asciiRuntime
  have hbody : loadsBytes [oneUriBody (asciiBytes (str "cb"))].flatten =
      .ok (.obj [(str "redirect_uris", .arr [.str (str "https://client.example/cb")])]) := by
    decide +kernel
  refine (registrationRoundTrip_iff rfl (by decide +kernel) hbody).mpr ?_
  intro uris huris _ uri huri
  have hitems : [.str (str "https://client.example/cb")] = uris.map Json.str :=
    Json.arr.inj huris
  have hself : rejoinStr (str "https://client.example/cb") = str "https://client.example/cb" := by
    decide +kernel
  obtain rfl : [str "https://client.example/cb"] = uris :=
    List.map_injective_iff.mpr (fun _ _ => Json.str.inj) hitems
  rw [List.mem_singleton.mp huri]
  exact rejoinStr_eq_self_iff.mp hself

/-- A redirect that ends in the two halves of a surrogate pair, spelled out one by one in the
body, is registered as another one. -/
theorem not_registrationRoundTrip_splitPair :
    letI := asciiRuntime
    let uri := str "https://client.example/" ++ [codePoint 0xD83D, codePoint 0xDE00]
    let content := [oneUriBody [0xED, 0xA0, 0xBD, 0xED, 0xB8, 0x80]]
    loadsBytes content.flatten = .ok (.obj [(str "redirect_uris", .arr [.str uri])]) ∧
      ¬RegistrationRoundTrip [] (.arr [.str uri])
        (registerPost (some noneModeCfg) content ⟨1700000000, natAbs_lt_floatMax⟩
          ⟨1700000000, natAbs_lt_floatMax⟩) := by
  let := asciiRuntime
  intro uri content
  have hbody : loadsBytes content.flatten =
      .ok (.obj [(str "redirect_uris", .arr [.str uri])]) := by
    decide +kernel
  refine ⟨hbody, fun h => ?_⟩
  have hreg : IsRegistrable [uri] := ⟨by simp, by decide +kernel, by decide +kernel⟩
  refine not_hasSplitPair_of_roundTrip rfl (by decide +kernel) hbody h rfl hreg uri
    List.mem_cons_self ?_
  exact ⟨str "https://client.example/", codePoint 0xD83D, codePoint 0xDE00, [], rfl,
    by decide +kernel, by decide +kernel⟩

end EsphomeMcp.OAuth
