import EsphomeMcp.OAuth.Common
import EsphomeMcp.Python.JsonBytes

/-!
# Signed blobs

The two families of self-describing strings the component signs with its DCR key: the client ids
of `oauth_dcr` and the refresh envelopes of `oauth_ha_auth`. Both are a prefix, the base64url
text of a JSON object, a dot and the base64url text of an HMAC; the HMAC of an envelope covers
the prefix and the one of a client id does not.

What a verified blob opens to is the payload that was signed, with its split surrogate pairs
joined: that is all `json.loads` changes.
-/

namespace EsphomeMcp.OAuth

open Py

/-! ## Definitions -/

/-- `sys.float_info.max_exp`. -/
def floatMaxExp : ℕ := 1024

/-- `int(time.time())`: every finite float is below `2 ** floatMaxExp`. -/
abbrev UnixTime := {n : ℤ // n.natAbs < 2 ^ floatMaxExp}

/-- The clock at its zero. -/
def unixEpoch : UnixTime := ⟨0, Nat.two_pow_pos floatMaxExp⟩

/-- `_CLIENT_ID_PREFIX`. -/
def clientIdPrefix : Str := str "espmcp-dcr-"

/-- `_REFRESH_ENVELOPE_PREFIX`. -/
def refreshEnvelopePrefix : Str := str "espmcp-rt-"

/-- The body of a blob: the base64url text of its payload. -/
def blobBody (payload : Json) : Str := b64urlEncode (dumpsBytes .compact payload)

/-- A body, a dot and the signature of the body behind `signedPrefix`. -/
def signedBlob (signingKey : Bytes) (signedPrefix : Str) (payload : Json) : Str :=
  let body := blobBody payload
  let sig := hmacSha256 signingKey (asciiBytes (signedPrefix ++ body))
  body ++ ch '.' :: b64urlEncode sig

/-- `json.loads(raw)` where `ValueError` is caught. -/
def loadsCaught [Runtime] (raw : Bytes) : Except PyError (Option Json) :=
  match loadsBytes raw with
  | .ok payload => .ok (some payload)
  | .error .value => .ok none
  | .error .recursion => .error .recursion

/-- The payload of a blob whose signature verifies. -/
def verifiedPayload [Runtime] (signingKey : Bytes) (signedPrefix blob : Str) :
    Except PyError (Option Json) :=
  match rpartition (ch '.') blob with
  | none => .ok none
  | some (body, sigPart) =>
    if body = [] then .ok none
    else
      match encodeAscii (signedPrefix ++ body), b64urlDecode sigPart with
      | some message, some sig =>
        if sig ≠ hmacSha256 signingKey message then .ok none
        else
          match b64urlDecode body with
          | some raw => loadsCaught raw
          | none => .ok none
      | _, _ => .ok none

/-- The payload of a client id. -/
def mintPayload (redirectUris : List Str) (now : UnixTime) : Json :=
  .dict [("r", .arr (redirectUris.map .str)), ("iat", .int now)]

/-- `mint_client_id`. -/
def mintClientId (signingKey : Bytes) (redirectUris : List Str) (now : UnixTime) : Str :=
  clientIdPrefix ++ signedBlob signingKey [] (mintPayload redirectUris now)

/-- A list of strings, if every item is one. -/
def strItems : List Json → Option (List Str)
  | [] => some []
  | .str u :: js => (strItems js).map (u :: ·)
  | _ :: _ => none

/-- The `r` member of a payload, if it is a list of strings. -/
def embeddedUris : Json → Option (List Str)
  | .obj payload =>
    match dictGet payload (str "r") with
    | .arr items => strItems items
    | _ => none
  | _ => none

/-- `client_redirect_uris`. -/
def clientRedirectUris [Runtime] (signingKey : Bytes) (clientId : Str) :
    Except PyError (Option (List Str)) :=
  if startsWith clientId clientIdPrefix then
    (verifiedPayload signingKey [] (clientId.drop clientIdPrefix.length)).map (·.bind embeddedUris)
  else .ok none

/-- `_presented_client_hash`. -/
def presentedClientHash (clientId : Str) : Except PyError Str :=
  match encodeUtf8 clientId with
  | some raw => .ok (b64urlEncode (sha256 raw))
  | none => .error .unicodeEncode

/-- The payload of a refresh envelope. -/
def envelopePayload (coreRefreshToken forwardClientId presenter : Str) : Json :=
  .dict [("v", .int 1), ("t", .str coreRefreshToken), ("c", .str forwardClientId),
    ("p", .str presenter)]

/-- `wrap_refresh_token`. -/
def wrapRefreshToken (signingKey : Bytes)
    (coreRefreshToken forwardClientId presentedClientId : Str) : Except PyError Str := do
  let presenter ← presentedClientHash presentedClientId
  let payload := envelopePayload coreRefreshToken forwardClientId presenter
  return refreshEnvelopePrefix ++ signedBlob signingKey refreshEnvelopePrefix payload

/-- What `unwrap_refresh_token` returns: an `EnvelopeState`, or the pair it recovered. -/
inductive Envelope where
  | absent
  | invalid
  | opened (coreRefreshToken forwardClientId : Str)
deriving DecidableEq

/-- The `t`, `c` and `p` members of a version 1 payload. -/
def envelopeFields : Json → Option (Str × Str × Str)
  | .obj payload =>
    if (dictGet payload (str "v")).eqOne then
      match dictGet payload (str "t"), dictGet payload (str "c"), dictGet payload (str "p") with
      | .str t, .str c, .str p => some (t, c, p)
      | _, _, _ => none
    else none
  | _ => none

/-- `hmac.compare_digest` of two strings, which refuses text that is not ASCII. -/
def compareDigest (a b : Str) : Except PyError Bool :=
  if a.all isAscii && b.all isAscii then .ok (a = b) else .error .type

/-- `unwrap_refresh_token`. -/
def unwrapRefreshToken [Runtime] (signingKey : Bytes) (token : Str) (presentedClientId : Option Str) :
    Except PyError Envelope :=
  if startsWith token refreshEnvelopePrefix then do
    let payload ← verifiedPayload signingKey refreshEnvelopePrefix
      (token.drop refreshEnvelopePrefix.length)
    match payload.bind envelopeFields with
    | none => .ok .invalid
    | some (coreRefreshToken, forwardClientId, presenter) =>
      match presentedClientId with
      | none => .ok (.opened coreRefreshToken forwardClientId)
      | some clientId => do
        let hash ← presentedClientHash clientId
        let same ← compareDigest presenter hash
        .ok (if same then .opened coreRefreshToken forwardClientId else .invalid)
  else .ok .absent

/-! ## Opening a blob -/

theorem not_mem_dot_b64urlEncode (raw : Bytes) : ch '.' ∉ b64urlEncode raw :=
  fun h => (b64urlEncode_spec raw _ h).2 rfl

theorem blobBody_ne_nil (payload : Json) {c : CodePoint} {s : Str}
    (h : dumpsText .compact payload = c :: s) : blobBody payload ≠ [] := by
  intro hnil
  have hinj : b64urlEncode (dumpsBytes .compact payload) = b64urlEncode [] := hnil
  have hbytes := b64urlEncode_injective hinj
  rw [dumpsBytes, h, List.flatMap_cons] at hbytes
  unfold utf8Char at hbytes
  split_ifs at hbytes <;> simp at hbytes

theorem encodeAscii_append_blobBody {signedPrefix : Str} (h : ∀ c ∈ signedPrefix, isAscii c = true)
    (payload : Json) : encodeAscii (signedPrefix ++ blobBody payload) =
      some (asciiBytes (signedPrefix ++ blobBody payload)) :=
  encodeAscii_eq_some (List.forall_mem_append.mpr ⟨h, fun c hc => (b64urlEncode_spec _ c hc).1⟩)

theorem length_natRepr_unixTime (now : UnixTime) :
    (natRepr now.val.natAbs).length ≤ maxStrDigits := by
  have hlt : now.val.natAbs < 10 ^ floatMaxExp :=
    now.property.trans (Nat.pow_lt_pow_left (by decide) (by decide))
  rw [natRepr]
  split_ifs with h0
  · simp [maxStrDigits]
  · rw [List.length_map, List.length_reverse, Nat.digits_length_le_iff (by norm_num)]
    exact hlt.trans (Nat.pow_lt_pow_right (by norm_num) (by decide))

section

variable [Runtime]

/-- What `verifiedPayload` makes of a blob whose signature it accepts. -/
theorem verifiedPayload_eq {signingKey : Bytes} {signedPrefix body sigPart : Str}
    {message sig : Bytes} (hbody : body ≠ []) (hdot : ch '.' ∉ sigPart)
    (hmessage : encodeAscii (signedPrefix ++ body) = some message)
    (hsig : b64urlDecode sigPart = some sig) :
    verifiedPayload signingKey signedPrefix (body ++ ch '.' :: sigPart) =
      if sig ≠ hmacSha256 signingKey message then .ok none
      else
        match b64urlDecode body with
        | some raw => loadsCaught raw
        | none => .ok none := by
  rw [verifiedPayload, rpartition_append_cons hdot]
  simp only [if_neg hbody, hmessage, hsig]

/-- A blob opens to its payload, under the key that signed it. -/
theorem verifiedPayload_signedBlob (signingKey : Bytes) {signedPrefix : Str}
    (hp : ∀ c ∈ signedPrefix, isAscii c = true) {payload : Json} (hwf : payload.WellFormed)
    (hd : payload.depth ≤ recursionLimit) :
    verifiedPayload signingKey signedPrefix (signedBlob signingKey signedPrefix payload) =
      .ok (some payload.rejoin) := by
  obtain ⟨c, s, hs, -⟩ := startsValue_dumpsText .compact hwf
  rw [signedBlob, verifiedPayload_eq (blobBody_ne_nil payload hs) (not_mem_dot_b64urlEncode _)
    (encodeAscii_append_blobBody hp payload) (b64urlDecode_b64urlEncode _), if_neg (by simp),
    blobBody, b64urlDecode_b64urlEncode]
  simp only [loadsCaught, loadsBytes_dumpsBytes .compact hwf hd]

/-- A blob does not open under a key with another signature. -/
theorem verifiedPayload_of_ne {signingKey otherKey : Bytes} {signedPrefix : Str}
    (hp : ∀ c ∈ signedPrefix, isAscii c = true) {payload : Json} (hwf : payload.WellFormed)
    (hne : hmacSha256 signingKey (asciiBytes (signedPrefix ++ blobBody payload)) ≠
      hmacSha256 otherKey (asciiBytes (signedPrefix ++ blobBody payload))) :
    verifiedPayload otherKey signedPrefix (signedBlob signingKey signedPrefix payload) = .ok none := by
  obtain ⟨c, s, hs, -⟩ := startsValue_dumpsText .compact hwf
  rw [signedBlob, verifiedPayload_eq (blobBody_ne_nil payload hs) (not_mem_dot_b64urlEncode _)
    (encodeAscii_append_blobBody hp payload) (b64urlDecode_b64urlEncode _), if_pos hne]

/-! ## The two payloads -/

theorem wellFormed_mintPayload (redirectUris : List Str) (now : UnixTime) :
    (mintPayload redirectUris now).WellFormed := by
  refine .obj _ (by simp) ?_
  simp only [List.map_cons, List.map_nil, List.forall_mem_cons]
  refine ⟨.arr _ ?_, .int _ (length_natRepr_unixTime now), by simp⟩
  intro j hj
  obtain ⟨u, -, rfl⟩ := List.mem_map.mp hj
  exact .str u

theorem depth_mintPayload (redirectUris : List Str) (now : UnixTime) :
    (mintPayload redirectUris now).depth ≤ recursionLimit := by
  have hitems : Json.depthItems (redirectUris.map .str) ≤ 0 := by
    apply Json.depthItems_le
    intro j hj
    obtain ⟨u, -, rfl⟩ := List.mem_map.mp hj
    exact Nat.zero_le 0
  have hlimit := Runtime.recursionLimit_pos
  simp only [mintPayload, Json.dict, List.map_cons, List.map_nil, Json.depth, Json.depthFields]
  omega

theorem wellFormed_envelopePayload (t c p : Str) : (envelopePayload t c p).WellFormed := by
  refine .obj _ (by simp) ?_
  simp only [List.map_cons, List.map_nil, List.forall_mem_cons]
  exact ⟨.int 1 (by decide), .str t, .str c, .str p, by simp⟩

theorem depth_envelopePayload (t c p : Str) : (envelopePayload t c p).depth ≤ recursionLimit := by
  have hlimit := Runtime.recursionLimit_pos
  simp only [envelopePayload, Json.dict, List.map_cons, List.map_nil, Json.depth, Json.depthFields]
  omega

end

end EsphomeMcp.OAuth
