import EsphomeMcp.OAuth.Signed

/-!
# Signed blobs read back

What the two verifiers make of a blob the component signed itself. A client id gives its list
back with the split surrogate pairs of every entry joined; a refresh envelope gives back the
pair of strings it was wrapped around, to the client it was wrapped for.
-/

namespace EsphomeMcp.OAuth

open Py

/-! ## Encodable text -/

theorem rejoinStr_of_encodable {s : Str} (h : isUtf8Encodable s = true) : rejoinStr s = s := by
  apply rejoinStr_eq_self
  intro c hc
  have hs : isSurrogate c = false := by simpa using List.all_eq_true.mp h c hc
  by_contra hhigh
  rw [Bool.not_eq_false] at hhigh
  rw [isHighSurrogate_isSurrogate hhigh] at hs
  cases hs

theorem presentedClientHash_of_encodable {clientId : Str} (h : isUtf8Encodable clientId = true) :
    presentedClientHash clientId = .ok (b64urlEncode (sha256 (clientId.flatMap utf8Char))) := by
  rw [presentedClientHash, encodeUtf8, if_pos h]

theorem presentedClientHash_of_not_encodable {clientId : Str}
    (h : isUtf8Encodable clientId = false) :
    presentedClientHash clientId = .error .unicodeEncode := by
  rw [presentedClientHash, encodeUtf8, if_neg (by simp [h])]

/-- Two digests are compared as text without an error. -/
theorem compareDigest_b64urlEncode (x y : Bytes) :
    compareDigest (b64urlEncode x) (b64urlEncode y) = .ok (x = y : Bool) := by
  have hascii (z : Bytes) : (b64urlEncode z).all isAscii = true :=
    List.all_eq_true.mpr fun c hc => (b64urlEncode_spec z c hc).1
  rw [compareDigest, hascii x, hascii y]
  simp only [Bool.and_self, if_true, b64urlEncode_injective.eq_iff]

/-! ## Prefixes -/

theorem isAscii_refreshEnvelopePrefix : ∀ c ∈ refreshEnvelopePrefix, isAscii c = true :=
  List.all_eq_true.mp rfl

/-- What a blob's signature was computed over, as text: everything before the last dot. -/
def signedPart (blob : Str) : Str := ((rpartition (ch '.') blob).map Prod.fst).getD []

theorem signedPart_signedBlob (signingKey : Bytes) (before signedPrefix : Str) (payload : Json) :
    signedPart (before ++ signedBlob signingKey signedPrefix payload) =
      before ++ blobBody payload := by
  rw [signedPart, signedBlob, ← List.append_assoc,
    rpartition_append_cons (not_mem_dot_b64urlEncode _)]
  rfl

theorem signedPart_signedBlob_nil (signingKey : Bytes) (signedPrefix : Str) (payload : Json) :
    signedPart (signedBlob signingKey signedPrefix payload) = blobBody payload := by
  rw [← List.nil_append (signedBlob signingKey signedPrefix payload), signedPart_signedBlob,
    List.nil_append]

/-! ## Payloads -/

theorem strItems_rejoinItems (uris : List Str) :
    strItems (Json.rejoinItems (uris.map .str)) = some (uris.map rejoinStr) := by
  induction uris with
  | nil => rfl
  | cons u uris ih =>
    simp only [List.map_cons, Json.rejoinItems, Json.rejoin, strItems, ih, Option.map_some]

theorem embeddedUris_mintPayload (uris : List Str) (now : UnixTime) :
    embeddedUris (mintPayload uris now).rejoin = some (uris.map rejoinStr) := by
  rw [mintPayload, Json.rejoin_dict (by simp) (by simp only [List.map_cons, List.map_nil]; rfl)]
  simp only [Json.dict, List.map_cons, embeddedUris, dictGet, dictGet?_cons, if_true, Json.rejoin,
    Option.getD_some, strItems_rejoinItems]

theorem envelopeFields_envelopePayload (t c p : Str) :
    envelopeFields (envelopePayload t c p).rejoin =
      some (rejoinStr t, rejoinStr c, rejoinStr p) := by
  rw [envelopePayload, Json.rejoin_dict (by simp) (by simp only [List.map_cons, List.map_nil]; rfl)]
  simp [Json.dict, envelopeFields, dictGet, dictGet?_cons, Json.rejoin, Json.eqOne]

/-- `wrap_refresh_token` of text that has an encoding. -/
theorem wrapRefreshToken_of_encodable (signingKey : Bytes) (t c : Str) {p : Str}
    (hp : isUtf8Encodable p = true) :
    wrapRefreshToken signingKey t c p =
      .ok (refreshEnvelopePrefix ++ signedBlob signingKey refreshEnvelopePrefix
        (envelopePayload t c (b64urlEncode (sha256 (p.flatMap utf8Char))))) := by
  rw [wrapRefreshToken, presentedClientHash_of_encodable hp]
  rfl

section

variable [Runtime]

/-! ## Client ids -/

/-- `client_redirect_uris(key, mint_client_id(key, uris))`: the same list, with split surrogate
pairs joined. -/
theorem clientRedirectUris_mintClientId (signingKey : Bytes) (uris : List Str) (now : UnixTime) :
    clientRedirectUris signingKey (mintClientId signingKey uris now) =
      .ok (some (uris.map rejoinStr)) := by
  have hopen := verifiedPayload_signedBlob signingKey (List.forall_mem_nil (isAscii · = true))
    (wellFormed_mintPayload uris now) (depth_mintPayload uris now)
  rw [clientRedirectUris, mintClientId, startsWith_append, if_pos rfl, List.drop_left, hopen]
  show Except.ok ((some _).bind embeddedUris) = _
  rw [Option.bind_some, embeddedUris_mintPayload]

/-! ## Refresh envelopes -/

/-- An envelope opens to its pair when no client is presented or the digest of the presented one
is the recorded one. -/
theorem unwrapRefreshToken_signedBlob (signingKey : Bytes) (t c : Str) (p : Bytes)
    (q : Option Str) :
    unwrapRefreshToken signingKey (refreshEnvelopePrefix ++ signedBlob signingKey
        refreshEnvelopePrefix (envelopePayload t c (b64urlEncode p))) q =
      match q with
      | none => .ok (.opened (rejoinStr t) (rejoinStr c))
      | some clientId =>
        match encodeUtf8 clientId with
        | none => .error .unicodeEncode
        | some raw =>
          .ok (if p = sha256 raw then .opened (rejoinStr t) (rejoinStr c) else .invalid) := by
  have hopen := verifiedPayload_signedBlob signingKey isAscii_refreshEnvelopePrefix
    (wellFormed_envelopePayload t c (b64urlEncode p))
    (depth_envelopePayload t c (b64urlEncode p))
  have hp : rejoinStr (b64urlEncode p) = b64urlEncode p :=
    rejoinStr_ascii fun x hx => (b64urlEncode_spec p x hx).1
  rw [unwrapRefreshToken, startsWith_append, if_pos rfl, List.drop_left, hopen]
  simp only [except_ok_bind, Option.bind_some, envelopeFields_envelopePayload, hp]
  cases q with
  | none => rfl
  | some clientId =>
    cases hraw : encodeUtf8 clientId with
    | none =>
      simp only [presentedClientHash, hraw]
      rfl
    | some raw =>
      simp only [presentedClientHash, hraw]
      show (do let same ← compareDigest _ _; _) = _
      rw [compareDigest_b64urlEncode]
      by_cases he : p = sha256 raw
      · simp [he]
      · simp [he]

/-- An envelope does not open under a key that signs it differently. -/
theorem unwrapRefreshToken_of_ne {signingKey otherKey : Bytes} {t c : Str} {p : Bytes}
    (hne : hmacSha256 signingKey (asciiBytes (refreshEnvelopePrefix ++
        blobBody (envelopePayload t c (b64urlEncode p)))) ≠
      hmacSha256 otherKey (asciiBytes (refreshEnvelopePrefix ++
        blobBody (envelopePayload t c (b64urlEncode p))))) (q : Option Str) :
    unwrapRefreshToken otherKey (refreshEnvelopePrefix ++ signedBlob signingKey
      refreshEnvelopePrefix (envelopePayload t c (b64urlEncode p))) q = .ok .invalid := by
  have hopen := verifiedPayload_of_ne isAscii_refreshEnvelopePrefix
    (wellFormed_envelopePayload t c (b64urlEncode p)) hne
  rw [unwrapRefreshToken, startsWith_append, if_pos rfl, List.drop_left, hopen]
  rfl

/-- What wrapping and unwrapping promise a client: the pair comes back to the client it was
wrapped for and to a caller that names none, nobody else opens the envelope, no key that signs
it differently does, and a string without the prefix is none of ours. -/
def EnvelopeRoundTrip (signingKey : Bytes) (t c p : Str) (q : Option Str) : Prop :=
  ∃ envelope, wrapRefreshToken signingKey t c p = .ok envelope ∧
    (q = none ∨ q = some p → unwrapRefreshToken signingKey envelope q = .ok (.opened t c)) ∧
    (q ≠ none → q ≠ some p → unwrapRefreshToken signingKey envelope q = .ok .invalid) ∧
    (∀ otherKey, hmacSha256 signingKey (asciiBytes (signedPart envelope)) ≠
        hmacSha256 otherKey (asciiBytes (signedPart envelope)) →
      unwrapRefreshToken otherKey envelope q = .ok .invalid) ∧
    ∀ anyKey token, startsWith token refreshEnvelopePrefix = false →
      unwrapRefreshToken anyKey token q = .ok .absent

/-- Presenting a client id without an encoding raises instead of answering `INVALID`. -/
theorem encodable_of_envelopeRoundTrip {signingKey : Bytes} {t c p : Str} {q : Option Str}
    (hp : isUtf8Encodable p = true) (h : EnvelopeRoundTrip signingKey t c p q) :
    ∀ clientId ∈ q, isUtf8Encodable clientId = true := by
  obtain ⟨envelope, hwrap, -, hother, -⟩ := h
  intro clientId hq
  obtain rfl : q = some clientId := hq
  rw [wrapRefreshToken_of_encodable signingKey t c hp, Except.ok.injEq] at hwrap
  subst hwrap
  by_contra henc
  rw [Bool.not_eq_true] at henc
  have hne : some clientId ≠ some p := by
    intro he
    rw [Option.some.inj he, hp] at henc
    cases henc
  have hinvalid := hother (by simp) hne
  rw [unwrapRefreshToken_signedBlob] at hinvalid
  simp [encodeUtf8, henc] at hinvalid

/-- The round trip of refresh envelopes. It fails on a presented client id that has no UTF-8
encoding, where hashing it raises. -/
theorem envelopeRoundTrip_iff (signingKey : Bytes) (t c p : Str) (q : Option Str)
    (ht : isUtf8Encodable t = true) (hc : isUtf8Encodable c = true)
    (hp : isUtf8Encodable p = true)
    (hcollision : ∀ clientId ∈ q,
      sha256 (p.flatMap utf8Char) = sha256 (clientId.flatMap utf8Char) → p = clientId) :
    EnvelopeRoundTrip signingKey t c p q ↔ ∀ clientId ∈ q, isUtf8Encodable clientId = true := by
  have hopen := unwrapRefreshToken_signedBlob signingKey t c (sha256 (p.flatMap utf8Char)) q
  rw [rejoinStr_of_encodable ht, rejoinStr_of_encodable hc] at hopen
  refine ⟨encodable_of_envelopeRoundTrip hp, ?_⟩
  intro henc
  refine ⟨_, wrapRefreshToken_of_encodable signingKey t c hp, ?_, ?_, ?_, ?_⟩
  · rintro (rfl | rfl)
    · rw [hopen]
    · rw [hopen]
      simp [encodeUtf8, hp]
  · intro hnone hne
    obtain ⟨clientId, rfl⟩ := Option.ne_none_iff_exists'.mp hnone
    have hdigest : sha256 (p.flatMap utf8Char) ≠ sha256 (clientId.flatMap utf8Char) :=
      fun he => hne (by rw [hcollision clientId rfl he])
    rw [hopen]
    simp [encodeUtf8, henc clientId rfl, hdigest]
  · intro otherKey hne
    rw [signedPart_signedBlob] at hne
    exact unwrapRefreshToken_of_ne hne q
  · intro anyKey token htoken
    rw [unwrapRefreshToken, if_neg (by simp [htoken])]

end

theorem envelopeRoundTrip_iff_presenter :
    letI := asciiRuntime
    EnvelopeRoundTrip [] (str "core-token") (str "https://client.example")
      (str "https://client.example/doc") (some (str "https://other.example/doc")) := by
  let := asciiRuntime
  apply (envelopeRoundTrip_iff [] _ _ _ (some (str "https://other.example/doc")) (by decide +kernel)
    (by decide +kernel) (by decide +kernel) ?_).mpr
  · intro clientId hq
    obtain rfl := Option.mem_some_iff.mp hq
    decide +kernel
  · intro clientId hq hdigest
    obtain rfl := Option.mem_some_iff.mp hq
    exact absurd hdigest (by decide +kernel)

/-- A client id with a lone surrogate makes `unwrap_refresh_token` raise. -/
theorem not_forall_envelopeRoundTrip :
    letI := asciiRuntime
    ¬EnvelopeRoundTrip [] (str "core-token") (str "https://client.example")
      (str "https://client.example/doc") (some [codePoint 0xD800]) := by
  let := asciiRuntime
  intro h
  have henc := encodable_of_envelopeRoundTrip (by decide +kernel) h (codePoint 0xD800 :: []) rfl
  exact absurd henc (by decide)

end EsphomeMcp.OAuth
