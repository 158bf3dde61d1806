import EsphomeMcp.OAuth.SignedRoundTrip

/-!
# What a signature vouches for

The two families of blobs share one key. An attacker holds the blobs that were signed so far and
assembles strings from them; what is assumed of the key is that a signature on such a string
verifies for a message only if that message was signed.

A client id that is accepted then opens to the list of a `mint_client_id` call, and an envelope
to the pair of a `wrap_refresh_token` call, as far as joining split surrogate pairs goes. The two
families do not mix: the text of a client id's body starts differently from an envelope's prefix,
and that prefix does not decode to UTF-8.
-/

namespace EsphomeMcp.OAuth

open Py

/-- A string with a UTF-8 encoding. -/
abbrev EncodableStr := {s : Str // isUtf8Encodable s = true}

/-- The digest of a presented client id, as the envelope records it. -/
def EncodableStr.digest (clientId : EncodableStr) : Bytes :=
  sha256 (clientId.val.flatMap utf8Char)

/-- A call that signed something. -/
inductive SigningCall where
  | mint (redirectUris : List Str) (now : UnixTime)
  | wrap (coreRefreshToken forwardClientId : Str) (presentedClientId : EncodableStr)

namespace SigningCall

/-- The text a call signs. -/
def message : SigningCall → Str
  | mint redirectUris now => blobBody (mintPayload redirectUris now)
  | wrap t c p => refreshEnvelopePrefix ++ blobBody (envelopePayload t c (b64urlEncode p.digest))

/-- The blob a call returns. -/
def output (signingKey : Bytes) : SigningCall → Str
  | mint redirectUris now => mintClientId signingKey redirectUris now
  | wrap t c p => refreshEnvelopePrefix ++ signedBlob signingKey refreshEnvelopePrefix
      (envelopePayload t c (b64urlEncode p.digest))

end SigningCall

/-- The text before the last dot of what follows a prefix. -/
def bodyOf (familyPrefix s : Str) : Str := signedPart (s.drop familyPrefix.length)

/-- The texts whose signature the two verifiers look for in a string. -/
def checkedMessages (s : Str) : List Str :=
  (if startsWith s clientIdPrefix then [bodyOf clientIdPrefix s] else []) ++
  (if startsWith s refreshEnvelopePrefix then
    [refreshEnvelopePrefix ++ bodyOf refreshEnvelopePrefix s] else [])

/-- The signature in a string verifies for a text. -/
def Verifies (signingKey : Bytes) (s message : Str) : Prop :=
  ∃ raw, encodeAscii message = some raw ∧
    b64urlDecode (afterLast (ch '.') s) = some (hmacSha256 signingKey raw)

/-- No signature in the string was forged. -/
def Authentic (signingKey : Bytes) (history : List SigningCall) (s : Str) : Prop :=
  ∀ message ∈ checkedMessages s, Verifies signingKey s message →
    ∃ call ∈ history, call.message = message

/-- No client an envelope was wrapped for shares its digest with `q`. -/
def NoCollision (history : List SigningCall) (q : Option Str) : Prop :=
  ∀ t c p, SigningCall.wrap t c p ∈ history → ∀ clientId : EncodableStr, q = some clientId.val →
    p.digest = clientId.digest → p = clientId

/-- An envelope under the prefix of a client id, with its own prefix or without. -/
def IsReprefixedEnvelope (signingKey : Bytes) (history : List SigningCall) (s : Str) : Prop :=
  ∃ t c p, SigningCall.wrap t c p ∈ history ∧
    let envelope := (SigningCall.wrap t c p).output signingKey
    (s = clientIdPrefix ++ envelope ∨
      s = clientIdPrefix ++ envelope.drop refreshEnvelopePrefix.length)

/-- A client id under the prefix of an envelope, with its own prefix or without. -/
def IsReprefixedClientId (signingKey : Bytes) (history : List SigningCall) (s : Str) : Prop :=
  ∃ redirectUris now, SigningCall.mint redirectUris now ∈ history ∧
    let clientId := (SigningCall.mint redirectUris now).output signingKey
    (s = refreshEnvelopePrefix ++ clientId ∨
      s = refreshEnvelopePrefix ++ clientId.drop clientIdPrefix.length)

/-- What the two verifiers may make of a string, given what was signed. -/
structure Sound [Runtime] (signingKey : Bytes) (history : List SigningCall) (s : Str)
    (q : Option Str) : Prop where
  minted : ∀ uris, clientRedirectUris signingKey s = .ok (some uris) →
    ∃ now, SigningCall.mint uris now ∈ history
  wrapped : ∀ t c, unwrapRefreshToken signingKey s q = .ok (.opened t c) →
    ∃ p, SigningCall.wrap t c p ∈ history ∧ (q = none ∨ q = some p.val)
  noEnvelope : IsReprefixedEnvelope signingKey history s →
    clientRedirectUris signingKey s = .ok none
  noClientId : IsReprefixedClientId signingKey history s →
    unwrapRefreshToken signingKey s q = .ok .invalid

/-- With every signed text, the one with its split surrogate pairs joined was signed too. -/
def ClosedUnderJoining (history : List SigningCall) : Prop :=
  (∀ uris now, SigningCall.mint uris now ∈ history →
    ∃ now', SigningCall.mint (uris.map rejoinStr) now' ∈ history) ∧
  ∀ t c p, SigningCall.wrap t c p ∈ history →
    SigningCall.wrap (rejoinStr t) (rejoinStr c) p ∈ history

/-! ## The families are disjoint -/

/-- The text of either payload starts with a brace and a quote. -/
theorem dumpsText_mintPayload (uris : List Str) (now : UnixTime) :
    ∃ s, dumpsText .compact (mintPayload uris now) = ch '{' :: ch '"' :: ch 'r' :: s := by
  simp only [mintPayload, Json.dict, List.map_cons, dumpsText, List.cons_append, List.append_assoc]
  exact ⟨_, rfl⟩

theorem dumpsText_envelopePayload (t c p : Str) :
    ∃ s, dumpsText .compact (envelopePayload t c p) = ch '{' :: ch '"' :: ch 'v' :: s :=
  ⟨_, rfl⟩

/-- No body starts like one of the two prefixes: `{"` gives `ey`. -/
theorem blobBody_ne_cons {payload : Json} {x : CodePoint} {s : Str}
    (h : dumpsText .compact payload = ch '{' :: ch '"' :: x :: s) (hx : isAscii x = true)
    (t : Str) : blobBody payload ≠ ch 'e' :: ch 's' :: t := by
  have hbyte : utf8Char x = [byte x.val] := by
    rw [utf8Char, if_pos (by simpa [isAscii] using hx)]
  intro he
  rw [blobBody, b64urlEncode_eq, dumpsBytes, h, List.flatMap_cons, List.flatMap_cons,
    List.flatMap_cons, hbyte] at he
  have hsecond : b64Digit (0x7B % 4 * 16 + 0x22 / 16) = ch 's' := congrArg (·.getD 1 (ch 's')) he
  exact absurd hsecond (by decide)

theorem blobBody_mintPayload_ne (uris : List Str) (now : UnixTime) (t : Str) :
    blobBody (mintPayload uris now) ≠ refreshEnvelopePrefix ++ t := by
  obtain ⟨s, hs⟩ := dumpsText_mintPayload uris now
  exact blobBody_ne_cons hs (by decide) _

theorem blobBody_envelopePayload_ne (t c p u : Str) :
    blobBody (envelopePayload t c p) ≠ clientIdPrefix ++ u := by
  obtain ⟨s, hs⟩ := dumpsText_envelopePayload t c p
  exact blobBody_ne_cons hs (by decide) _

theorem blobBody_mintPayload_ne_envelopePayload (uris : List Str) (now : UnixTime) (t c p : Str) :
    blobBody (mintPayload uris now) ≠ blobBody (envelopePayload t c p) := by
  obtain ⟨s, hs⟩ := dumpsText_mintPayload uris now
  obtain ⟨s', hs'⟩ := dumpsText_envelopePayload t c p
  intro he
  have hbytes := b64urlEncode_injective he
  rw [dumpsBytes, dumpsBytes, hs, hs'] at hbytes
  have hthird : byte (ch 'r').val = byte (ch 'v').val := congrArg (·.getD 2 0) hbytes
  exact absurd hthird (by decide)

/-- The prefix of an envelope decodes to bytes that are not UTF-8. -/
theorem loadsCaught_of_append [Runtime] {t : Str} {raw : Bytes}
    (h : b64urlDecode (refreshEnvelopePrefix ++ t) = some raw) : loadsCaught raw = .ok none := by
  rw [b64urlDecode, urlsafeB64decode] at h
  split_ifs at h
  -- `espm` decodes to `7a ca 66`, and `66` continues no two-byte sequence
  have hread (s : Str) : a2bBase64 0 0 0 (str "espm" ++ s) =
      (((a2bBase64 0 0 0 s).map (0x66 :: ·)).map (0xCA :: ·)).map (0x7A :: ·) := rfl
  have hsplit : refreshEnvelopePrefix ++ t = str "espm" ++ (str "cp-rt-" ++ t) := rfl
  rw [hsplit, List.append_assoc, hread] at h
  obtain ⟨r₁, h₁, rfl⟩ := Option.map_eq_some_iff.mp h
  obtain ⟨r₂, h₂, rfl⟩ := Option.map_eq_some_iff.mp h₁
  obtain ⟨r₃, -, rfl⟩ := Option.map_eq_some_iff.mp h₂
  have hdetect : decodeDetected (0x7A :: 0xCA :: 0x66 :: r₃) = none := by
    rw [decodeDetected_of_ne (by decide) (by decide) (by decide) (by decide)
      (by intro y hy; obtain rfl := Option.mem_some_iff.mp hy; decide)]
    rfl
  rw [loadsCaught, loadsBytes, hdetect]

/-! ## What a verified string was signed as -/

/-- The parts of a prefixed string, as the two verifiers and `Authentic` read them. -/
theorem bodyOf_append (familyPrefix body : Str) {sigPart : Str} (hdot : ch '.' ∉ sigPart) :
    bodyOf familyPrefix (familyPrefix ++ (body ++ ch '.' :: sigPart)) = body ∧
      afterLast (ch '.') (familyPrefix ++ (body ++ ch '.' :: sigPart)) = sigPart := by
  constructor
  · rw [bodyOf, List.drop_left, signedPart, rpartition_append_cons hdot]
    rfl
  · rw [← List.append_assoc, afterLast, rpartition_append_cons hdot]
    rfl

theorem checkedMessages_clientId (t : Str) :
    checkedMessages (clientIdPrefix ++ t) = [signedPart t] := by
  have hother : startsWith (clientIdPrefix ++ t) refreshEnvelopePrefix = false := rfl
  rw [checkedMessages, hother, startsWith_append, if_pos rfl, bodyOf, List.drop_left]
  rfl

theorem checkedMessages_envelope (t : Str) :
    checkedMessages (refreshEnvelopePrefix ++ t) = [refreshEnvelopePrefix ++ signedPart t] := by
  have hother : startsWith (refreshEnvelopePrefix ++ t) clientIdPrefix = false := rfl
  have hbody : bodyOf refreshEnvelopePrefix (refreshEnvelopePrefix ++ t) = signedPart t := by
    rw [bodyOf, List.drop_left]
  rw [checkedMessages, hother, startsWith_append, if_pos rfl, hbody]
  rfl

section

variable [Runtime]

/-- A blob that gives a payload carries a signature of its body. -/
theorem verifiedPayload_cases (signingKey : Bytes) (signedPrefix blob : Str) :
    verifiedPayload signingKey signedPrefix blob = .ok none ∨
    ∃ body sigPart message raw, blob = body ++ ch '.' :: sigPart ∧ ch '.' ∉ sigPart ∧
      encodeAscii (signedPrefix ++ body) = some message ∧
      b64urlDecode sigPart = some (hmacSha256 signingKey message) ∧
      b64urlDecode body = some raw ∧
      verifiedPayload signingKey signedPrefix blob = loadsCaught raw := by
  cases hsplit : rpartition (ch '.') blob with
  | none => exact .inl (by rw [verifiedPayload, hsplit])
  | some split =>
    obtain ⟨body, sigPart⟩ := split
    obtain ⟨rfl, hdot⟩ := rpartition_eq_some_iff.mp hsplit
    by_cases hbody : body = []
    · exact .inl (by simp only [verifiedPayload, hsplit, if_pos hbody])
    cases hmessage : encodeAscii (signedPrefix ++ body) with
    | none => exact .inl (by simp only [verifiedPayload, hsplit, if_neg hbody, hmessage])
    | some message =>
      cases hsig : b64urlDecode sigPart with
      | none => exact .inl (by simp only [verifiedPayload, hsplit, if_neg hbody, hmessage, hsig])
      | some sig =>
        rw [verifiedPayload_eq hbody hdot hmessage hsig]
        split_ifs with hmac
        · exact .inl rfl
        · cases hraw : b64urlDecode body with
          | none => exact .inl rfl
          | some raw =>
            rw [not_not] at hmac
            exact .inr ⟨body, sigPart, message, raw, rfl, hdot, hmessage, hmac ▸ hsig, hraw, rfl⟩

variable {signingKey : Bytes} {history : List SigningCall} {s : Str}

/-- What `client_redirect_uris` accepts is the list of a minted client id, with its split
surrogate pairs joined. -/
theorem clientRedirectUris_cases (h : Authentic signingKey history s) :
    clientRedirectUris signingKey s = .ok none ∨
    ∃ uris now, SigningCall.mint uris now ∈ history ∧
      bodyOf clientIdPrefix s = blobBody (mintPayload uris now) ∧
      clientRedirectUris signingKey s = .ok (some (uris.map rejoinStr)) := by
  by_cases hpre : startsWith s clientIdPrefix = true
  · obtain ⟨blob, rfl⟩ := startsWith_iff.mp hpre
    rw [clientRedirectUris, if_pos hpre, List.drop_left]
    rcases verifiedPayload_cases signingKey [] blob with hnone | ⟨body, sigPart, message, raw, rfl,
      hdot, hmessage, hsig, hraw, hload⟩
    · exact .inl (by rw [hnone]; rfl)
    · obtain ⟨hbodyOf, hlast⟩ := bodyOf_append clientIdPrefix body hdot
      have hverifies : Verifies signingKey (clientIdPrefix ++ (body ++ ch '.' :: sigPart)) body :=
        ⟨message, hmessage, by rw [hlast]; exact hsig⟩
      have hchecked : body ∈ checkedMessages (clientIdPrefix ++ (body ++ ch '.' :: sigPart)) := by
        rw [checkedMessages, if_pos hpre, hbodyOf]
        simp
      obtain ⟨call, hcall, hbody⟩ := h body hchecked hverifies
      rw [hload]
      cases call with
      | mint uris now =>
        obtain rfl : blobBody (mintPayload uris now) = body := hbody
        refine .inr ⟨uris, now, hcall, hbodyOf, ?_⟩
        rw [blobBody, b64urlDecode_b64urlEncode] at hraw
        rw [← Option.some.inj hraw, loadsCaught,
          loadsBytes_dumpsBytes .compact (wellFormed_mintPayload uris now)
            (depth_mintPayload uris now)]
        show Except.ok ((some _).bind embeddedUris) = _
        rw [Option.bind_some, embeddedUris_mintPayload]
      | wrap t c p =>
        obtain rfl : refreshEnvelopePrefix ++ _ = body := hbody
        exact .inl (by rw [loadsCaught_of_append hraw]; rfl)
  · exact .inl (by rw [clientRedirectUris, if_neg hpre])

/-- What `unwrap_refresh_token` accepts was wrapped. -/
theorem unwrapRefreshToken_cases (h : Authentic signingKey history s)
    (hpre : startsWith s refreshEnvelopePrefix = true) (q : Option Str) :
    unwrapRefreshToken signingKey s q = .ok .invalid ∨
    ∃ t c p, SigningCall.wrap t c p ∈ history ∧
      bodyOf refreshEnvelopePrefix s =
        blobBody (envelopePayload t c (b64urlEncode p.digest)) ∧
      unwrapRefreshToken signingKey s q = unwrapRefreshToken signingKey
        ((SigningCall.wrap t c p).output signingKey) q := by
  obtain ⟨blob, rfl⟩ := startsWith_iff.mp hpre
  rw [unwrapRefreshToken, if_pos hpre, List.drop_left]
  rcases verifiedPayload_cases signingKey refreshEnvelopePrefix blob with hnone | ⟨body, sigPart,
    message, raw, rfl, hdot, hmessage, hsig, hraw, hload⟩
  · exact .inl (by rw [hnone]; rfl)
  · obtain ⟨hbodyOf, hlast⟩ :=
      bodyOf_append refreshEnvelopePrefix body hdot
    have hverifies : Verifies signingKey (refreshEnvelopePrefix ++ (body ++ ch '.' :: sigPart))
        (refreshEnvelopePrefix ++ body) := ⟨message, hmessage, by rw [hlast]; exact hsig⟩
    have hchecked : refreshEnvelopePrefix ++ body ∈
        checkedMessages (refreshEnvelopePrefix ++ (body ++ ch '.' :: sigPart)) := by
      rw [checkedMessages, if_pos hpre, hbodyOf]
      simp
    obtain ⟨call, hcall, hbody⟩ := h _ hchecked hverifies
    cases call with
    | mint uris now => exact absurd hbody (blobBody_mintPayload_ne uris now body)
    | wrap t c p =>
      obtain rfl : blobBody (envelopePayload t c (b64urlEncode p.digest)) = body :=
        List.append_cancel_left hbody
      refine .inr ⟨t, c, p, hcall, hbodyOf, ?_⟩
      rw [blobBody, b64urlDecode_b64urlEncode] at hraw
      rw [SigningCall.output, unwrapRefreshToken, startsWith_append, if_pos rfl, List.drop_left,
        verifiedPayload_signedBlob signingKey isAscii_refreshEnvelopePrefix
          (wellFormed_envelopePayload _ _ _) (depth_envelopePayload _ _ _), hload,
        ← Option.some.inj hraw, loadsCaught,
        loadsBytes_dumpsBytes .compact (wellFormed_envelopePayload _ _ _)
          (depth_envelopePayload _ _ _)]

/-- No two clients envelopes were wrapped for share their digest. -/
def CollisionFree (history : List SigningCall) : Prop :=
  ∀ t c p, SigningCall.wrap t c p ∈ history → NoCollision history (some p.val)

omit [Runtime] in
/-- What was signed is authentic. -/
theorem authentic_output {call : SigningCall} (h : call ∈ history) :
    Authentic signingKey history (call.output signingKey) := by
  intro message hmem _
  refine ⟨call, h, ?_⟩
  cases call with
  | mint uris now =>
    rw [SigningCall.output, mintClientId, checkedMessages_clientId, List.mem_singleton,
      signedPart_signedBlob_nil] at hmem
    rw [hmem, SigningCall.message]
  | wrap t c p =>
    rw [SigningCall.output, checkedMessages_envelope, List.mem_singleton,
      signedPart_signedBlob_nil] at hmem
    rw [hmem, SigningCall.message]

/-- An envelope opens to its pair with split surrogate pairs joined, and only to the client it
was wrapped for. -/
theorem unwrapRefreshToken_output {t c : Str} {p : EncodableStr} {q : Option Str} {t' c' : Str}
    (hmem : SigningCall.wrap t c p ∈ history) (hcollision : NoCollision history q)
    (h : unwrapRefreshToken signingKey ((SigningCall.wrap t c p).output signingKey) q =
      .ok (.opened t' c')) :
    t' = rejoinStr t ∧ c' = rejoinStr c ∧ (q = none ∨ q = some p.val) := by
  rw [SigningCall.output, unwrapRefreshToken_signedBlob] at h
  cases q with
  | none =>
    simp only [Except.ok.injEq, Envelope.opened.injEq] at h
    exact ⟨h.1.symm, h.2.symm, .inl rfl⟩
  | some clientId =>
    by_cases henc : isUtf8Encodable clientId = true
    · simp only [encodeUtf8, if_pos henc] at h
      split_ifs at h with hdigest
      · simp only [Except.ok.injEq, Envelope.opened.injEq] at h
        have hp := hcollision t c p hmem ⟨clientId, henc⟩ rfl hdigest
        exact ⟨h.1.symm, h.2.symm, .inr (by rw [hp])⟩
      · simp at h
    · simp [encodeUtf8, henc] at h

theorem sound_of_closed {q : Option Str} (hclosed : ClosedUnderJoining history)
    (hauthentic : Authentic signingKey history s) (hcollision : NoCollision history q) :
    Sound signingKey history s q where
  minted uris hopen := by
    rcases clientRedirectUris_cases hauthentic with hnone | ⟨uris', now, hmem, -, hsome⟩
    · rw [hnone] at hopen
      cases hopen
    · obtain rfl : uris'.map rejoinStr = uris := by simpa [hsome] using hopen
      exact hclosed.1 uris' now hmem
  wrapped t c hopen := by
    by_cases hpre : startsWith s refreshEnvelopePrefix = true
    · rcases unwrapRefreshToken_cases hauthentic hpre q with hinvalid | ⟨t', c', p, hmem, -, hsome⟩
      · rw [hinvalid] at hopen
        cases hopen
      · obtain ⟨rfl, rfl, hq⟩ := unwrapRefreshToken_output hmem hcollision (hsome ▸ hopen)
        exact ⟨p, hclosed.2 t' c' p hmem, hq⟩
    · rw [unwrapRefreshToken, if_neg hpre] at hopen
      cases hopen
  noEnvelope := by
    rintro ⟨t, c, p, hmem, hs⟩
    rcases clientRedirectUris_cases hauthentic with hnone | ⟨uris, now, -, hbody, -⟩
    · exact hnone
    · rcases hs with rfl | rfl
      · rw [bodyOf, List.drop_left, SigningCall.output, signedPart_signedBlob] at hbody
        exact absurd hbody.symm (blobBody_mintPayload_ne uris now _)
      · rw [bodyOf, List.drop_left, SigningCall.output, List.drop_left,
          signedPart_signedBlob_nil] at hbody
        exact absurd hbody.symm (blobBody_mintPayload_ne_envelopePayload uris now t c _)
  noClientId := by
    rintro ⟨uris, now, hmem, hs⟩
    have hpre : startsWith s refreshEnvelopePrefix = true := by
      rcases hs with rfl | rfl <;> exact startsWith_append _ _
    rcases unwrapRefreshToken_cases hauthentic hpre q with hinvalid | ⟨t, c, p, -, hbody, -⟩
    · exact hinvalid
    · rcases hs with rfl | rfl
      · rw [bodyOf, List.drop_left, SigningCall.output, mintClientId, signedPart_signedBlob] at hbody
        exact absurd hbody.symm (blobBody_envelopePayload_ne t c _ _)
      · rw [bodyOf, List.drop_left, SigningCall.output, mintClientId, List.drop_left,
          signedPart_signedBlob_nil] at hbody
        exact absurd hbody (blobBody_mintPayload_ne_envelopePayload uris now t c _)

theorem closed_of_sound (hcollision : CollisionFree history)
    (h : ∀ s q, Authentic signingKey history s → NoCollision history q →
      Sound signingKey history s q) : ClosedUnderJoining history := by
  constructor
  · intro uris now hmem
    have hnone : NoCollision history none := by
      intro t c p _ clientId hq
      cases hq
    exact (h _ none (authentic_output hmem) hnone).minted _
      (clientRedirectUris_mintClientId signingKey uris now)
  · intro t c p hmem
    have hq := hcollision t c p hmem
    have hopen := unwrapRefreshToken_signedBlob signingKey t c p.digest (some p.val)
    have hdigest : p.digest = sha256 (p.val.flatMap utf8Char) := rfl
    simp only [encodeUtf8, p.property, hdigest, if_true] at hopen
    obtain ⟨p', hmem', hp⟩ := (h _ (some p.val) (authentic_output hmem) hq).wrapped _ _ hopen
    obtain rfl : p = p' := Subtype.ext (by simpa using hp)
    exact hmem'

/-- Signed blobs are neither forged nor swapped between families: whatever an attacker assembles
from them opens to what some earlier call signed. That call's strings are the ones the blob opens
to exactly when, with every text that was signed, the one with its split surrogate pairs joined
was signed as well. -/
theorem signedBlobs_iff (signingKey : Bytes) (history : List SigningCall)
    (hcollision : CollisionFree history) :
    (∀ s q, Authentic signingKey history s → NoCollision history q →
      Sound signingKey history s q) ↔ ClosedUnderJoining history :=
  ⟨closed_of_sound hcollision, fun hclosed _ _ hauthentic hq => sound_of_closed hclosed hauthentic hq⟩

end

/-- A client id and an envelope wrapped for it. -/
theorem signedBlobs_iff_ascii :
    letI := asciiRuntime
    let clientId : EncodableStr := ⟨str "https://client.example/doc", by decide +kernel⟩
    let history : List SigningCall :=
      [.mint [str "https://client.example/cb"] ⟨1700000000, by decide +kernel⟩,
        .wrap (str "core-token") (str "https://client.example") clientId]
    ∀ s q, Authentic [] history s → NoCollision history q → Sound [] history s q := by
  let := asciiRuntime
  intro clientId history
  apply (signedBlobs_iff [] history ?_).mpr
  · constructor
    · intro uris now hmem
      simp only [history, List.mem_cons, SigningCall.mint.injEq, reduceCtorEq, List.not_mem_nil,
        or_false] at hmem
      obtain ⟨rfl, rfl⟩ := hmem
      exact ⟨_, List.mem_cons_self⟩
    · intro t c p hmem
      simp only [history, List.mem_cons, SigningCall.wrap.injEq, reduceCtorEq, List.not_mem_nil,
        or_false, false_or] at hmem
      obtain ⟨rfl, rfl, rfl⟩ := hmem
      exact List.mem_cons_of_mem _ List.mem_cons_self
  · intro t c p hmem t' c' p' hmem' clientId' hq _
    simp only [history, List.mem_cons, SigningCall.wrap.injEq, reduceCtorEq, List.not_mem_nil,
      or_false, false_or] at hmem hmem'
    rw [hmem'.2.2, ← hmem.2.2]
    exact Subtype.ext (Option.some.inj hq)

/-- A redirect whose path ends in the two halves of a surrogate pair, as `json.loads` reads them
from bytes that spell them out one by one. -/
def splitPairUri : Str := str "https://client.example/" ++ [codePoint 0xD83D, codePoint 0xDE00]

/-- The client id minted for such a redirect opens to another one. -/
theorem not_sound_splitPairUri :
    letI := asciiRuntime
    let history : List SigningCall := [.mint [splitPairUri] ⟨1700000000, by decide +kernel⟩]
    ¬∀ s q, Authentic [] history s → NoCollision history q → Sound [] history s q := by
  let := asciiRuntime
  intro history h
  have hcollision : CollisionFree history := by
    intro t c p hmem
    simp [history] at hmem
  obtain ⟨now, hmem⟩ := (closed_of_sound hcollision h).1 _ _ List.mem_cons_self
  simp only [history, List.mem_singleton, SigningCall.mint.injEq] at hmem
  exact absurd hmem.1 (by decide +kernel)

end EsphomeMcp.OAuth
