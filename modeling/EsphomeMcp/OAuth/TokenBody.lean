import EsphomeMcp.OAuth.SignedRoundTrip
import EsphomeMcp.Python.SplitPairs

/-!
# The body of a token response

`rewrite_token_response_body` parses core's answer, puts an envelope in the place of its refresh
token and writes the object out again. Everything else in it is as it was, except for what the
JSON round trip itself changes.
-/

namespace EsphomeMcp.OAuth

open Py

/-! ## Definitions -/

/-- The key of the refresh token. -/
def refreshTokenKey : Str := str "refresh_token"

section

variable [Runtime]

/-- `json.dumps(j, separators=(",", ":")).encode()`. -/
def dumpsEncoded (j : Json) : Except PyError Bytes :=
  match dumps .compact j with
  | .error _ => .error .recursion
  | .ok text =>
    match encodeUtf8 text with
    | some raw => .ok raw
    | none => .error .unicodeEncode

/-- `rewrite_token_response_body`. -/
def rewriteTokenResponseBody (signingKey body : Bytes) (forwardClientId presentedClientId : Str) :
    Except PyError Bytes :=
  match loadsBytes body with
  | .ok (.obj parsed) =>
    match dictGet parsed refreshTokenKey with
    | .str coreRefreshToken => do
      let envelope ← wrapRefreshToken signingKey coreRefreshToken forwardClientId presentedClientId
      dumpsEncoded (.obj (dictSet refreshTokenKey (.str envelope) parsed))
    | _ => .ok body
  | _ => .ok body

/-! ## Writing the object out -/

theorem dumpsEncoded_eq {j : Json} (hwf : j.WellFormed) (hd : j.depth ≤ recursionLimit) :
    dumpsEncoded j = .ok (dumpsBytes .compact j) := by
  have hascii : ∀ c ∈ dumpsText .compact j, isAscii c = true :=
    fun c hc => isAscii_of_isPrintable (isPrintable_dumpsText .compact hwf c hc)
  have henc : isUtf8Encodable (dumpsText .compact j) = true := by
    rw [isUtf8Encodable, List.all_eq_true]
    intro c hc
    have hsmall := hascii c hc
    simp only [isAscii, isSurrogate, decide_eq_true_eq, Bool.not_eq_true', decide_eq_false_iff_not]
      at hsmall ⊢
    omega
  rw [dumpsEncoded, dumps, if_pos hd]
  simp only [encodeUtf8, if_pos henc]
  rfl

variable {parsed : Dict} {k s : Str}

theorem wellFormed_dictSet_str (h : (Json.obj parsed).WellFormed) :
    (Json.obj (dictSet k (.str s) parsed)).WellFormed := by
  cases h with
  | obj _ hk hfields =>
    refine .obj _ (nodup_keys_dictSet k _ hk) fun f hf => ?_
    rcases mem_dictSet hf with hf | rfl
    · exact hfields f hf
    · exact .str s

omit [Runtime] in
theorem depth_dictSet_str_le : (Json.obj (dictSet k (.str s) parsed)).depth ≤
    (Json.obj parsed).depth := by
  refine Nat.succ_le_succ (Json.depthFields_le fun f hf => ?_)
  rcases mem_dictSet hf with hf | rfl
  · exact Json.depth_le_depthFields hf
  · exact Nat.zero_le _

/-! ## What is left as it was -/

/-- What the rewriting promises: in an object with a refresh token that token alone changes, to an
envelope that opens to it, and every other body is untouched. -/
structure RewritesOnlyToken (signingKey body : Bytes) (forwardClientId presentedClientId : Str) :
    Prop where
  wrapped : ∀ parsed t, loadsBytes body = .ok (.obj parsed) →
    dictGet parsed refreshTokenKey = .str t → ∃ rewritten envelope,
      rewriteTokenResponseBody signingKey body forwardClientId presentedClientId = .ok rewritten ∧
      loadsBytes rewritten = .ok (.obj (dictSet refreshTokenKey (.str envelope) parsed)) ∧
      unwrapRefreshToken signingKey envelope (some presentedClientId) =
        .ok (.opened t forwardClientId)
  untouched : (∀ parsed t, loadsBytes body = .ok (.obj parsed) →
      dictGet parsed refreshTokenKey ≠ .str t) →
    rewriteTokenResponseBody signingKey body forwardClientId presentedClientId = .ok body

/-- A body without a refresh token is returned byte for byte. -/
theorem rewriteTokenResponseBody_of_not_token {signingKey body : Bytes} {c p : Str}
    (h : ∀ parsed t, loadsBytes body = .ok (.obj parsed) →
      dictGet parsed refreshTokenKey ≠ .str t) :
    rewriteTokenResponseBody signingKey body c p = .ok body := by
  unfold rewriteTokenResponseBody
  split
  · next parsed hparsed =>
    split
    · next t ht => exact absurd ht (h parsed t hparsed)
    · rfl
  · rfl

/-- An object with a refresh token is written out with an envelope in its place. -/
theorem rewriteTokenResponseBody_of_token {signingKey body : Bytes} {c p : Str} {t : Str}
    (hparsed : loadsBytes body = .ok (.obj parsed))
    (ht : dictGet parsed refreshTokenKey = .str t) :
    rewriteTokenResponseBody signingKey body c p =
      (wrapRefreshToken signingKey t c p).map fun envelope =>
        dumpsBytes .compact (.obj (dictSet refreshTokenKey (.str envelope) parsed)) := by
  obtain ⟨hwf, hd⟩ := loadsBytes_wellFormed hparsed
  unfold rewriteTokenResponseBody
  simp only [hparsed, ht]
  cases wrapRefreshToken signingKey t c p with
  | error e => rfl
  | ok envelope =>
    exact dumpsEncoded_eq (wellFormed_dictSet_str hwf) (depth_dictSet_str_le.trans hd)

/-- The envelope of an encodable client id opens to the pair in it, split pairs joined. -/
theorem exists_wrapRefreshToken (signingKey : Bytes) (t c : Str) {p : Str}
    (hp : isUtf8Encodable p = true) :
    ∃ envelope, wrapRefreshToken signingKey t c p = .ok envelope ∧
      (∀ x ∈ envelope, isAscii x = true) ∧
      unwrapRefreshToken signingKey envelope (some p) =
        .ok (.opened (rejoinStr t) (rejoinStr c)) := by
  refine ⟨_, wrapRefreshToken_of_encodable signingKey t c hp, ?_, ?_⟩
  · intro x hx
    simp only [signedBlob, blobBody, List.mem_append, List.mem_cons] at hx
    rcases hx with hx | hx | rfl | hx
    · exact isAscii_refreshEnvelopePrefix x hx
    · exact (b64urlEncode_spec _ x hx).1
    · decide
    · exact (b64urlEncode_spec _ x hx).1
  · rw [unwrapRefreshToken_signedBlob]
    simp only [encodeUtf8, hp, if_true]

omit [Runtime] in
theorem dictGet?_of_str {k t : Str} (h : dictGet parsed k = .str t) :
    dictGet? parsed k = some (.str t) := by
  rw [dictGet] at h
  cases hget : dictGet? parsed k with
  | none => simp [hget] at h
  | some v =>
    rw [hget, Option.getD_some] at h
    rw [h]

/-- Some member of an object other than its refresh token has a split surrogate pair. -/
def HasPairElsewhere (parsed : Dict) : Prop :=
  ∃ f ∈ parsed, f.1 ≠ refreshTokenKey ∧ (HasSplitPair f.1 ∨ f.2.HasSplitPair)

theorem hasSplitPair_dictSet_token_iff (hwf : (Json.obj parsed).WellFormed) (s : Str) :
    (Json.obj (dictSet refreshTokenKey (.str s) parsed)).HasSplitPair ↔
      HasSplitPair s ∨ HasPairElsewhere parsed := by
  have hkey : ¬HasSplitPair refreshTokenKey :=
    rejoinStr_eq_self_iff.mp (rejoinStr_ascii (List.all_eq_true.mp rfl))
  cases hwf with
  | obj _ hnodup _ =>
    rw [Json.hasSplitPair_dictSet_iff hkey hnodup, Json.hasSplitPair_str_iff]
    rfl

theorem hasSplitPair_iff_of_token {t : Str} (hwf : (Json.obj parsed).WellFormed)
    (ht : dictGet parsed refreshTokenKey = .str t) :
    (Json.obj parsed).HasSplitPair ↔ HasSplitPair t ∨ HasPairElsewhere parsed := by
  rw [← hasSplitPair_dictSet_token_iff hwf, dictSet_eq_self (dictGet?_of_str ht)]

/-- What the rewriting leaves as it was has no pair, and neither has what the envelope recovers. -/
theorem noPair_of_rewritesOnlyToken {signingKey body : Bytes} {c p t : Str}
    (h : RewritesOnlyToken signingKey body c p) (hparsed : loadsBytes body = .ok (.obj parsed))
    (ht : dictGet parsed refreshTokenKey = .str t) :
    isUtf8Encodable p = true ∧ ¬HasSplitPair c ∧ ¬(Json.obj parsed).HasSplitPair := by
  obtain ⟨rewritten, envelope, hrewrite, hloads, hopen⟩ := h.wrapped parsed t hparsed ht
  obtain ⟨hwf, hd⟩ := loadsBytes_wellFormed hparsed
  rw [rewriteTokenResponseBody_of_token hparsed ht] at hrewrite
  by_cases hp : isUtf8Encodable p = true
  · obtain ⟨minted, hwrap, hascii, hminted⟩ := exists_wrapRefreshToken signingKey t c hp
    have hdumps := loadsBytes_dumpsBytes .compact
      (wellFormed_dictSet_str (k := refreshTokenKey) (s := minted) hwf)
      (depth_dictSet_str_le.trans hd)
    rw [hwrap] at hrewrite
    obtain rfl := Except.ok.inj hrewrite
    rw [hdumps, Except.ok.injEq] at hloads
    -- what is read back has no pair, so what was kept has none and is read back as it was
    have hread := Json.not_hasSplitPair_rejoin
      (.obj (dictSet refreshTokenKey (.str minted) parsed))
    rw [hloads, hasSplitPair_dictSet_token_iff hwf, not_or] at hread
    have hplain : ¬HasSplitPair minted := rejoinStr_eq_self_iff.mp (rejoinStr_ascii hascii)
    have hkept : ¬(Json.obj (dictSet refreshTokenKey (.str minted) parsed)).HasSplitPair := by
      rw [hasSplitPair_dictSet_token_iff hwf, not_or]
      exact ⟨hplain, hread.2⟩
    rw [Json.rejoin_eq_self (wellFormed_dictSet_str hwf) hkept, Json.obj.injEq] at hloads
    have hsame := congrArg (dictGet? · refreshTokenKey) hloads
    simp only [dictGet?_dictSet, if_true, Option.some.injEq, Json.str.injEq] at hsame
    rw [← hsame, hminted, Except.ok.injEq, Envelope.opened.injEq] at hopen
    rw [hasSplitPair_iff_of_token hwf ht, not_or]
    exact ⟨hp, rejoinStr_eq_self_iff.mp hopen.2, rejoinStr_eq_self_iff.mp hopen.1, hread.2⟩
  · rw [Bool.not_eq_true] at hp
    rw [wrapRefreshToken, presentedClientHash_of_not_encodable hp] at hrewrite
    cases hrewrite

/-- Rewriting changes nothing but the refresh token, unless the presented client id cannot be
encoded or the JSON round trip joins a split surrogate pair. -/
theorem rewritesOnlyToken_iff (signingKey body : Bytes) (forwardClientId presentedClientId : Str) :
    RewritesOnlyToken signingKey body forwardClientId presentedClientId ↔
      ∀ parsed t, loadsBytes body = .ok (.obj parsed) →
        dictGet parsed refreshTokenKey = .str t →
          isUtf8Encodable presentedClientId = true ∧ ¬HasSplitPair forwardClientId ∧
            ¬(Json.obj parsed).HasSplitPair := by
  refine ⟨fun h parsed t hparsed ht => noPair_of_rewritesOnlyToken h hparsed ht, ?_⟩
  intro h
  refine ⟨fun parsed t hparsed ht => ?_, rewriteTokenResponseBody_of_not_token⟩
  obtain ⟨hp, hc, hpair⟩ := h parsed t hparsed ht
  obtain ⟨hwf, hd⟩ := loadsBytes_wellFormed hparsed
  obtain ⟨minted, hwrap, hascii, hminted⟩ :=
    exists_wrapRefreshToken signingKey t forwardClientId hp
  have hwf' := wellFormed_dictSet_str (k := refreshTokenKey) (s := minted) hwf
  have hplain : ¬HasSplitPair minted := rejoinStr_eq_self_iff.mp (rejoinStr_ascii hascii)
  rw [hasSplitPair_iff_of_token hwf ht, not_or] at hpair
  have hkept : ¬(Json.obj (dictSet refreshTokenKey (.str minted) parsed)).HasSplitPair := by
    rw [hasSplitPair_dictSet_token_iff hwf, not_or]
    exact ⟨hplain, hpair.2⟩
  refine ⟨dumpsBytes .compact (.obj (dictSet refreshTokenKey (.str minted) parsed)), minted,
    ?_, ?_, ?_⟩
  · rw [rewriteTokenResponseBody_of_token hparsed ht, hwrap]
    rfl
  · rw [loadsBytes_dumpsBytes .compact hwf' (depth_dictSet_str_le.trans hd),
      Json.rejoin_eq_self hwf' hkept]
  · rw [hminted, rejoinStr_eq_self_iff.mpr hpair.1, rejoinStr_eq_self_iff.mpr hc]

end

/-- A scope of two surrogates, the first escaped and the second raw, comes back as one character. -/
theorem not_rewritesOnlyToken_scope :
    letI := asciiRuntime
    let body := asciiBytes (str "\x7b\"refresh_token\":\"t\",\"scope\":\"\\ud83d") ++
      [0xED, 0xB8, 0x80] ++ asciiBytes (str "\"\x7d")
    ¬RewritesOnlyToken [] body (str "https://client.example") (str "https://client.example/doc") := by
  let := asciiRuntime
  intro body h
  have hparsed : loadsBytes body = .ok (.obj [(str "refresh_token", .str (str "t")),
      (str "scope", .str [codePoint 0xD83D, codePoint 0xDE00])]) := by
    decide +kernel
  obtain ⟨-, -, hpair⟩ := noPair_of_rewritesOnlyToken h hparsed rfl
  refine hpair (.value (List.mem_cons_of_mem _ List.mem_cons_self) (.str ?_))
  exact ⟨[], codePoint 0xD83D, codePoint 0xDE00, [], rfl, by decide, by decide⟩

end EsphomeMcp.OAuth
