import EsphomeMcp.OAuth.DerivationErrors

/-!
# The requests the anonymous endpoints fail

Every POST to the scoped endpoints of a live `ha_auth` cfg ends in a response but those of a few
kinds: what is put into the form for core has no encoding, the client id that is hashed has none,
or what is signed is not what `mint_client_id` and `wrap_refresh_token` sign.
-/

namespace EsphomeMcp.OAuth

open Py Py.Prog

section

variable [Runtime]

/-- An envelope is signed around what cannot be read, or around a token that cannot be compared
with the client id or sent on with it. -/
def EnvelopeRaises (cfg : OAuthCfg) (key : Bytes) (form : MultiDict) : Prop :=
  IsTooDeep key refreshEnvelopePrefix (envelopeBlob (form.getD refreshTokenKey)) ∨
    ∃ t c p, Seals key (form.getD refreshTokenKey) t c p ∧
      (¬(isUtf8Encodable (clientOf form) = true ∧ p.all isAscii = true) ∨
        presentedClientHash (clientOf form) = .ok p ∧ cfg.session.isSome = true ∧
          ¬(isUtf8Encodable t = true ∧ isUtf8Encodable c = true ∧
            OthersSendable form [refreshTokenKey, str "client_id"]))

/-- The token requests that raise. -/
inductive TokenRaises (cfg : OAuthCfg) (form : MultiDict) : Prop
  | revocation : form.lookup (str "action") = some (str "revoke") →
      RevocationRaises cfg form (isUtf8Encodable (clientOf form) = true ∧
        OthersSendable form [str "token", str "client_id"]) → TokenRaises cfg form
  | envelope {key : Bytes} : IsEnveloped cfg key form → EnvelopeRaises cfg key form →
      TokenRaises cfg form
  | registration : IsDerived cfg form → RegistrationRaises cfg form → TokenRaises cfg form
  | forward {forwardId : Str} : IsDerived cfg form → SentUnder cfg form forwardId →
      cfg.session.isSome = true →
      ¬(isUtf8Encodable forwardId = true ∧ OthersSendable form [str "client_id"] ∧
        (cfg.dcrSigningKey.isSome = true → isUtf8Encodable (clientOf form) = true)) →
      TokenRaises cfg form

section

variable {key : Bytes} {token : Str}

omit [Runtime] in
/-- A client id with a digest has an encoding. -/
theorem encodable_of_presentedClientHash {clientId p : Str}
    (h : presentedClientHash clientId = .ok p) : isUtf8Encodable clientId = true := by
  by_contra hnot
  rw [presentedClientHash_of_not_encodable (Bool.not_eq_true _ ▸ hnot)] at h
  cases h

/-- A signed envelope is compared with the client id that presents it. -/
theorem unwrapRefreshToken_of_seals {t c p clientId : Str} (h : Seals key token t c p)
    (hpre : startsWith token refreshEnvelopePrefix = true) :
    unwrapRefreshToken key token (some clientId) =
      if isUtf8Encodable clientId = true ∧ p.all isAscii = true then
        .ok (if presentedClientHash clientId = .ok p then .opened t c else .invalid)
      else .error (if isUtf8Encodable clientId = true then .type else .unicodeEncode) := by
  obtain ⟨payload, hpayload, hfields⟩ := seals_iff.mp h
  rw [envelopeBlob] at hpayload
  rw [unwrapRefreshToken, if_pos hpre, hpayload, except_ok_bind, hfields]
  simp only
  by_cases hclient : isUtf8Encodable clientId = true
  · have hash := presentedClientHash_of_encodable hclient
    have hascii : (b64urlEncode (sha256 (clientId.flatMap utf8Char))).all isAscii = true :=
      List.all_eq_true.mpr fun x hx => (b64urlEncode_spec _ x hx).1
    rw [hash, except_ok_bind, compareDigest, hascii, Bool.and_true]
    by_cases hp : p.all isAscii = true
    · simp [hp, hclient, except_ok_bind, eq_comm]
    · simp only [hp, hclient]
      rfl
  · rw [presentedClientHash_of_not_encodable (Bool.not_eq_true _ ▸ hclient)]
    simp only [hclient]
    rfl

/-- An envelope is signed around one token, one client id and one presenter. -/
theorem Seals.unique {t c p t' c' p' : Str} (h : Seals key token t c p)
    (h' : Seals key token t' c' p') : t = t' ∧ c = c' ∧ p = p' := by
  obtain ⟨payload, hpayload, hfields⟩ := seals_iff.mp h
  obtain ⟨payload', hpayload', hfields'⟩ := seals_iff.mp h'
  obtain rfl := Except.ok.inj (hpayload.symm.trans hpayload')
  simpa using Option.some.inj (hfields.symm.trans hfields')

theorem Seals.not_isTooDeep {t c p : Str} (h : Seals key token t c p) :
    ¬IsTooDeep key refreshEnvelopePrefix (envelopeBlob token) := by
  obtain ⟨payload, hpayload, -⟩ := seals_iff.mp h
  intro hdeep
  cases hpayload.symm.trans (verifiedPayload_error_iff.mpr ⟨rfl, hdeep⟩)

/-- What a prefixed token comes to that is no signed envelope. -/
theorem unwrapRefreshToken_of_not_seals (hseals : ¬∃ t c p, Seals key token t c p)
    (hpre : startsWith token refreshEnvelopePrefix = true) (clientId : Str) :
    IsTooDeep key refreshEnvelopePrefix (envelopeBlob token) ∧
        unwrapRefreshToken key token (some clientId) = .error .recursion ∨
      ¬IsTooDeep key refreshEnvelopePrefix (envelopeBlob token) ∧
        unwrapRefreshToken key token (some clientId) = .ok .invalid := by
  rw [unwrapRefreshToken, if_pos hpre, ← envelopeBlob]
  cases hpayload : verifiedPayload key refreshEnvelopePrefix (envelopeBlob token) with
  | error e =>
    obtain ⟨rfl, hdeep⟩ := verifiedPayload_error_iff.mp hpayload
    exact .inl ⟨hdeep, rfl⟩
  | ok payload =>
    refine .inr ⟨fun hdeep => ?_, ?_⟩
    · cases hpayload.symm.trans (verifiedPayload_error_iff.mpr ⟨rfl, hdeep⟩)
    · cases hfields : payload.bind envelopeFields with
      | none =>
        rw [except_ok_bind, hfields]
      | some fields =>
        exact absurd ⟨fields.1, fields.2.1, fields.2.2, seals_iff.mpr ⟨payload, hpayload, hfields⟩⟩
          hseals

/-- The envelopes that fail to be opened. -/
theorem unwrapRefreshToken_error_iff (hpre : startsWith token refreshEnvelopePrefix = true)
    {clientId : Str} : (∃ e, unwrapRefreshToken key token (some clientId) = .error e) ↔
      IsTooDeep key refreshEnvelopePrefix (envelopeBlob token) ∨ ∃ t c p, Seals key token t c p ∧
        ¬(isUtf8Encodable clientId = true ∧ p.all isAscii = true) := by
  by_cases hseals : ∃ t c p, Seals key token t c p
  · obtain ⟨t, c, p, h⟩ := hseals
    rw [unwrapRefreshToken_of_seals h hpre, or_iff_right h.not_isTooDeep]
    by_cases hboth : isUtf8Encodable clientId = true ∧ p.all isAscii = true
    · rw [if_pos hboth]
      refine iff_of_false (by simp) ?_
      rintro ⟨t', c', p', h', hnot⟩
      obtain ⟨-, -, rfl⟩ := h.unique h'
      exact hnot hboth
    · rw [if_neg hboth]
      exact iff_of_true ⟨_, rfl⟩ ⟨t, c, p, h, hboth⟩
  · have hnone : ¬∃ t c p, Seals key token t c p ∧
        ¬(isUtf8Encodable clientId = true ∧ p.all isAscii = true) := by
      rintro ⟨t, c, p, h, -⟩
      exact hseals ⟨t, c, p, h⟩
    rcases unwrapRefreshToken_of_not_seals hseals hpre clientId with ⟨hdeep, h⟩ | ⟨hdeep, h⟩
    · exact iff_of_true ⟨_, h⟩ (.inl hdeep)
    · rw [h]
      exact iff_of_false (by simp) (not_or.mpr ⟨hdeep, hnone⟩)

/-- An envelope opens for the client whose digest it carries. -/
theorem unwrapRefreshToken_opened_iff (hpre : startsWith token refreshEnvelopePrefix = true)
    {clientId t c : Str} : unwrapRefreshToken key token (some clientId) = .ok (.opened t c) ↔
      ∃ p, Seals key token t c p ∧ presentedClientHash clientId = .ok p := by
  by_cases hseals : ∃ t c p, Seals key token t c p
  · obtain ⟨t', c', p, h⟩ := hseals
    rw [unwrapRefreshToken_of_seals h hpre]
    constructor
    · intro hopened
      split_ifs at hopened with hboth hsame
      · obtain ⟨rfl, rfl⟩ := Envelope.opened.inj (Except.ok.inj hopened)
        exact ⟨p, h, hsame⟩
      all_goals cases hopened
    · rintro ⟨p', h', hsame⟩
      obtain ⟨rfl, rfl, rfl⟩ := h.unique h'
      have hclient := encodable_of_presentedClientHash hsame
      have hascii : p.all isAscii = true := by
        rw [presentedClientHash_of_encodable hclient] at hsame
        obtain rfl := Except.ok.inj hsame
        exact List.all_eq_true.mpr fun x hx => (b64urlEncode_spec _ x hx).1
      rw [if_pos ⟨hclient, hascii⟩, if_pos hsame]
  · have hnone : ¬∃ p, Seals key token t c p ∧ presentedClientHash clientId = .ok p := by
      rintro ⟨p, h, -⟩
      exact hseals ⟨t, c, p, h⟩
    rcases unwrapRefreshToken_of_not_seals hseals hpre clientId with ⟨-, h⟩ | ⟨-, h⟩ <;>
      simp [h, hnone]

end

section

variable {cfg : OAuthCfg} {form : MultiDict} {key : Bytes}

/-- The identity in an envelope. -/
theorem IsEnveloped.identity_eq (h : IsEnveloped cfg key form) :
    (∀ e, unwrapRefreshToken key (form.getD refreshTokenKey) (some (clientOf form)) = .error e →
      haAuthForwardIdentity cfg form (clientOf form) cfg.dcrSigningKey = raise (.py e)) ∧
    (∀ t c, unwrapRefreshToken key (form.getD refreshTokenKey) (some (clientOf form)) =
        .ok (.opened t c) → haAuthForwardIdentity cfg form (clientOf form) cfg.dcrSigningKey =
      ret (.identity c true, form.replace refreshTokenKey t)) ∧
    (unwrapRefreshToken key (form.getD refreshTokenKey) (some (clientOf form)) = .ok .invalid →
      ∃ response, haAuthForwardIdentity cfg form (clientOf form) cfg.dcrSigningKey =
        ret (.response response, form)) := by
  rw [haAuthForwardIdentity, if_neg h.grant.1, if_pos h.grant.2, h.key]
  refine ⟨fun e he => ?_, fun t c hopened => ?_, fun hinvalid => ?_⟩
  · simp only [envelopeIdentity, he]
    rfl
  · simp only [envelopeIdentity, hopened]
    rfl
  · have hanswered : ∃ response, envelopeIdentity (some key) form (clientOf form) =
        .ok (some (.response response), form) := by
      simp only [envelopeIdentity, hinvalid]
      exact ⟨_, rfl⟩
    obtain ⟨response, hresponse⟩ := hanswered
    rw [hresponse]
    exact ⟨response, rfl⟩

theorem IsEnveloped.not_absent (h : IsEnveloped cfg key form) (clientId : Option Str) :
    unwrapRefreshToken key (form.getD refreshTokenKey) clientId ≠ .ok .absent := by
  intro habsent
  cases h.token.symm.trans (not_startsWith_of_absent habsent)

/-- The refreshes with an envelope that fail. -/
theorem tokenPost_error_iff_of_enveloped (hlive : cfg.resourceServer.isSome = true)
    (h : IsEnveloped cfg key form) :
    (∃ e, Can Assumed (tokenPost (some cfg) (some form)) (.error e)) ↔
      EnvelopeRaises cfg key form := by
  have hsent (t c : Str) :
      IsSendable ((form.replace refreshTokenKey t).replace (str "client_id") c) ↔
        isUtf8Encodable t = true ∧ isUtf8Encodable c = true ∧
          OthersSendable form [refreshTokenKey, str "client_id"] := by
    rw [isSendable_replace_iff, othersSendable_replace_iff (by decide)]
    tauto
  have hraises : EnvelopeRaises cfg key form ↔
      (∃ e, unwrapRefreshToken key (form.getD refreshTokenKey) (some (clientOf form)) =
        .error e) ∨ ∃ t c, unwrapRefreshToken key (form.getD refreshTokenKey)
          (some (clientOf form)) = .ok (.opened t c) ∧ cfg.session.isSome = true ∧
        ¬IsSendable ((form.replace refreshTokenKey t).replace (str "client_id") c) := by
    rw [unwrapRefreshToken_error_iff h.token]
    simp only [unwrapRefreshToken_opened_iff h.token, hsent, EnvelopeRaises]
    constructor
    · rintro (hdeep | ⟨t, c, p, hseals, hnot | ⟨hsame, hrest⟩⟩)
      · exact .inl (.inl hdeep)
      · exact .inl (.inr ⟨t, c, p, hseals, hnot⟩)
      · exact .inr ⟨t, c, ⟨p, hseals, hsame⟩, hrest⟩
    · rintro ((hdeep | ⟨t, c, p, hseals, hnot⟩) | ⟨t, c, ⟨p, hseals, hsame⟩, hrest⟩)
      · exact .inl hdeep
      · exact .inr ⟨t, c, p, hseals, .inl hnot⟩
      · exact .inr ⟨t, c, p, hseals, .inr ⟨hsame, hrest⟩⟩
  obtain ⟨herror, hopened, hinvalid⟩ := h.identity_eq
  rw [tokenPost_error_iff hlive rfl, ← clientOf, hraises]
  cases hunwrap : unwrapRefreshToken key (form.getD refreshTokenKey) (some (clientOf form)) with
  | error e =>
    rw [herror e hunwrap]
    exact iff_of_true (.inl ⟨_, can_raise_iff.mpr rfl⟩) (.inl ⟨e, rfl⟩)
  | ok envelope =>
    cases envelope with
    | absent => exact absurd hunwrap (h.not_absent _)
    | invalid =>
      obtain ⟨response, hresponse⟩ := hinvalid hunwrap
      simp [hresponse]
    | opened t c =>
      -- an envelope opens only for a client id that has a digest
      obtain ⟨p, -, hsame⟩ := (unwrapRefreshToken_opened_iff h.token).mp hunwrap
      have hclient := encodable_of_presentedClientHash hsame
      rw [hopened t c hunwrap]
      simp [hclient]

/-- The requests that fail as their identity is derived, or as they are sent on under it. -/
theorem tokenPost_error_iff_of_derived (hlive : cfg.resourceServer.isSome = true)
    (h : IsDerived cfg form) :
    (∃ e, Can Assumed (tokenPost (some cfg) (some form)) (.error e)) ↔
      RegistrationRaises cfg form ∨ ∃ forwardId, SentUnder cfg form forwardId ∧
        cfg.session.isSome = true ∧
        ¬(isUtf8Encodable forwardId = true ∧ OthersSendable form [str "client_id"] ∧
          (cfg.dcrSigningKey.isSome = true → isUtf8Encodable (clientOf form) = true)) := by
  rw [tokenPost_error_iff hlive rfl, ← clientOf, h.identity_error_iff]
  refine or_congr_right ?_
  have hraises (forwardId : Str) :
      (¬IsSendable (form.replace (str "client_id") forwardId) ∨ cfg.dcrSigningKey.isSome = true ∧
        form.lookup (str "action") ≠ some (str "revoke") ∧
          isUtf8Encodable (clientOf form) = false) ↔
      ¬(isUtf8Encodable forwardId = true ∧ OthersSendable form [str "client_id"] ∧
        (cfg.dcrSigningKey.isSome = true → isUtf8Encodable (clientOf form) = true)) := by
    rw [isSendable_replace_iff, ← Bool.not_eq_true (isUtf8Encodable (clientOf form))]
    simp only [h.action, ne_eq, not_false_eq_true, true_and]
    tauto
  constructor
  · rintro ⟨forwardId, proxy, form', hcan, hproxied, hsession, hnot⟩
    obtain ⟨rfl, -, hsent⟩ := h.identity_ok_iff.mp ⟨hcan, hproxied⟩
    exact ⟨forwardId, hsent, hsession, (hraises forwardId).mp hnot⟩
  · rintro ⟨forwardId, hsent, hsession, hnot⟩
    obtain ⟨hcan, hproxied⟩ := h.identity_ok_iff.mpr
      ⟨rfl, decide_eq_true_iff (p := forwardId = clientOf form), hsent⟩
    exact ⟨forwardId, _, form, hcan, hproxied, hsession, (hraises forwardId).mpr hnot⟩

/-- The revocations that fail on the token view. -/
theorem tokenPost_error_iff_of_revocation (hlive : cfg.resourceServer.isSome = true)
    (h : form.lookup (str "action") = some (str "revoke")) :
    (∃ e, Can Assumed (tokenPost (some cfg) (some form)) (.error e)) ↔
      RevocationRaises cfg form (isUtf8Encodable (clientOf form) = true ∧
        OthersSendable form [str "token", str "client_id"]) := by
  have hproxy (t : Str) : (∃ e, Can Assumed (proxyTokenToCore cfg
      ((form.replace (str "token") t).replace (str "client_id") (clientOf form)) (clientOf form)
      (clientOf form) cfg.dcrSigningKey) (.error e)) ↔ _ := can_proxyTokenToCore_error_iff
  have haction (t : Str) : ((form.replace (str "token") t).replace (str "client_id")
      (clientOf form)).lookup (str "action") = some (str "revoke") := by
    rw [MultiDict.lookup_replace_of_ne _ (by decide), MultiDict.lookup_replace_of_ne _ (by decide),
      h]
  simp only [haction, ne_eq, not_true_eq_false, false_and, and_false, or_false] at hproxy
  have hclient : form.getD (str "client_id") = clientOf form := rfl
  simp only [tokenPost, if_pos hlive, haAuthToken, haAuthForwardIdentity, if_pos h, hclient,
    bind_eq, Prog.bind_assoc]
  refine revocation_error_iff (fun e he => ?_) fun t => ?_
  · simp only [pure_eq, bind_ret, decide_true, Bool.not_false, Bool.and_self, if_true] at he
    cases can_ret_iff.mp he
  · simp only [pure_eq, bind_ret, decide_true, Bool.not_true, Bool.and_false, Bool.false_eq_true,
      if_false]
    rw [hproxy, isSendable_replace_iff, othersSendable_replace_iff (by decide)]
    tauto

/-- Without a client id nothing is derived, and core is left to refuse the request. -/
theorem not_tokenPost_error_of_unnamed (hlive : cfg.resourceServer.isSome = true)
    (haction : form.lookup (str "action") ≠ some (str "revoke"))
    (htoken : ∀ key, ¬IsEnveloped cfg key form) (hclient : clientOf form = []) :
    ¬∃ e, Can Assumed (tokenPost (some cfg) (some form)) (.error e) := by
  have hidentity : haAuthForwardIdentity cfg form (clientOf form) cfg.dcrSigningKey =
      ret (.identity (clientOf form) false, form) := by
    rw [haAuthForwardIdentity, if_neg haction, envelopeIdentity_of_not_enveloped haction htoken]
    simp only [pureCall_ok, bind_eq, bind_ret, pure_eq, if_pos hclient]
  rw [tokenPost_error_iff hlive rfl, ← clientOf, hidentity]
  rintro (⟨e, he⟩ | ⟨forwardId, proxy, form', hcan, hproxied, -⟩)
  · cases can_ret_iff.mp he
  · obtain ⟨hsame, -⟩ := Prod.mk.inj (Except.ok.inj (can_ret_iff.mp hcan))
    obtain ⟨rfl, rfl⟩ := Resolved.identity.inj hsame
    cases hproxied rfl

/-- The token view raises for these requests and for no others. -/
theorem tokenPost_raises_iff (hlive : cfg.resourceServer.isSome = true) (form : MultiDict) :
    (∃ e, Can Assumed (tokenPost (some cfg) (some form)) (.error e)) ↔ TokenRaises cfg form := by
  by_cases haction : form.lookup (str "action") = some (str "revoke")
  · rw [tokenPost_error_iff_of_revocation hlive haction]
    constructor
    · exact TokenRaises.revocation haction
    · intro hraises
      cases hraises with
      | revocation _ hrevocation => exact hrevocation
      | envelope h => exact absurd haction h.grant.1
      | registration h => exact absurd haction h.action
      | forward h => exact absurd haction h.action
  by_cases henveloped : ∃ key, IsEnveloped cfg key form
  · obtain ⟨key, h⟩ := henveloped
    rw [tokenPost_error_iff_of_enveloped hlive h]
    constructor
    · exact TokenRaises.envelope h
    · intro hraises
      cases hraises with
      | revocation hrevoke => exact absurd hrevoke haction
      | envelope h' hraises =>
        obtain rfl := Option.some.inj (h.key.symm.trans h'.key)
        exact hraises
      | registration h' => exact absurd h (h'.token key)
      | forward h' => exact absurd h (h'.token key)
  rw [not_exists] at henveloped
  by_cases hclient : clientOf form = []
  · refine iff_of_false (not_tokenPost_error_of_unnamed hlive haction henveloped hclient) ?_
    intro hraises
    cases hraises with
    | revocation hrevoke => exact absurd hrevoke haction
    | envelope h => exact absurd h (henveloped _)
    | registration h => exact absurd hclient h.client
    | forward h => exact absurd hclient h.client
  · have h : IsDerived cfg form := ⟨haction, henveloped, hclient⟩
    rw [tokenPost_error_iff_of_derived hlive h]
    constructor
    · rintro (hregistration | ⟨forwardId, hsent, hsession, hnot⟩)
      · exact .registration h hregistration
      · exact .forward h hsent hsession hnot
    · intro hraises
      cases hraises with
      | revocation hrevoke => exact absurd hrevoke haction
      | envelope h' => exact absurd h' (henveloped _)
      | registration _ hregistration => exact .inl hregistration
      | forward _ hsent hsession hnot => exact .inr ⟨_, hsent, hsession, hnot⟩

/-- An anonymous POST is answered unless it is one of the requests above. -/
theorem alwaysAnswers_iff (hlive : cfg.resourceServer.isSome = true)
    (form : MultiDict) :
    (AlwaysAnswers (tokenPost (some cfg) (some form)) ↔ ¬TokenRaises cfg form) ∧
      (AlwaysAnswers (revokePost (some cfg) (some form)) ↔
        ¬RevocationRaises cfg form (OthersSendable form [str "token"])) := by
  rw [← tokenPost_raises_iff hlive, ← revokePost_error_iff hlive]
  exact ⟨alwaysAnswers_iff_not_error, alwaysAnswers_iff_not_error⟩

end

end

/-- A code exchange of text that can be encoded is answered. -/
theorem alwaysAnswers_codeForm :
    letI := asciiRuntime
    AlwaysAnswers (tokenPost (some (oauthCfg (haModeCfg [1]))) (some codeForm)) ∧
      AlwaysAnswers (revokePost (some (oauthCfg (haModeCfg [1]))) (some codeForm)) := by
  let := asciiRuntime
  have hlive : (oauthCfg (haModeCfg [1])).resourceServer.isSome = true := rfl
  have hiff := alwaysAnswers_iff hlive codeForm
  refine ⟨hiff.1.mpr fun hraises => ?_, hiff.2.mpr fun hraises => ?_⟩
  · have hunsigned : dcrRedirects (some [1]) (clientOf codeForm) = .ok none := rfl
    cases hraises with
    | revocation haction => exact absurd haction (by decide)
    | envelope h => exact absurd h.grant.2 (by decide)
    | registration _ h =>
      rcases h with ⟨-, key, -, hpre, -⟩ | ⟨registered, hdcr, -⟩
      · exact absurd hpre (by decide)
      · cases hunsigned.symm.trans hdcr
    | forward _ hsent _ hnot =>
      have hothers : OthersSendable codeForm [str "client_id"] := by
        unfold OthersSendable
        decide +kernel
      have hclient : isUtf8Encodable (clientOf codeForm) = true := by decide +kernel
      refine hnot ⟨?_, hothers, fun _ => hclient⟩
      cases hsent with
      | bare hbare => exact absurd hbare.1 (by decide)
      | asked _ _ _ horigin =>
        have hsame : originClientId (redirectOf codeForm) = .ok (str "https://app.example") := by
          decide +kernel
        obtain rfl := Except.ok.inj (hsame.symm.trans horigin)
        decide +kernel
      | wrapped => exact hclient
  · obtain ⟨key, -, hpre, -⟩ := hraises
    exact absurd hpre (by decide)

/-- A body that nothing has signed, around a token that is a lone surrogate. -/
def surrogateEnvelope : Str := str "espmcp-rt-eyJ0IjoiXHVkODAwIn0.x"

/-- Its revocation is put into a form that has no encoding. -/
theorem not_alwaysAnswers_surrogate :
    letI := asciiRuntime
    ¬AlwaysAnswers (revokePost (some (oauthCfg (haModeCfg [1])))
      (some [(str "token", surrogateEnvelope)])) := by
  let := asciiRuntime
  have hholds : HoldsToken surrogateEnvelope [codePoint 0xD800] :=
    unverifiedToken_eq_some_iff.mp (by decide +kernel)
  have hparts : rpartition (ch '.') (envelopeBlob surrogateEnvelope) =
      some (str "eyJ0IjoiXHVkODAwIn0", str "x") := by decide +kernel
  have hunsigned (t c p : Str) : ¬Seals [1] surrogateEnvelope t c p := by
    rintro ⟨raw, payload, ⟨body, sigPart, message, hsplit, -, -, hsig, -⟩, -⟩
    obtain ⟨-, rfl⟩ := Prod.mk.inj (Option.some.inj (hparts.symm.trans hsplit))
    have hnone : b64urlDecode (str "x") = none := by decide +kernel
    cases hnone.symm.trans hsig
  have hlive : (oauthCfg (haModeCfg [1])).resourceServer.isSome = true := rfl
  have hraises : RevocationRaises (oauthCfg (haModeCfg [1])) [(str "token", surrogateEnvelope)]
      (OthersSendable [(str "token", surrogateEnvelope)] [str "token"]) := by
    refine ⟨[1], rfl, by decide, .inr ⟨rfl, [codePoint 0xD800], .inr ⟨hunsigned, hholds⟩, ?_⟩⟩
    exact fun h => absurd h.1 (by decide +kernel)
  obtain ⟨e, he⟩ := (revokePost_error_iff hlive _).mpr hraises
  exact fun hanswers => hanswers.neverRaises e he

end EsphomeMcp.OAuth
