import EsphomeMcp.OAuth.ReadErrors
import EsphomeMcp.OAuth.SessionChain

/-!
# What sending on raises

A request that core is to see changed is posted by the component itself, and what the views catch
is a core that does not answer. A form that has no encoding goes past that handler, as does a
client id that has none where core's answer is wrapped for it.
-/

namespace EsphomeMcp.OAuth

open Py Py.Prog

section

variable [Runtime]

/-! ## What is assumed of the outside -/

/-- The serializer can encode every value of the form. -/
def IsSendable (form : MultiDict) : Prop := ∀ field ∈ form, isUtf8Encodable field.2 = true

/-- A list that a lookup returns. -/
structure IsListed (registered : List Str) : Prop where
  nonempty : registered ≠ []
  accepted : ∀ uri ∈ registered, isValidRedirectUri uri = true

/-- What comes back: of a lookup nothing or a list, of a POST whose form can be encoded core's
answer or an error of the client's, and of any other the error of the encoder. -/
def Assumed : ViewEvent → Prop
  | ⟨.fetchCimdRedirects _, r⟩ =>
    r = .ok none ∨ ∃ registered, IsListed registered ∧ r = .ok (some registered)
  | ⟨.post _ _ data, r⟩ =>
    IsSendable data ∧ ((∃ answer, r = .ok answer) ∨ r = .error .timeout ∨ r = .error .client) ∨
      ¬IsSendable data ∧ r = .error (.py .unicodeEncode)
  | _ => True

/-- The view ends, and in a response whatever comes back. -/
structure AlwaysAnswers (view : ViewProg Response) : Prop where
  ends : ∃ response, Can Assumed view (.ok response)
  neverRaises : ∀ e, ¬Can Assumed view (.error e)

/-! ## The kinds of request that raise -/

/-- The fields under other keys can be encoded. -/
def OthersSendable (form : MultiDict) (keys : List Str) : Prop :=
  ∀ field ∈ form, field.1 ∉ keys → isUtf8Encodable field.2 = true

/-- The blob of an envelope. -/
def envelopeBlob (token : Str) : Str := token.drop refreshEnvelopePrefix.length

/-- An envelope that is signed around the three strings. -/
def Seals (key : Bytes) (token t c p : Str) : Prop :=
  ∃ raw payload, Signs key refreshEnvelopePrefix (envelopeBlob token) raw ∧
    loadsBytes raw = .ok payload ∧ envelopeFields payload = some (t, c, p)

/-- A prefixed token that is no longer than a revocation may be has a body that holds `t`. -/
def HoldsToken (token t : Str) : Prop :=
  token.length ≤ maxRevokeEnvelopeLen ∧ ∃ body sigPart raw payload,
    rpartition (ch '.') (envelopeBlob token) = some (body, sigPart) ∧ body ≠ [] ∧
      b64urlDecode body = some raw ∧ loadsBytes raw = .ok (.obj payload) ∧
        dictGet payload (str "t") = .str t

/-- The token in an envelope, for which a body is enough when the key has not signed it. -/
def Recovers (key : Bytes) (token t : Str) : Prop :=
  (∃ c p, Seals key token t c p) ∨ (∀ t' c p, ¬Seals key token t' c p) ∧ HoldsToken token t

/-- The token of a revocation cannot be read, or what core is to be sent cannot be encoded:
`sent` says what of the form is. -/
def RevocationRaises (cfg : OAuthCfg) (form : MultiDict) (sent : Prop) : Prop :=
  ∃ key, cfg.dcrSigningKey = some key ∧
    startsWith (form.getD (str "token")) refreshEnvelopePrefix = true ∧
    (IsTooDeep key refreshEnvelopePrefix (envelopeBlob (form.getD (str "token"))) ∨
      cfg.session.isSome = true ∧ ∃ t, Recovers key (form.getD (str "token")) t ∧
        ¬(isUtf8Encodable t = true ∧ sent))

/-! ## What is posted -/

/-- Something comes back of every command. -/
theorem exists_assumed (c : ViewCmd) : ∃ r, Assumed ⟨c, r⟩ := by
  cases c with
  | fetchCimdRedirects clientId => exact ⟨.ok none, .inl rfl⟩
  | post session path data =>
    by_cases hsend : IsSendable data
    · exact ⟨.error .timeout, .inl ⟨hsend, .inr (.inl rfl)⟩⟩
    · exact ⟨.error (.py .unicodeEncode), .inr ⟨hsend, rfl⟩⟩
  | issueCode | consumeCode | issueAccessToken => exact ⟨.error .timeout, trivial⟩

/-- A view that never raises ends in a response. -/
theorem alwaysAnswers_iff_not_error {view : ViewProg Response} :
    AlwaysAnswers view ↔ ¬∃ e, Can Assumed view (.error e) := by
  constructor
  · rintro h ⟨e, he⟩
    exact h.neverRaises e he
  · intro h
    obtain ⟨out, hout⟩ := exists_can exists_assumed view
    cases out with
    | error e => exact absurd ⟨e, hout⟩ h
    | ok response => exact ⟨⟨response, hout⟩, not_exists.mp h⟩

omit [Runtime] in
/-- A form with one field replaced can be sent when the others and the new value can. -/
theorem isSendable_replace_iff {form : MultiDict} {key value : Str} :
    IsSendable (form.replace key value) ↔
      OthersSendable form [key] ∧ isUtf8Encodable value = true := by
  rw [IsSendable, MultiDict.replace_eq, List.forall_mem_append, List.forall_mem_singleton]
  simp [OthersSendable, MultiDict.popall]

omit [Runtime] in
theorem othersSendable_replace_iff {form : MultiDict} {key value : Str} {keys : List Str}
    (hkey : key ∉ keys) : OthersSendable (form.replace key value) keys ↔
      OthersSendable form (key :: keys) ∧ isUtf8Encodable value = true := by
  rw [OthersSendable, MultiDict.replace_eq, List.forall_mem_append, List.forall_mem_singleton]
  simp [OthersSendable, MultiDict.popall, hkey]

theorem can_lookupRedirects_iff {clientId : Str} {out : Except OAuthError (Option (List Str))} :
    Can Assumed (lookupRedirects clientId) out ↔
      out = .ok none ∨ ∃ registered, IsListed registered ∧ out = .ok (some registered) :=
  can_perform_iff

section

variable {cfg : OAuthCfg} {path : Str} {form : MultiDict}

/-- A forward ends in core's answer or a response when its form can be encoded, and otherwise in
the error of the encoder. -/
theorem can_forwardToCore_iff {session : Webhook.SessionId} (hsession : cfg.session = some session)
    {out : Except OAuthError (CoreAnswer ⊕ Response)} :
    Can Assumed (forwardToCore cfg path form) out ↔
      IsSendable form ∧ ((∃ answer : CoreAnswer, out = .ok (.inl { answer with
          contentType := relayedContentType answer })) ∨
        out = .ok (.inr (unavailable "core did not answer the token request"
          (isRevocation path form)))) ∨
      ¬IsSendable form ∧ out = .error (.py .unicodeEncode) := by
  have hpost (r : Except OAuthError CoreAnswer) : Can Assumed (await (.post session path form)) r ↔
      IsSendable form ∧ ((∃ answer, r = .ok answer) ∨ r = .error .timeout ∨ r = .error .client) ∨
        ¬IsSendable form ∧ r = .error (.py .unicodeEncode) := can_perform_iff
  simp only [forwardToCore, hsession, bind_eq, pure_eq, can_bind_iff, can_attempt_iff, hpost]
  constructor
  · rintro (⟨a, ⟨r, hr, ha⟩, hout⟩ | ⟨e, ⟨r, -, he⟩, -⟩)
    · obtain rfl := Except.ok.inj ha
      rcases hr with ⟨hsend, ⟨answer, rfl⟩ | rfl | rfl⟩ | ⟨hsend, rfl⟩
      · exact .inl ⟨hsend, .inl ⟨answer, can_ret_iff.mp hout⟩⟩
      · exact .inl ⟨hsend, .inr (can_ret_iff.mp hout)⟩
      · exact .inl ⟨hsend, .inr (can_ret_iff.mp hout)⟩
      · exact .inr ⟨hsend, can_raise_iff.mp hout⟩
    · cases he
  · rintro (⟨hsend, ⟨answer, rfl⟩ | rfl⟩ | ⟨hsend, rfl⟩)
    · exact .inl ⟨_, ⟨_, .inl ⟨hsend, .inl ⟨answer, rfl⟩⟩, rfl⟩, can_ret_iff.mpr rfl⟩
    · exact .inl ⟨_, ⟨_, .inl ⟨hsend, .inr (.inl rfl)⟩, rfl⟩, can_ret_iff.mpr rfl⟩
    · exact .inl ⟨_, ⟨_, .inr ⟨hsend, rfl⟩, rfl⟩, can_raise_iff.mpr rfl⟩

/-- Only the encoder of a form goes past the handler. -/
theorem can_forwardToCore_error_iff (path : Str) :
    (∃ e, Can Assumed (forwardToCore cfg path form) (.error e)) ↔
      cfg.session.isSome = true ∧ ¬IsSendable form := by
  cases hsession : cfg.session with
  | none =>
    have hforward : forwardToCore cfg path form = ret (.inr (unavailable
        "token forwarding is not available" (isRevocation path form))) := by
      rw [forwardToCore, hsession]
      rfl
    simp [hforward]
  | some session =>
    simp [can_forwardToCore_iff hsession]

/-- Every text is the refresh token of some answer. -/
theorem exists_answer_of_token : ∃ body t, refreshTokenOf body = some t := by
  have hwf : (Json.dict [("refresh_token", .lit "t")]).WellFormed := by
    refine .obj _ (by simp) ?_
    simp only [List.map_cons, List.map_nil, List.forall_mem_singleton]
    exact .str _
  have hdepth : (Json.dict [("refresh_token", .lit "t")]).depth ≤ recursionLimit := by
    have hlimit := Runtime.recursionLimit_pos
    simp only [Json.dict, Json.lit, List.map_cons, List.map_nil, Json.depth, Json.depthFields]
    omega
  exact ⟨_, str "t",
    refreshTokenOf_eq_some_iff.mpr ⟨_, loadsBytes_dumpsBytes .compact hwf hdepth, rfl⟩⟩

/-- Some body of core fails to be wrapped just when the client id has no digest. -/
theorem rewriteTokenResponseBody_error_iff (key : Bytes) (forwardId : Str) {clientId : Str} :
    (∃ body e, rewriteTokenResponseBody key body forwardId clientId = .error e) ↔
      isUtf8Encodable clientId = false := by
  constructor
  · rintro ⟨body, e, he⟩
    by_contra hclient
    rw [Bool.not_eq_false] at hclient
    cases ht : refreshTokenOf body with
    | none => cases (rewriteTokenResponseBody_of_refreshTokenOf ht).symm.trans he
    | some t =>
      obtain ⟨rewritten, _, hok, -⟩ := rewriteTokenResponseBody_spec key forwardId hclient ht
      cases hok.symm.trans he
  · intro hclient
    obtain ⟨body, t, ht⟩ := exists_answer_of_token
    cases hbody : rewriteTokenResponseBody key body forwardId clientId with
    | error e => exact ⟨body, e, hbody⟩
    | ok rewritten =>
      rw [encodable_of_rewritten ht hbody] at hclient
      cases hclient

/-- A proxied request raises when its form has no encoding, or when core's answer to a grant is to
be wrapped for a client id that has none. -/
theorem can_proxyTokenToCore_error_iff {forwardId clientId : Str} {dcrKey : Option Bytes} :
    (∃ e, Can Assumed (proxyTokenToCore cfg form forwardId clientId dcrKey) (.error e)) ↔
      cfg.session.isSome = true ∧ (¬IsSendable form ∨ dcrKey.isSome = true ∧
        form.lookup (str "action") ≠ some (str "revoke") ∧ isUtf8Encodable clientId = false) := by
  rw [proxyTokenToCore, bind_eq]
  constructor
  · rintro ⟨e, he⟩
    rcases can_bind_iff.mp he with ⟨a, ha, hrest⟩ | ⟨e', he', -⟩
    · cases a with
      | inr response => cases can_ret_iff.mp hrest
      | inl answer =>
        rcases can_bind_iff.mp hrest with ⟨body, -, hret⟩ | ⟨e', hbody, -⟩
        · cases can_ret_iff.mp hret
        · have hraised := can_ofExcept_iff.mp hbody
          cases hsession : cfg.session with
          | none =>
            rw [forwardToCore, hsession] at ha
            cases can_ret_iff.mp ha
          | some session =>
            cases dcrKey with
            | none => cases hraised
            | some key =>
              by_cases hwrap : (answer.status = 200 && form.lookup (str "action") ≠
                  some (str "revoke")) = true
              · simp only [hwrap, if_true] at hraised
                rw [Bool.and_eq_true, decide_eq_true_eq, decide_eq_true_eq] at hwrap
                refine ⟨rfl, .inr ⟨rfl, hwrap.2, ?_⟩⟩
                cases hrewrite : rewriteTokenResponseBody key answer.body forwardId clientId with
                | ok rewritten =>
                  rw [hrewrite] at hraised
                  cases hraised
                | error err =>
                  exact (rewriteTokenResponseBody_error_iff key forwardId).mp ⟨_, err, hrewrite⟩
              · simp only [hwrap] at hraised
                cases hraised
    · exact ((can_forwardToCore_error_iff _).mp ⟨e', he'⟩).imp_right Or.inl
  · rintro ⟨hsession, hraises⟩
    by_cases hsend : IsSendable form
    · obtain ⟨hkey, haction, hclient⟩ := hraises.resolve_left (not_not.mpr hsend)
      obtain ⟨key, rfl⟩ := Option.isSome_iff_exists.mp hkey
      obtain ⟨session, hsession⟩ := Option.isSome_iff_exists.mp hsession
      obtain ⟨body, err, hrewrite⟩ :=
        (rewriteTokenResponseBody_error_iff key forwardId).mpr hclient
      refine ⟨.py err, can_bind_iff.mpr (.inl ⟨.inl ⟨200, body, _⟩,
        (can_forwardToCore_iff hsession).mpr (.inl ⟨hsend, .inl ⟨⟨200, body, []⟩, rfl⟩⟩), ?_⟩)⟩
      refine can_bind_iff.mpr (.inr ⟨_, can_ofExcept_iff.mpr ?_, rfl⟩)
      simp only [decide_eq_true haction, decide_true, Bool.and_self, if_true, hrewrite]
      rfl
    · obtain ⟨e, he⟩ := (can_forwardToCore_error_iff _).mpr ⟨hsession, hsend⟩
      exact ⟨e, can_bind_iff.mpr (.inr ⟨e, he, rfl⟩)⟩

end

/-! ## Revocations -/

section

variable {key : Bytes} {token : Str}

omit [Runtime] in
/-- What fields open to, when the presenter is not asked for. -/
def openedFields : Option (Str × Str × Str) → Envelope
  | none => .invalid
  | some (t, c, _) => .opened t c

theorem unwrapRefreshToken_none_eq (hpre : startsWith token refreshEnvelopePrefix = true) :
    unwrapRefreshToken key token none =
      (verifiedPayload key refreshEnvelopePrefix (envelopeBlob token)).map fun payload =>
        openedFields (payload.bind envelopeFields) := by
  rw [unwrapRefreshToken, if_pos hpre, envelopeBlob]
  cases verifiedPayload key refreshEnvelopePrefix (token.drop refreshEnvelopePrefix.length) with
  | error e => rfl
  | ok payload =>
    rw [except_ok_bind, Except.map]
    cases payload.bind envelopeFields <;> rfl

theorem seals_iff {t c p : Str} : Seals key token t c p ↔ ∃ payload,
    verifiedPayload key refreshEnvelopePrefix (envelopeBlob token) = .ok payload ∧
      payload.bind envelopeFields = some (t, c, p) := by
  constructor
  · rintro ⟨raw, payload, hsigns, hloads, hfields⟩
    exact ⟨some payload, verifiedPayload_some_iff.mpr ⟨raw, hsigns, hloads⟩, hfields⟩
  · rintro ⟨payload, hpayload, hfields⟩
    obtain ⟨payload, rfl, hfields⟩ := Option.bind_eq_some_iff.mp hfields
    obtain ⟨raw, hsigns, hloads⟩ := verifiedPayload_some_iff.mp hpayload
    exact ⟨raw, payload, hsigns, hloads, hfields⟩

/-- What a revocation reads of a body. -/
theorem unverifiedToken_eq_some_iff {t : Str} :
    unverifiedToken token = some t ↔ HoldsToken token t := by
  rw [unverifiedToken, HoldsToken, ← envelopeBlob]
  split_ifs with hlen
  · exact iff_of_false (by simp) fun h => absurd h.1 (by omega)
  rw [and_iff_right (not_lt.mp hlen)]
  constructor
  · intro h
    split at h
    · cases h
    next body sigPart hparts =>
    split_ifs at h with hbody
    split at h
    · next payload hloads =>
      obtain ⟨raw, hraw, hloads⟩ := Option.map_eq_some_iff.mp hloads
      split at h
      · next t' ht =>
        obtain rfl := Option.some.inj h
        exact ⟨body, sigPart, raw, payload, hparts, hbody, hraw, hloads, ht⟩
      · cases h
    · cases h
  · rintro ⟨body, sigPart, raw, payload, hparts, hbody, hraw, hloads, ht⟩
    simp only [hparts, if_neg hbody, hraw, Option.map_some, hloads, ht]

/-- A body that is nested too deeply gives up no token. -/
theorem unverifiedToken_of_isTooDeep
    (h : IsTooDeep key refreshEnvelopePrefix (envelopeBlob token)) :
    unverifiedToken token = none := by
  obtain ⟨raw, ⟨body, sigPart, -, hparts, hbody, -, -, hraw⟩, hloads⟩ := h
  rw [envelopeBlob] at hparts
  rw [unverifiedToken, hparts]
  simp only [if_neg hbody, hraw, Option.map_some, hloads, ite_self]

/-- A revocation fails to read its token only where something signed is too deep. -/
theorem coreTokenForRevocation_error_iff :
    (∃ e, coreTokenForRevocation (some key) token = .error e) ↔
      startsWith token refreshEnvelopePrefix = true ∧
        IsTooDeep key refreshEnvelopePrefix (envelopeBlob token) := by
  rw [coreTokenForRevocation]
  by_cases hpre : startsWith token refreshEnvelopePrefix = true
  · rw [if_pos hpre, unwrapRefreshToken_none_eq hpre]
    cases hpayload : verifiedPayload key refreshEnvelopePrefix (envelopeBlob token) with
    | error e =>
      exact iff_of_true ⟨e, rfl⟩ ⟨hpre, (verifiedPayload_error_iff.mp hpayload).2⟩
    | ok payload =>
      refine iff_of_false ?_ fun h => ?_
      · rintro ⟨e, he⟩
        cases hfields : payload.bind envelopeFields with
        | none =>
          simp only [Except.map, hfields, openedFields, except_ok_bind] at he
          cases he
        | some fields =>
          simp only [Except.map, hfields, openedFields, except_ok_bind] at he
          cases he
      · cases hpayload.symm.trans (verifiedPayload_error_iff.mpr ⟨rfl, h.2⟩)
  · simp [hpre]

/-- What a revocation reads is the token that can be recovered. -/
theorem coreTokenForRevocation_some_iff {t : Str} :
    coreTokenForRevocation (some key) token = .ok (some t) ↔
      startsWith token refreshEnvelopePrefix = true ∧ Recovers key token t := by
  rw [coreTokenForRevocation]
  by_cases hpre : startsWith token refreshEnvelopePrefix = true
  · rw [if_pos hpre, unwrapRefreshToken_none_eq hpre, and_iff_right hpre, Recovers,
      ← unverifiedToken_eq_some_iff]
    simp only [seals_iff]
    cases hpayload : verifiedPayload key refreshEnvelopePrefix (envelopeBlob token) with
    | error e =>
      have hnone := unverifiedToken_of_isTooDeep (verifiedPayload_error_iff.mp hpayload).2
      simp [Except.map, hnone]
    | ok payload =>
      cases hfields : payload.bind envelopeFields with
      | none => simp [Except.map, hfields, openedFields, pure, Except.pure]
      | some fields =>
        obtain ⟨t', c, p⟩ := fields
        simp [Except.map, hfields, openedFields, pure, Except.pure, eq_comm]
  · simp [hpre]

/-- A view that rewrites a revocation and goes on raises where its token cannot be read and where
it goes on with what cannot be sent. -/
theorem revocation_error_iff {cfg : OAuthCfg} {form : MultiDict}
    {k : Bool × MultiDict → ViewProg Response} {sent : Prop}
    (hfalse : ∀ e, ¬Can Assumed (k (false, form)) (.error e))
    (htrue : ∀ t, (∃ e, Can Assumed (k (true, form.replace (str "token") t)) (.error e)) ↔
      cfg.session.isSome = true ∧ ¬(isUtf8Encodable t = true ∧ sent)) :
    (∃ e, Can Assumed (Prog.bind (pureCall (revokeRewrite cfg.dcrSigningKey form)) k) (.error e)) ↔
      RevocationRaises cfg form sent := by
  have hpure {x : Bool × MultiDict} : (∃ e, Can Assumed (Prog.bind (pureCall (.ok x)) k)
      (.error e)) ↔ ∃ e, Can Assumed (k x) (.error e) := by
    rw [pureCall_ok, bind_ret]
  cases hkey : cfg.dcrSigningKey with
  | none =>
    rw [revokeRewrite, hpure]
    refine iff_of_false (not_exists.mpr hfalse) fun hraises => ?_
    obtain ⟨key, hsome, -⟩ := hraises
    cases hkey.symm.trans hsome
  | some key =>
    have hraises : RevocationRaises cfg form sent ↔
        (∃ e, coreTokenForRevocation (some key) (form.getD (str "token")) = .error e) ∨
        cfg.session.isSome = true ∧
          ∃ t, coreTokenForRevocation (some key) (form.getD (str "token")) = .ok (some t) ∧
            ¬(isUtf8Encodable t = true ∧ sent) := by
      rw [coreTokenForRevocation_error_iff]
      simp only [coreTokenForRevocation_some_iff, RevocationRaises, hkey, Option.some.injEq]
      constructor
      · rintro ⟨_, rfl, hpre, hdeep | ⟨hsession, t, hrecovers, hsent⟩⟩
        · exact .inl ⟨hpre, hdeep⟩
        · exact .inr ⟨hsession, t, ⟨hpre, hrecovers⟩, hsent⟩
      · rintro (⟨hpre, hdeep⟩ | ⟨hsession, t, ⟨hpre, hrecovers⟩, hsent⟩)
        · exact ⟨_, rfl, hpre, .inl hdeep⟩
        · exact ⟨_, rfl, hpre, .inr ⟨hsession, t, hrecovers, hsent⟩⟩
    rw [hraises, revokeRewrite]
    cases hcore : coreTokenForRevocation (some key) (form.getD (str "token")) with
    | error err =>
      exact iff_of_true ⟨.py err, can_raise_iff.mpr rfl⟩ (.inl ⟨err, rfl⟩)
    | ok found =>
      cases found with
      | none =>
        show (∃ e, Can Assumed (Prog.bind (pureCall (.ok (false, form))) k) (.error e)) ↔ _
        rw [hpure]
        exact iff_of_false (not_exists.mpr hfalse) (by simp)
      | some t =>
        show (∃ e, Can Assumed (Prog.bind (pureCall (.ok (true, form.replace (str "token") t))) k)
          (.error e)) ↔ _
        rw [hpure, htrue]
        simp

/-- The requests the revoke view fails. -/
theorem revokePost_error_iff {cfg : OAuthCfg} (hlive : cfg.resourceServer.isSome = true)
    (form : MultiDict) :
    (∃ e, Can Assumed (revokePost (some cfg) (some form)) (.error e)) ↔
      RevocationRaises cfg form (OthersSendable form [str "token"]) := by
  have hnone : cfg.resourceServer.isNone = false := by
    rw [Option.isNone_eq_false_iff]
    exact hlive
  simp only [revokePost, hnone, Bool.false_eq_true, if_false, bind_eq]
  refine revocation_error_iff (fun e he => ?_) fun t => ?_
  · cases can_ret_iff.mp he
  · rw [and_comm (a := isUtf8Encodable t = true), ← isSendable_replace_iff,
      ← can_forwardToCore_error_iff (str "/auth/revoke")]
    constructor
    · rintro ⟨e, he⟩
      rcases can_bind_iff.mp he with ⟨a, -, hrest⟩ | ⟨e', he', -⟩
      · cases a <;> cases can_ret_iff.mp hrest
      · exact ⟨e', he'⟩
    · rintro ⟨e, he⟩
      exact ⟨e, can_bind_iff.mpr (.inr ⟨e, he, rfl⟩)⟩

end

/-! ## The token view -/

section

variable {cfg : OAuthCfg} {form : MultiDict} {clientId : Str}

/-- The token view raises where the identity of a request is looked for, and where a request that
is proxied raises. -/
theorem tokenPost_error_iff (hlive : cfg.resourceServer.isSome = true)
    (hclient : form.getD (str "client_id") = clientId) :
    (∃ e, Can Assumed (tokenPost (some cfg) (some form)) (.error e)) ↔
      (∃ e, Can Assumed (haAuthForwardIdentity cfg form clientId cfg.dcrSigningKey) (.error e)) ∨
      ∃ forwardId proxy form', Can Assumed (haAuthForwardIdentity cfg form clientId
          cfg.dcrSigningKey) (.ok (.identity forwardId proxy, form')) ∧
        (forwardId = clientId → proxy = true) ∧ cfg.session.isSome = true ∧
        (¬IsSendable (form'.replace (str "client_id") forwardId) ∨
          cfg.dcrSigningKey.isSome = true ∧ form'.lookup (str "action") ≠ some (str "revoke") ∧
            isUtf8Encodable clientId = false) := by
  have haction (form' : MultiDict) (forwardId : Str) :
      (form'.replace (str "client_id") forwardId).lookup (str "action") =
        form'.lookup (str "action") := MultiDict.lookup_replace_of_ne forwardId (by decide)
  have hproxy (forwardId : Str) (form' : MultiDict) : (∃ e, Can Assumed (proxyTokenToCore cfg
      (form'.replace (str "client_id") forwardId) forwardId clientId cfg.dcrSigningKey)
      (.error e)) ↔ _ := can_proxyTokenToCore_error_iff
  simp only [haction] at hproxy
  simp only [tokenPost, if_pos hlive, haAuthToken, hclient, bind_eq]
  constructor
  · rintro ⟨e, he⟩
    rcases can_bind_iff.mp he with ⟨⟨resolved, form'⟩, hidentity, hrest⟩ | ⟨e', he', -⟩
    · cases resolved with
      | response response => cases can_ret_iff.mp hrest
      | identity forwardId proxy =>
        simp only [Bool.and_eq_true, decide_eq_true_eq, Bool.not_eq_true'] at hrest
        by_cases hplain : forwardId = clientId ∧ proxy = false
        · rw [if_pos hplain] at hrest
          cases can_ret_iff.mp hrest
        · rw [if_neg hplain] at hrest
          refine .inr ⟨forwardId, proxy, form', hidentity, fun hsame => ?_,
            (hproxy forwardId form').mp ⟨e, hrest⟩⟩
          rw [← Bool.not_eq_false]
          exact fun hnot => hplain ⟨hsame, hnot⟩
    · exact .inl ⟨e', he'⟩
  · rintro (⟨e, he⟩ | ⟨forwardId, proxy, form', hidentity, hproxied, hraises⟩)
    · exact ⟨e, can_bind_iff.mpr (.inr ⟨e, he, rfl⟩)⟩
    · obtain ⟨e, he⟩ := (hproxy forwardId form').mpr hraises
      refine ⟨e, can_bind_iff.mpr (.inl ⟨_, hidentity, ?_⟩)⟩
      simp only [Bool.and_eq_true, decide_eq_true_eq, Bool.not_eq_true']
      rw [if_neg fun hplain => ?_]
      · exact he
      · rw [hproxied hplain.1] at hplain
        cases hplain.2

end

end

end EsphomeMcp.OAuth
