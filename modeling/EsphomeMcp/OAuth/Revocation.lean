import EsphomeMcp.OAuth.Views

/-!
# Revocation after a key rotation

A refresh envelope outlives the key it was signed with. A revocation only needs core's token out
of it, so an envelope that no longer verifies is read all the same, and both surfaces send core
its own token instead of a string core has never seen.
-/

namespace EsphomeMcp.OAuth

open Py Py.Prog

section

variable [Runtime]

/-! ## What an envelope yields -/

omit [Runtime] in
theorem dictGet_rejoin_envelopePayload (t c p : Str) :
    ∃ payload, (envelopePayload t c p).rejoin = .obj payload ∧
      dictGet payload (str "t") = .str (rejoinStr t) := by
  rw [envelopePayload, Json.rejoin_dict (by simp) (by simp only [List.map_cons, List.map_nil]; rfl)]
  refine ⟨_, rfl, ?_⟩
  simp [dictGet, dictGet?_cons, Json.rejoin]

/-- The body of an envelope that is short enough is read without its key. -/
theorem unverifiedToken_signedBlob {signingKey : Bytes} {t c p : Str}
    (hlen : (refreshEnvelopePrefix ++ signedBlob signingKey refreshEnvelopePrefix
      (envelopePayload t c p)).length ≤ maxRevokeEnvelopeLen) :
    unverifiedToken (refreshEnvelopePrefix ++ signedBlob signingKey refreshEnvelopePrefix
      (envelopePayload t c p)) = some (rejoinStr t) := by
  obtain ⟨payload, hpayload, ht⟩ := dictGet_rejoin_envelopePayload t c p
  obtain ⟨x, s, hs, -⟩ := startsValue_dumpsText .compact (wellFormed_envelopePayload t c p)
  have hload := loadsBytes_dumpsBytes .compact (wellFormed_envelopePayload t c p)
    (depth_envelopePayload t c p)
  rw [unverifiedToken, if_neg (Nat.not_lt.mpr hlen), List.drop_left, signedBlob,
    rpartition_append_cons (not_mem_dot_b64urlEncode _)]
  simp only [if_neg (blobBody_ne_nil _ hs)]
  simp only [blobBody, b64urlDecode_b64urlEncode, Option.map_some, hload, hpayload, ht]

/-- Whichever key is live, a short envelope gives up the token in it. -/
theorem coreTokenForRevocation_wrapRefreshToken {oldKey liveKey : Bytes} {t c p envelope : Str}
    (hwrap : wrapRefreshToken oldKey t c p = .ok envelope)
    (hlen : envelope.length ≤ maxRevokeEnvelopeLen) :
    coreTokenForRevocation (some liveKey) envelope = .ok (some (rejoinStr t)) := by
  by_cases hp : isUtf8Encodable p = true
  · rw [wrapRefreshToken_of_encodable oldKey t c hp] at hwrap
    obtain rfl := Except.ok.inj hwrap
    have hunverified := unverifiedToken_signedBlob hlen
    set digest := sha256 (p.flatMap utf8Char) with hdigest
    rw [coreTokenForRevocation, startsWith_append, if_pos rfl]
    by_cases hmac : hmacSha256 oldKey (asciiBytes (refreshEnvelopePrefix ++
          blobBody (envelopePayload t c (b64urlEncode digest)))) =
        hmacSha256 liveKey (asciiBytes (refreshEnvelopePrefix ++
          blobBody (envelopePayload t c (b64urlEncode digest))))
    · -- the live key signs the same, so the envelope is one of its own
      have hsame : signedBlob oldKey refreshEnvelopePrefix
            (envelopePayload t c (b64urlEncode digest)) =
          signedBlob liveKey refreshEnvelopePrefix
            (envelopePayload t c (b64urlEncode digest)) := by
        simp only [signedBlob, hmac]
      rw [hsame, unwrapRefreshToken_signedBlob]
      rfl
    · rw [unwrapRefreshToken_of_ne hmac]
      simp only [except_ok_bind, hunverified]
      rfl
  · rw [Bool.not_eq_true] at hp
    rw [wrapRefreshToken, presentedClientHash_of_not_encodable hp] at hwrap
    cases hwrap

/-! ## The two surfaces -/

/-- Every run posts once to a path of core, with one token value, and does not redirect. -/
def ProxiesToken (p : ViewProg Response) (session : Webhook.SessionId) (path t : Str) : Prop :=
  ∀ tr out, Runs p tr out → ∃ (data : MultiDict) (r : Except OAuthError CoreAnswer),
    tr = [⟨.post session path data, r⟩] ∧
    data.getAll (str "token") = [t] ∧
      ∀ response, out = .ok response → response.IsAnswer

/-- No run posts anything. -/
def NeverProxies (p : ViewProg Response) : Prop :=
  Issues (fun c : ViewCmd => ∀ session path data, c ≠ .post session path data) p

/-- What revoking promises for a token value: through `/revoke`, and through `/token` with
`action=revoke`, core is sent the token behind it. -/
def RevokesToken (cfg : Webhook.Cfg) (token t : Str) : Prop :=
  ∀ form : MultiDict, form.getD (str "token") = token →
    ProxiesToken (revokePost (some (oauthCfg cfg)) (some form)) cfg.session (str "/auth/revoke") t ∧
    (form.lookup (str "action") = some (str "revoke") →
      ProxiesToken (tokenPost (some (oauthCfg cfg)) (some form)) cfg.session (str "/auth/token") t)

/-- What revoking promises for a token value that is none of ours. -/
def RevokesElsewhere (cfg : Webhook.Cfg) (token : Str) : Prop :=
  ∀ form : MultiDict, form.getD (str "token") = token →
    NeverProxies (revokePost (some (oauthCfg cfg)) (some form)) ∧
    (form.lookup (str "action") = some (str "revoke") →
      NeverProxies (tokenPost (some (oauthCfg cfg)) (some form)))

/-- What revoking promises of an envelope around `t`, whatever key it was minted under. -/
structure SurvivesRotation (cfg : Webhook.Cfg) (envelope t : Str) : Prop where
  envelope : RevokesToken cfg envelope t
  elsewhere : ∀ token, startsWith token refreshEnvelopePrefix = false → RevokesElsewhere cfg token

theorem revokeRewrite_of_recovered {dcrKey : Option Bytes} {form : MultiDict} {t : Str}
    (h : coreTokenForRevocation dcrKey (form.getD (str "token")) = .ok (some t)) :
    revokeRewrite dcrKey form = .ok (true, form.replace (str "token") t) := by
  cases dcrKey with
  | none => cases h
  | some key =>
    rw [revokeRewrite, h]
    rfl

theorem revokeRewrite_of_not_envelope {dcrKey : Option Bytes} {form : MultiDict}
    (h : startsWith (form.getD (str "token")) refreshEnvelopePrefix = false) :
    revokeRewrite dcrKey form = .ok (false, form) := by
  cases dcrKey with
  | none => rfl
  | some key =>
    rw [revokeRewrite, coreTokenForRevocation, h]
    rfl

variable {cfg : Webhook.Cfg} {form : MultiDict} {t : Str}

theorem proxiesToken_revokePost (hlive : cfg.resourceServer.isSome = true)
    (h : coreTokenForRevocation cfg.dcrSigningKey (form.getD (str "token")) = .ok (some t)) :
    ProxiesToken (revokePost (some (oauthCfg cfg)) (some form)) cfg.session
      (str "/auth/revoke") t := by
  intro tr out hrun
  have hnone : (oauthCfg cfg).resourceServer.isNone = false := by
    rw [Option.isNone_eq_false_iff]
    exact hlive
  have hrewrite : revokeRewrite (oauthCfg cfg).dcrSigningKey form =
      .ok (true, form.replace (str "token") t) := revokeRewrite_of_recovered h
  simp only [revokePost, hnone, Bool.false_eq_true, if_false, hrewrite, pureCall_ok, bind_eq,
    bind_ret] at hrun
  rcases runs_bind_iff.mp hrun with ⟨a, tr₁, tr₂, h₁, h₂, rfl⟩ | ⟨e, h₁, rfl⟩
  · obtain ⟨r, rfl, hanswer⟩ := runs_forwardToCore rfl h₁
    refine ⟨_, r, ?_, MultiDict.getAll_replace_self form _ t, ?_⟩
    · cases a <;> obtain ⟨rfl, -⟩ := runs_ret_iff.mp h₂ <;> rfl
    · intro response hout
      cases a with
      | inl answer =>
        obtain ⟨-, rfl⟩ := runs_ret_iff.mp h₂
        obtain rfl := Except.ok.inj hout
        trivial
      | inr own =>
        obtain ⟨-, rfl⟩ := runs_ret_iff.mp h₂
        obtain rfl := Except.ok.inj hout
        exact hanswer own rfl
  · obtain ⟨r, rfl, -⟩ := runs_forwardToCore rfl h₁
    exact ⟨_, r, rfl, MultiDict.getAll_replace_self form _ t, nofun⟩

theorem proxiesToken_tokenPost (hlive : cfg.resourceServer.isSome = true)
    (haction : form.lookup (str "action") = some (str "revoke"))
    (h : coreTokenForRevocation cfg.dcrSigningKey (form.getD (str "token")) = .ok (some t)) :
    ProxiesToken (tokenPost (some (oauthCfg cfg)) (some form)) cfg.session
      (str "/auth/token") t := by
  intro tr out hrun
  have hrewrite : revokeRewrite (oauthCfg cfg).dcrSigningKey form =
      .ok (true, form.replace (str "token") t) := revokeRewrite_of_recovered h
  simp only [tokenPost, oauthCfg, hlive, if_true, haAuthToken, haAuthForwardIdentity, haction,
    bind_eq] at hrun
  simp only [oauthCfg] at hrewrite
  simp only [hrewrite, pureCall_ok, bind_ret, pure_eq, Bool.not_true, Bool.and_false,
    Bool.false_eq_true, if_false] at hrun
  obtain ⟨r, rfl, hanswer⟩ := runs_proxyTokenToCore rfl hrun
  refine ⟨_, r, rfl, ?_, hanswer⟩
  rw [MultiDict.getAll_replace_of_ne _ (by decide), MultiDict.getAll_replace_self]

theorem revokesElsewhere (hlive : cfg.resourceServer.isSome = true) {token : Str}
    (h : startsWith token refreshEnvelopePrefix = false) : RevokesElsewhere cfg token := by
  rintro form rfl
  have hnone : (oauthCfg cfg).resourceServer.isNone = false := by
    rw [Option.isNone_eq_false_iff]
    exact hlive
  have hrewrite : revokeRewrite cfg.dcrSigningKey form = .ok (false, form) :=
    revokeRewrite_of_not_envelope h
  constructor
  · rw [NeverProxies, revokePost]
    simp only [hnone, Bool.false_eq_true, if_false]
    simp only [oauthCfg, hrewrite, pureCall_ok, bind_eq, bind_ret]
    trivial
  · intro haction
    rw [NeverProxies]
    simp only [tokenPost, oauthCfg, hlive, if_true, haAuthToken, haAuthForwardIdentity, haction,
      hrewrite, pureCall_ok, bind_eq, bind_ret, pure_eq, decide_true, Bool.not_false, Bool.and_true]
    trivial

/-- Only one token value goes out, so the one that is promised is the one that is recovered. -/
theorem eq_of_revokesToken {token t t' : Str} (hlive : cfg.resourceServer.isSome = true)
    (h : RevokesToken cfg token t)
    (hrecover : coreTokenForRevocation cfg.dcrSigningKey token = .ok (some t')) : t' = t := by
  have hform : MultiDict.getD [(str "token", token)] (str "token") = token := by
    simp [MultiDict.getD]
  have hpost := (h [(str "token", token)] hform).1
  rw [← hform] at hrecover
  have hpost' := proxiesToken_revokePost hlive hrecover
  have : Inhabited OAuthError := ⟨.timeout⟩
  obtain ⟨tr, out, hrun⟩ := exists_runs
    (revokePost (some (oauthCfg cfg)) (some [(str "token", token)]))
  obtain ⟨data, r, htr, hdata, -⟩ := hpost tr out hrun
  obtain ⟨data', r', htr', hdata', -⟩ := hpost' tr out hrun
  have hevent := (List.cons.inj (htr.symm.trans htr')).1
  have hsame : data = data' := by simpa using congrArg Event.cmd hevent
  rw [← hsame, hdata] at hdata'
  exact (List.cons.inj hdata').1.symm

end

end EsphomeMcp.OAuth
