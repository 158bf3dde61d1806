import EsphomeMcp.OAuth.Frame

/-!
# Sessions at the token endpoint

A client whose code exchange was proxied holds an envelope where core's refresh token was. Every
later grant brings an envelope back and may leave with another one. Along the whole chain core is
given the token it issued last and the one client id it knows, whatever becomes of the client's
registration, of the lookups and of the rest of the configuration in between, as long as the signing
key stays.
-/

namespace EsphomeMcp.OAuth

open Py Py.Prog

section

variable [Runtime]

/-! ## Definitions -/

/-- A live ha_auth configuration that can forward and signs with `key`. -/
structure IsLive (key : Bytes) (session : Webhook.SessionId) (cfg : OAuthCfg) : Prop where
  resourceServer : cfg.resourceServer.isSome = true
  session : cfg.session = some session
  dcrSigningKey : cfg.dcrSigningKey = some key

/-- The refresh token in the body of a token response. -/
def refreshTokenOf (body : Bytes) : Option Str :=
  match loadsBytes body with
  | .ok (.obj answer) =>
    match dictGet answer refreshTokenKey with
    | .str t => some t
    | _ => none
  | _ => none

/-- A grant of a client that was proxied: core's answer has the refresh token `t`, without a pair
that JSON would join, and what the client got has `e` in its place. -/
structure Exchange (key : Bytes) (clientId : Str) (form sent : MultiDict) (t e : Str) : Prop where
  client : form.getD (str "client_id") = clientId
  grant : form.lookup (str "action") ≠ some (str "revoke")
  plain : ¬HasSplitPair t
  run : ∃ cfg session tr answer headers body contentType, IsLive key session cfg ∧
    Runs (tokenPost (some cfg) (some form)) tr (.ok (.relay 200 headers body contentType)) ∧
    ⟨.post session (str "/auth/token") sent, .ok answer⟩ ∈ tr ∧
    refreshTokenOf answer.body = some t ∧ refreshTokenOf body = some e

/-- A refresh grant that brings `e`. -/
structure Presents (clientId e : Str) (form : MultiDict) : Prop where
  grant : IsRefreshGrant form
  client : form.getD (str "client_id") = clientId
  token : form.getD refreshTokenKey = e

/-- The client holds `e` for core's token `t`, after a proxied grant that was no refresh and any
number of refreshes, each under a configuration of its own that signs with `key`. -/
inductive Held (key : Bytes) (clientId forwardId : Str) : Str → Str → Prop
  | granted {form sent : MultiDict} {t e : Str} :
      form.getD (str "grant_type") ≠ str "refresh_token" →
      sent.getD (str "client_id") = forwardId → Exchange key clientId form sent t e →
      Held key clientId forwardId e t
  | refreshed {form sent : MultiDict} {t e t' e' : Str} : Held key clientId forwardId e t →
      Presents clientId e form → Exchange key clientId form sent t' e' →
      Held key clientId forwardId e' t'

/-- Core was asked once, with its own token and the client id it knows in the place of the client's,
and what it answered went back to the client, a new token in an envelope. -/
structure Refreshes (key : Bytes) (clientId forwardId t : Str) (session : Webhook.SessionId)
    (form : MultiDict) (tr : List ViewEvent) (out : Except OAuthError Response) : Prop where
  sent : ∃ sent r, tr = [⟨.post session (str "/auth/token") sent, r⟩] ∧
    sent.getAll (str "client_id") = [forwardId] ∧ sent.getAll refreshTokenKey = [t] ∧
    Carries sent form [(str "client_id", forwardId), (refreshTokenKey, t)]
  answered : ∀ sent answer, tr = [⟨.post session (str "/auth/token") sent, .ok answer⟩] →
    ∃ headers body contentType, out = .ok (.relay answer.status headers body contentType) ∧
      (answer.status ≠ 200 ∨ refreshTokenOf answer.body = none → body = answer.body) ∧
      ∀ t', answer.status = 200 → refreshTokenOf answer.body = some t' → ¬HasSplitPair t' →
        ∃ e', refreshTokenOf body = some e' ∧ Held key clientId forwardId e' t'
  unanswered : ∀ status headers payload, out = .ok (.json status headers payload) →
    status = 503 ∧ ∃ sent e, tr = [⟨.post session (str "/auth/token") sent, .error e⟩]

/-! ## The rewritten body -/

theorem refreshTokenOf_eq_some_iff {body : Bytes} {t : Str} : refreshTokenOf body = some t ↔
    ∃ parsed, loadsBytes body = .ok (.obj parsed) ∧ dictGet parsed refreshTokenKey = .str t := by
  unfold refreshTokenOf
  constructor
  · intro h
    split at h
    · next parsed hparsed =>
      split at h
      · next t' ht =>
        rw [Option.some.injEq] at h
        exact ⟨parsed, hparsed, h ▸ ht⟩
      · cases h
    · cases h
  · intro h
    obtain ⟨parsed, hparsed, ht⟩ := h
    simp only [hparsed, ht]

/-- A body with a token is rewritten to one with an envelope for it. -/
theorem rewriteTokenResponseBody_spec (key : Bytes) {body : Bytes} {clientId t : Str}
    (forwardId : Str) (hclient : isUtf8Encodable clientId = true)
    (ht : refreshTokenOf body = some t) :
    ∃ rewritten e, rewriteTokenResponseBody key body forwardId clientId = .ok rewritten ∧
      refreshTokenOf rewritten = some e ∧
      unwrapRefreshToken key e (some clientId) = .ok (.opened (rejoinStr t) (rejoinStr forwardId)) := by
  obtain ⟨parsed, hparsed, ht⟩ := refreshTokenOf_eq_some_iff.mp ht
  obtain ⟨e, hwrap, hascii, hopen⟩ := exists_wrapRefreshToken key t forwardId hclient
  obtain ⟨hwf, hd⟩ := loadsBytes_wellFormed hparsed
  refine ⟨_, e, by rw [rewriteTokenResponseBody_of_token hparsed ht, hwrap]; rfl, ?_, hopen⟩
  have hloads := loadsBytes_dumpsBytes .compact
    (wellFormed_dictSet_str (k := refreshTokenKey) (s := e) hwf) (depth_dictSet_str_le.trans hd)
  rw [refreshTokenOf_eq_some_iff]
  refine ⟨_, hloads, ?_⟩
  cases hwf with
  | obj _ hnodup _ =>
    rw [dictGet, Json.dictGet?_rejoinFields_dictSet (List.all_eq_true.mp rfl) hnodup,
      rejoinStr_ascii hascii, Option.getD_some]

/-- Only a client id that can be encoded gets a rewritten token. -/
theorem encodable_of_rewritten {key body rewritten : Bytes} {clientId forwardId t : Str}
    (ht : refreshTokenOf body = some t)
    (h : rewriteTokenResponseBody key body forwardId clientId = .ok rewritten) :
    isUtf8Encodable clientId = true := by
  obtain ⟨parsed, hparsed, ht⟩ := refreshTokenOf_eq_some_iff.mp ht
  by_contra hclient
  rw [Bool.not_eq_true] at hclient
  rw [rewriteTokenResponseBody_of_token hparsed ht, wrapRefreshToken,
    presentedClientHash_of_not_encodable hclient] at h
  cases h

/-! ## What a held envelope opens to -/

/-- The envelope opens for the client, to a token and a client id without split pairs. -/
structure Opens (key : Bytes) (clientId forwardId e t : Str) : Prop where
  client : isUtf8Encodable clientId = true
  plain : ¬HasSplitPair forwardId
  opened : unwrapRefreshToken key e (some clientId) = .ok (.opened t forwardId)

theorem opens_of_rewritten {key body rewritten : Bytes} {clientId forwardId t e : Str}
    (hplain : ¬HasSplitPair t) (hforward : ¬HasSplitPair forwardId)
    (ht : refreshTokenOf body = some t) (he : refreshTokenOf rewritten = some e)
    (h : rewriteTokenResponseBody key body forwardId clientId = .ok rewritten) :
    Opens key clientId forwardId e t := by
  have hclient := encodable_of_rewritten ht h
  obtain ⟨rewritten', e', h', he', hopen⟩ :=
    rewriteTokenResponseBody_spec key forwardId hclient ht
  rw [h, Except.ok.injEq] at h'
  subst h'
  rw [he, Option.some.injEq] at he'
  subst he'
  rw [rejoinStr_eq_self_iff.mpr hplain, rejoinStr_eq_self_iff.mpr hforward] at hopen
  exact ⟨hclient, hforward, hopen⟩

/-! ## The answer of a proxied grant -/

/-- The content type a relayed answer has. -/
def relayedContentType (answer : CoreAnswer) : Str :=
  if answer.contentType = [] then str "application/json" else answer.contentType

/-- What becomes of core's answer to a proxied grant. -/
def relayed (key : Bytes) (forwardId clientId : Str) (answer : CoreAnswer) :
    Except PyError Response :=
  (if answer.status = 200 then rewriteTokenResponseBody key answer.body forwardId clientId
    else .ok answer.body).map fun body =>
      .relay answer.status tokenResponseHeaders body (relayedContentType answer)

/-- How a proxied grant ends. -/
def proxyOutcome (key : Bytes) (forwardId clientId : Str) :
    Except OAuthError CoreAnswer → Except OAuthError Response
  | .ok answer => (relayed key forwardId clientId answer).mapError .py
  | .error .timeout | .error .client =>
    .ok (unavailable "core did not answer the token request" false)
  | .error e => .error e

/-- A proxied grant asks core once. -/
theorem proxyTokenToCore_eq {key : Bytes} {session : Webhook.SessionId} {cfg : OAuthCfg}
    {form : MultiDict} (forwardId clientId : Str) (hsession : cfg.session = some session)
    (hgrant : form.lookup (str "action") ≠ some (str "revoke")) :
    proxyTokenToCore cfg form forwardId clientId (some key) =
      .call (.post session (str "/auth/token") form) fun r =>
        ofExcept (proxyOutcome key forwardId clientId r) := by
  have hrevocation : isRevocation (str "/auth/token") form = false := by
    unfold isRevocation
    rw [decide_eq_false hgrant, Bool.or_false]
    rfl
  unfold proxyTokenToCore forwardToCore
  rw [hsession, hrevocation]
  show Prog.call _ _ = _
  congr 1
  funext r
  cases r with
  | error e => cases e <;> rfl
  | ok answer =>
    have hproxied : (answer.status = 200 && form.lookup (str "action") ≠ some (str "revoke")) =
        decide (answer.status = 200) := by
      rw [decide_eq_true hgrant, Bool.and_true]
    show Prog.bind (pureCall (if (answer.status = 200 && _) = true then _ else _)) _ = _
    rw [hproxied]
    by_cases hstatus : answer.status = 200
    · simp only [decide_eq_true_eq, proxyOutcome, relayed, if_pos hstatus]
      cases rewriteTokenResponseBody key answer.body forwardId clientId <;> rfl
    · simp only [decide_eq_true_eq, proxyOutcome, relayed, if_neg hstatus]
      rfl

/-- A grant whose identity is translated is proxied. -/
theorem runs_tokenPost_of_translated {key : Bytes} {session : Webhook.SessionId} {cfg : OAuthCfg}
    {form form' : MultiDict} {clientId forwardId : Str} {proxy : Bool} {tr₁ tr₂ : List ViewEvent}
    {out : Except OAuthError Response} (hlive : IsLive key session cfg)
    (hclient : form.getD (str "client_id") = clientId) (hne : forwardId ≠ clientId)
    (hidentity : Runs (haAuthForwardIdentity cfg form clientId (some key)) tr₁
      (.ok (.identity forwardId proxy, form')))
    (hproxy : Runs (proxyTokenToCore cfg (form'.replace (str "client_id") forwardId) forwardId
      clientId (some key)) tr₂ out) :
    Runs (tokenPost (some cfg) (some form)) (tr₁ ++ tr₂) out := by
  simp only [tokenPost, if_pos hlive.resourceServer, haAuthToken, hlive.dcrSigningKey, hclient]
  refine runs_bind_iff.mpr (.inl ⟨_, tr₁, tr₂, hidentity, ?_, rfl⟩)
  simp only [hne, decide_false, Bool.false_and, Bool.false_eq_true, if_false]
  exact hproxy

/-! ## The first grant -/

/-- An accepted redirect is translated to text in ASCII. -/
theorem isAscii_of_translationFor {registered : List Str} {clientId redirectUri forwardId : Str}
    (hvalid : isValidRedirectUri redirectUri = true)
    (h : translationFor registered clientId redirectUri = .ok forwardId) :
    forwardId = clientId ∨ ∀ c ∈ forwardId, isAscii c = true := by
  obtain ⟨parsed, hostname, port, hredirect⟩ := exists_isRedirect hvalid
  obtain ⟨isMatch, -, h⟩ := except_bind_eq_ok h
  cases isMatch with
  | false => exact .inl (Except.ok.inj h).symm
  | true =>
    right
    rw [if_pos rfl, hredirect.originClientId_eq] at h
    obtain rfl := Except.ok.inj h
    have hnetloc (port' : Option ℕ) := isAscii_of_isNetlocChar
      (isNetlocChar_originNetloc hredirect.isNetlocChar_hostname port')
    have hscheme : ∀ c ∈ parsed.scheme, isAscii c = true := by
      rcases hredirect.scheme with hs | hs <;> rw [hs] <;> exact List.all_eq_true.mp rfl
    intro c hc
    simp only [List.mem_append] at hc
    rcases hc with (hc | hc) | hc
    · exact hscheme c hc
    · exact List.all_eq_true.mp rfl c hc
    · exact List.all_eq_true.mp (hnetloc _) c hc

theorem isAscii_of_resolveForwardClientId {fetch : Str → ViewProg (Option (List Str))}
    {session : Bool} {dcrKey : Option Bytes} {clientId redirectUri forwardId : Str}
    {tr : List ViewEvent}
    (h : Runs (resolveForwardClientId fetch session dcrKey clientId redirectUri) tr
      (.ok forwardId)) : forwardId = clientId ∨ ∀ c ∈ forwardId, isAscii c = true := by
  have hself (tr' : List ViewEvent)
      (h : Runs (.ret clientId : ViewProg Str) tr' (.ok forwardId)) : forwardId = clientId :=
    (Except.ok.inj (runs_ret_iff.mp h).2)
  unfold resolveForwardClientId at h
  split_ifs at h with hinvalid
  · exact .inl (hself _ h)
  · simp only [Bool.or_eq_true, decide_eq_true_eq, Bool.not_eq_true', not_or,
      Bool.not_eq_false] at hinvalid
    have htranslated (registered : List Str) (tr' : List ViewEvent)
        (h : Runs (ofExcept ((translationFor registered clientId redirectUri).mapError .py) :
          ViewProg Str) tr' (.ok forwardId)) :
        forwardId = clientId ∨ ∀ c ∈ forwardId, isAscii c = true :=
      isAscii_of_translationFor hinvalid.2 (runs_ofExcept_mapError h).2
    split at h
    · next client redirect _ _ =>
      by_cases hsame : isSameOriginPair client redirect = true
      · rw [if_pos hsame] at h
        exact .inl (hself _ h)
      · rw [if_neg hsame] at h
        rcases runs_bind_iff.mp h with ⟨found, tr₁, tr₂, -, h₂, -⟩ | ⟨e, -, he⟩
        · cases found with
          | some registered => exact htranslated registered _ h₂
          | none =>
            simp only at h₂
            split_ifs at h₂ with hfetch
            · rcases runs_bind_iff.mp h₂ with ⟨fetched, tr₃, tr₄, -, h₄, -⟩ | ⟨e, -, he⟩
              · cases fetched with
                | some registered => exact htranslated registered _ h₄
                | none => exact .inl (hself _ h₄)
              · cases he
            · exact .inl (hself _ h₂)
        · cases he
    · exact .inl (hself _ h)

/-- A grant that is no refresh keeps its form, and goes on as the client itself or as an origin. -/
theorem runs_haAuthForwardIdentity_of_granted {cfg : OAuthCfg} {form form' : MultiDict}
    {clientId : Str} {dcrKey : Option Bytes} {tr : List ViewEvent} {resolved : Resolved}
    (haction : form.lookup (str "action") ≠ some (str "revoke"))
    (hgrant : form.getD (str "grant_type") ≠ str "refresh_token")
    (h : Runs (haAuthForwardIdentity cfg form clientId dcrKey) tr (.ok (resolved, form'))) :
    form' = form ∧ ∃ forwardId proxy, resolved = .identity forwardId proxy ∧
      (forwardId = clientId ∨ ∀ c ∈ forwardId, isAscii c = true) := by
  unfold haAuthForwardIdentity at h
  rw [if_neg haction, if_neg hgrant] at h
  simp only [pureCall_ok, bind_eq, bind_ret, pure_eq, hgrant, decide_false, Bool.false_and,
    Bool.false_eq_true, if_false] at h
  split_ifs at h with hclient
  · have hout := Except.ok.inj (runs_ret_iff.mp h).2
    obtain ⟨rfl, rfl⟩ := Prod.mk.inj hout
    exact ⟨rfl, _, _, rfl, .inl rfl⟩
  · rcases runs_bind_iff.mp h with ⟨forwardId, tr₁, tr₂, h₁, h₂, -⟩ | ⟨e, -, he⟩
    · have hforward := isAscii_of_resolveForwardClientId h₁
      split_ifs at h₂ with hcode
      · rcases runs_bind_iff.mp h₂ with ⟨proxy, tr₃, tr₄, -, h₄, -⟩ | ⟨e, -, he⟩
        · have hout := Except.ok.inj (runs_ret_iff.mp h₄).2
          obtain ⟨rfl, rfl⟩ := Prod.mk.inj hout
          exact ⟨rfl, _, _, rfl, .inl rfl⟩
        · cases he
      · have hout := Except.ok.inj (runs_ret_iff.mp h₂).2
        obtain ⟨rfl, rfl⟩ := Prod.mk.inj hout
        exact ⟨rfl, _, _, rfl, hforward⟩
    · cases he

theorem proxyOutcome_eq_relay {key : Bytes} {forwardId clientId contentType : Str}
    {answer : CoreAnswer} {headers : List (Str × Str)} {body : Bytes}
    (h : proxyOutcome key forwardId clientId (.ok answer) =
      .ok (.relay 200 headers body contentType)) :
    rewriteTokenResponseBody key answer.body forwardId clientId = .ok body := by
  by_cases hstatus : answer.status = 200
  · simp only [proxyOutcome, relayed, if_pos hstatus] at h
    cases hbody : rewriteTokenResponseBody key answer.body forwardId clientId with
    | error e => rw [hbody] at h; cases h
    | ok rewritten =>
      rw [hbody] at h
      have hrelay := Response.relay.inj (Except.ok.inj h)
      rw [hrelay.2.2.1]
  · simp only [proxyOutcome, relayed, if_neg hstatus] at h
    exact absurd (Response.relay.inj (Except.ok.inj h)).1 hstatus

/-- The first grant leaves the client with an envelope that opens for it. -/
theorem Exchange.opens_of_granted {key : Bytes} {clientId forwardId t e : Str}
    {form sent : MultiDict} (h : Exchange key clientId form sent t e)
    (hgrant : form.getD (str "grant_type") ≠ str "refresh_token")
    (hforward : sent.getD (str "client_id") = forwardId) : Opens key clientId forwardId e t := by
  obtain ⟨cfg, session, tr, answer, headers, body, contentType, hlive, hrun, hpost, ht, he⟩ := h.run
  simp only [tokenPost, if_pos hlive.resourceServer, haAuthToken, hlive.dcrSigningKey, h.client]
    at hrun
  rcases runs_bind_iff.mp hrun with ⟨⟨resolved, form'⟩, tr₁, tr₂, h₁, h₂, rfl⟩ | ⟨e, -, he⟩
  · obtain ⟨rfl, forwardId', proxy, rfl, hascii⟩ :=
      runs_haAuthForwardIdentity_of_granted h.grant hgrant h₁
    have hquiet : ⟨.post session (str "/auth/token") sent, .ok answer⟩ ∉ tr₁ := by
      intro hmem
      obtain ⟨clientId, hcmd⟩ := (issues_haAuthForwardIdentity _ _ _ _).of_runs h₁ _ hmem
      cases hcmd
    simp only at h₂
    split_ifs at h₂ with hsame
    · cases (runs_ret_iff.mp h₂).2
    · have haction : (form'.replace (str "client_id") forwardId').lookup (str "action") ≠
          some (str "revoke") := by
        rw [MultiDict.lookup_replace_of_ne _ (by decide)]
        exact h.grant
      rw [proxyTokenToCore_eq forwardId' clientId hlive.session haction] at h₂
      obtain ⟨r, tr₃, rfl, h₃⟩ := runs_call_iff.mp h₂
      obtain ⟨rfl, hout⟩ := runs_ofExcept_iff.mp h₃
      have hevent := List.mem_singleton.mp ((List.mem_append.mp hpost).resolve_left hquiet)
      obtain ⟨hcmd, hanswer⟩ := Event.mk.inj hevent
      obtain rfl := (ViewCmd.post.inj hcmd).2.2
      obtain rfl := eq_of_heq hanswer
      rw [MultiDict.getD_replace_self] at hforward
      subst hforward
      have hrewrite := proxyOutcome_eq_relay hout.symm
      refine opens_of_rewritten h.plain ?_ ht he hrewrite
      rw [← rejoinStr_eq_self_iff]
      rcases hascii with rfl | hascii
      · exact rejoinStr_of_encodable (encodable_of_rewritten ht hrewrite)
      · exact rejoinStr_ascii hascii
  · cases he

/-! ## A refresh -/

/-- The form core is given for one that brings an envelope. -/
def redeemed (form : MultiDict) (forwardId t : Str) : MultiDict :=
  (form.replace refreshTokenKey t).replace (str "client_id") forwardId

/-- A refresh with an envelope asks core once. -/
theorem tokenPost_of_opens {key : Bytes} {session : Webhook.SessionId} {cfg : OAuthCfg}
    {clientId forwardId e t : Str} {form : MultiDict} (hlive : IsLive key session cfg)
    (hopens : Opens key clientId forwardId e t) (h : Presents clientId e form) :
    tokenPost (some cfg) (some form) =
      .call (.post session (str "/auth/token") (redeemed form forwardId t)) fun r =>
        ofExcept (proxyOutcome key forwardId clientId r) := by
  have henvelope : envelopeIdentity (some key) form clientId =
      .ok (some (.identity forwardId true), form.replace refreshTokenKey t) := by
    simp only [envelopeIdentity, h.token, hopens.opened]
    rfl
  have hidentity : haAuthForwardIdentity cfg form clientId (some key) =
      .ret (.identity forwardId true, form.replace refreshTokenKey t) := by
    unfold haAuthForwardIdentity
    rw [if_neg h.grant.1, if_pos h.grant.2, henvelope]
    rfl
  have haction : (redeemed form forwardId t).lookup (str "action") ≠ some (str "revoke") := by
    unfold redeemed
    rw [MultiDict.lookup_replace_of_ne _ (by decide), MultiDict.lookup_replace_of_ne _ (by decide)]
    exact h.grant.1
  rw [← proxyTokenToCore_eq forwardId clientId hlive.session haction]
  simp only [tokenPost, if_pos hlive.resourceServer, haAuthToken, hlive.dcrSigningKey, h.client,
    hidentity, bind_eq, bind_ret, Bool.not_true, Bool.and_false, Bool.false_eq_true, if_false]
  rfl

theorem Exchange.opens_of_refreshed {key : Bytes} {clientId forwardId t e t' e' : Str}
    {form sent : MultiDict} (h : Exchange key clientId form sent t' e')
    (hopens : Opens key clientId forwardId e t) (hform : Presents clientId e form) :
    Opens key clientId forwardId e' t' := by
  obtain ⟨cfg, session, tr, answer, headers, body, contentType, hlive, hrun, hpost, ht, he⟩ := h.run
  rw [tokenPost_of_opens hlive hopens hform] at hrun
  obtain ⟨r, tr₁, rfl, hanswered⟩ := runs_call_iff.mp hrun
  obtain ⟨rfl, hout⟩ := runs_ofExcept_iff.mp hanswered
  obtain ⟨-, hanswer⟩ := Event.mk.inj (List.mem_singleton.mp hpost)
  obtain rfl := eq_of_heq hanswer
  exact opens_of_rewritten h.plain hopens.plain ht he (proxyOutcome_eq_relay hout.symm)

/-! ## The chain -/

/-- Every envelope of the chain opens to core's token and the client id of the first grant. -/
theorem Held.opens {key : Bytes} {clientId forwardId e t : Str}
    (h : Held key clientId forwardId e t) : Opens key clientId forwardId e t := by
  induction h with
  | granted hgrant hforward hexchange => exact hexchange.opens_of_granted hgrant hforward
  | refreshed _ hform hexchange ih => exact hexchange.opens_of_refreshed ih hform

omit [Runtime] in
/-- What core is given for an envelope is the form with the two fields replaced. -/
theorem carries_redeemed (form : MultiDict) (forwardId t : Str) :
    Carries (redeemed form forwardId t) form
      [(str "client_id", forwardId), (refreshTokenKey, t)] :=
  (carries_replace form refreshTokenKey t).replace forwardId
    (by simpa using show str "client_id" ≠ refreshTokenKey by decide)

omit [Runtime] in
theorem getAll_redeemed (form : MultiDict) (forwardId t : Str) :
    (redeemed form forwardId t).getAll (str "client_id") = [forwardId] ∧
      (redeemed form forwardId t).getAll refreshTokenKey = [t] := by
  unfold redeemed
  rw [MultiDict.getAll_replace_self, MultiDict.getAll_replace_of_ne _ (by decide),
    MultiDict.getAll_replace_self]
  exact ⟨rfl, rfl⟩

theorem rewriteTokenResponseBody_of_refreshTokenOf {key body : Bytes} {clientId forwardId : Str}
    (h : refreshTokenOf body = none) :
    rewriteTokenResponseBody key body forwardId clientId = .ok body := by
  apply rewriteTokenResponseBody_of_not_token
  intro parsed t hparsed ht
  rw [refreshTokenOf_eq_some_iff.mpr ⟨parsed, hparsed, ht⟩] at h
  cases h

/-- What becomes of core's answer for a client id that can be encoded. -/
theorem relayed_spec (key : Bytes) {clientId : Str} (forwardId : Str) (answer : CoreAnswer)
    (hclient : isUtf8Encodable clientId = true) :
    ∃ body, relayed key forwardId clientId answer =
        .ok (.relay answer.status tokenResponseHeaders body (relayedContentType answer)) ∧
      (answer.status ≠ 200 ∨ refreshTokenOf answer.body = none → body = answer.body) ∧
      ∀ t, answer.status = 200 → refreshTokenOf answer.body = some t →
        ∃ e, refreshTokenOf body = some e := by
  unfold relayed
  by_cases hstatus : answer.status = 200
  · rw [if_pos hstatus]
    cases ht : refreshTokenOf answer.body with
    | none =>
      rw [rewriteTokenResponseBody_of_refreshTokenOf ht]
      exact ⟨_, rfl, fun _ => rfl, by simp⟩
    | some t =>
      obtain ⟨body, e, hbody, he, -⟩ :=
        rewriteTokenResponseBody_spec key forwardId hclient ht
      rw [hbody]
      exact ⟨body, rfl, by simp [hstatus], fun _ _ _ => ⟨e, he⟩⟩
  · rw [if_neg hstatus]
    exact ⟨_, rfl, fun _ => rfl, fun _ h => absurd h hstatus⟩

end

/-- The code exchange of a client that names itself by a document, at another origin than its
redirect. -/
def codeForm : MultiDict :=
  [(str "grant_type", str "authorization_code"), (str "client_id", str "https://client.example/doc"),
    (str "redirect_uri", str "https://app.example/cb")]

/-- The refresh that follows it. -/
def refreshForm (e : Str) : MultiDict :=
  [(str "grant_type", str "refresh_token"), (str "client_id", str "https://client.example/doc"),
    (str "refresh_token", e)]

/-- Core's answer to the code exchange. -/
def grantedAnswer : CoreAnswer where
  status := 200
  body := asciiBytes (str "\x7b\"refresh_token\":\"core-token\"\x7d")
  contentType := []

/-- The lookup of the client's document. -/
def codeFormLookup : ViewEvent :=
  ⟨.fetchCimdRedirects (str "https://client.example/doc"),
    .ok (some [str "https://app.example/cb"])⟩

/-- The form core is given for the code exchange. -/
def codeFormSent : MultiDict := codeForm.replace (str "client_id") (str "https://app.example")

theorem runs_resolve_codeForm :
    letI := asciiRuntime
    Runs (resolveForwardClientId lookupRedirects true (some [1])
      (str "https://client.example/doc") (str "https://app.example/cb"))
      [codeFormLookup] (.ok (str "https://app.example")) := by
  let := asciiRuntime
  have hclient : urlparse (str "https://client.example/doc") =
      some ⟨str "https", str "client.example", str "/doc", [], [], []⟩ := by decide +kernel
  have hredirect : urlparse (str "https://app.example/cb") =
      some ⟨str "https", str "app.example", str "/cb", [], [], []⟩ := by decide +kernel
  have hvalid : isValidRedirectUri (str "https://app.example/cb") = true := by decide +kernel
  have htranslated : translationFor [str "https://app.example/cb"]
      (str "https://client.example/doc") (str "https://app.example/cb") =
      .ok (str "https://app.example") := by decide +kernel
  have hdcr : dcrRedirects (some [1]) (str "https://client.example/doc") = .ok none := rfl
  unfold resolveForwardClientId
  rw [if_neg (by rw [hvalid]; decide), hclient, hredirect, hdcr]
  apply Runs.call
  show Runs (Prog.ofExcept ((translationFor [str "https://app.example/cb"]
    (str "https://client.example/doc") (str "https://app.example/cb")).mapError OAuthError.py)) [] _
  rw [htranslated]
  exact .ret _

/-- The code exchange is proxied and hands the client an envelope. -/
theorem runs_codeForm :
    letI := asciiRuntime
    ∃ body e, refreshTokenOf body = some e ∧
      Runs (tokenPost (some (oauthCfg (haModeCfg [1]))) (some codeForm))
        [codeFormLookup, ⟨.post 0 (str "/auth/token") codeFormSent, .ok grantedAnswer⟩]
        (.ok (.relay 200 tokenResponseHeaders body (relayedContentType grantedAnswer))) := by
  let := asciiRuntime
  have ht : refreshTokenOf grantedAnswer.body = some (str "core-token") := by decide +kernel
  have hencodable : isUtf8Encodable (str "https://client.example/doc") = true := by decide +kernel
  obtain ⟨body, e, hbody, he, -⟩ :=
    rewriteTokenResponseBody_spec [1] (str "https://app.example") hencodable ht
  have hidentity : Runs (haAuthForwardIdentity (oauthCfg (haModeCfg [1])) codeForm
      (str "https://client.example/doc") (some [1])) [codeFormLookup]
      (.ok (.identity (str "https://app.example") false, codeForm)) := by
    unfold haAuthForwardIdentity
    rw [if_neg (by decide), if_neg (by decide)]
    show Runs (Prog.bind (resolveForwardClientId _ _ _ _ _) _) _ _
    exact runs_bind_iff.mpr (.inl ⟨_, _, [], runs_resolve_codeForm, .ret _, rfl⟩)
  have hrelayed : proxyOutcome [1] (str "https://app.example") (str "https://client.example/doc")
      (.ok grantedAnswer) =
        .ok (.relay 200 tokenResponseHeaders body (relayedContentType grantedAnswer)) := by
    rw [proxyOutcome, relayed, if_pos (show grantedAnswer.status = 200 from rfl), hbody]
    rfl
  have hlive : IsLive [1] 0 (oauthCfg (haModeCfg [1])) := ⟨rfl, rfl, rfl⟩
  have hposted : Runs (proxyTokenToCore (oauthCfg (haModeCfg [1])) codeFormSent
      (str "https://app.example") (str "https://client.example/doc") (some [1]))
      [⟨.post 0 (str "/auth/token") codeFormSent, .ok grantedAnswer⟩]
      (.ok (.relay 200 tokenResponseHeaders body (relayedContentType grantedAnswer))) := by
    rw [proxyTokenToCore_eq _ _ hlive.session (by decide)]
    apply Runs.call
    rw [hrelayed]
    exact .ret _
  have hclientId : codeForm.getD (str "client_id") = str "https://client.example/doc" := rfl
  exact ⟨body, e, he, runs_tokenPost_of_translated hlive hclientId (by decide) hidentity hposted⟩

theorem exchange_codeForm :
    letI := asciiRuntime
    ∃ e, Exchange [1] (str "https://client.example/doc") codeForm codeFormSent (str "core-token")
      e := by
  let := asciiRuntime
  obtain ⟨body, e, he, hrun⟩ := runs_codeForm
  have ht : refreshTokenOf grantedAnswer.body = some (str "core-token") := by decide +kernel
  have hplain : ¬HasSplitPair (str "core-token") := rejoinStr_eq_self_iff.mp rfl
  exact ⟨e, rfl, by decide, hplain, oauthCfg (haModeCfg [1]), 0, _, grantedAnswer, _, body, _,
    ⟨rfl, rfl, rfl⟩, hrun, List.mem_cons_of_mem _ (List.mem_singleton_self _), ht, he⟩

end EsphomeMcp.OAuth
