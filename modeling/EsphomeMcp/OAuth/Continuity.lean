import EsphomeMcp.OAuth.RefreshIdentity
import EsphomeMcp.OAuth.SessionChain

/-!
# From the code to the first refresh

A client authorizes, exchanges its code and refreshes without naming its redirect, all through the
scoped endpoints and with a registration that stays as it is. Core binds its refresh token to the
client id of the code leg. The refresh leg has that identity from an envelope, or derives it again
from the registration alone, and the two agree unless the client presented a redirect of its own
origin that it did not register.
-/

namespace EsphomeMcp.OAuth

open Py Py.Prog

section

variable [Runtime]

/-! ## Definitions -/

/-- Every lookup of the client id finds the registered list. -/
def Finds (clientId : Str) (registered : List Str) (tr : List ViewEvent) : Prop :=
  ∀ answer, ⟨.fetchCimdRedirects clientId, answer⟩ ∈ tr → answer = .ok (some registered)

/-- A lookup that knows the registered list. -/
def knownRedirects (registered : List Str) (_ : Str) : ViewProg (Option (List Str)) :=
  ret (some registered)

/-- The registration of a client: signed in its client id, or the document every lookup finds. -/
abbrev IsRegistered (cfg : OAuthCfg) (clientId : Str) (registered : List Str) : Prop :=
  VerifiedRegistration (knownRedirects registered) cfg.cimdSession.isSome cfg.dcrSigningKey clientId
    registered

/-- The authorize leg sent the client on to core, which took the redirect for the client's. -/
def Authorized (cfg : OAuthCfg) (clientId redirectUri : Str) (registered : List Str) : Prop :=
  ∃ query issuer tr params, query.getD (str "client_id") = clientId ∧
    query.getD (str "redirect_uri") = redirectUri ∧ Finds clientId registered tr ∧
    Runs (authorizeGet (some cfg) query issuer) tr
      (.ok (.redirect 302 [] (.withQuery (str "/auth/authorize") params))) ∧
    SameOriginAtCore (params.getD (str "client_id")) redirectUri

/-- The form of a code exchange. -/
structure IsCodeGrant (clientId redirectUri : Str) (form : MultiDict) : Prop where
  grant : form.lookup (str "action") ≠ some (str "revoke")
  code : form.getD (str "grant_type") = str "authorization_code"
  client : form.getD (str "client_id") = clientId
  redirect : form.getD (str "redirect_uri") = redirectUri

/-- The refresh token in the answer to a client. -/
def tokenIn : Except OAuthError Response → Option Str
  | .ok (.relay _ _ body _) => refreshTokenOf body
  | _ => none

/-- A code exchange for which core issued `t`: the client id that core was given and bound it to,
and the token the client was handed. A client that is redirected asks core itself. -/
inductive Exchanged (cfg : OAuthCfg) (session : Webhook.SessionId) (clientId redirectUri : Str)
    (registered : List Str) (t : Str) : Str → Option Str → Prop
  | repeated {form : MultiDict} {tr : List ViewEvent} : IsCodeGrant clientId redirectUri form →
      Finds clientId registered tr →
      Runs (tokenPost (some cfg) (some form)) tr (.ok (redirectIntoCore (str "/auth/token"))) →
      Exchanged cfg session clientId redirectUri registered t (form.getD (str "client_id")) (some t)
  | proxied {form sent : MultiDict} {tr : List ViewEvent} {answer : CoreAnswer}
      {out : Except OAuthError Response} : IsCodeGrant clientId redirectUri form →
      Finds clientId registered tr → Runs (tokenPost (some cfg) (some form)) tr out →
      ⟨.post session (str "/auth/token") sent, .ok answer⟩ ∈ tr → answer.status = 200 →
      refreshTokenOf answer.body = some t →
      Exchanged cfg session clientId redirectUri registered t (sent.getD (str "client_id"))
        (tokenIn out)

/-- A refresh reaches core with the token `t` and the client id `bound`, by the client's own
request or by the component's, and is not refused by the component. -/
structure ReachesCore (session : Webhook.SessionId) (t bound : Str) (form : MultiDict)
    (tr : List ViewEvent) (out : Except OAuthError Response) : Prop where
  sent : (out = .ok (redirectIntoCore (str "/auth/token")) ∧ form.getD refreshTokenKey = t ∧
      form.getD (str "client_id") = bound) ∨
    ∃ sent r, ⟨.post session (str "/auth/token") sent, r⟩ ∈ tr ∧
      sent.getAll refreshTokenKey = [t] ∧ sent.getAll (str "client_id") = [bound]
  served : ∀ description, out ≠ .ok (jsonError "invalid_grant" 400 description)

/-- The client was handed a token, and every refresh with it that names no redirect reaches core
with core's own token and the client id it is bound to. -/
structure Continues (cfg : OAuthCfg) (session : Webhook.SessionId) (clientId : Str)
    (registered : List Str) (t bound : Str) (handed : Option Str) : Prop where
  isHanded : handed.isSome = true
  refreshes : ∀ e form tr out, handed = some e → Presents clientId e form →
    form.getD (str "redirect_uri") = [] → Finds clientId registered tr →
    Runs (tokenPost (some cfg) (some form)) tr out → ReachesCore session t bound form tr out

/-- The registered redirects have one origin, and it is no loopback one. -/
def NamesOneOrigin (registered : List Str) : Prop :=
  (∀ uri ∈ registered, ¬IsLoopbackUri uri) ∧ OneOrigin registered

/-- A client that is never translated: its registration names one origin, which is its own. -/
def NamesItself (clientId : Str) (registered : List Str) : Prop :=
  NamesOneOrigin registered ∧ ∀ uri ∈ registered, SameOriginAtCore clientId uri

/-- A client that is translated whichever registered redirect it presents. -/
def NamesAnother (clientId : Str) (registered : List Str) : Prop :=
  NamesOneOrigin registered ∧ ¬∃ uri ∈ registered, SameOriginAtCore clientId uri

/-- An `https` client id. -/
def IsHttps (clientId : Str) : Prop :=
  ∃ client, urlparse clientId = some client ∧ client.scheme = str "https"

/-- What the session of a client rests on: it is never translated, or it gets envelopes, which a
client that presents a redirect of its own origin does if its registration is ambiguous. -/
def KeepsSession (clientId redirectUri : Str) (registered : List Str) (t : Str) : Prop :=
  SameOriginAtCore clientId redirectUri ∧ NamesItself clientId registered ∨
    (SameOriginAtCore clientId redirectUri →
      IsHttps clientId ∧ ¬NamesAnother clientId registered) ∧
    isUtf8Encodable clientId = true ∧ ¬HasSplitPair t

/-! ## Lookups that find the registration -/

section

variable {clientId redirectUri : Str} {registered : List Str} {session : Bool}
  {dcrKey : Option Bytes} {tr tr₁ tr₂ : List ViewEvent}

omit [Runtime] in
theorem Finds.of_subset (h : Finds clientId registered tr) (hsub : tr₁ ⊆ tr) :
    Finds clientId registered tr₁ :=
  fun answer hmem => h answer (hsub hmem)

omit [Runtime] in
theorem Finds.left (h : Finds clientId registered (tr₁ ++ tr₂)) : Finds clientId registered tr₁ :=
  h.of_subset (List.subset_append_left tr₁ tr₂)

omit [Runtime] in
theorem Finds.right (h : Finds clientId registered (tr₁ ++ tr₂)) : Finds clientId registered tr₂ :=
  h.of_subset (List.subset_append_right tr₁ tr₂)

omit [Runtime] in
/-- What follows a lookup goes on with the registered list. -/
theorem runs_of_found {α : Type} {k : Option (List Str) → ViewProg α} {out : Except OAuthError α}
    (hfinds : Finds clientId registered tr)
    (h : Runs (Prog.bind (lookupRedirects clientId) k) tr out) :
    ∃ tr', tr' ⊆ tr ∧ Runs (k (some registered)) tr' out := by
  rcases runs_bind_iff.mp h with ⟨found, tr₁, tr₂, h₁, h₂, rfl⟩ | ⟨e, h₁, rfl⟩
  · obtain rfl := runs_perform_iff.mp h₁
    obtain rfl := Except.ok.inj (hfinds _ (List.mem_append_left _ (List.mem_singleton_self _)))
    exact ⟨tr₂, List.subset_append_right _ tr₂, h₂⟩
  · obtain rfl := runs_perform_iff.mp h₁
    cases hfinds _ (List.mem_singleton_self _)

/-- Resolving an identity comes out as it does for a lookup that knows the list. -/
theorem runs_resolve_known {out : Except OAuthError Str} (hfinds : Finds clientId registered tr)
    (h : Runs (resolveForwardClientId lookupRedirects session dcrKey clientId redirectUri) tr out) :
    Runs (resolveForwardClientId (knownRedirects registered) session dcrKey clientId redirectUri) []
      out := by
  unfold resolveForwardClientId at h ⊢
  by_cases hinvalid : (clientId = [] || !isValidRedirectUri redirectUri) = true
  · rw [if_pos hinvalid] at h ⊢
    exact runs_ret_iff.mpr ⟨rfl, (runs_ret_iff.mp h).2⟩
  rw [if_neg hinvalid] at h ⊢
  split at h
  · next client req hclient hreq =>
    by_cases hsame : isSameOriginPair client req = true
    · rw [if_pos hsame] at h ⊢
      exact runs_ret_iff.mpr ⟨rfl, (runs_ret_iff.mp h).2⟩
    rw [if_neg hsame] at h ⊢
    cases hdcr : dcrRedirects dcrKey clientId with
    | error e =>
      rw [hdcr] at h
      exact runs_raise_iff.mpr ⟨rfl, (runs_raise_iff.mp h).2⟩
    | ok found =>
      rw [hdcr] at h
      cases found with
      | some list => exact runs_ofExcept_iff.mpr ⟨rfl, (runs_ofExcept_iff.mp h).2⟩
      | none =>
        simp only [Except.mapError, ofExcept_ok, bind_eq, bind_ret] at h ⊢
        by_cases hfetch : (client.scheme = str "https" && session) = true
        · rw [if_pos hfetch] at h ⊢
          obtain ⟨tr', -, h'⟩ := runs_of_found hfinds h
          exact runs_ofExcept_iff.mpr ⟨rfl, (runs_ofExcept_iff.mp h').2⟩
        · rw [if_neg hfetch] at h ⊢
          exact runs_ret_iff.mpr ⟨rfl, (runs_ret_iff.mp h).2⟩
  · next hnone =>
    exact runs_ret_iff.mpr ⟨rfl, (runs_ret_iff.mp h).2⟩

/-- So does deriving it without a redirect. -/
theorem runs_translated_known {out : Except OAuthError RefreshIdentity}
    (hfinds : Finds clientId registered tr)
    (h : Runs (translatedClientIdForRefresh lookupRedirects session dcrKey clientId) tr out) :
    Runs (translatedClientIdForRefresh (knownRedirects registered) session dcrKey clientId) []
      out := by
  unfold translatedClientIdForRefresh at h ⊢
  cases hdcr : dcrRedirects dcrKey clientId with
  | error e =>
    rw [hdcr] at h
    exact runs_raise_iff.mpr ⟨rfl, (runs_raise_iff.mp h).2⟩
  | ok found =>
    rw [hdcr] at h
    cases found with
    | some list => exact runs_ofExcept_iff.mpr ⟨rfl, (runs_ofExcept_iff.mp h).2⟩
    | none =>
      simp only [Except.mapError, ofExcept_ok, bind_eq, bind_ret] at h ⊢
      split at h
      · exact runs_ret_iff.mpr ⟨rfl, (runs_ret_iff.mp h).2⟩
      · next client hclient =>
        by_cases hfetch : (client.scheme = str "https" && session) = true
        · rw [if_pos hfetch] at h ⊢
          obtain ⟨tr', -, h'⟩ := runs_of_found hfinds h
          exact runs_ofExcept_iff.mpr ⟨rfl, (runs_ofExcept_iff.mp h').2⟩
        · rw [if_neg hfetch] at h ⊢
          exact runs_ret_iff.mpr ⟨rfl, (runs_ret_iff.mp h).2⟩

/-- A redirect of the client id's own origin leaves the client id as it is. -/
theorem resolveForwardClientId_of_same {S : Signature}
    (fetch : Str → Prog S OAuthError (Option (List Str)))
    (hsame : SameOriginAtCore clientId redirectUri) :
    resolveForwardClientId fetch session dcrKey clientId redirectUri = ret clientId := by
  obtain ⟨client, req, hclient, hreq, -⟩ := id hsame
  unfold resolveForwardClientId
  split_ifs with hinvalid
  · rfl
  simp only [Bool.or_eq_true, Bool.not_eq_true', not_or, Bool.not_eq_false] at hinvalid
  obtain ⟨req', hostname, port, h⟩ := exists_isRedirect hinvalid.2
  obtain rfl := Option.some.inj (hreq.symm.trans h.parse)
  simp only [hclient, hreq, if_pos ((isSameOriginPair_iff h hclient).mpr hsame)]
  rfl

end

/-! ## What the registration names -/

section

variable {cfg : OAuthCfg} {clientId : Str} {registered : List Str}
  (h : IsRegistered cfg clientId registered) {client : ParseResult}
  (hclient : urlparse clientId = some client)

include h hclient

theorem refreshIdentity_of_itself (hnames : NamesItself clientId registered) :
    refreshIdentity registered clientId = .ok .passthrough := by
  obtain ⟨⟨hweb, origin, hone⟩, hsame⟩ := hnames
  exact (refreshIdentity_of_parsed h.nonempty h.accepted hclient hweb hone).1 hsame

/-- The origin that is named is another client id. -/
theorem refreshIdentity_of_another (hnames : NamesAnother clientId registered) :
    ∃ o, o ≠ clientId ∧ refreshIdentity registered clientId = .ok (.origin o) := by
  obtain ⟨⟨hweb, origin, hone⟩, hcross⟩ := hnames
  refine ⟨_, ?_, (refreshIdentity_of_parsed h.nonempty h.accepted hclient hweb hone).2.2 hcross⟩
  rintro rfl
  obtain ⟨uri, huri⟩ := h.exists_uri
  apply h.originClientId_ne (h.accepted uri huri)
  rw [originClientId, hone uri huri]
  rfl

theorem refreshIdentity_of_ambiguous (hitself : ¬NamesItself clientId registered)
    (hanother : ¬NamesAnother clientId registered) :
    refreshIdentity registered clientId = .ok .unreproducible := by
  by_cases hnames : NamesOneOrigin registered
  · obtain ⟨hweb, origin, hone⟩ := id hnames
    have hall : ¬∀ uri ∈ registered, SameOriginAtCore clientId uri := by
      intro hall
      exact hitself ⟨hnames, hall⟩
    have hsome : ∃ uri ∈ registered, SameOriginAtCore clientId uri := by
      by_contra hnone
      exact hanother ⟨hnames, hnone⟩
    exact (refreshIdentity_of_parsed h.nonempty h.accepted hclient hweb hone).2.1 hsome hall
  · exact refreshIdentity_of_unreproducible h.nonempty h.accepted clientId hnames

end

/-! ## The legs -/

section

variable {key : Bytes} {session : Webhook.SessionId} {cfg : OAuthCfg} {clientId redirectUri : Str}
  {registered : List Str} {form : MultiDict} {tr : List ViewEvent}

/-- A code exchange is proxied without a translation. -/
def ForcesProxy (clientId : Str) (registered : List Str) : Prop :=
  IsHttps clientId ∧ refreshIdentity registered clientId = .ok .unreproducible

theorem IsRegistered.runs_codeLegForcesProxy (h : IsRegistered cfg clientId registered)
    (hkey : cfg.dcrSigningKey = some key) {d : RefreshIdentity}
    (hd : refreshIdentity registered clientId = .ok d) {out : Except OAuthError Bool}
    (hfinds : Finds clientId registered tr)
    (hrun : Runs (codeLegForcesProxy cfg (some key) clientId) tr out) :
    ∃ proxy, out = .ok proxy ∧ (proxy = true ↔ ForcesProxy clientId registered) := by
  unfold codeLegForcesProxy at hrun
  simp only at hrun
  split at hrun
  · next hnone =>
    refine ⟨false, (runs_ret_iff.mp hrun).2, iff_of_false Bool.false_ne_true ?_⟩
    intro hforces
    obtain ⟨client, hclient, -⟩ := hforces.1
    cases hnone.symm.trans hclient
  · next client hclient =>
    by_cases hscheme : client.scheme = str "https"
    · rw [if_neg (not_not.mpr hscheme)] at hrun
      have hyields := yields_translatedClientIdForRefresh h hd
      rw [hkey] at hyields
      rcases runs_bind_iff.mp hrun with ⟨d', tr₁, tr₂, h₁, h₂, rfl⟩ | ⟨e, h₁, rfl⟩
      · obtain rfl := Except.ok.inj (hyields.only _ _ (runs_translated_known hfinds.left h₁))
        refine ⟨_, (runs_ret_iff.mp h₂).2, ?_⟩
        rw [decide_eq_true_eq, ForcesProxy, hd, Except.ok.injEq]
        exact (and_iff_right ⟨client, hclient, hscheme⟩).symm
      · cases hyields.only _ _ (runs_translated_known hfinds h₁)
    · rw [if_pos hscheme] at hrun
      refine ⟨false, (runs_ret_iff.mp hrun).2, iff_of_false Bool.false_ne_true ?_⟩
      intro hforces
      obtain ⟨client', hclient', hscheme'⟩ := hforces.1
      obtain rfl := Option.some.inj (hclient.symm.trans hclient')
      exact hscheme hscheme'

/-- The identity of a code exchange. -/
theorem IsRegistered.runs_codeIdentity (h : IsRegistered cfg clientId registered)
    (hkey : cfg.dcrSigningKey = some key) {d : RefreshIdentity}
    (hd : refreshIdentity registered clientId = .ok d)
    (hform : IsCodeGrant clientId redirectUri form)
    (hfinds : Finds clientId registered tr) {resolved : Resolved} {form' : MultiDict}
    (hrun : Runs (haAuthForwardIdentity cfg form clientId (some key)) tr (.ok (resolved, form'))) :
    ∃ forwardId proxy, resolved = .identity forwardId proxy ∧ form' = form ∧
      Runs (resolveForwardClientId (knownRedirects registered) cfg.cimdSession.isSome
        cfg.dcrSigningKey clientId redirectUri) [] (.ok forwardId) ∧
      (proxy = true ↔ forwardId = clientId ∧ ForcesProxy clientId registered) := by
  have hgrant : form.getD (str "grant_type") ≠ str "refresh_token" := by
    rw [hform.code]
    decide
  unfold haAuthForwardIdentity at hrun
  rw [if_neg hform.grant, if_neg hgrant] at hrun
  simp only [pureCall_ok, bind_eq, bind_ret, pure_eq, hgrant, decide_false, Bool.false_and,
    Bool.false_eq_true, if_false, if_neg h.ne_nil, hform.redirect, hform.code, decide_true,
    Bool.true_and, decide_eq_true_eq] at hrun
  rcases runs_bind_iff.mp hrun with ⟨forwardId, tr₁, tr₂, h₁, h₂, rfl⟩ | ⟨e, -, he⟩
  · have hresolve := runs_resolve_known hfinds.left h₁
    rw [← hkey] at hresolve
    by_cases hsame : forwardId = clientId
    · rw [if_pos hsame] at h₂
      rcases runs_bind_iff.mp h₂ with ⟨proxy, tr₃, tr₄, h₃, h₄, rfl⟩ | ⟨e, -, he⟩
      · obtain ⟨proxy', hproxy, hiff⟩ :=
          h.runs_codeLegForcesProxy hkey hd hfinds.right.left h₃
        obtain rfl := Except.ok.inj hproxy
        obtain ⟨rfl, rfl⟩ := Prod.mk.inj (Except.ok.inj (runs_ret_iff.mp h₄).2)
        exact ⟨clientId, proxy, rfl, rfl, hsame ▸ hresolve, hiff.trans (and_iff_right rfl).symm⟩
      · cases he
    · rw [if_neg hsame] at h₂
      obtain ⟨rfl, rfl⟩ := Prod.mk.inj (Except.ok.inj (runs_ret_iff.mp h₂).2)
      exact ⟨forwardId, false, rfl, rfl, hresolve,
        iff_of_false Bool.false_ne_true fun hforces => hsame hforces.1⟩
  · cases he

/-- How a grant ends once its identity has been looked for, with what it asks of core. -/
inductive EndsGrant (key : Bytes) (session : Webhook.SessionId) (clientId : Str) :
    Except OAuthError (Resolved × MultiDict) → List ViewEvent → Except OAuthError Response → Prop
  | raised (e : OAuthError) : EndsGrant key session clientId (.error e) [] (.error e)
  | answered (response : Response) (form : MultiDict) :
      EndsGrant key session clientId (.ok (.response response, form)) [] (.ok response)
  | redirected (form : MultiDict) : EndsGrant key session clientId
      (.ok (.identity clientId false, form)) [] (.ok (redirectIntoCore (str "/auth/token")))
  | proxied {forwardId : Str} {proxy : Bool} {form sent : MultiDict}
      (r : Except OAuthError CoreAnswer) : (forwardId = clientId → proxy = true) →
      sent = form.replace (str "client_id") forwardId →
      EndsGrant key session clientId (.ok (.identity forwardId proxy, form))
        [⟨.post session (str "/auth/token") sent, r⟩] (proxyOutcome key forwardId clientId r)

theorem Rewrites.lookup_action {resolved : Resolved} {form' : MultiDict}
    (h : Rewrites key form resolved form')
    (hgrant : form.lookup (str "action") ≠ some (str "revoke")) :
    form'.lookup (str "action") ≠ some (str "revoke") := by
  rcases h.ours with ⟨-, rfl⟩ | ⟨name, t, hours, -, rfl, -⟩
  · exact hgrant
  · rw [ourToken, if_neg hgrant] at hours
    split_ifs at hours
    split at hours
    · obtain ⟨rfl, -⟩ := Prod.mk.inj (List.cons.inj hours).1
      rw [MultiDict.lookup_replace_of_ne _ (by decide)]
      exact hgrant
    · cases hours

/-- A grant looks for its identity and then ends in one of these ways. -/
theorem endsGrant_of_runs (hlive : IsLive key session cfg)
    (hclient : form.getD (str "client_id") = clientId)
    (hgrant : form.lookup (str "action") ≠ some (str "revoke"))
    {out : Except OAuthError Response} (hrun : Runs (tokenPost (some cfg) (some form)) tr out) :
    ∃ tr₁ tr₂ found, tr = tr₁ ++ tr₂ ∧
      Runs (haAuthForwardIdentity cfg form clientId (some key)) tr₁ found ∧
      EndsGrant key session clientId found tr₂ out := by
  simp only [tokenPost, if_pos hlive.resourceServer, haAuthToken, hlive.dcrSigningKey, hclient]
    at hrun
  rcases runs_bind_iff.mp hrun with ⟨⟨resolved, form'⟩, tr₁, tr₂, h₁, h₂, rfl⟩ | ⟨e, h₁, rfl⟩
  · refine ⟨tr₁, tr₂, _, rfl, h₁, ?_⟩
    cases resolved with
    | response response =>
      obtain ⟨rfl, rfl⟩ := runs_ret_iff.mp h₂
      exact .answered response form'
    | identity forwardId proxy =>
      simp only [Bool.and_eq_true, decide_eq_true_eq, Bool.not_eq_true'] at h₂
      split_ifs at h₂ with hplain
      · obtain ⟨rfl, rfl⟩ := hplain
        obtain ⟨rfl, rfl⟩ := runs_ret_iff.mp h₂
        exact .redirected form'
      · have haction := (rewrites_of_runs (hclient ▸ h₁)).lookup_action hgrant
        have hreplaced : (form'.replace (str "client_id") forwardId).lookup (str "action") ≠
            some (str "revoke") := by
          rw [MultiDict.lookup_replace_of_ne _ (by decide)]
          exact haction
        rw [proxyTokenToCore_eq forwardId clientId hlive.session hreplaced] at h₂
        obtain ⟨r, tr₃, rfl, h₃⟩ := runs_call_iff.mp h₂
        obtain ⟨rfl, rfl⟩ := runs_ofExcept_iff.mp h₃
        refine .proxied r (fun hsame => ?_) rfl
        exact Bool.not_eq_false _ |>.mp fun hproxy => hplain ⟨hsame, hproxy⟩
  · exact ⟨tr, [], _, (List.append_nil tr).symm, h₁, .raised e⟩

theorem Authorized.resolves (h : Authorized cfg clientId redirectUri registered)
    (hlive : cfg.resourceServer.isSome = true) :
    ∃ forwardId, Runs (resolveForwardClientId (knownRedirects registered) cfg.cimdSession.isSome
      cfg.dcrSigningKey clientId redirectUri) [] (.ok forwardId) ∧
      SameOriginAtCore forwardId redirectUri := by
  obtain ⟨query, issuer, tr, params, rfl, rfl, hfinds, hrun, hsame⟩ := h
  simp only [authorizeGet, if_pos hlive] at hrun
  rcases runs_bind_iff.mp hrun with ⟨forwardId, tr₁, tr₂, h₁, h₂, rfl⟩ | ⟨e, -, he⟩
  · refine ⟨forwardId, runs_resolve_known hfinds.left h₁, ?_⟩
    have hparams := (Response.redirect.inj (Except.ok.inj (runs_ret_iff.mp h₂).2)).2.2
    rw [Location.withQuery.injEq] at hparams
    rw [hparams.2] at hsame
    split_ifs at hsame with hself
    · rwa [hself]
    · rwa [MultiDict.getD_replace_self] at hsame
  · cases he

/-- A proxied grant is answered, and not by a redirect or an `invalid_grant` of our own. -/
theorem proxyOutcome_ok {forwardId : Str} {r : Except OAuthError CoreAnswer} {response : Response}
    (h : proxyOutcome key forwardId clientId r = .ok response) :
    response ≠ redirectIntoCore (str "/auth/token") ∧
      ∀ description, response ≠ jsonError "invalid_grant" 400 description := by
  have hunavailable (h : .ok (unavailable "core did not answer the token request" false) =
      (.ok response : Except OAuthError Response)) :
      response ≠ redirectIntoCore (str "/auth/token") ∧
        ∀ description, response ≠ jsonError "invalid_grant" 400 description := by
    obtain rfl := Except.ok.inj h
    refine ⟨by simp [unavailable, redirectIntoCore], fun description hjson => ?_⟩
    exact absurd (Response.json.inj hjson).1 (by decide)
  cases r with
  | ok answer =>
    cases hrelayed : relayed key forwardId clientId answer with
    | error e =>
      rw [proxyOutcome, hrelayed] at h
      cases h
    | ok relay =>
      rw [proxyOutcome, hrelayed] at h
      obtain rfl := Except.ok.inj h
      unfold relayed at hrelayed
      obtain ⟨body, -, rfl⟩ := except_map_eq_ok hrelayed
      exact ⟨by simp [redirectIntoCore], by simp [jsonError]⟩
  | error e =>
    cases e with
    | timeout | client => exact hunavailable h
    | py | os | deadline | other => cases h

/-- What a code exchange comes to, for a client whose registration yields `d`. -/
theorem Exchanged.cases {t bound : Str} {handed : Option Str} {d : RefreshIdentity}
    (h : Exchanged cfg session clientId redirectUri registered t bound handed)
    (hlive : IsLive key session cfg) (hreg : IsRegistered cfg clientId registered)
    (hd : refreshIdentity registered clientId = .ok d) :
    ∃ forwardId, bound = forwardId ∧
      Runs (resolveForwardClientId (knownRedirects registered) cfg.cimdSession.isSome
        cfg.dcrSigningKey clientId redirectUri) [] (.ok forwardId) ∧
      (forwardId = clientId ∧ ¬ForcesProxy clientId registered ∧ handed = some t ∨
        (forwardId = clientId → ForcesProxy clientId registered) ∧
          ∃ answer : CoreAnswer, answer.status = 200 ∧ refreshTokenOf answer.body = some t ∧
            handed = tokenIn (proxyOutcome key forwardId clientId (.ok answer))) := by
  cases h with
  | @repeated form tr hform hfinds hrun =>
    generalize hout : Except.ok (redirectIntoCore (str "/auth/token")) = out at hrun
    obtain ⟨tr₁, tr₂, found, rfl, h₁, hends⟩ :=
      endsGrant_of_runs hlive hform.client hform.grant hrun
    cases hends with
    | raised e => cases hout
    | answered response form' =>
      -- a code exchange is not answered before core is asked
      obtain ⟨_, _, hresolved, -⟩ :=
        hreg.runs_codeIdentity hlive.dcrSigningKey hd hform hfinds.left h₁
      cases hresolved
    | redirected form' =>
      obtain ⟨forwardId, proxy, hresolved, rfl, hresolve, hiff⟩ :=
        hreg.runs_codeIdentity hlive.dcrSigningKey hd hform hfinds.left h₁
      obtain ⟨rfl, rfl⟩ := Resolved.identity.inj hresolved
      refine ⟨clientId, hform.client, hresolve, .inl ⟨rfl, fun hforces => ?_, rfl⟩⟩
      exact Bool.false_ne_true (hiff.mpr ⟨rfl, hforces⟩)
    | proxied r hproxy hsent => exact absurd rfl (proxyOutcome_ok hout.symm).1
  | @proxied form sent tr answer out hform hfinds hrun hpost hstatus ht =>
    obtain ⟨tr₁, tr₂, found, rfl, h₁, hends⟩ :=
      endsGrant_of_runs hlive hform.client hform.grant hrun
    have hquiet : ⟨.post session (str "/auth/token") sent, .ok answer⟩ ∉ tr₁ := by
      intro hmem
      obtain ⟨clientId, hcmd⟩ := (issues_haAuthForwardIdentity _ _ _ _).of_runs h₁ _ hmem
      cases hcmd
    have hmem := (List.mem_append.mp hpost).resolve_left hquiet
    cases hends with
    | raised e => cases hmem
    | answered response form' => cases hmem
    | redirected form' => cases hmem
    | @proxied forwardId proxy form' sent' r hproxy hsent =>
      obtain ⟨_, _, hresolved, rfl, hresolve, hiff⟩ :=
        hreg.runs_codeIdentity hlive.dcrSigningKey hd hform hfinds.left h₁
      obtain ⟨rfl, rfl⟩ := Resolved.identity.inj hresolved
      obtain ⟨hcmd, hanswer⟩ := Event.mk.inj (List.mem_singleton.mp hmem)
      obtain rfl := (ViewCmd.post.inj hcmd).2.2
      obtain rfl := eq_of_heq hanswer
      refine ⟨forwardId, ?_, hresolve, .inr ⟨fun hself => (hiff.mp (hproxy hself)).2, answer,
        hstatus, ht, rfl⟩⟩
      rw [hsent, MultiDict.getD_replace_self]

/-! ## The refresh -/

/-- A refresh that names no redirect, with the token `e`. -/
def bareRefresh (clientId e : Str) : MultiDict :=
  [(str "grant_type", str "refresh_token"), (str "client_id", clientId), (refreshTokenKey, e)]

omit [Runtime] in
theorem presents_bareRefresh (clientId e : Str) : Presents clientId e (bareRefresh clientId e) := by
  have haction : (bareRefresh clientId e).lookup (str "action") = none := rfl
  exact ⟨⟨by rw [haction]; simp, rfl⟩, rfl, rfl⟩

/-- Answers of an environment in which every lookup finds the registered list. -/
def findingAnswer (registered : List Str) : (c : ViewCmd) → Except OAuthError c.Ans
  | .fetchCimdRedirects _ => .ok (some registered)
  | _ => .error .timeout

omit [Runtime] in
/-- Every program can be run with lookups that find the registration. -/
theorem exists_runs_finding {α : Type} (p : ViewProg α) (clientId : Str) (registered : List Str) :
    ∃ tr out, Runs p tr out ∧ Finds clientId registered tr := by
  obtain ⟨tr, out, hrun, hanswers⟩ := exists_runs_answering (findingAnswer registered) p
  exact ⟨tr, out, hrun, fun _ hmem => hanswers _ hmem⟩

/-- A client that was proxied goes on just when its envelope can be made and read. -/
theorem continues_iff_of_proxied (hlive : IsLive key session cfg) {t forwardId : Str}
    {answer : CoreAnswer}
    (hforward : forwardId = clientId ∨ ∀ c ∈ forwardId, isAscii c = true)
    (hstatus : answer.status = 200) (ht : refreshTokenOf answer.body = some t) :
    Continues cfg session clientId registered t forwardId
        (tokenIn (proxyOutcome key forwardId clientId (.ok answer))) ↔
      isUtf8Encodable clientId = true ∧ ¬HasSplitPair t := by
  by_cases hclient : isUtf8Encodable clientId = true
  · have hplain : rejoinStr forwardId = forwardId := by
      rcases hforward with rfl | hascii
      · exact rejoinStr_of_encodable hclient
      · exact rejoinStr_ascii hascii
    obtain ⟨body, e, hbody, he, hopen⟩ := rewriteTokenResponseBody_spec key forwardId hclient ht
    have hhanded : tokenIn (proxyOutcome key forwardId clientId (.ok answer)) = some e := by
      rw [proxyOutcome, relayed, if_pos hstatus, hbody]
      exact he
    rw [hplain] at hopen
    have hopens : Opens key clientId forwardId e (rejoinStr t) :=
      ⟨hclient, rejoinStr_eq_self_iff.mp hplain, hopen⟩
    rw [hhanded, and_iff_right hclient, ← rejoinStr_eq_self_iff]
    constructor
    · intro hcontinues
      obtain ⟨tr, out, hrun, hfinds⟩ := exists_runs_finding
        (tokenPost (some cfg) (some (bareRefresh clientId e))) clientId registered
      have hreaches := hcontinues.refreshes e _ tr out rfl (presents_bareRefresh clientId e) rfl
        hfinds hrun
      rw [tokenPost_of_opens hlive hopens (presents_bareRefresh clientId e)] at hrun
      obtain ⟨r, tr', rfl, hrest⟩ := runs_call_iff.mp hrun
      obtain ⟨rfl, hout⟩ := runs_ofExcept_iff.mp hrest
      rcases hreaches.sent with ⟨hredirect, -⟩ | ⟨sent, r', hmem, htoken, -⟩
      · exact absurd rfl (proxyOutcome_ok (hout.symm.trans hredirect)).1
      · obtain ⟨hcmd, -⟩ := Event.mk.inj (List.mem_singleton.mp hmem)
        rw [(ViewCmd.post.inj hcmd).2.2, (getAll_redeemed _ _ _).2] at htoken
        exact (List.cons.inj htoken).1
    · intro hself
      rw [hself] at hopens
      refine ⟨rfl, fun e' form tr out he' hform _ _ hrun => ?_⟩
      obtain rfl := Option.some.inj he'
      rw [tokenPost_of_opens hlive hopens hform] at hrun
      obtain ⟨r, tr', rfl, hrest⟩ := runs_call_iff.mp hrun
      obtain ⟨rfl, hout⟩ := runs_ofExcept_iff.mp hrest
      refine ⟨.inr ⟨_, r, List.mem_singleton_self _, (getAll_redeemed _ _ _).2,
        (getAll_redeemed _ _ _).1⟩, fun description hlocal => ?_⟩
      exact (proxyOutcome_ok (hout.symm.trans hlocal)).2 description rfl
  · -- without an encoding there is no digest of the presenter, and no answer
    refine iff_of_false (fun hcontinues => ?_) fun h => hclient h.1
    obtain ⟨e, he⟩ := Option.isSome_iff_exists.mp hcontinues.isHanded
    cases hbody : rewriteTokenResponseBody key answer.body forwardId clientId with
    | ok body => exact hclient (encodable_of_rewritten ht hbody)
    | error err =>
      rw [proxyOutcome, relayed, if_pos hstatus, hbody] at he
      cases he

/-- The identity of a refresh with a token that is no envelope. -/
theorem IsRegistered.runs_bareIdentity (h : IsRegistered cfg clientId registered)
    (hkey : cfg.dcrSigningKey = some key) {d : RefreshIdentity}
    (hd : refreshIdentity registered clientId = .ok d) {t : Str} (hform : Presents clientId t form)
    (hredirect : form.getD (str "redirect_uri") = [])
    (hbare : startsWith t refreshEnvelopePrefix = false) (hfinds : Finds clientId registered tr)
    {found : Except OAuthError (Resolved × MultiDict)}
    (hrun : Runs (haAuthForwardIdentity cfg form clientId (some key)) tr found) :
    ∃ resolved, found = .ok (resolved, form) ∧
      (d = .passthrough → resolved = .identity clientId false) ∧
      (∀ o, d = .origin o → resolved = .identity o false) ∧
      (d = .unreproducible →
        ∃ description, resolved = .response (jsonError "invalid_grant" 400 description)) := by
  have henvelope : envelopeIdentity (some key) form clientId = .ok (none, form) := by
    have habsent : unwrapRefreshToken key t (some clientId) = .ok .absent := by
      rw [unwrapRefreshToken, hbare]
      rfl
    simp only [envelopeIdentity, hform.token, habsent]
    rfl
  have hyields := yields_translatedClientIdForRefresh h hd
  rw [hkey] at hyields
  unfold haAuthForwardIdentity at hrun
  rw [if_neg hform.grant.1, if_pos hform.grant.2, henvelope] at hrun
  simp only [pureCall_ok, bind_eq, bind_ret, pure_eq, if_neg h.ne_nil, hform.grant.2, hredirect,
    decide_true, Bool.and_self, if_true] at hrun
  rcases runs_bind_iff.mp hrun with ⟨resolved, tr₁, tr₂, h₁, h₂, rfl⟩ | ⟨e, h₁, rfl⟩
  · obtain rfl := (runs_ret_iff.mp h₂).2
    refine ⟨resolved, rfl, ?_⟩
    rcases runs_bind_iff.mp h₁ with ⟨d', tr₃, tr₄, h₃, h₄, rfl⟩ | ⟨e, -, he⟩
    · obtain rfl := Except.ok.inj (hyields.only _ _ (runs_translated_known hfinds.left.left h₃))
      cases d' with
      | passthrough | origin o | unreproducible =>
        obtain rfl := Except.ok.inj (runs_ret_iff.mp h₄).2
        simp
    · cases he
  · rcases runs_bind_iff.mp h₁ with ⟨d', tr₃, tr₄, h₃, h₄, rfl⟩ | ⟨e', h₃, -⟩
    · cases d' <;> cases (runs_ret_iff.mp h₄).2
    · cases hyields.only _ _ (runs_translated_known hfinds h₃)

/-- A client that was handed core's own token goes on just when it is never translated. -/
theorem continues_iff_of_repeated (hlive : IsLive key session cfg)
    (hreg : IsRegistered cfg clientId registered) {client : ParseResult}
    (hclient : urlparse clientId = some client) {t : Str}
    (hbare : startsWith t refreshEnvelopePrefix = false) :
    Continues cfg session clientId registered t clientId (some t) ↔
      NamesItself clientId registered := by
  constructor
  · intro hcontinues
    obtain ⟨tr, out, hrun, hfinds⟩ := exists_runs_finding
      (tokenPost (some cfg) (some (bareRefresh clientId t))) clientId registered
    have hpresents := presents_bareRefresh clientId t
    have hreaches := hcontinues.refreshes t _ tr out rfl hpresents rfl hfinds hrun
    obtain ⟨tr₁, tr₂, found, rfl, h₁, hends⟩ :=
      endsGrant_of_runs hlive hpresents.client hpresents.grant.1 hrun
    have hquiet := (issues_haAuthForwardIdentity _ _ _ _).of_runs h₁
    by_contra hitself
    by_cases hanother : NamesAnother clientId registered
    · obtain ⟨o, hne, hd⟩ := refreshIdentity_of_another hreg hclient hanother
      obtain ⟨resolved, rfl, -, horigin, -⟩ := hreg.runs_bareIdentity hlive.dcrSigningKey hd
        hpresents rfl hbare hfinds.left h₁
      obtain rfl := horigin o rfl
      generalize hout : out = out' at hends hreaches
      cases hends with
      | redirected form => exact hne rfl
      | proxied r hproxy hsent =>
        rcases hreaches.sent with ⟨hredirect, -⟩ | ⟨sent, r', hmem, -, hbound⟩
        · exact absurd rfl (proxyOutcome_ok hredirect).1
        · rcases List.mem_append.mp hmem with hmem | hmem
          · obtain ⟨_, hcmd⟩ := hquiet _ hmem
            cases hcmd
          · obtain ⟨hcmd, -⟩ := Event.mk.inj (List.mem_singleton.mp hmem)
            rw [(ViewCmd.post.inj hcmd).2.2, hsent, MultiDict.getAll_replace_self] at hbound
            exact hne (List.cons.inj hbound).1
    · have hd := refreshIdentity_of_ambiguous hreg hclient hitself hanother
      obtain ⟨resolved, rfl, -, -, hrefused⟩ := hreg.runs_bareIdentity hlive.dcrSigningKey hd
        hpresents rfl hbare hfinds.left h₁
      obtain ⟨description, rfl⟩ := hrefused rfl
      cases hends
      exact hreaches.served description rfl
  · intro hitself
    have hd := refreshIdentity_of_itself hreg hclient hitself
    refine ⟨rfl, fun e form tr out he hform hredirect hfinds hrun => ?_⟩
    obtain rfl := Option.some.inj he
    obtain ⟨tr₁, tr₂, found, rfl, h₁, hends⟩ :=
      endsGrant_of_runs hlive hform.client hform.grant.1 hrun
    obtain ⟨resolved, rfl, hsame, -, -⟩ := hreg.runs_bareIdentity hlive.dcrSigningKey hd
      hform hredirect hbare hfinds.left h₁
    obtain rfl := hsame rfl
    generalize hout : out = out' at hends ⊢
    cases hends with
    | redirected form =>
      exact ⟨.inl ⟨rfl, hform.token, hform.client⟩, by simp [redirectIntoCore, jsonError]⟩
    | proxied r hproxy hsent => cases hproxy rfl

theorem IsRegistered.exists_refreshIdentity (h : IsRegistered cfg clientId registered) :
    ∃ d, refreshIdentity registered clientId = .ok d := by
  cases hclient : urlparse clientId with
  | some client =>
    by_cases hitself : NamesItself clientId registered
    · exact ⟨_, refreshIdentity_of_itself h hclient hitself⟩
    by_cases hanother : NamesAnother clientId registered
    · obtain ⟨o, -, hd⟩ := refreshIdentity_of_another h hclient hanother
      exact ⟨_, hd⟩
    · exact ⟨_, refreshIdentity_of_ambiguous h hclient hitself hanother⟩
  | none =>
    by_cases hnames : NamesOneOrigin registered
    · exact ⟨_, refreshIdentity_of_unparsed h.nonempty h.accepted hclient hnames.1 hnames.2⟩
    · exact ⟨_, refreshIdentity_of_unreproducible h.nonempty h.accepted clientId hnames⟩

end

end

/-! ## Two clients -/

/-- A query with the pair that core compares. -/
def authorizeQuery (clientId redirectUri : Str) : MultiDict :=
  [(str "client_id", clientId), (str "redirect_uri", redirectUri)]

/-- A code exchange for that pair. -/
def codeGrant (clientId redirectUri : Str) : MultiDict :=
  [(str "grant_type", str "authorization_code"), (str "client_id", clientId),
    (str "redirect_uri", redirectUri)]

theorem isCodeGrant_codeGrant (clientId redirectUri : Str) :
    IsCodeGrant clientId redirectUri (codeGrant clientId redirectUri) := by
  have haction : (codeGrant clientId redirectUri).lookup (str "action") = none := rfl
  exact ⟨by rw [haction]; simp, rfl, rfl, rfl⟩

/-- The document of a client with one redirect. -/
def clientDocument : Bytes :=
  asciiBytes (str "\x7b\"client_id\":\"https://client.example/doc\",\"client_name\":\"C\"," ++
    str "\"redirect_uris\":[\"https://app.example/cb\"]\x7d")

theorem registered_clientDocument :
    letI := asciiRuntime
    IsRegistered (oauthCfg (haModeCfg [1])) (str "https://client.example/doc")
      [str "https://app.example/cb"] := by
  let := asciiRuntime
  have hdocument : Validated (str "https://client.example/doc") [str "https://app.example/cb"] :=
    ⟨clientDocument, by decide +kernel⟩
  have hvalid : validCimdClientId (str "https://client.example/doc") = true := by decide +kernel
  exact ⟨.cimd rfl rfl hvalid hdocument (yields_ret _), hdocument.spec.1, hdocument.spec.2⟩

theorem finds_codeFormLookup :
    Finds (str "https://client.example/doc") [str "https://app.example/cb"] [codeFormLookup] := by
  intro answer hmem
  exact eq_of_heq (Event.mk.inj (List.mem_singleton.mp hmem)).2

end EsphomeMcp.OAuth
