import EsphomeMcp.OAuth.Revocation

/-!
# What the forwards leave alone

A request that goes on to core in ha_auth mode carries what it came with. Two fields may be
another: the client id, once it is translated, and the one token that is an envelope of ours.
-/

namespace EsphomeMcp.OAuth

open Py Py.Prog

section

variable [Runtime]

/-! ## The fields that change -/

/-- The token field of ours in a form, with core's own token for it. -/
def ourToken (key : Bytes) (form : MultiDict) : MultiDict :=
  if form.lookup (str "action") = some (str "revoke") then
    match coreTokenForRevocation (some key) (form.getD (str "token")) with
    | .ok (some t) => [(str "token", t)]
    | _ => []
  else if form.getD (str "grant_type") = str "refresh_token" then
    match unwrapRefreshToken key (form.getD refreshTokenKey) (some (form.getD (str "client_id"))) with
    | .ok (.opened t _) => [(refreshTokenKey, t)]
    | _ => []
  else []

/-- What is sent is the form with the fields in `replaced` as its only ones under their keys. -/
def Carries (sent form replaced : MultiDict) : Prop :=
  sent.Perm (form.filter (fun field => field.1 ∉ replaced.map Prod.fst) ++ replaced)

/-- Somewhere in the exchange the identity of the request resolved to a client id. -/
def ForwardsAs (cfg : OAuthCfg) (form : MultiDict) (tr : List ViewEvent) (forwardId : Str) : Prop :=
  ∃ tr₁ proxy form', tr₁ <+: tr ∧ Runs (haAuthForwardIdentity cfg form
    (form.getD (str "client_id")) cfg.dcrSigningKey) tr₁ (.ok (.identity forwardId proxy, form'))

/-- The authorize leg redirects with the query it got, its client id translated or not. -/
def AuthorizeFrame (cfg : OAuthCfg) (query : MultiDict) (tr : List ViewEvent)
    (out : Except OAuthError Response) : Prop :=
  ∀ response, out = .ok response → ∃ params forwardId,
    response = .redirect 302 [] (.withQuery (str "/auth/authorize") params) ∧
    Runs (resolveForwardClientId lookupRedirects cfg.cimdSession.isSome cfg.dcrSigningKey
      (query.getD (str "client_id")) (query.getD (str "redirect_uri"))) tr (.ok forwardId) ∧
    Carries params query (if forwardId = query.getD (str "client_id") then []
      else [(str "client_id", forwardId)])

/-- A grant whose refresh token core redeems. -/
def IsRefreshGrant (form : MultiDict) : Prop :=
  form.lookup (str "action") ≠ some (str "revoke") ∧
    form.getD (str "grant_type") = str "refresh_token"

/-- The token leg sends the form with the client id and our token replaced, redirects only where
there is nothing to replace, and gives core no envelope as a refresh token. -/
structure TokenFrame (cfg : OAuthCfg) (key : Bytes) (form : MultiDict) (tr : List ViewEvent)
    (out : Except OAuthError Response) : Prop where
  sent : ∀ session path data r, ⟨.post session path data, r⟩ ∈ tr →
    ∃ forwardId, ForwardsAs cfg form tr forwardId ∧
      Carries data form ((str "client_id", forwardId) :: ourToken key form)
  redirected : ∀ status headers location, out = .ok (.redirect status headers location) →
    status = 307 ∧ location = .path (str "/auth/token") ∧
    (∀ session path data r, ⟨.post session path data, r⟩ ∉ tr) ∧
    ForwardsAs cfg form tr (form.getD (str "client_id")) ∧ ourToken key form = []
  noEnvelope : IsRefreshGrant form →
    (∀ t c, unwrapRefreshToken key (form.getD refreshTokenKey)
        (some (form.getD (str "client_id"))) = .ok (.opened t c) →
      startsWith t refreshEnvelopePrefix = false) →
    (∀ session path data r, ⟨.post session path data, r⟩ ∈ tr →
      startsWith (MultiDict.getD data refreshTokenKey) refreshEnvelopePrefix = false) ∧
    ∀ status headers location, out = .ok (.redirect status headers location) →
      startsWith (form.getD refreshTokenKey) refreshEnvelopePrefix = false

/-! ## What is sent -/

omit [Runtime] in
theorem carries_self (form : MultiDict) : Carries form form [] := by
  simp [Carries]

omit [Runtime] in
theorem carries_replace (form : MultiDict) (key value : Str) :
    Carries (form.replace key value) form [(key, value)] := by
  simp [Carries, MultiDict.replace_eq, MultiDict.popall]

omit [Runtime] in
/-- Replacing another field keeps what has been replaced before. -/
theorem Carries.replace {sent form replaced : MultiDict} {key : Str} (value : Str)
    (h : Carries sent form replaced) (hkey : key ∉ replaced.map Prod.fst) :
    Carries (sent.replace key value) form ((key, value) :: replaced) := by
  have hsame : replaced.filter (fun field => field.1 ≠ key) = replaced := by
    rw [List.filter_eq_self]
    intro field hfield
    rw [decide_eq_true_eq]
    rintro rfl
    exact hkey (List.mem_map_of_mem hfield)
  have hkept : (form.filter (fun field => field.1 ∉ replaced.map Prod.fst)).filter
        (fun field => field.1 ≠ key) =
      form.filter (fun field => field.1 ∉ ((key, value) :: replaced).map Prod.fst) := by
    rw [List.filter_filter]
    refine List.filter_congr fun field _ => ?_
    simp only [List.map_cons, List.mem_cons, not_or, ne_eq, Bool.decide_and]
  rw [Carries, MultiDict.replace_eq, MultiDict.popall, ← hkept]
  have hfiltered := h.filter (fun field => field.1 ≠ key)
  rw [List.filter_append, hsame] at hfiltered
  refine (hfiltered.append_right [(key, value)]).trans ?_
  rw [List.append_assoc]
  exact List.perm_append_comm.append_left _

/-! ## The identity of a request -/

/-- A command that asks for a registration and does nothing else. -/
def LooksUp (c : ViewCmd) : Prop := ∃ clientId, c = .fetchCimdRedirects clientId

omit [Runtime] in
theorem issues_lookupRedirects (clientId : Str) : Issues LooksUp (lookupRedirects clientId) :=
  Issues.perform ⟨clientId, rfl⟩

theorem issues_resolveForwardClientId (session : Bool) (dcrKey : Option Bytes)
    (clientId redirectUri : Str) : Issues LooksUp
      (resolveForwardClientId lookupRedirects session dcrKey clientId redirectUri) := by
  unfold resolveForwardClientId
  refine Issues.ite trivial ?_
  split
  · refine Issues.ite trivial (Issues.bind (Issues.ofExcept _) fun found => ?_)
    cases found with
    | some registered => exact Issues.ofExcept _
    | none =>
      refine Issues.ite (Issues.bind (issues_lookupRedirects _) fun result => ?_) trivial
      cases result with
      | some registered => exact Issues.ofExcept _
      | none => trivial
  · trivial

theorem issues_translatedClientIdForRefresh (session : Bool) (dcrKey : Option Bytes)
    (clientId : Str) : Issues LooksUp
      (translatedClientIdForRefresh lookupRedirects session dcrKey clientId) := by
  refine Issues.bind (Issues.ofExcept _) fun found => ?_
  cases found with
  | some registered => exact Issues.ofExcept _
  | none =>
    simp only
    split
    · trivial
    · refine Issues.ite (Issues.bind (issues_lookupRedirects _) fun result => ?_) trivial
      cases result with
      | some registered => exact Issues.ofExcept _
      | none => trivial

theorem issues_preEnvelopeRefreshIdentity (cfg : OAuthCfg) (dcrKey : Option Bytes)
    (clientId : Str) : Issues LooksUp (preEnvelopeRefreshIdentity cfg dcrKey clientId) := by
  refine Issues.bind (issues_translatedClientIdForRefresh _ _ _) fun disposition => ?_
  cases disposition <;> trivial

theorem issues_codeLegForcesProxy (cfg : OAuthCfg) (dcrKey : Option Bytes) (clientId : Str) :
    Issues LooksUp (codeLegForcesProxy cfg dcrKey clientId) := by
  unfold codeLegForcesProxy
  split
  · trivial
  · split
    · trivial
    · refine Issues.ite trivial ?_
      exact Issues.bind (issues_translatedClientIdForRefresh _ _ _) fun _ => trivial

/-- Resolving the identity of a request sends nothing on. -/
theorem issues_haAuthForwardIdentity (cfg : OAuthCfg) (form : MultiDict) (clientId : Str)
    (dcrKey : Option Bytes) : Issues LooksUp (haAuthForwardIdentity cfg form clientId dcrKey) := by
  unfold haAuthForwardIdentity
  refine Issues.ite (Issues.bind (Issues.ofExcept _) fun _ => trivial) ?_
  refine Issues.bind (Issues.ofExcept _) fun envelope => ?_
  split
  · trivial
  · refine Issues.ite trivial (Issues.ite ?_ ?_)
    · exact Issues.bind (issues_preEnvelopeRefreshIdentity _ _ _) fun _ => trivial
    · refine Issues.bind (issues_resolveForwardClientId _ _ _ _) fun forwardId => ?_
      refine Issues.ite ?_ trivial
      exact Issues.bind (issues_codeLegForcesProxy _ _ _) fun _ => trivial

/-- What resolving the identity of a request has done to its form. -/
structure Rewrites (key : Bytes) (form : MultiDict) (resolved : Resolved) (form' : MultiDict) :
    Prop where
  ours : ourToken key form = [] ∧ form' = form ∨ ∃ name t, ourToken key form = [(name, t)] ∧
    name ≠ str "client_id" ∧ form' = form.replace name t ∧
      ∃ forwardId, resolved = .identity forwardId true
  answer : ∀ response, resolved = .response response → response.IsAnswer
  refresh : IsRefreshGrant form → (∃ response, resolved = .response response) ∨
    form' = form ∧ startsWith (form.getD refreshTokenKey) refreshEnvelopePrefix = false ∨
      ∃ t c, unwrapRefreshToken key (form.getD refreshTokenKey)
        (some (form.getD (str "client_id"))) = .ok (.opened t c) ∧
        form' = form.replace refreshTokenKey t

theorem not_startsWith_of_absent {key : Bytes} {token : Str} {clientId : Option Str}
    (h : unwrapRefreshToken key token clientId = .ok .absent) :
    startsWith token refreshEnvelopePrefix = false := by
  by_contra hpre
  rw [Bool.not_eq_false] at hpre
  rw [unwrapRefreshToken, if_pos hpre] at h
  obtain ⟨payload, -, h⟩ := except_bind_eq_ok h
  split at h
  · cases h
  · split at h
    · cases h
    · obtain ⟨hash, -, h⟩ := except_bind_eq_ok h
      obtain ⟨same, -, h⟩ := except_bind_eq_ok h
      cases same <;> cases h

/-- A request that is neither a revocation nor carries an envelope keeps its form. -/
theorem rewrites_of_no_token {key : Bytes} {form : MultiDict} {resolved : Resolved}
    (hours : ourToken key form = []) (hanswer : ∀ r, resolved = .response r → r.IsAnswer)
    (hrefresh : IsRefreshGrant form →
      startsWith (form.getD refreshTokenKey) refreshEnvelopePrefix = false) :
    Rewrites key form resolved form :=
  ⟨.inl ⟨hours, rfl⟩, hanswer, fun h => .inr (.inl ⟨rfl, hrefresh h⟩)⟩

/-- What follows the envelope in `_ha_auth_forward_identity` leaves the form alone. -/
theorem rewrites_of_runs_derivation {cfg : OAuthCfg} {key : Bytes} {form form' : MultiDict}
    {clientId redirectUri : Str} {isRefresh isCode : Bool} {tr : List ViewEvent}
    {resolved : Resolved} (hours : ourToken key form = [])
    (hrefresh : IsRefreshGrant form →
      startsWith (form.getD refreshTokenKey) refreshEnvelopePrefix = false)
    (h : Runs (if clientId = [] then return (.identity clientId false, form)
      else if isRefresh && redirectUri = [] then do
        return (← preEnvelopeRefreshIdentity cfg (some key) clientId, form)
      else do
        let forwardId ← resolveForwardClientId lookupRedirects cfg.cimdSession.isSome (some key)
          clientId redirectUri
        if isCode && forwardId = clientId then do
          return (.identity clientId (← codeLegForcesProxy cfg (some key) clientId), form)
        else return (.identity forwardId false, form) : ViewProg (Resolved × MultiDict))
      tr (.ok (resolved, form'))) : Rewrites key form resolved form' := by
  split_ifs at h with hclient hderive
  · obtain ⟨-, he⟩ := runs_ret_iff.mp h
    obtain ⟨rfl, rfl⟩ := Prod.mk.inj (Except.ok.inj he)
    exact rewrites_of_no_token hours (by simp) hrefresh
  · rcases runs_bind_iff.mp h with ⟨a, _, _, h₁, h₂, -⟩ | ⟨e, -, he⟩
    · obtain ⟨-, he⟩ := runs_ret_iff.mp h₂
      obtain ⟨rfl, rfl⟩ := Prod.mk.inj (Except.ok.inj he)
      refine rewrites_of_no_token hours ?_ hrefresh
      rintro r rfl
      rcases runs_bind_iff.mp h₁ with ⟨d, _, _, -, h₃, -⟩ | ⟨e, -, he⟩
      · cases d <;> obtain ⟨-, he⟩ := runs_ret_iff.mp h₃ <;> cases he
        trivial
      · cases he
    · cases he
  · rcases runs_bind_iff.mp h with ⟨forwardId, _, _, -, h₂, -⟩ | ⟨e, -, he⟩
    · split_ifs at h₂ with hcode
      · rcases runs_bind_iff.mp h₂ with ⟨proxy, _, _, -, h₃, -⟩ | ⟨e, -, he⟩
        · obtain ⟨-, he⟩ := runs_ret_iff.mp h₃
          obtain ⟨rfl, rfl⟩ := Prod.mk.inj (Except.ok.inj he)
          exact rewrites_of_no_token hours (by simp) hrefresh
        · cases he
      · obtain ⟨-, he⟩ := runs_ret_iff.mp h₂
        obtain ⟨rfl, rfl⟩ := Prod.mk.inj (Except.ok.inj he)
        exact rewrites_of_no_token hours (by simp) hrefresh
    · cases he

theorem rewrites_of_runs {cfg : OAuthCfg} {key : Bytes} {form form' : MultiDict}
    {tr : List ViewEvent} {resolved : Resolved}
    (h : Runs (haAuthForwardIdentity cfg form (form.getD (str "client_id")) (some key)) tr
      (.ok (resolved, form'))) : Rewrites key form resolved form' := by
  unfold haAuthForwardIdentity at h
  by_cases haction : form.lookup (str "action") = some (str "revoke")
  · rw [if_pos haction] at h
    rcases runs_bind_iff.mp h with ⟨⟨changed, rewritten⟩, _, _, h₁, h₂, -⟩ | ⟨e, -, he⟩
    · obtain ⟨-, hrewrite⟩ := runs_ofExcept_mapError h₁
      obtain ⟨-, he⟩ := runs_ret_iff.mp h₂
      obtain ⟨rfl, rfl⟩ := Prod.mk.inj (Except.ok.inj he)
      have hnot : ¬IsRefreshGrant form := fun hgrant => hgrant.1 haction
      obtain ⟨found, hfound, hrewrite⟩ := except_bind_eq_ok hrewrite
      cases found with
      | none =>
        obtain ⟨rfl, rfl⟩ := Prod.mk.inj (Except.ok.inj hrewrite)
        refine ⟨.inl ⟨?_, rfl⟩, by simp, fun hgrant => absurd hgrant hnot⟩
        simp only [ourToken, if_pos haction, hfound]
      | some t =>
        obtain ⟨rfl, rfl⟩ := Prod.mk.inj (Except.ok.inj hrewrite)
        refine ⟨.inr ⟨str "token", t, ?_, by decide, rfl, _, rfl⟩, by simp,
          fun hgrant => absurd hgrant hnot⟩
        simp only [ourToken, if_pos haction, hfound]
    · cases he
  · rw [if_neg haction] at h
    rcases runs_bind_iff.mp h with ⟨⟨envelope, rewritten⟩, _, _, h₁, h₂, -⟩ | ⟨e, -, he⟩
    · obtain ⟨-, henvelope⟩ := runs_ofExcept_mapError h₁
      by_cases hgrant : form.getD (str "grant_type") = str "refresh_token"
      · rw [if_pos hgrant] at henvelope
        obtain ⟨state, hstate, henvelope⟩ := except_bind_eq_ok henvelope
        have hours : ourToken key form =
            match unwrapRefreshToken key (form.getD refreshTokenKey)
              (some (form.getD (str "client_id"))) with
            | .ok (.opened t _) => [(refreshTokenKey, t)]
            | _ => [] := by
          simp only [ourToken, if_neg haction, if_pos hgrant]
        rw [hstate] at hours
        cases state with
        | opened t c =>
          obtain ⟨rfl, rfl⟩ := Prod.mk.inj (Except.ok.inj henvelope)
          obtain ⟨-, he⟩ := runs_ret_iff.mp h₂
          obtain ⟨rfl, rfl⟩ := Prod.mk.inj (Except.ok.inj he)
          exact ⟨.inr ⟨refreshTokenKey, t, hours, by decide, rfl, _, rfl⟩, by simp,
            fun _ => .inr (.inr ⟨t, c, hstate, rfl⟩)⟩
        | invalid =>
          obtain ⟨rfl, rfl⟩ := Prod.mk.inj (Except.ok.inj henvelope)
          obtain ⟨-, he⟩ := runs_ret_iff.mp h₂
          obtain ⟨rfl, rfl⟩ := Prod.mk.inj (Except.ok.inj he)
          refine ⟨.inl ⟨hours, rfl⟩, ?_, fun _ => .inl ⟨_, rfl⟩⟩
          rintro r hr
          obtain rfl := Resolved.response.inj hr
          trivial
        | absent =>
          obtain ⟨rfl, rfl⟩ := Prod.mk.inj (Except.ok.inj henvelope)
          exact rewrites_of_runs_derivation hours (fun _ => not_startsWith_of_absent hstate) h₂
      · rw [if_neg hgrant] at henvelope
        obtain ⟨rfl, rfl⟩ := Prod.mk.inj (Except.ok.inj henvelope)
        refine rewrites_of_runs_derivation ?_ (fun h => absurd h.2 hgrant) h₂
        simp only [ourToken, if_neg haction, if_neg hgrant]
    · cases he

/-! ## The forwards -/

theorem authorizeFrame_of_runs {cfg : OAuthCfg} {query : MultiDict} {issuer : Str}
    {tr : List ViewEvent} {out : Except OAuthError Response}
    (hlive : cfg.resourceServer.isSome = true)
    (h : Runs (authorizeGet (some cfg) query issuer) tr out) : AuthorizeFrame cfg query tr out := by
  rintro response rfl
  simp only [authorizeGet, if_pos hlive] at h
  rcases runs_bind_iff.mp h with ⟨forwardId, tr₁, tr₂, h₁, h₂, rfl⟩ | ⟨e, -, he⟩
  · obtain ⟨rfl, he⟩ := runs_ret_iff.mp h₂
    refine ⟨_, forwardId, Except.ok.inj he, (List.append_nil tr₁).symm ▸ h₁, ?_⟩
    split_ifs
    · exact carries_self query
    · exact carries_replace query _ _
  · cases he

/-- A proxied request posts its form once or not at all, and is not redirected. -/
theorem runs_proxyTokenToCore_form {cfg : OAuthCfg} {form : MultiDict} {forwardId clientId : Str}
    {dcrKey : Option Bytes} {tr : List ViewEvent} {out : Except OAuthError Response}
    (h : Runs (proxyTokenToCore cfg form forwardId clientId dcrKey) tr out) :
    (∀ session path data r, ⟨.post session path data, r⟩ ∈ tr → data = form) ∧
      ∀ response, out = .ok response → response.IsAnswer := by
  cases hsession : cfg.session with
  | none =>
    simp only [proxyTokenToCore, forwardToCore, hsession, pure_eq, bind_eq, bind_ret] at h
    obtain ⟨rfl, rfl⟩ := runs_ret_iff.mp h
    refine ⟨fun _ _ _ _ hmem => absurd hmem List.not_mem_nil, fun response hout => ?_⟩
    obtain rfl := Except.ok.inj hout
    trivial
  | some session =>
    obtain ⟨r, rfl, hanswer⟩ := runs_proxyTokenToCore hsession h
    refine ⟨fun session' path data r' hmem => ?_, hanswer⟩
    have hevent := congrArg Event.cmd (List.mem_singleton.mp hmem)
    exact (ViewCmd.post.inj hevent).2.2

/-- An answer to a request that was not sent on keeps the frame. -/
theorem tokenFrame_of_unsent {cfg : OAuthCfg} {key : Bytes} {form : MultiDict}
    {tr : List ViewEvent} {out : Except OAuthError Response}
    (hunsent : ∀ session path data r, ⟨.post session path data, r⟩ ∉ tr)
    (hanswer : ∀ response, out = .ok response → response.IsAnswer) :
    TokenFrame cfg key form tr out := by
  refine ⟨fun _ _ _ _ hmem => ?_, fun _ _ _ hout => ?_, fun _ _ => ⟨fun _ _ _ _ hmem => ?_,
    fun _ _ _ hout => ?_⟩⟩
  · exact absurd hmem (hunsent _ _ _ _)
  · exact (hanswer _ hout).elim
  · exact absurd hmem (hunsent _ _ _ _)
  · exact (hanswer _ hout).elim

theorem tokenFrame_of_runs {cfg : OAuthCfg} {key : Bytes} {form : MultiDict}
    {tr : List ViewEvent} {out : Except OAuthError Response}
    (hlive : cfg.resourceServer.isSome = true) (hkey : cfg.dcrSigningKey = some key)
    (h : Runs (tokenPost (some cfg) (some form)) tr out) : TokenFrame cfg key form tr out := by
  simp only [tokenPost, if_pos hlive, haAuthToken] at h
  have hquiet : ∀ tr₁ out, Runs (haAuthForwardIdentity cfg form (form.getD (str "client_id"))
      cfg.dcrSigningKey) tr₁ out → ∀ session path data r, ⟨.post session path data, r⟩ ∉ tr₁ := by
    intro tr₁ out hrun session path data r hmem
    obtain ⟨clientId, hcmd⟩ := (issues_haAuthForwardIdentity _ _ _ _).of_runs hrun _ hmem
    cases hcmd
  rcases runs_bind_iff.mp h with ⟨⟨resolved, form'⟩, tr₁, tr₂, h₁, h₂, rfl⟩ | ⟨e, h₁, rfl⟩
  · have hrewrites := rewrites_of_runs (hkey ▸ h₁)
    have hnone := hquiet tr₁ _ h₁
    cases resolved with
    | response response =>
      obtain ⟨rfl, rfl⟩ := runs_ret_iff.mp h₂
      rw [List.append_nil]
      apply tokenFrame_of_unsent hnone
      intro answer hout
      exact hrewrites.answer answer (congrArg Resolved.response (Except.ok.inj hout))
    | identity forwardId proxyRequired =>
      simp only at h₂
      split_ifs at h₂ with hsame
      · -- nothing has been replaced, and the client repeats its request
        rw [Bool.and_eq_true, decide_eq_true_eq, Bool.not_eq_true'] at hsame
        obtain ⟨rfl, rfl⟩ := hsame
        obtain ⟨rfl, rfl⟩ := runs_ret_iff.mp h₂
        rw [List.append_nil]
        have hours : ourToken key form = [] ∧ form' = form := by
          rcases hrewrites.ours with hours | ⟨_, _, _, _, _, _, hproxy⟩
          · exact hours
          · cases hproxy
        refine ⟨fun _ _ _ _ hmem => absurd hmem (hnone _ _ _ _), ?_, ?_⟩
        · intro status headers location heq
          obtain ⟨rfl, rfl, rfl⟩ := Response.redirect.inj (Except.ok.inj heq)
          exact ⟨rfl, rfl, hnone, ⟨tr₁, false, form', List.prefix_rfl, h₁⟩, hours.1⟩
        · intro hgrant hcore
          refine ⟨fun _ _ _ _ hmem => absurd hmem (hnone _ _ _ _), fun _ _ _ _ => ?_⟩
          rcases hrewrites.refresh hgrant with ⟨r, hr⟩ | ⟨-, hplain⟩ | ⟨t, c, hopen, -⟩
          · cases hr
          · exact hplain
          · rw [ourToken, if_neg hgrant.1, if_pos hgrant.2, hopen] at hours
            cases hours.1
      · obtain ⟨hdata, hanswer⟩ := runs_proxyTokenToCore_form h₂
        have hposted : ∀ session path data r, ⟨.post session path data, r⟩ ∈ tr₁ ++ tr₂ →
            data = form'.replace (str "client_id") forwardId := by
          intro session path data r hmem
          rcases List.mem_append.mp hmem with hmem | hmem
          · exact absurd hmem (hnone _ _ _ _)
          · exact hdata session path data r hmem
        refine ⟨fun session path data r hmem => ?_, fun _ _ _ heq => (hanswer _ heq).elim, ?_⟩
        · refine ⟨forwardId, ⟨tr₁, proxyRequired, form', List.prefix_append _ _, h₁⟩, ?_⟩
          rw [hposted session path data r hmem]
          rcases hrewrites.ours with ⟨hours, rfl⟩ | ⟨name, t, hours, hname, rfl, -⟩
          · rw [hours]
            exact carries_replace _ _ _
          · rw [hours]
            refine (carries_replace form name t).replace forwardId ?_
            simpa using Ne.symm hname
        · intro hgrant hcore
          refine ⟨fun session path data r hmem => ?_, fun _ _ _ heq => (hanswer _ heq).elim⟩
          rw [hposted session path data r hmem, MultiDict.getD_replace_of_ne _ (by decide)]
          rcases hrewrites.refresh hgrant with ⟨r, hr⟩ | ⟨rfl, hplain⟩ | ⟨t, c, hopen, rfl⟩
          · cases hr
          · exact hplain
          · rw [MultiDict.getD_replace_self]
            exact hcore t c hopen
  · exact tokenFrame_of_unsent (hquiet tr _ h₁) (by simp)

/-- The frame of the ha_auth forwards: what goes on to core is the request with its client id and
the one token field of ours replaced, and nothing else. -/
theorem forwards_frame {cfg : OAuthCfg} {key : Bytes} (hlive : cfg.resourceServer.isSome = true)
    (hkey : cfg.dcrSigningKey = some key) :
    (∀ query issuer tr out, Runs (authorizeGet (some cfg) query issuer) tr out →
      AuthorizeFrame cfg query tr out) ∧
    ∀ form tr out, Runs (tokenPost (some cfg) (some form)) tr out →
      TokenFrame cfg key form tr out :=
  ⟨fun _ _ _ _ => authorizeFrame_of_runs hlive, fun _ _ _ => tokenFrame_of_runs hlive hkey⟩

end

/-- A refresh grant without a client id and with a token of core's own. -/
def bareRefreshForm : MultiDict :=
  [(str "grant_type", str "refresh_token"), (str "refresh_token", str "core-token"),
    (str "refresh_token", str "espmcp-rt-x")]

theorem forwards_frame_bareRefresh :
    letI := asciiRuntime
    TokenFrame (oauthCfg (haModeCfg [1])) [1] bareRefreshForm []
      (.ok (redirectIntoCore (str "/auth/token"))) := by
  let := asciiRuntime
  have hpost : tokenPost (some (oauthCfg (haModeCfg [1]))) (some bareRefreshForm) =
      .ret (redirectIntoCore (str "/auth/token")) := rfl
  refine (forwards_frame rfl rfl).2 bareRefreshForm [] _ ?_
  rw [hpost]
  exact .ret _

end EsphomeMcp.OAuth
