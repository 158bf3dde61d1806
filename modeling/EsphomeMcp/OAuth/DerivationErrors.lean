import EsphomeMcp.OAuth.Continuity
import EsphomeMcp.OAuth.SendErrors

/-!
# What deriving an identity raises

A request that carries no envelope is sent on under what the registration of its client comes to.
The registration is signed in the client id, in a form no URL has, or is looked up.
-/

namespace EsphomeMcp.OAuth

open Py Py.Prog

section

variable [Runtime]

/-! ## Requests and registrations -/

/-- The client id of a form. -/
def clientOf (form : MultiDict) : Str := form.getD (str "client_id")

/-- The redirect of a form. -/
def redirectOf (form : MultiDict) : Str := form.getD (str "redirect_uri")

/-- A refresh that names no redirect. -/
def IsBare (form : MultiDict) : Prop :=
  form.getD (str "grant_type") = str "refresh_token" ∧ redirectOf form = []

/-- A refresh whose token is an envelope for a key. -/
structure IsEnveloped (cfg : OAuthCfg) (key : Bytes) (form : MultiDict) : Prop where
  grant : IsRefreshGrant form
  key : cfg.dcrSigningKey = some key
  token : startsWith (form.getD refreshTokenKey) refreshEnvelopePrefix = true

/-- A request that names a client and neither revokes nor carries an envelope. -/
structure IsDerived (cfg : OAuthCfg) (form : MultiDict) : Prop where
  action : form.lookup (str "action") ≠ some (str "revoke")
  token : ∀ key, ¬IsEnveloped cfg key form
  client : clientOf form ≠ []

/-- The redirect of a request is compared with what is registered for its client. -/
def IsAsked (clientId redirectUri : Str) : Prop :=
  isValidRedirectUri redirectUri = true ∧ (urlparse clientId).isSome = true ∧
    ¬SameOriginAtCore clientId redirectUri

/-- A document is looked up for the client id. -/
def IsLookedUp (cfg : OAuthCfg) (clientId : Str) : Prop :=
  IsHttps clientId ∧ cfg.cimdSession.isSome = true

/-- What the registration of a client can come to: the list signed in the client id, or any that
a lookup returns. -/
def MayRegister (cfg : OAuthCfg) (clientId : Str) (registered : List Str) : Prop :=
  dcrRedirects cfg.dcrSigningKey clientId = .ok (some registered) ∨
    IsLookedUp cfg clientId ∧ IsListed registered

/-- The client id is signed around JSON that is nested too deeply. -/
def SignsTooDeep (cfg : OAuthCfg) (clientId : Str) : Prop :=
  ∃ key, cfg.dcrSigningKey = some key ∧ startsWith clientId clientIdPrefix = true ∧
    IsTooDeep key [] (clientId.drop clientIdPrefix.length)

/-- The registration that is signed in the client id cannot be read, or holds a redirect that
cannot. -/
def RegistrationRaises (cfg : OAuthCfg) (form : MultiDict) : Prop :=
  (IsBare form ∨ IsAsked (clientOf form) (redirectOf form)) ∧ SignsTooDeep cfg (clientOf form) ∨
    ∃ registered, dcrRedirects cfg.dcrSigningKey (clientOf form) = .ok (some registered) ∧
      (IsBare form ∧ (∃ uri ∈ registered, IsUnusable uri) ∨
        IsAsked (clientOf form) (redirectOf form) ∧ StopsMatching registered (redirectOf form))

/-- The client ids under which a request can be sent on to core by the component: the origin that
its client's registration comes to, or its own where the answer is to be wrapped. -/
inductive SentUnder (cfg : OAuthCfg) (form : MultiDict) : Str → Prop
  | bare {registered : List Str} {origin : Str} : IsBare form →
      MayRegister cfg (clientOf form) registered →
      refreshIdentity registered (clientOf form) = .ok (.origin origin) → origin ≠ clientOf form →
      SentUnder cfg form origin
  | asked {registered : List Str} {origin : Str} :
      IsAsked (clientOf form) (redirectOf form) → MayRegister cfg (clientOf form) registered →
      redirectMatches registered (redirectOf form) = .ok true →
      originClientId (redirectOf form) = .ok origin → origin ≠ clientOf form →
      SentUnder cfg form origin
  | wrapped : form.getD (str "grant_type") = str "authorization_code" →
      cfg.dcrSigningKey.isSome = true → IsLookedUp cfg (clientOf form) →
      SentUnder cfg form (clientOf form)

/-! ## Consulting a registration -/

/-- How a program ends that uses the registration of a client, if it finds one. -/
def Consults {α : Type} (cfg : OAuthCfg) (clientId : Str) (used : List Str → Except PyError α)
    (unused : α) (out : Except OAuthError α) : Prop :=
  (∃ e, dcrRedirects cfg.dcrSigningKey clientId = .error e ∧ out = .error (.py e)) ∨
    (∃ registered, MayRegister cfg clientId registered ∧
      out = (used registered).mapError .py) ∨
    dcrRedirects cfg.dcrSigningKey clientId = .ok none ∧ out = .ok unused

section

variable {cfg : OAuthCfg} {clientId redirectUri : Str}

/-- What follows a lookup goes on with nothing or with a list that is accepted. -/
theorem can_lookup_iff {α : Type} {used : List Str → Except PyError α} {unused : α}
    {k : Option (List Str) → ViewProg α} {out : Except OAuthError α}
    (hfound : ∀ registered, k (some registered) =
      Prog.ofExcept ((used registered).mapError OAuthError.py))
    (hnone : k none = ret unused) :
    Can Assumed (Prog.bind (lookupRedirects clientId) k) out ↔
      (∃ registered, IsListed registered ∧ out = (used registered).mapError .py) ∨
        out = .ok unused := by
  rw [can_bind_iff]
  simp only [can_lookupRedirects_iff]
  constructor
  · rintro (⟨found, hfetched | ⟨registered, hlisted, hfetched⟩, hout⟩ | ⟨e, hfetched, rfl⟩)
    · obtain rfl := Except.ok.inj hfetched
      rw [hnone, can_ret_iff] at hout
      exact .inr hout
    · obtain rfl := Except.ok.inj hfetched
      rw [hfound, can_ofExcept_iff] at hout
      exact .inl ⟨registered, hlisted, hout⟩
    · rcases hfetched with hfetched | ⟨_, -, hfetched⟩ <;> cases hfetched
  · rintro (⟨registered, hlisted, hout⟩ | hout)
    · refine .inl ⟨_, .inr ⟨registered, hlisted, rfl⟩, ?_⟩
      rw [hfound, can_ofExcept_iff]
      exact hout
    · refine .inl ⟨_, .inl rfl, ?_⟩
      rw [hnone, can_ret_iff]
      exact hout

/-- A client id whose document is looked up signs nothing. -/
theorem dcrRedirects_of_https (hhttps : IsHttps clientId) (dcrKey : Option Bytes) :
    dcrRedirects dcrKey clientId = .ok none := by
  obtain ⟨client, hclient, hscheme⟩ := hhttps
  cases dcrKey with
  | none => rfl
  | some key =>
    have hpre : ¬startsWith clientId clientIdPrefix = true :=
      fun hpre => scheme_ne_https_of_prefix hpre hclient hscheme
    rw [dcrRedirects, clientRedirectUris, if_neg hpre]

theorem consults_of_error {α : Type} {used : List Str → Except PyError α} {unused : α}
    {out : Except OAuthError α} {e : PyError}
    (hdcr : dcrRedirects cfg.dcrSigningKey clientId = .error e) :
    Consults cfg clientId used unused out ↔ out = .error (.py e) := by
  have hnot (registered : List Str) : ¬MayRegister cfg clientId registered := by
    rintro (hsome | ⟨⟨hhttps, -⟩, -⟩)
    · cases hdcr.symm.trans hsome
    · cases hdcr.symm.trans (dcrRedirects_of_https hhttps _)
  simp [Consults, hdcr, hnot]

/-- A list that is signed in the client id is the one that is used. -/
theorem consults_of_signed {α : Type} {used : List Str → Except PyError α} {unused : α}
    {out : Except OAuthError α} {registered : List Str}
    (hdcr : dcrRedirects cfg.dcrSigningKey clientId = .ok (some registered)) :
    Consults cfg clientId used unused out ↔ out = (used registered).mapError .py := by
  have hiff (other : List Str) : MayRegister cfg clientId other ↔ other = registered := by
    constructor
    · rintro (hsome | ⟨⟨hhttps, -⟩, -⟩)
      · exact (Option.some.inj (Except.ok.inj (hdcr.symm.trans hsome))).symm
      · cases hdcr.symm.trans (dcrRedirects_of_https hhttps _)
    · rintro rfl
      exact .inl hdcr
  simp [Consults, hdcr, hiff]

/-- Without one, a list is used that a lookup returns, or none. -/
theorem consults_of_unsigned {α : Type} {used : List Str → Except PyError α} {unused : α}
    {out : Except OAuthError α}
    (hdcr : dcrRedirects cfg.dcrSigningKey clientId = .ok none) :
    Consults cfg clientId used unused out ↔
      IsLookedUp cfg clientId ∧
        (∃ registered, IsListed registered ∧ out = (used registered).mapError .py) ∨
      out = .ok unused := by
  simp [Consults, hdcr, MayRegister, and_assoc]

theorem isLookedUp_iff {client : ParseResult} (hclient : urlparse clientId = some client) :
    IsLookedUp cfg clientId ↔ (client.scheme = str "https" && cfg.cimdSession.isSome) = true := by
  rw [Bool.and_eq_true, decide_eq_true_eq]
  constructor
  · rintro ⟨⟨client', hclient', hscheme⟩, hsession⟩
    obtain rfl := Option.some.inj (hclient.symm.trans hclient')
    exact ⟨hscheme, hsession⟩
  · exact fun h => ⟨⟨client, hclient, h.1⟩, h.2⟩

/-- A program that uses a list, once it is known whether one is signed. -/
theorem can_consult_iff {α : Type} {used : List Str → Except PyError α} {unused : α}
    {k : Option (List Str) → ViewProg α} {out : Except OAuthError α}
    (hfound : ∀ registered, k (some registered) =
      Prog.ofExcept ((used registered).mapError OAuthError.py))
    (hnone : Can Assumed (k none) out ↔ IsLookedUp cfg clientId ∧
      (∃ registered, IsListed registered ∧ out = (used registered).mapError .py) ∨
        out = .ok unused) :
    Can Assumed (Prog.bind (Prog.ofExcept ((dcrRedirects cfg.dcrSigningKey clientId).mapError
      OAuthError.py)) k) out ↔ Consults cfg clientId used unused out := by
  cases hdcr : dcrRedirects cfg.dcrSigningKey clientId with
  | error e =>
    rw [consults_of_error hdcr]
    exact can_raise_iff
  | ok found =>
    simp only [Except.mapError, ofExcept_ok, bind_ret]
    cases found with
    | some registered =>
      rw [consults_of_signed hdcr, hfound]
      exact can_ofExcept_iff
    | none =>
      rw [consults_of_unsigned hdcr]
      exact hnone

/-- The derivation from a registration alone. -/
theorem can_translated_iff {out : Except OAuthError RefreshIdentity} :
    Can Assumed (translatedClientIdForRefresh lookupRedirects cfg.cimdSession.isSome
        cfg.dcrSigningKey clientId) out ↔
      Consults cfg clientId (refreshIdentity · clientId) .passthrough out := by
  refine can_consult_iff (fun _ => rfl) ?_
  cases hclient : urlparse clientId with
  | none =>
    have hnot : ¬IsLookedUp cfg clientId := by
      rintro ⟨⟨client, hsome, -⟩, -⟩
      cases hclient.symm.trans hsome
    simp [hnot]
  | some client =>
    rw [isLookedUp_iff hclient]
    simp only
    by_cases hfetch : (client.scheme = str "https" && cfg.cimdSession.isSome) = true
    · rw [if_pos hfetch, and_iff_right hfetch]
      exact can_lookup_iff (fun _ => rfl) rfl
    · rw [if_neg hfetch]
      simp [hfetch]

/-- The derivation from a registration and a redirect. -/
theorem can_resolve_iff (hne : clientId ≠ []) (hasked : IsAsked clientId redirectUri)
    {out : Except OAuthError Str} :
    Can Assumed (resolveForwardClientId lookupRedirects cfg.cimdSession.isSome cfg.dcrSigningKey
        clientId redirectUri) out ↔
      Consults cfg clientId (translationFor · clientId redirectUri) clientId out := by
  obtain ⟨hvalid, hparses, hcross⟩ := hasked
  obtain ⟨client, hclient⟩ := Option.isSome_iff_exists.mp hparses
  obtain ⟨req, hostname, port, hreq⟩ := exists_isRedirect hvalid
  have hsame : ¬isSameOriginPair client req = true := by
    rw [isSameOriginPair_iff hreq hclient]
    exact hcross
  have hok : ¬(decide (clientId = []) || !isValidRedirectUri redirectUri) = true := by
    simp [hne, hvalid]
  rw [resolveForwardClientId, if_neg hok, hreq.parse, hclient]
  simp only [if_neg hsame]
  -- from here on it is the derivation without a redirect, over what this redirect matches
  refine can_consult_iff (fun _ => rfl) ?_
  rw [isLookedUp_iff hclient]
  simp only
  by_cases hfetch : (client.scheme = str "https" && cfg.cimdSession.isSome) = true
  · rw [if_pos hfetch, and_iff_right hfetch]
    exact can_lookup_iff (fun _ => rfl) rfl
  · rw [if_neg hfetch]
    simp [hfetch]

/-- A redirect that is not compared leaves the client id as it is. -/
theorem resolve_of_not_asked (hnot : ¬IsAsked clientId redirectUri) :
    resolveForwardClientId lookupRedirects cfg.cimdSession.isSome cfg.dcrSigningKey clientId
      redirectUri = ret clientId := by
  rw [resolveForwardClientId]
  split_ifs with hinvalid
  · rfl
  simp only [Bool.or_eq_true, decide_eq_true_eq, Bool.not_eq_true', not_or,
    Bool.not_eq_false] at hinvalid
  obtain ⟨req, hostname, port, hreq⟩ := exists_isRedirect hinvalid.2
  rw [hreq.parse]
  cases hclient : urlparse clientId with
  | none => rfl
  | some client =>
    have hsame : SameOriginAtCore clientId redirectUri := by
      by_contra hcross
      exact hnot ⟨hinvalid.2, by rw [hclient]; rfl, hcross⟩
    simp only [if_pos ((isSameOriginPair_iff hreq hclient).mpr hsame)]
    rfl

/-- Reading a client id fails only where it signs JSON that is too deep. -/
theorem dcrRedirects_error_iff :
    (∃ e, dcrRedirects cfg.dcrSigningKey clientId = .error e) ↔ SignsTooDeep cfg clientId := by
  rw [SignsTooDeep]
  cases cfg.dcrSigningKey with
  | none => simp [dcrRedirects]
  | some key =>
    simp only [dcrRedirects, clientRedirectUris, Option.some.injEq, exists_eq_left']
    by_cases hpre : startsWith clientId clientIdPrefix = true
    · rw [if_pos hpre, and_iff_right hpre]
      cases hpayload : verifiedPayload key [] (clientId.drop clientIdPrefix.length) with
      | error e => exact iff_of_true ⟨e, rfl⟩ (verifiedPayload_error_iff.mp hpayload).2
      | ok payload =>
        refine iff_of_false (by simp [Except.map]) fun hdeep => ?_
        cases hpayload.symm.trans (verifiedPayload_error_iff.mpr ⟨rfl, hdeep⟩)
    · simp [hpre]

/-- A registration that is looked up makes no trouble. -/
theorem consults_error_iff {α : Type} {used : List Str → Except PyError α} {unused : α}
    (hlisted : ∀ registered, IsListed registered → ∀ e, used registered ≠ .error e) :
    (∃ e, Consults cfg clientId used unused (.error e)) ↔ SignsTooDeep cfg clientId ∨
      ∃ registered, dcrRedirects cfg.dcrSigningKey clientId = .ok (some registered) ∧
        ∃ e, used registered = .error e := by
  have herror (registered : List Str) : (∃ e : OAuthError, .error e =
      (used registered).mapError OAuthError.py) ↔ ∃ e, used registered = .error e := by
    cases used registered <;> simp [Except.mapError]
  rw [← dcrRedirects_error_iff]
  cases hdcr : dcrRedirects cfg.dcrSigningKey clientId with
  | error e => simp [consults_of_error hdcr]
  | ok found =>
    cases found with
    | some registered => simp [consults_of_signed hdcr, herror]
    | none =>
      simp only [consults_of_unsigned hdcr]
      refine iff_of_false ?_ (by simp)
      rintro ⟨e, ⟨-, registered, hlist, he⟩ | he⟩
      · obtain ⟨e', he'⟩ := (herror registered).mp ⟨e, he⟩
        exact hlisted registered hlist e' he'
      · cases he

/-- A value of its own comes from a list. -/
theorem consults_ok_iff {α : Type} {used : List Str → Except PyError α} {unused x : α}
    (hx : x ≠ unused) : Consults cfg clientId used unused (.ok x) ↔
      ∃ registered, MayRegister cfg clientId registered ∧ used registered = .ok x := by
  have hok (registered : List Str) : .ok x = (used registered).mapError OAuthError.py ↔
      used registered = .ok x := by
    cases used registered <;> simp [Except.mapError, eq_comm]
  simp [Consults, hok, hx]

/-- A request for a client with a document can go on without it. -/
theorem consults_unused {α : Type} {used : List Str → Except PyError α} {unused : α}
    (hlooked : IsLookedUp cfg clientId) : Consults cfg clientId used unused (.ok unused) :=
  .inr (.inr ⟨dcrRedirects_of_https hlooked.1 _, rfl⟩)

theorem refreshIdentity_of_listed {registered : List Str} {clientId : Str}
    (h : IsListed registered) (e : PyError) : refreshIdentity registered clientId ≠ .error e := by
  intro he
  obtain ⟨uri, huri, hunusable⟩ := refreshIdentity_error_iff.mp ⟨e, he⟩
  exact not_isUnusable_of_valid (h.accepted uri huri) hunusable

theorem translationFor_of_listed {registered : List Str} {clientId redirectUri : Str}
    (hvalid : isValidRedirectUri redirectUri = true) (h : IsListed registered) (e : PyError) :
    translationFor registered clientId redirectUri ≠ .error e :=
  fun he => not_stopsMatching_of_valid h.accepted ((translationFor_error_iff hvalid).mp ⟨e, he⟩)

/-- Another client id is the origin of a redirect that matches. -/
theorem translationFor_ok_iff {registered : List Str} {clientId redirectUri forwardId : Str}
    (hne : forwardId ≠ clientId) : translationFor registered clientId redirectUri = .ok forwardId ↔
      redirectMatches registered redirectUri = .ok true ∧
        originClientId redirectUri = .ok forwardId := by
  rw [translationFor]
  cases redirectMatches registered redirectUri with
  | error e =>
    refine iff_of_false (fun h => ?_) (by simp)
    cases h
  | ok isMatch =>
    rw [except_ok_bind]
    cases isMatch with
    | true => simp
    | false => simp [pure, Except.pure, hne.symm]

/-- What a refresh without a redirect fails on. -/
theorem can_translated_error_iff :
    (∃ e, Can Assumed (translatedClientIdForRefresh lookupRedirects cfg.cimdSession.isSome
      cfg.dcrSigningKey clientId) (.error e)) ↔ SignsTooDeep cfg clientId ∨
        ∃ registered, dcrRedirects cfg.dcrSigningKey clientId = .ok (some registered) ∧
          ∃ uri ∈ registered, IsUnusable uri := by
  simp only [can_translated_iff, consults_error_iff fun _ => refreshIdentity_of_listed,
    refreshIdentity_error_iff]

/-- What a request with a redirect fails on. -/
theorem can_resolve_error_iff (hne : clientId ≠ []) :
    (∃ e, Can Assumed (resolveForwardClientId lookupRedirects cfg.cimdSession.isSome
      cfg.dcrSigningKey clientId redirectUri) (.error e)) ↔ IsAsked clientId redirectUri ∧
        (SignsTooDeep cfg clientId ∨
          ∃ registered, dcrRedirects cfg.dcrSigningKey clientId = .ok (some registered) ∧
            StopsMatching registered redirectUri) := by
  by_cases hasked : IsAsked clientId redirectUri
  · simp only [can_resolve_iff hne hasked, and_iff_right hasked,
      consults_error_iff fun _ => translationFor_of_listed hasked.1,
      translationFor_error_iff hasked.1]
  · simp [resolve_of_not_asked hasked, hasked]

theorem can_resolve_ok_iff {forwardId : Str} (hne : clientId ≠ []) (hother : forwardId ≠ clientId) :
    Can Assumed (resolveForwardClientId lookupRedirects cfg.cimdSession.isSome
      cfg.dcrSigningKey clientId redirectUri) (.ok forwardId) ↔ IsAsked clientId redirectUri ∧
        ∃ registered, MayRegister cfg clientId registered ∧
          redirectMatches registered redirectUri = .ok true ∧
            originClientId redirectUri = .ok forwardId := by
  by_cases hasked : IsAsked clientId redirectUri
  · simp only [can_resolve_iff hne hasked, and_iff_right hasked, consults_ok_iff hother,
      translationFor_ok_iff hother]
  · simp [resolve_of_not_asked hasked, hasked, hother]

/-- A document that is not found leaves the client id as it is. -/
theorem can_resolve_self (hne : clientId ≠ []) (hlooked : IsLookedUp cfg clientId) :
    Can Assumed (resolveForwardClientId lookupRedirects cfg.cimdSession.isSome
      cfg.dcrSigningKey clientId redirectUri) (.ok clientId) := by
  by_cases hasked : IsAsked clientId redirectUri
  · exact (can_resolve_iff hne hasked).mpr (consults_unused hlooked)
  · rw [resolve_of_not_asked hasked]
    exact can_ret_iff.mpr rfl

/-! ## The code leg -/

/-- A list that a lookup can return, and that names no origin. -/
theorem exists_isListed_unreproducible (clientId : Str) :
    ∃ registered, IsListed registered ∧
      refreshIdentity registered clientId = .ok .unreproducible := by
  have hparse : urlparse (str "http://localhost") =
      some ⟨str "http", str "localhost", [], [], [], []⟩ :=
    urlparse_origin (.inl rfl) (by decide)
  have hhost : ParseResult.hostname ⟨str "http", str "localhost", [], [], [], []⟩ =
      some (str "localhost") := by
    show some (lower (str "localhost")) = _
    rw [lower_ascii (by decide)]
    rfl
  have hredirect : IsRedirect (str "http://localhost") _ (str "localhost") none :=
    ⟨hparse, hhost, rfl, by decide, .inl rfl⟩
  have hvalid : ∀ uri ∈ [str "http://localhost"], isValidRedirectUri uri = true :=
    List.forall_mem_singleton.mpr
      (hredirect.isValidRedirectUri_iff.mpr ⟨by decide, fun _ => rfl, rfl⟩)
  refine ⟨_, ⟨List.cons_ne_nil _ _, hvalid⟩,
    refreshIdentity_of_unreproducible (List.cons_ne_nil _ _) hvalid clientId fun h => ?_⟩
  exact h.1 _ (List.mem_singleton_self _) (hredirect.isLoopbackUri_iff.mpr rfl)

/-- The code leg raises nothing. -/
theorem not_can_codeLegForcesProxy_error (e : OAuthError) :
    ¬Can Assumed (codeLegForcesProxy cfg cfg.dcrSigningKey clientId) (.error e) := by
  intro he
  unfold codeLegForcesProxy at he
  split at he
  · cases can_ret_iff.mp he
  next key hkey =>
  split at he
  · cases can_ret_iff.mp he
  next client hclient =>
  split_ifs at he with hscheme
  · cases can_ret_iff.mp he
  · rw [← hkey] at he
    obtain ⟨e', he'⟩ := (can_bind_error_iff fun _ _ hret => by cases can_ret_iff.mp hret).mp ⟨e, he⟩
    rcases can_translated_error_iff.mp ⟨e', he'⟩ with ⟨_, -, hpre, -⟩ | ⟨registered, hdcr, -⟩
    · exact scheme_ne_https_of_prefix hpre hclient (not_not.mp hscheme)
    · cases hdcr.symm.trans (dcrRedirects_of_https ⟨client, hclient, not_not.mp hscheme⟩ _)

/-- It asks for a proxy where a document can be found. -/
theorem can_codeLegForcesProxy_iff :
    Can Assumed (codeLegForcesProxy cfg cfg.dcrSigningKey clientId) (.ok true) ↔
      cfg.dcrSigningKey.isSome = true ∧ IsLookedUp cfg clientId := by
  cases hkey : cfg.dcrSigningKey with
  | none => simp [codeLegForcesProxy]
  | some key =>
    have hunreproducible : Can Assumed (translatedClientIdForRefresh lookupRedirects
        cfg.cimdSession.isSome (some key) clientId) (.ok .unreproducible) ↔
        ∃ registered, MayRegister cfg clientId registered ∧
          refreshIdentity registered clientId = .ok .unreproducible := by
      rw [← hkey, can_translated_iff, consults_ok_iff (by simp)]
    simp only [codeLegForcesProxy, Option.isSome_some, true_and]
    cases hclient : urlparse clientId with
    | none =>
      refine iff_of_false (by simp) fun hlooked => ?_
      obtain ⟨client, hsome, -⟩ := hlooked.1
      cases hclient.symm.trans hsome
    | some client =>
      simp only
      split_ifs with hscheme
      · refine iff_of_false (by simp) fun hlooked => ?_
        obtain ⟨client', hsome, hhttps⟩ := hlooked.1
        obtain rfl := Option.some.inj (hclient.symm.trans hsome)
        exact hscheme hhttps
      · have hhttps : IsHttps clientId := ⟨client, hclient, not_not.mp hscheme⟩
        constructor
        · intro htrue
          rcases can_bind_iff.mp htrue with ⟨d, hd, hret⟩ | ⟨e, -, he⟩
          · have hsame := Except.ok.inj (can_ret_iff.mp hret)
            obtain rfl := decide_eq_true_eq.mp hsame.symm
            obtain ⟨registered, hsigned | ⟨hlooked, -⟩, -⟩ := hunreproducible.mp hd
            · cases hsigned.symm.trans (dcrRedirects_of_https hhttps _)
            · exact hlooked
          · cases he
        · intro hlooked
          obtain ⟨registered, hlisted, hd⟩ := exists_isListed_unreproducible clientId
          refine can_bind_iff.mpr (.inl ⟨.unreproducible,
            hunreproducible.mpr ⟨registered, .inr ⟨hlooked, hlisted⟩, hd⟩, ?_⟩)
          exact can_ret_iff.mpr rfl

/-! ## The identity -/

/-- A refresh without a redirect goes on as its client or as the one origin of its list. -/
theorem can_preEnvelope_iff {clientId forwardId : Str} {proxy : Bool} :
    Can Assumed (preEnvelopeRefreshIdentity cfg cfg.dcrSigningKey clientId)
        (.ok (.identity forwardId proxy)) ↔ proxy = false ∧
      (forwardId = clientId ∧ Can Assumed (translatedClientIdForRefresh lookupRedirects
          cfg.cimdSession.isSome cfg.dcrSigningKey clientId) (.ok .passthrough) ∨
        ∃ registered, MayRegister cfg clientId registered ∧
          refreshIdentity registered clientId = .ok (.origin forwardId)) := by
  have hother : RefreshIdentity.origin forwardId ≠ .passthrough := by simp
  rw [← consults_ok_iff hother, ← can_translated_iff]
  constructor
  · intro h
    rcases can_bind_iff.mp h with ⟨d, hd, hret⟩ | ⟨e, -, he⟩
    · cases d with
      | origin origin =>
        obtain ⟨rfl, rfl⟩ := Resolved.identity.inj (Except.ok.inj (can_ret_iff.mp hret))
        exact ⟨rfl, .inr hd⟩
      | passthrough =>
        obtain ⟨rfl, rfl⟩ := Resolved.identity.inj (Except.ok.inj (can_ret_iff.mp hret))
        exact ⟨rfl, .inl ⟨rfl, hd⟩⟩
      | unreproducible => cases can_ret_iff.mp hret
    · cases he
  · rintro ⟨rfl, ⟨rfl, hd⟩ | hd⟩
    · exact can_bind_iff.mpr (.inl ⟨_, hd, can_ret_iff.mpr rfl⟩)
    · exact can_bind_iff.mpr (.inl ⟨_, hd, can_ret_iff.mpr rfl⟩)

end

section

variable {cfg : OAuthCfg} {form : MultiDict}

theorem IsBare.not_asked (h : IsBare form) {clientId : Str} :
    ¬IsAsked clientId (redirectOf form) := by
  rintro ⟨hvalid, -⟩
  rw [h.2] at hvalid
  cases hvalid

/-- Without an envelope the form is left alone. -/
theorem envelopeIdentity_of_not_enveloped
    (haction : form.lookup (str "action") ≠ some (str "revoke"))
    (htoken : ∀ key, ¬IsEnveloped cfg key form) (clientId : Str) :
    (if form.getD (str "grant_type") = str "refresh_token" then
      envelopeIdentity cfg.dcrSigningKey form clientId else .ok (none, form)) =
      .ok (none, form) := by
  split_ifs with hgrant
  · cases hkey : cfg.dcrSigningKey with
    | none => rfl
    | some key =>
      have hpre : ¬startsWith (form.getD refreshTokenKey) refreshEnvelopePrefix = true :=
        fun hpre => htoken key ⟨⟨haction, hgrant⟩, hkey, hpre⟩
      have habsent : unwrapRefreshToken key (form.getD refreshTokenKey) (some clientId) =
          .ok .absent := by
        rw [unwrapRefreshToken, if_neg hpre]
      simp only [envelopeIdentity, habsent]
      rfl
  · rfl

/-- The identity of a refresh that names no redirect. -/
theorem IsDerived.identity_of_bare (h : IsDerived cfg form) (hbare : IsBare form) :
    haAuthForwardIdentity cfg form (clientOf form) cfg.dcrSigningKey =
      Prog.bind (preEnvelopeRefreshIdentity cfg cfg.dcrSigningKey (clientOf form))
        fun resolved => ret (resolved, form) := by
  have hredirect : form.getD (str "redirect_uri") = [] := hbare.2
  rw [haAuthForwardIdentity, if_neg h.action, envelopeIdentity_of_not_enveloped h.action h.token]
  simp only [pureCall_ok, bind_eq, bind_ret, pure_eq, if_neg h.client, hbare.1, hredirect,
    decide_true, Bool.and_self, if_true]

/-- The identity of any other request that is derived. -/
theorem IsDerived.identity_of_not_bare (h : IsDerived cfg form) (hbare : ¬IsBare form) :
    haAuthForwardIdentity cfg form (clientOf form) cfg.dcrSigningKey =
      Prog.bind (resolveForwardClientId lookupRedirects cfg.cimdSession.isSome cfg.dcrSigningKey
        (clientOf form) (redirectOf form)) fun forwardId =>
        if form.getD (str "grant_type") = str "authorization_code" && forwardId = clientOf form then
          Prog.bind (codeLegForcesProxy cfg cfg.dcrSigningKey (clientOf form))
            fun proxy => ret (.identity (clientOf form) proxy, form)
        else ret (.identity forwardId false, form) := by
  have hnot : ¬(decide (form.getD (str "grant_type") = str "refresh_token") &&
      decide (form.getD (str "redirect_uri") = [])) = true := by
    rw [Bool.and_eq_true, decide_eq_true_eq, decide_eq_true_eq]
    exact hbare
  rw [haAuthForwardIdentity, if_neg h.action, envelopeIdentity_of_not_enveloped h.action h.token]
  simp only [pureCall_ok, bind_eq, bind_ret, pure_eq, if_neg h.client, if_neg hnot]
  rfl

/-- A derivation fails on the registration and on nothing else. -/
theorem IsDerived.identity_error_iff (h : IsDerived cfg form) :
    (∃ e, Can Assumed (haAuthForwardIdentity cfg form (clientOf form) cfg.dcrSigningKey)
      (.error e)) ↔ RegistrationRaises cfg form := by
  by_cases hbare : IsBare form
  · have hpre : (∃ e, Can Assumed (preEnvelopeRefreshIdentity cfg cfg.dcrSigningKey
        (clientOf form)) (.error e)) ↔ _ :=
      (can_bind_error_iff fun d _ hret => by cases d <;> cases can_ret_iff.mp hret).trans
        can_translated_error_iff
    rw [h.identity_of_bare hbare,
      can_bind_error_iff (fun _ _ hret => by cases can_ret_iff.mp hret), hpre, RegistrationRaises]
    simp [hbare, hbare.not_asked]
  · rw [h.identity_of_not_bare hbare, can_bind_error_iff, can_resolve_error_iff h.client,
      RegistrationRaises]
    · simp only [hbare, false_or, false_and]
      rw [and_or_left]
      refine or_congr_right ?_
      constructor
      · rintro ⟨hasked, registered, hdcr, hstops⟩
        exact ⟨registered, hdcr, hasked, hstops⟩
      · rintro ⟨registered, hdcr, hasked, hstops⟩
        exact ⟨hasked, registered, hdcr, hstops⟩
    · intro forwardId e he
      split_ifs at he
      · obtain ⟨e', he'⟩ :=
          (can_bind_error_iff fun _ _ hret => by cases can_ret_iff.mp hret).mp ⟨e, he⟩
        exact not_can_codeLegForcesProxy_error e' he'
      · cases can_ret_iff.mp he

theorem IsDerived.identity_ok_iff_of_bare (h : IsDerived cfg form) (hbare : IsBare form)
    {forwardId : Str}
    {proxy : Bool} {form' : MultiDict} :
    (Can Assumed (haAuthForwardIdentity cfg form (clientOf form) cfg.dcrSigningKey)
      (.ok (.identity forwardId proxy, form')) ∧ (forwardId = clientOf form → proxy = true)) ↔
      form' = form ∧ (proxy = true ↔ forwardId = clientOf form) ∧
        SentUnder cfg form forwardId := by
  rw [h.identity_of_bare hbare]
  constructor
  · rintro ⟨hcan, hproxy⟩
    rcases can_bind_iff.mp hcan with ⟨resolved, hresolved, hret⟩ | ⟨e, -, he⟩
    · obtain ⟨rfl, rfl⟩ := Prod.mk.inj (Except.ok.inj (can_ret_iff.mp hret))
      obtain ⟨rfl, ⟨rfl, -⟩ | ⟨registered, hmay, hd⟩⟩ := can_preEnvelope_iff.mp hresolved
      · cases hproxy rfl
      · have hne : forwardId ≠ clientOf form' := fun hsame => Bool.false_ne_true (hproxy hsame)
        exact ⟨rfl, by simp [hne], .bare hbare hmay hd hne⟩
    · cases he
  · rintro ⟨rfl, hproxy, hsent⟩
    cases hsent with
    | bare _ hmay hd hne =>
      obtain rfl : proxy = false := Bool.eq_false_iff.mpr (mt hproxy.mp hne)
      refine ⟨can_bind_iff.mpr (.inl ⟨_, ?_, can_ret_iff.mpr rfl⟩), fun hsame => absurd hsame hne⟩
      exact can_preEnvelope_iff.mpr ⟨rfl, .inr ⟨_, hmay, hd⟩⟩
    | asked hasked => exact absurd hasked hbare.not_asked
    | wrapped hcode => cases hbare.1.symm.trans hcode

theorem IsDerived.identity_ok_iff_of_not_bare (h : IsDerived cfg form) (hbare : ¬IsBare form)
    {forwardId : Str}
    {proxy : Bool} {form' : MultiDict} :
    (Can Assumed (haAuthForwardIdentity cfg form (clientOf form) cfg.dcrSigningKey)
      (.ok (.identity forwardId proxy, form')) ∧ (forwardId = clientOf form → proxy = true)) ↔
      form' = form ∧ (proxy = true ↔ forwardId = clientOf form) ∧
        SentUnder cfg form forwardId := by
  rw [h.identity_of_not_bare hbare]
  constructor
  · rintro ⟨hcan, hproxy⟩
    rcases can_bind_iff.mp hcan with ⟨forwarded, hforwarded, hrest⟩ | ⟨e, -, he⟩
    · -- an id that stays the client's own is proxied where the code leg asks for it, and only there
      split_ifs at hrest with hcode
      · rw [Bool.and_eq_true, decide_eq_true_eq, decide_eq_true_eq] at hcode
        rcases can_bind_iff.mp hrest with ⟨forced, hforced, hret⟩ | ⟨e, -, he⟩
        · obtain ⟨hidentity, rfl⟩ := Prod.mk.inj (Except.ok.inj (can_ret_iff.mp hret))
          obtain ⟨rfl, rfl⟩ := Resolved.identity.inj hidentity
          obtain rfl := hproxy rfl
          obtain ⟨hkey, hlooked⟩ := can_codeLegForcesProxy_iff.mp hforced
          exact ⟨rfl, by simp, .wrapped hcode.1 hkey hlooked⟩
        · cases he
      · obtain ⟨hidentity, rfl⟩ := Prod.mk.inj (Except.ok.inj (can_ret_iff.mp hrest))
        obtain ⟨rfl, rfl⟩ := Resolved.identity.inj hidentity
        have hne : forwardId ≠ clientOf form' := fun hsame => Bool.false_ne_true (hproxy hsame)
        obtain ⟨hasked, registered, hmay, hmatch, horigin⟩ :=
          (can_resolve_ok_iff h.client hne).mp hforwarded
        exact ⟨rfl, by simp [hne], .asked hasked hmay hmatch horigin hne⟩
    · cases he
  · rintro ⟨rfl, hproxy, hsent⟩
    cases hsent with
    | bare hbare' => exact absurd hbare' hbare
    | asked hasked hmay hmatch horigin hne =>
      obtain rfl : proxy = false := Bool.eq_false_iff.mpr (mt hproxy.mp hne)
      refine ⟨can_bind_iff.mpr (.inl ⟨forwardId, ?_, ?_⟩), fun hsame => absurd hsame hne⟩
      · exact (can_resolve_ok_iff h.client hne).mpr ⟨hasked, _, hmay, hmatch, horigin⟩
      · rw [if_neg (by simp [hne])]
        exact can_ret_iff.mpr rfl
    | wrapped hcode hkey hlooked =>
      obtain rfl := hproxy.mpr rfl
      refine ⟨can_bind_iff.mpr (.inl ⟨_, can_resolve_self h.client hlooked, ?_⟩), fun _ => rfl⟩
      rw [if_pos (by simp [hcode])]
      exact can_bind_iff.mpr (.inl
        ⟨true, can_codeLegForcesProxy_iff.mpr ⟨hkey, hlooked⟩, can_ret_iff.mpr rfl⟩)

/-- What a derived request is proxied under. -/
theorem IsDerived.identity_ok_iff (h : IsDerived cfg form) {forwardId : Str}
    {proxy : Bool} {form' : MultiDict} :
    (Can Assumed (haAuthForwardIdentity cfg form (clientOf form) cfg.dcrSigningKey)
      (.ok (.identity forwardId proxy, form')) ∧ (forwardId = clientOf form → proxy = true)) ↔
      form' = form ∧ (proxy = true ↔ forwardId = clientOf form) ∧
        SentUnder cfg form forwardId := by
  by_cases hbare : IsBare form
  · exact h.identity_ok_iff_of_bare hbare
  · exact h.identity_ok_iff_of_not_bare hbare

end

end

end EsphomeMcp.OAuth
