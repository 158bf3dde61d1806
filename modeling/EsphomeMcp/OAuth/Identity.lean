import EsphomeMcp.OAuth.CimdCache
import EsphomeMcp.OAuth.SignedRoundTrip

/-!
# The identity core sees

`resolve_forward_client_id`: the client id a call forwards to core, which is the one presented or
the origin of the redirect. The CIMD lookup is a program of its own and an argument here.
-/

namespace EsphomeMcp.OAuth

open Py Py.Prog

section

variable [Runtime]

/-! ## Definitions -/

/-- The pair is same-origin to core, so that it is forwarded untouched. -/
def isSameOriginPair (client redirect : ParseResult) : Bool :=
  (client.scheme = str "http" || client.scheme = str "https") &&
    client.scheme = redirect.scheme && lower client.netloc = lower redirect.netloc

/-- The redirects a DCR blob embeds, if there is a key to verify it with. -/
def dcrRedirects (dcrKey : Option Bytes) (clientId : Str) : Except PyError (Option (List Str)) :=
  match dcrKey with
  | some key => clientRedirectUris key clientId
  | none => .ok none

/-- `resolve_forward_client_id`. -/
def resolveForwardClientId {S : Signature}
    (fetchCimdRedirects : Str → Prog S OAuthError (Option (List Str))) (session : Bool)
    (dcrKey : Option Bytes) (clientId redirectUri : Str) : Prog S OAuthError Str :=
  if clientId = [] || !isValidRedirectUri redirectUri then return clientId
  else
    match urlparse clientId, urlparse redirectUri with
    | some parsedClient, some parsedRedirect =>
      if isSameOriginPair parsedClient parsedRedirect then return clientId
      else do
        match ← ofExcept ((dcrRedirects dcrKey clientId).mapError .py) with
        | some registered =>
          ofExcept ((translationFor registered clientId redirectUri).mapError .py)
        | none =>
          if parsedClient.scheme = str "https" && session then
            match ← fetchCimdRedirects clientId with
            | some registered =>
              ofExcept ((translationFor registered clientId redirectUri).mapError .py)
            | none => return clientId
          else return clientId
    | _, _ => return clientId

/-! ## The registration behind a client id -/

/-- A call of `resolve_forward_client_id`. -/
structure ResolveCall where
  session : Bool
  dcrKey : Option Bytes
  clientId : Str
  redirectUri : Str

/-- The list is the one in the client id, verified under the key, or the one in the document it
points at, which was validated. -/
inductive IsRegistration (call : ResolveCall) : List Str → Prop
  | dcr {key : Bytes} {registered : List Str} : call.dcrKey = some key →
      clientRedirectUris key call.clientId = .ok (some registered) → IsRegistration call registered
  | cimd {registered : List Str} : call.session = true → Validated call.clientId registered →
      IsRegistration call registered

/-- The identity a call forwards grants nothing new. -/
structure GrantsNothingNew (call : ResolveCall) (forwarded : Str) : Prop where
  unchangedOrOrigin : forwarded = call.clientId ∨ originClientId call.redirectUri = .ok forwarded
  registered : forwarded ≠ call.clientId → ∃ registered, IsRegistration call registered ∧
    redirectMatches registered call.redirectUri = .ok true
  origin : forwarded ≠ call.clientId → ∃ origin, normalizedOrigin call.redirectUri = .ok (some origin) ∧
    normalizedOrigin forwarded = .ok (some origin)
  invalid : isValidRedirectUri call.redirectUri = false → forwarded = call.clientId
  unparsed : urlparse call.clientId = none → forwarded = call.clientId

/-- A host without a colon has no bracket in it. -/
def KeepsBrackets (redirectUri : Str) : Prop :=
  ∀ req hostname, urlparse redirectUri = some req → req.hostname = some hostname →
    ch ':' ∉ hostname → ch '[' ∉ hostname ∧ ch ']' ∉ hostname

theorem keepsBrackets_iff {redirectUri hostname : Str} {req : ParseResult} {port : Option ℕ}
    (h : IsRedirect redirectUri req hostname port) :
    KeepsBrackets redirectUri ↔ (ch ':' ∉ hostname → ch '[' ∉ hostname ∧ ch ']' ∉ hostname) := by
  constructor
  · exact fun hk => hk req hostname h.parse h.hostname
  · intro hk req' hostname' hparse hhost
    obtain rfl := Option.some.inj (h.parse.symm.trans hparse)
    obtain rfl := Option.some.inj (h.hostname.symm.trans hhost)
    exact hk

/-- Of a client id that parses and whose registration is known. -/
theorem grantsNothingNew_iff_of_registration {call : ResolveCall} {registered : List Str}
    {forwarded : Str} (hvalid : isValidRedirectUri call.redirectUri = true)
    (hclient : urlparse call.clientId ≠ none) (hreg : IsRegistration call registered)
    (h : translationFor registered call.clientId call.redirectUri = .ok forwarded) :
    GrantsNothingNew call forwarded ↔
      (redirectMatches registered call.redirectUri = .ok true → KeepsBrackets call.redirectUri) := by
  obtain ⟨req, hostname, port, hreq⟩ := exists_isRedirect hvalid
  have hkeeps := keepsBrackets_iff hreq
  rw [translationFor] at h
  obtain ⟨isMatch, hmatch, h⟩ := except_bind_eq_ok h
  cases isMatch with
  | false =>
    -- an unregistered redirect passes through
    obtain rfl := Except.ok.inj h
    rw [hmatch]
    exact iff_of_true ⟨.inl rfl, fun hne => absurd rfl hne, fun hne => absurd rfl hne, fun _ => rfl,
      fun _ => rfl⟩ (by simp)
  | true =>
    rw [if_pos rfl] at h
    have horigin := hreq.originClientId_eq
    rw [h, Except.ok.injEq] at horigin
    simp only [hmatch, forall_const, hkeeps]
    constructor
    · intro hgrants
      by_cases hne : forwarded = call.clientId
      · apply hreq.noBrackets_of_checkBrackets
        by_contra hcheck
        rw [← hne, horigin, hreq.urlparse_origin, if_neg hcheck] at hclient
        exact hclient rfl
      · obtain ⟨origin, hredirect, hforwarded⟩ := hgrants.origin hne
        rw [hreq.normalizedOrigin_eq, Except.ok.injEq, Option.some.injEq] at hredirect
        rw [← hredirect, horigin] at hforwarded
        exact (hreq.normalizedOrigin_origin_iff rfl).mp hforwarded
    · intro hplain
      refine ⟨.inr h, fun _ => ⟨registered, hreg, hmatch⟩, fun _ => ⟨_, hreq.normalizedOrigin_eq, ?_⟩,
        ?_, fun hnone => absurd hnone hclient⟩
      · rw [horigin]
        exact (hreq.normalizedOrigin_origin_iff rfl).mpr hplain
      · rw [hvalid]
        intro h
        cases h

variable {T : Type} [LinearOrder T]

/-- The registration a call of `resolve_forward_client_id` translates by: the list in the client
id, or the one its lookup returned. -/
structure TranslatesBy (call : ResolveCall) (tr : List (CimdEvent T)) (registered : List Str) :
    Prop where
  clientId : call.clientId ≠ []
  valid : isValidRedirectUri call.redirectUri = true
  crossOrigin : ∀ client req, urlparse call.clientId = some client →
    urlparse call.redirectUri = some req → isSameOriginPair client req = false
  parsed : urlparse call.clientId ≠ none
  found : dcrRedirects call.dcrKey call.clientId = .ok (some registered) ∨
    dcrRedirects call.dcrKey call.clientId = .ok none ∧ call.session = true ∧
      Runs (fetchCimdRedirects call.clientId) tr (.ok (some registered))
  isMatch : redirectMatches registered call.redirectUri = .ok true

/-- A call as a thread of the event loop. -/
def resolveThread (call : ResolveCall) : CimdProg T Str :=
  resolveForwardClientId fetchCimdRedirects call.session call.dcrKey call.clientId call.redirectUri

omit [Runtime] in
theorem runs_ofExcept_mapError {S : Signature} {α : Type} {x : Except PyError α}
    {tr : List (Event S OAuthError)} {a : α}
    (h : Runs (ofExcept (x.mapError .py) : Prog S OAuthError α) tr (.ok a)) : tr = [] ∧ x = .ok a := by
  obtain ⟨rfl, hx⟩ := runs_ofExcept_iff.mp h
  cases x with
  | error e => cases hx
  | ok b => exact ⟨rfl, congrArg Except.ok (Except.ok.inj hx).symm⟩

/-- A call that forwards the client id unchanged without asking for a registration. -/
theorem grantsNothingNew_unchanged (call : ResolveCall) : GrantsNothingNew call call.clientId :=
  ⟨.inl rfl, fun h => absurd rfl h, fun h => absurd rfl h, fun _ => rfl, fun _ => rfl⟩

/-- What is shown of a call that forwards `forwarded` after `tr`. -/
def GrantsAsTranslated (call : ResolveCall) (tr : List (CimdEvent T)) (forwarded : Str) : Prop :=
  GrantsNothingNew call forwarded ↔
    ∀ registered, TranslatesBy call tr registered → KeepsBrackets call.redirectUri

/-- The call asks for a registration: the redirect is a valid one of another origin. -/
structure AsksRegistration (call : ResolveCall) : Prop where
  clientId : call.clientId ≠ []
  valid : isValidRedirectUri call.redirectUri = true
  crossOrigin : ∀ client req, urlparse call.clientId = some client →
    urlparse call.redirectUri = some req → isSameOriginPair client req = false
  parsed : urlparse call.clientId ≠ none

theorem grantsAsTranslated_unchanged {call : ResolveCall} {tr : List (CimdEvent T)}
    (hnot : ∀ registered, ¬TranslatesBy call tr registered) :
    GrantsAsTranslated call tr call.clientId :=
  iff_of_true (grantsNothingNew_unchanged call) fun registered ht => absurd ht (hnot registered)

/-- A call that translates by the one list it can translate by. -/
theorem grantsAsTranslated_of_registration {call : ResolveCall} {tr : List (CimdEvent T)}
    {registered : List Str} {forwarded : Str} (hasks : AsksRegistration call)
    (hfound : dcrRedirects call.dcrKey call.clientId = .ok (some registered) ∨
      dcrRedirects call.dcrKey call.clientId = .ok none ∧ call.session = true ∧
        Runs (fetchCimdRedirects call.clientId) tr (.ok (some registered)))
    (hone : ∀ registered', TranslatesBy call tr registered' → registered' = registered)
    (hreg : IsRegistration call registered)
    (h : translationFor registered call.clientId call.redirectUri = .ok forwarded) :
    GrantsAsTranslated call tr forwarded := by
  rw [GrantsAsTranslated, grantsNothingNew_iff_of_registration hasks.valid hasks.parsed hreg h]
  constructor
  · intro hk registered' ht
    exact hk (hone registered' ht ▸ ht.isMatch)
  · intro hk hmatch
    exact hk registered
      ⟨hasks.clientId, hasks.valid, hasks.crossOrigin, hasks.parsed, hfound, hmatch⟩

/-- The list is in the client id. -/
theorem grantsAsTranslated_of_dcr {call : ResolveCall} {tr : List (CimdEvent T)}
    {registered : List Str} {forwarded : Str} (hasks : AsksRegistration call)
    (hfound : dcrRedirects call.dcrKey call.clientId = .ok (some registered))
    (h : translationFor registered call.clientId call.redirectUri = .ok forwarded) :
    GrantsAsTranslated call tr forwarded := by
  refine grantsAsTranslated_of_registration hasks (.inl hfound) (fun registered' ht => ?_) ?_ h
  · obtain hdcr | ⟨hnone, -⟩ := ht.found
    · exact (Option.some.inj (Except.ok.inj (hfound.symm.trans hdcr))).symm
    · cases hfound.symm.trans hnone
  · unfold dcrRedirects at hfound
    split at hfound
    · next key hkey => exact .dcr hkey hfound
    · cases hfound

section

variable {call : ResolveCall} {tr : List (CimdEvent T)}

/-- Where the client id holds no list, a call can translate by what its lookup returns only. -/
theorem TranslatesBy.of_none {registered : List Str} (ht : TranslatesBy call tr registered)
    (hfound : dcrRedirects call.dcrKey call.clientId = .ok none) : call.session = true ∧
      Runs (fetchCimdRedirects call.clientId) tr (.ok (some registered)) := by
  obtain hdcr | ⟨-, hlookup⟩ := ht.found
  · cases hfound.symm.trans hdcr
  · exact hlookup

/-- The list is what the lookup returned, from a document or from the cache. -/
theorem grantsAsTranslated_of_lookup {registered : List Str} {forwarded : Str}
    (hasks : AsksRegistration call)
    (hfound : dcrRedirects call.dcrKey call.clientId = .ok none) (hsession : call.session = true)
    (hrun : Runs (fetchCimdRedirects call.clientId) tr (.ok (some registered)))
    (hreads : ∀ ev ∈ tr, ReadsValidated ev)
    (h : translationFor registered call.clientId call.redirectUri = .ok forwarded) :
    GrantsAsTranslated call tr forwarded := by
  refine grantsAsTranslated_of_registration hasks (.inr ⟨hfound, hsession, hrun⟩)
    (fun registered' ht => ?_) (.cimd hsession ?_) h
  · exact (Option.some.inj (Except.ok.inj (hrun.functional (ht.of_none hfound).2))).symm
  · obtain hvalidated | ⟨expires, hmem⟩ := fetchCimdRedirects_returns _ _ _ hrun registered rfl
    · exact hvalidated
    · exact hreads _ hmem _ _ _ rfl

/-- The lookup returned nothing. -/
theorem grantsAsTranslated_of_lookup_none
    (hfound : dcrRedirects call.dcrKey call.clientId = .ok none)
    (hrun : Runs (fetchCimdRedirects call.clientId) tr (.ok none)) :
    GrantsAsTranslated call tr call.clientId :=
  grantsAsTranslated_unchanged fun _ ht => by cases hrun.functional (ht.of_none hfound).2

/-- There was no lookup, and one that returns a list does not go without commands. -/
theorem grantsAsTranslated_of_no_lookup
    (hfound : dcrRedirects call.dcrKey call.clientId = .ok none) :
    GrantsAsTranslated (T := T) call [] call.clientId := by
  refine grantsAsTranslated_unchanged fun registered ht => ?_
  obtain hne | ⟨now, expires, htr, -⟩ :=
    (fetchCimdRedirects_pinned _ _ _ (ht.of_none hfound).2).returned registered rfl
  · exact hne rfl
  · cases htr

end

/-- One call, with what it read from the cache validated. -/
theorem resolveThread_spec (call : ResolveCall) :
    Spec (resolveThread (T := T) call) fun tr out => (∀ ev ∈ tr, ReadsValidated ev) →
      ∀ forwarded, out = .ok forwarded → GrantsAsTranslated call tr forwarded := by
  rintro tr out hrun hreads forwarded rfl
  rw [resolveThread, resolveForwardClientId] at hrun
  split_ifs at hrun with hinvalid
  · obtain ⟨-, hout⟩ := runs_ret_iff.mp hrun
    obtain rfl := Except.ok.inj hout
    refine grantsAsTranslated_unchanged fun registered ht => ?_
    simp only [Bool.or_eq_true, decide_eq_true_eq, Bool.not_eq_true', ht.clientId, ht.valid,
      or_self, reduceCtorEq] at hinvalid
  simp only [Bool.or_eq_true, decide_eq_true_eq, Bool.not_eq_true', not_or,
    Bool.not_eq_false] at hinvalid
  obtain ⟨hne, hvalid⟩ := hinvalid
  split at hrun
  case h_2 hnone =>
    -- of the two the redirect parses
    obtain ⟨-, hout⟩ := runs_ret_iff.mp hrun
    obtain rfl := Except.ok.inj hout
    refine grantsAsTranslated_unchanged fun registered ht => ?_
    obtain ⟨client, hclient⟩ := Option.ne_none_iff_exists'.mp ht.parsed
    obtain ⟨req, _, _, hreq⟩ := exists_isRedirect hvalid
    exact hnone client req hclient hreq.parse
  case h_1 client req hclient hreq =>
    by_cases hsame : isSameOriginPair client req = true
    · rw [if_pos hsame] at hrun
      obtain ⟨-, hout⟩ := runs_ret_iff.mp hrun
      obtain rfl := Except.ok.inj hout
      refine grantsAsTranslated_unchanged fun registered ht => ?_
      rw [ht.crossOrigin client req hclient hreq] at hsame
      cases hsame
    rw [if_neg hsame] at hrun
    have hasks : AsksRegistration call := by
      refine ⟨hne, hvalid, fun client' req' hclient' hreq' => ?_, by simp [hclient]⟩
      obtain rfl := Option.some.inj (hclient.symm.trans hclient')
      obtain rfl := Option.some.inj (hreq.symm.trans hreq')
      exact Bool.eq_false_iff.mpr hsame
    obtain ⟨found, tr₁, tr₂, h₁, h₂, rfl⟩ | ⟨e, -, he⟩ := runs_bind_iff.mp hrun
    · obtain ⟨rfl, hfound⟩ := runs_ofExcept_mapError h₁
      cases found with
      | some registered =>
        obtain ⟨rfl, h₃⟩ := runs_ofExcept_mapError h₂
        exact grantsAsTranslated_of_dcr hasks hfound h₃
      | none =>
        simp only at h₂
        split_ifs at h₂ with hsession
        · rw [Bool.and_eq_true, decide_eq_true_eq] at hsession
          obtain ⟨result, tr₃, tr₄, h₃, h₄, rfl⟩ | ⟨e, -, he⟩ := runs_bind_iff.mp h₂
          · cases result with
            | some registered =>
              obtain ⟨rfl, h₅⟩ := runs_ofExcept_mapError h₄
              rw [List.nil_append, List.append_nil] at hreads ⊢
              exact grantsAsTranslated_of_lookup hasks hfound hsession.2 h₃ hreads h₅
            | none =>
              obtain ⟨rfl, hout⟩ := runs_ret_iff.mp h₄
              obtain rfl := Except.ok.inj hout
              rw [List.nil_append, List.append_nil]
              exact grantsAsTranslated_of_lookup_none hfound h₃
          · cases he
        · obtain ⟨rfl, hout⟩ := runs_ret_iff.mp h₂
          obtain rfl := Except.ok.inj hout
          exact grantsAsTranslated_of_no_lookup hfound
    · cases he

/-! ## Every interleaving -/

theorem issues_resolveThread (call : ResolveCall) :
    Issues CachesValidated (resolveThread (T := T) call) := by
  rw [resolveThread, resolveForwardClientId]
  split_ifs
  · trivial
  · split
    · next client req _ _ =>
      by_cases hsame : isSameOriginPair client req = true
      · rw [if_pos hsame]
        trivial
      · rw [if_neg hsame]
        refine Issues.bind (Issues.ofExcept _) fun found => ?_
        cases found with
        | some registered => exact Issues.ofExcept _
        | none =>
          simp only
          split_ifs
          · refine Issues.bind (issues_fetchCimdRedirects _) fun result => ?_
            cases result with
            | some registered => exact Issues.ofExcept _
            | none => trivial
          · trivial
    · trivial

variable [Add T] [OfNat T 300] [OfNat T 60]

end

/-! ## Registrations minted here -/

section

variable [Runtime] {T : Type} [LinearOrder T]

omit [Runtime] in
theorem isUnreserved_mintClientId (signingKey : Bytes) (uris : List Str) (now : UnixTime) :
    (mintClientId signingKey uris now).all isUnreserved = true := by
  have hdigits (raw : Bytes) : ∀ c ∈ b64urlEncode raw, isUnreserved c = true := by
    intro c hc
    rw [b64urlEncode_eq] at hc
    have h := isB64urlDigit_b64Text raw c hc
    simp only [isB64urlDigit, Bool.or_eq_true, decide_eq_true_eq] at h
    simp only [isUnreserved, Bool.or_eq_true, decide_eq_true_eq]
    tauto
  have hpre : ∀ c ∈ clientIdPrefix, isUnreserved c = true := List.all_eq_true.mp rfl
  rw [List.all_eq_true]
  intro c hc
  simp only [mintClientId, signedBlob, blobBody, List.mem_append, List.mem_cons] at hc
  rcases hc with hc | hc | rfl | hc
  · exact hpre c hc
  · exact hdigits _ c hc
  · decide
  · exact hdigits _ c hc

/-- A client id minted here is translated by its own list, without a lookup. -/
theorem resolveThread_minted (session : Bool) (signingKey : Bytes) {uris : List Str}
    (now : UnixTime) {redirectUri forwarded : Str}
    (hvalid : isValidRedirectUri redirectUri = true) (hmem : redirectUri ∈ uris.map rejoinStr)
    (horigin : originClientId redirectUri = .ok forwarded) :
    resolveThread (T := T) ⟨session, some signingKey, mintClientId signingKey uris now, redirectUri⟩ =
      .ret forwarded := by
  obtain ⟨req, _, _, hreq⟩ := exists_isRedirect hvalid
  have hne : mintClientId signingKey uris now ≠ [] := by
    simp [mintClientId, clientIdPrefix, str]
  have hclient := urlparse_unreserved (isUnreserved_mintClientId signingKey uris now)
  have hsame : isSameOriginPair ⟨[], [], mintClientId signingKey uris now, [], [], []⟩ req = false :=
    rfl
  have hmatch : redirectMatches (uris.map rejoinStr) redirectUri = .ok true := by
    rw [redirectMatches, if_pos hmem]
  rw [resolveThread, resolveForwardClientId, if_neg (by simp [hne, hvalid]), hclient, hreq.parse]
  simp only [hsame, Bool.false_eq_true, if_false, dcrRedirects, clientRedirectUris_mintClientId,
    Except.mapError, ofExcept_ok, bind_eq, bind_ret, translationFor, hmatch, except_ok_bind, if_true,
    horigin]

end

/-- A pool in which one call has just started. -/
theorem reachable_spawn [Runtime] (call : ResolveCall) :
    Pool.Reachable (resolveThread (T := ℕ)) cimdHandle []
      ⟨[], [⟨call, [], resolveThread call⟩]⟩ :=
  Relation.ReflTransGen.single (.spawn call [] [])

end EsphomeMcp.OAuth
