import EsphomeMcp.OAuth.Discovery
import EsphomeMcp.OAuth.PkceIsolation
import EsphomeMcp.Python.Since
import Mathlib.Data.Set.Card

/-!
# The authorization server of none mode

The views of `oauth_autoapprove.py` with the provider they share, over everything that happens to
it: registrations, each with a provider of its own, their ends, and requests to the anonymous
views in any order. What the two endpoints answer is a function of that history: a code is good
for one exchange, with the redirect and the verifier it was asked for, until it expires. A redirect
that `yarl` does not read ends its request in an exception, and the code that was issued for it stays
pending.

The clock may be read in any order, and codes may be drawn twice.
-/

namespace EsphomeMcp.OAuth

open Py Py.Prog Webhook

/-! ## The provider -/

/-- A cfg that is published in none mode, with its provider. -/
structure NoneCfg extends Cfg where
  resourceServer_eq : resourceServer = none
  provider : autoapproveProvider.isSome = true

/-- The component while it is registered: the published cfg, and the codes of its provider. -/
structure NoneLive (T : Type) where
  cfg : NoneCfg
  codes : PKCECodeStore T

/-- What happens to the component. A request reads the clock and may draw a code or a token. -/
inductive NoneStep (T : Type) where
  | register (cfg : NoneCfg)
  | unregister
  | ask (request : AnonymousRequest) (now : T) (draw : Str)

/-- What has happened: with a request also the code that the provider issued to it, if any. -/
inductive NoneRecord (T : Type) where
  | registered
  | unregistered
  | answered (request : AnonymousRequest) (now : T) (issued : Option Str)
      (answer : Except OAuthError Response)

/-- The component and its history. -/
structure NoneRun (T : Type) where
  live : Option (NoneLive T)
  history : List (NoneRecord T)

namespace NoneRun

variable {T : Type}

/-- `_webhook_cfg`. -/
def cfg (run : NoneRun T) : Option Cfg := run.live.map (·.cfg.toCfg)

/-- The codes of the live provider. -/
def codes (run : NoneRun T) : PKCECodeStore T := run.live.elim [] (·.codes)

end NoneRun

section

variable {T : Type} [LinearOrder T] [Add T] [OfNat T 300]

/-- The commands of a view against the live provider, with its codes and the one it has issued to the
request; `outside` answers what leaves the component. -/
def serveProvider (outside : (c : ViewCmd) → Except OAuthError c.Ans) (now : T) (draw : Str)
    (codes : PKCECodeStore T × Option Str) :
    (c : ViewCmd) → Except OAuthError c.Ans × PKCECodeStore T × Option Str
  | .issueCode redirectUri codeChallenge =>
    let (code, left) := codes.1.issueCode redirectUri codeChallenge now draw
    (.ok code, left, code)
  | .consumeCode code redirectUri codeVerifier =>
    let (accepted, left) := codes.1.consumeCode code redirectUri codeVerifier now
    (accepted.mapError .py, left, codes.2)
  | .issueAccessToken => (.ok draw, codes)
  | .fetchCimdRedirects clientId => (outside (.fetchCimdRedirects clientId), codes)
  | .post session path data => (outside (.post session path data), codes)

variable [Runtime] (outside : (c : ViewCmd) → Except OAuthError c.Ans)

/-- What a request is answered, the codes it leaves behind and the one that was issued to it. -/
def NoneRun.answer (run : NoneRun T) (request : AnonymousRequest) (now : T) (draw : Str) :
    Except OAuthError Response × PKCECodeStore T × Option Str :=
  execIn (S := viewSignature) (serveProvider outside now draw) (run.codes, none)
    (respond run.cfg request)

/-- One step. -/
def NoneRun.step (run : NoneRun T) : NoneStep T → NoneRun T
  | .register cfg => ⟨some ⟨cfg, []⟩, run.history ++ [.registered]⟩
  | .unregister => ⟨none, run.history ++ [.unregistered]⟩
  | .ask request now draw =>
    let (answer, codes, issued) := run.answer outside request now draw
    ⟨run.live.map fun live => { live with codes := codes },
      run.history ++ [.answered request now issued answer]⟩

/-- A component that has not been set up, and a list of steps. -/
def noneRun (steps : List (NoneStep T)) : NoneRun T := steps.foldl (NoneRun.step outside) ⟨none, []⟩

end

/-! ## What a history says -/

/-- What the token endpoint reads of a form. -/
structure CodeExchange where
  code : Str
  redirectUri : Str
  codeVerifier : Str

/-- The exchange a form asks for, when every field is there. -/
def codeExchange (form : Option MultiDict) : Option CodeExchange :=
  form.bind fun form =>
    let code := form.getD (str "code")
    let redirectUri := form.getD (str "redirect_uri")
    let codeVerifier := form.getD (str "code_verifier")
    if form.getD (str "grant_type") = str "authorization_code" ∧ code ≠ [] ∧ redirectUri ≠ [] ∧
        isWellFormedVerifier codeVerifier = true then
      some ⟨code, redirectUri, codeVerifier⟩
    else none

section

variable {T : Type} [Add T] [OfNat T 300]

/-- The code that was issued, and what for. -/
def NoneRecord.issued : NoneRecord T → Option (Str × PendingCode T)
  | .answered (.authorize _ query) now issued _ =>
    issued.map fun code =>
      (code, ⟨query.getD (str "redirect_uri"), query.getD (str "code_challenge"),
        now + authCodeTtl⟩)
  | _ => none

variable [LinearOrder T] [Runtime]

/-- A pending code is left pending: the provider lives on, the code is not issued again, it is not
presented, and no valid authorization request comes once it has expired. -/
def NoneRecord.Leaves (code : Str) (pending : PendingCode T) (r : NoneRecord T) : Prop :=
  r.issued.map Prod.fst ≠ some code ∧
    match r with
    | .answered (.authorize _ query) now _ _ =>
      validateAutoapproveAuthorize query = none → now < pending.expires
    | .answered (.token form) _ _ _ => ∀ x ∈ codeExchange form, x.code ≠ code
    | .answered _ _ _ _ => True
    | _ => False

/-- The code can be exchanged still. -/
def Pending (history : List (NoneRecord T)) (code : Str) (pending : PendingCode T) : Prop :=
  Since (NoneRecord.Leaves code pending) (fun r => r.issued = some (code, pending)) history

/-- A provider is live. -/
def Live (history : List (NoneRecord T)) : Prop :=
  Since (· ≠ .unregistered) (· = .registered) history

/-- The codes that have not expired. -/
def unexpired (history : List (NoneRecord T)) (now : T) : Set Str :=
  {code | ∃ pending, Pending history code pending ∧ now < pending.expires}

/-- The form presents a pending code in time, with its redirect and with its verifier. -/
def Redeems (history : List (NoneRecord T)) (now : T) (form : Option MultiDict) : Prop :=
  ∃ x ∈ codeExchange form, ∃ pending, Pending history x.code pending ∧ now ≤ pending.expires ∧
    pending.redirectUri = x.redirectUri ∧ pending.codeChallenge = derivedChallenge x.codeVerifier

/-! ## What is owed -/

/-- The parameters of the redirect that a valid query ends in, with the code or without one. -/
def redirectParams (query : MultiDict) (iss : Str) : Option Str → List (Str × Str)
  | some code => [(str "code", code), (str "iss", iss)] ++
      if query.getD (str "state") = [] then [] else [(str "state", query.getD (str "state"))]
  | none => [(str "error", str "temporarily_unavailable"),
      (str "state", query.getD (str "state")), (str "iss", iss)]

/-- That redirect, or the exception that `yarl` raises on it. -/
def authorizeRedirect (query : MultiDict) (iss : Str) (code : Option Str) :
    Except OAuthError Response :=
  (redirectWith (query.getD (str "redirect_uri")) (redirectParams query iss code)).mapError .py

/-- The code that is issued: none, unless the query is valid and few enough codes are pending. -/
noncomputable def issuedOwed (history : List (NoneRecord T)) (now : T) (draw : Str) :
    AnonymousRequest → Option Str
  | .authorize _ query =>
    open Classical in
    if Live history ∧ validateAutoapproveAuthorize query = none ∧
      (unexpired history now).ncard < maxPendingCodes then some draw else none
  | _ => none

/-- The authorization endpoint: a redirect with what is issued, unless the query is refused. -/
noncomputable def authorizeOwed (history : List (NoneRecord T)) (request : Request)
    (query : MultiDict) (now : T) (draw : Str) : Except OAuthError Response :=
  open Classical in
  if ¬Live history then .ok jsonNotFound
  else
    match validateAutoapproveAuthorize query with
    | some error => .ok error
    | none =>
      authorizeRedirect query (issuerForRequest request)
        (issuedOwed history now draw (.authorize request query))

/-- A token response. -/
def tokenResponse (token : Str) : Response :=
  .json 200 tokenResponseHeaders (.dict [("access_token", .str token),
    ("token_type", .lit "Bearer"), ("expires_in", .int accessTokenTtl)])

/-- How a form that redeems nothing is refused. -/
def tokenRefusal (form : Option MultiDict) : Response :=
  match form with
  | none => jsonError "invalid_request" 400 none
  | some form =>
    if form.getD (str "grant_type") ≠ str "authorization_code" then
      jsonError "unsupported_grant_type" 400 none
    else if form.getD (str "code") = [] ∨ form.getD (str "redirect_uri") = [] ∨
        form.getD (str "code_verifier") = [] then
      jsonError "invalid_request" 400 none
    else jsonError "invalid_grant" 400 none

/-- The token endpoint: a token for a code that is redeemed. -/
noncomputable def tokenOwed (history : List (NoneRecord T)) (form : Option MultiDict) (now : T)
    (draw : Str) : Response :=
  open Classical in
  if ¬Live history then jsonNotFound
  else if Redeems history now form then tokenResponse draw
  else tokenRefusal form

end

/-! ## The store -/

section

variable {T : Type} [LinearOrder T] [Add T] [OfNat T 300]

/-- What issuing leaves under a code. -/
theorem dictGet?_issueCode {codes : PKCECodeStore T} (hdict : (codes.map Prod.fst).Nodup)
    (redirectUri codeChallenge draw code : Str) (now : T) :
    dictGet? (codes.issueCode redirectUri codeChallenge now draw).2 code =
      if (codes.issueCode redirectUri codeChallenge now draw).1 = some code then
        some ⟨redirectUri, codeChallenge, now + authCodeTtl⟩
      else (dictGet? codes code).filter fun pending => now < pending.expires := by
  have hpruned : dictGet? (codes.prune now) code =
      (dictGet? codes code).filter fun pending => now < pending.expires := dictGet?_filter hdict
  unfold PKCECodeStore.issueCode
  by_cases hfull : maxPendingCodes ≤ (codes.prune now).length
  · simp only [if_pos hfull, reduceCtorEq, if_false]
    exact hpruned
  · simp only [if_neg hfull, dictGet?_dictSet, hpruned, Option.some.injEq]
    by_cases hcode : code = draw
    · rw [if_pos hcode, if_pos hcode.symm]
    · rw [if_neg hcode, if_neg (Ne.symm hcode)]

omit [Add T] [OfNat T 300] in
/-- What consuming leaves under a code. -/
theorem dictGet?_consumeCode {codes : PKCECodeStore T} (hdict : (codes.map Prod.fst).Nodup)
    (presented redirectUri codeVerifier code : Str) (now : T) :
    dictGet? (codes.consumeCode presented redirectUri codeVerifier now).2 code =
      if isWellFormedVerifier codeVerifier = true ∧ presented = code then none
      else dictGet? codes code := by
  rw [PKCECodeStore.consumeCode]
  by_cases hw : isWellFormedVerifier codeVerifier = true
  · rw [if_pos hw]
    show dictGet? (codes.filter fun e => e.1 ≠ presented) code = _
    rw [dictGet?_filter hdict]
    by_cases hcode : presented = code
    · simp [hw, hcode]
    · cases dictGet? codes code with
      | none => simp
      | some pending => simp [hcode, Ne.symm hcode]
  · rw [if_neg hw, if_neg (fun h => hw h.1)]

omit [Add T] [OfNat T 300] in
/-- The entry of a valid challenge is checked without an exception. -/
theorem checkEntry_of_valid {pending : PendingCode T} {redirectUri codeVerifier : Str} {now : T}
    (hvalid : pkceChallengeRe pending.codeChallenge = true) :
    PKCECodeStore.checkEntry (some pending) redirectUri codeVerifier now =
      .ok (decide (now ≤ pending.expires ∧ pending.redirectUri = redirectUri ∧
        pending.codeChallenge = derivedChallenge codeVerifier)) := by
  have hascii : ∀ c ∈ pending.codeChallenge, isAscii c = true := by
    intro c hc
    rw [pkceChallengeRe, Bool.and_eq_true, List.all_eq_true] at hvalid
    exact (isB64urlDigit_spec (hvalid.2 c hc)).1
  obtain ⟨challenge, hchallenge⟩ : ∃ challenge, encodeAscii pending.codeChallenge = some challenge :=
    ⟨_, encodeAscii_eq_some hascii⟩
  have hsame : encodeAscii (derivedChallenge codeVerifier) = some challenge ↔
      pending.codeChallenge = derivedChallenge codeVerifier := by
    constructor
    · exact fun h => encodeAscii_injective hchallenge h
    · intro h
      rw [← h, hchallenge]
  unfold PKCECodeStore.checkEntry
  by_cases hexpired : pending.expires < now
  · simp [hexpired]
  · by_cases hredirect : pending.redirectUri = redirectUri
    · simp [hexpired, hredirect, hchallenge, hsame, not_lt.mp hexpired]
    · simp [hexpired, hredirect]

/-! ## What the views do -/

section

variable [Runtime]

omit [LinearOrder T] [Add T] [OfNat T 300] in
theorem pkceChallengeRe_of_validate {query : MultiDict}
    (h : validateAutoapproveAuthorize query = none) :
    pkceChallengeRe (query.getD (str "code_challenge")) = true := by
  unfold validateAutoapproveAuthorize at h
  split_ifs at h with _ _ hchallenge
  simpa using hchallenge

variable {outside : (c : ViewCmd) → Except OAuthError c.Ans} {run : NoneRun T}
  {live : NoneLive T} (now : T) (draw : Str)

variable (outside) in
/-- Without a provider nothing is served. -/
theorem answer_of_not_live (h : run.live = none) :
    (∀ request query, run.answer outside (.authorize request query) now draw =
      (.ok jsonNotFound, run.codes, none)) ∧
    ∀ form, (run.answer outside (.token form) now draw).1 = .ok jsonNotFound := by
  simp [NoneRun.answer, NoneRun.cfg, h, respond, authorizeGet, tokenPost, execIn]

theorem answer_authorize (h : run.live = some live) (request : Request) (query : MultiDict) :
    run.answer outside (.authorize request query) now draw =
      match validateAutoapproveAuthorize query with
      | some error => (.ok error, live.codes, none)
      | none =>
        let issued := live.codes.issueCode (query.getD (str "redirect_uri"))
          (query.getD (str "code_challenge")) now draw
        (authorizeRedirect query (issuerForRequest request) issued.1, issued.2, issued.1) := by
  have hprovider : live.cfg.toCfg.autoapproveProvider.isNone = false := by
    simpa using live.cfg.provider
  simp only [NoneRun.answer, NoneRun.cfg, NoneRun.codes, h, Option.map_some, Option.elim_some,
    respond, authorizeGet, oauthCfg, live.cfg.resourceServer_eq, Option.isSome_none, hprovider,
    Bool.false_eq_true, if_false]
  cases validateAutoapproveAuthorize query with
  | some error => rfl
  | none =>
    simp only [bind_eq, await, perform, Prog.bind, execIn, serveProvider]
    have hraised {redirectUri : Str} {params : List (Str × Str)}
        {codes : PKCECodeStore T × Option Str} :
        execIn (S := viewSignature) (serveProvider outside now draw) codes
          (pureCall (redirectWith redirectUri params)) =
          ((redirectWith redirectUri params).mapError .py, codes) := by
      cases redirectWith redirectUri params <;> rfl
    cases (live.codes.issueCode (query.getD (str "redirect_uri"))
      (query.getD (str "code_challenge")) now draw).1 with
    | some code => exact hraised
    | none => exact hraised

omit [LinearOrder T] [Add T] [OfNat T 300] [Runtime] in
theorem codeExchange_eq_some_iff {form : Option MultiDict} {x : CodeExchange} :
    codeExchange form = some x ↔ ∃ fields, form = some fields ∧
      fields.getD (str "grant_type") = str "authorization_code" ∧
      (x.code ≠ [] ∧ x.redirectUri ≠ [] ∧ isWellFormedVerifier x.codeVerifier = true) ∧
      fields.getD (str "code") = x.code ∧ fields.getD (str "redirect_uri") = x.redirectUri ∧
      fields.getD (str "code_verifier") = x.codeVerifier := by
  obtain ⟨code, redirectUri, codeVerifier⟩ := x
  cases form with
  | none => simp [codeExchange]
  | some fields =>
    simp only [codeExchange, Option.bind_some, Option.ite_none_right_eq_some, Option.some.injEq,
      CodeExchange.mk.injEq, exists_eq_left']
    constructor
    · intro h
      obtain ⟨⟨hgrant, hcode, hredirect, hverifier⟩, rfl, rfl, rfl⟩ := h
      exact ⟨hgrant, ⟨hcode, hredirect, hverifier⟩, rfl, rfl, rfl⟩
    · intro h
      obtain ⟨hgrant, ⟨hcode, hredirect, hverifier⟩, rfl, rfl, rfl⟩ := h
      exact ⟨⟨hgrant, hcode, hredirect, hverifier⟩, rfl, rfl, rfl⟩

omit [LinearOrder T] [Add T] [OfNat T 300] [Runtime] in
theorem ne_nil_of_isWellFormedVerifier {codeVerifier : Str}
    (h : isWellFormedVerifier codeVerifier = true) : codeVerifier ≠ [] := by
  rintro rfl
  exact absurd h (by decide)

/-- A form without an exchange in it is refused, and the codes stay as they are. -/
theorem answer_token_of_none (h : run.live = some live) {form : Option MultiDict}
    (hform : codeExchange form = none) :
    run.answer outside (.token form) now draw = (.ok (tokenRefusal form), live.codes, none) := by
  have hprovider : live.cfg.toCfg.autoapproveProvider.isNone = false := by
    simpa using live.cfg.provider
  simp only [NoneRun.answer, NoneRun.cfg, NoneRun.codes, h, Option.map_some, Option.elim_some,
    respond, tokenPost, oauthCfg, live.cfg.resourceServer_eq, Option.isSome_none, hprovider,
    Bool.false_eq_true, if_false]
  cases form with
  | none => rfl
  | some form =>
    simp only [autoapproveToken, tokenRefusal]
    by_cases hgrant : form.getD (str "grant_type") = str "authorization_code"
    · simp only [ne_eq, hgrant, not_true_eq_false, if_false]
      by_cases hmissing : form.getD (str "code") = [] ∨ form.getD (str "redirect_uri") = [] ∨
          form.getD (str "code_verifier") = []
      · have hview : (decide (form.getD (str "code") = []) ||
            decide (form.getD (str "redirect_uri") = []) ||
            decide (form.getD (str "code_verifier") = [])) = true := by
          simpa [or_assoc] using hmissing
        rw [if_pos hmissing, if_pos hview]
        rfl
      · have hview : ¬(decide (form.getD (str "code") = []) ||
            decide (form.getD (str "redirect_uri") = []) ||
            decide (form.getD (str "code_verifier") = [])) = true := by
          simpa [or_assoc] using hmissing
        -- every field is there, so it is the verifier that is malformed
        have hverifier : ¬isWellFormedVerifier (form.getD (str "code_verifier")) = true := by
          intro hverifier
          rw [not_or, not_or] at hmissing
          have hsome : codeExchange (some form) = some ⟨form.getD (str "code"),
              form.getD (str "redirect_uri"), form.getD (str "code_verifier")⟩ :=
            codeExchange_eq_some_iff.mpr ⟨form, rfl, hgrant,
              ⟨hmissing.1, hmissing.2.1, hverifier⟩, rfl, rfl, rfl⟩
          exact absurd (hform.symm.trans hsome) (by simp)
        rw [if_neg hmissing, if_neg hview]
        simp [await, perform, Prog.bind, execIn, serveProvider, PKCECodeStore.consumeCode,
          hverifier, Except.mapError]
    · simp only [ne_eq, hgrant, not_false_eq_true, if_true]
      rfl

/-- An exchange is put to the store, and answered as the store decides. -/
theorem answer_token_of_some (h : run.live = some live) {form : Option MultiDict} {x : CodeExchange}
    (hform : codeExchange form = some x) {accepted : Bool}
    (haccepted : (live.codes.consumeCode x.code x.redirectUri x.codeVerifier now).1 =
      .ok accepted) :
    run.answer outside (.token form) now draw =
      (.ok (if accepted then tokenResponse draw else tokenRefusal form),
        (live.codes.consumeCode x.code x.redirectUri x.codeVerifier now).2, none) := by
  have hprovider : live.cfg.toCfg.autoapproveProvider.isNone = false := by
    simpa using live.cfg.provider
  obtain ⟨fields, rfl, hgrant, ⟨hcode, hredirect, hverifier⟩, hc, hr, hv⟩ :=
    codeExchange_eq_some_iff.mp hform
  have hpresent := ne_nil_of_isWellFormedVerifier hverifier
  obtain ⟨code, redirectUri, codeVerifier⟩ := x
  dsimp only at haccepted hcode hredirect hpresent hc hr hv ⊢
  subst hc hr hv
  simp only [NoneRun.answer, NoneRun.cfg, NoneRun.codes, h, Option.map_some, Option.elim_some,
    respond, tokenPost, oauthCfg, live.cfg.resourceServer_eq, Option.isSome_none, hprovider,
    Bool.false_eq_true, if_false]
  simp only [autoapproveToken, tokenRefusal, hgrant, hcode, hredirect, hpresent,
    ne_eq, not_true_eq_false, if_false, decide_false, Bool.or_self, Bool.false_eq_true, or_self]
  simp only [bind_eq, await, perform, Prog.bind, execIn, serveProvider, haccepted, Except.mapError]
  cases accepted with
  | true => rfl
  | false => rfl

variable (outside) in
/-- The other views have nothing to do with the codes. -/
theorem answer_other (h : run.live = some live) {request : AnonymousRequest}
    (hauthorize : ∀ r query, request ≠ .authorize r query) (htoken : ∀ form, request ≠ .token form) :
    (run.answer outside request now draw).2 = (live.codes, none) := by
  simp only [NoneRun.answer, NoneRun.cfg, NoneRun.codes, h, Option.map_some, Option.elim_some]
  cases request with
  | protectedResource | authorizationServer | wellKnownProtectedResource | register => rfl
  | authorize r query => exact absurd rfl (hauthorize r query)
  | token form => exact absurd rfl (htoken form)
  | revoke form =>
    simp only [respond, revokePost, oauthCfg, Option.map_some, live.cfg.resourceServer_eq,
      Option.isNone_none, if_true]
    rfl

/-! ## The history and the store -/

/-- The store holds what the history says is pending. -/
structure NoneRun.Inv (run : NoneRun T) : Prop where
  live : run.live.isSome = true ↔ Live run.history
  dict : (run.codes.map Prod.fst).Nodup
  pending : ∀ code pending,
    dictGet? run.codes code = some pending ↔ Pending run.history code pending
  valid : ∀ code pending, dictGet? run.codes code = some pending →
    pkceChallengeRe pending.codeChallenge = true

theorem pending_append {history : List (NoneRecord T)} {r : NoneRecord T} {code : Str}
    {pending : PendingCode T} :
    Pending (history ++ [r]) code pending ↔
      r.issued = some (code, pending) ∨ (Pending history code pending ∧ r.Leaves code pending) :=
  since_append_singleton

omit [LinearOrder T] [Add T] [OfNat T 300] [Runtime] in
theorem live_append {history : List (NoneRecord T)} {r : NoneRecord T} :
    Live (history ++ [r]) ↔ r = .registered ∨ (Live history ∧ r ≠ .unregistered) :=
  since_append_singleton

/-- As many codes are left after pruning as have not expired. -/
theorem NoneRun.Inv.ncard_unexpired (h : run.Inv) :
    (unexpired run.history now).ncard = (run.codes.prune now).length := by
  have hnodup : ((run.codes.prune now).map Prod.fst).Nodup := nodup_keys_filter _ h.dict
  have hset : unexpired run.history now =
      ((run.codes.prune now).map Prod.fst).toFinset := by
    ext code
    rw [unexpired, Set.mem_ofPred_eq, Finset.mem_coe, List.mem_toFinset, List.mem_map]
    constructor
    · intro hcode
      obtain ⟨pending, hpending, htime⟩ := hcode
      have hmem := mem_of_dictGet? ((h.pending code pending).mpr hpending)
      exact ⟨(code, pending), List.mem_filter.mpr ⟨hmem, by simpa using htime⟩, rfl⟩
    · intro hcode
      obtain ⟨⟨_, pending⟩, hmem, rfl⟩ := hcode
      obtain ⟨hmem, htime⟩ := List.mem_filter.mp hmem
      exact ⟨pending, (h.pending _ pending).mp (dictGet?_of_mem h.dict hmem), by simpa using htime⟩
  rw [hset, Set.ncard_coe_finset, List.toFinset_card_of_nodup hnodup, List.length_map]

/-- The store accepts an exchange exactly when the history has it redeemed. -/
theorem NoneRun.Inv.accepts (h : run.Inv) {form : Option MultiDict} {x : CodeExchange}
    (hform : codeExchange form = some x) :
    ∃ accepted, (run.codes.consumeCode x.code x.redirectUri x.codeVerifier now).1 =
      .ok accepted ∧ (accepted = true ↔ Redeems run.history now form) := by
  obtain ⟨-, -, -, ⟨-, -, hverifier⟩, -⟩ := codeExchange_eq_some_iff.mp hform
  have hredeems : Redeems run.history now form ↔ ∃ pending,
      dictGet? run.codes x.code = some pending ∧ now ≤ pending.expires ∧
      pending.redirectUri = x.redirectUri ∧
      pending.codeChallenge = derivedChallenge x.codeVerifier := by
    simp only [Redeems, hform, Option.mem_some_iff, exists_eq_left', h.pending]
  rw [hredeems, PKCECodeStore.consumeCode, if_pos hverifier]
  cases hget : dictGet? run.codes x.code with
  | none => exact ⟨false, by simp [PKCECodeStore.pop, hget, PKCECodeStore.checkEntry], by simp⟩
  | some pending =>
    refine ⟨decide (now ≤ pending.expires ∧ pending.redirectUri = x.redirectUri ∧
      pending.codeChallenge = derivedChallenge x.codeVerifier), ?_, by simp⟩
    simp only [PKCECodeStore.pop, hget]
    exact checkEntry_of_valid (h.valid _ _ hget)

/-- The store issues what the history owes. -/
theorem NoneRun.Inv.issues (h : run.Inv) (hlive : Live run.history) (request : Request)
    {query : MultiDict} (hquery : validateAutoapproveAuthorize query = none) :
    (run.codes.issueCode (query.getD (str "redirect_uri")) (query.getD (str "code_challenge")) now
      draw).1 = issuedOwed run.history now draw (.authorize request query) := by
  simp only [issuedOwed, hlive, hquery, true_and, h.ncard_unexpired, PKCECodeStore.issueCode]
  split_ifs <;> first | rfl | omega

variable (outside) in
/-- What is owed to a request for authorization, and the code with it. -/
theorem NoneRun.Inv.answers_authorize (h : run.Inv) (request : Request) (query : MultiDict) :
    (run.answer outside (.authorize request query) now draw).1 =
      authorizeOwed run.history request query now draw ∧
    (run.answer outside (.authorize request query) now draw).2.2 =
      issuedOwed run.history now draw (.authorize request query) := by
  cases hrun : run.live with
  | none =>
    have hlive : ¬Live run.history := by
      rw [← h.live, hrun]
      simp
    rw [(answer_of_not_live outside now draw hrun).1, authorizeOwed, if_pos hlive, issuedOwed,
      if_neg fun howed => hlive howed.1]
    exact ⟨rfl, rfl⟩
  | some live =>
    have hlive : Live run.history := by
      rw [← h.live, hrun]
      rfl
    have hcodes : live.codes = run.codes := by
      rw [NoneRun.codes, hrun]
      rfl
    rw [answer_authorize now draw hrun, authorizeOwed, if_neg (not_not.mpr hlive)]
    cases hquery : validateAutoapproveAuthorize query with
    | some error =>
      refine ⟨rfl, ?_⟩
      rw [issuedOwed, if_neg fun howed => absurd (hquery.symm.trans howed.2.1) (by simp)]
    | none =>
      have hissued := h.issues now draw hlive request hquery
      rw [← hcodes] at hissued
      dsimp only
      rw [hissued]
      exact ⟨rfl, rfl⟩

variable (outside) in
/-- No other view issues a code. -/
theorem NoneRun.Inv.issued_other (h : run.Inv) {request : AnonymousRequest}
    (hauthorize : ∀ r query, request ≠ .authorize r query) :
    (run.answer outside request now draw).2.2 = none := by
  cases hrun : run.live with
  | none =>
    simp only [NoneRun.answer, NoneRun.cfg, hrun, Option.map_none]
    cases request with
    | authorize r query => exact absurd rfl (hauthorize r query)
    | token | protectedResource | authorizationServer | wellKnownProtectedResource | revoke
      | register => rfl
  | some live =>
    have hcodes : live.codes = run.codes := by
      rw [NoneRun.codes, hrun]
      rfl
    by_cases htoken : ∀ form, request ≠ .token form
    · rw [answer_other outside now draw hrun hauthorize htoken]
    · obtain ⟨form, rfl⟩ : ∃ form, request = .token form := by simpa using htoken
      cases hform : codeExchange form with
      | none => rw [answer_token_of_none now draw hrun hform]
      | some x =>
        obtain ⟨accepted, haccepted, -⟩ := h.accepts now hform
        rw [answer_token_of_some now draw hrun hform (hcodes ▸ haccepted)]

variable (outside) in
/-- What is owed is answered, and issued. -/
theorem NoneRun.Inv.answers (h : run.Inv) :
    (∀ request query, (run.answer outside (.authorize request query) now draw).1 =
      authorizeOwed run.history request query now draw) ∧
    (∀ form, (run.answer outside (.token form) now draw).1 =
      .ok (tokenOwed run.history form now draw)) ∧
    ∀ request, (run.answer outside request now draw).2.2 =
      issuedOwed run.history now draw request := by
  refine ⟨fun request query => (h.answers_authorize outside now draw request query).1,
    fun form => ?_, fun request => ?_⟩
  · cases hrun : run.live with
    | none =>
      have hlive : ¬Live run.history := by
        rw [← h.live, hrun]
        simp
      rw [(answer_of_not_live outside now draw hrun).2, tokenOwed, if_pos hlive]
    | some live =>
      have hlive : ¬¬Live run.history := by
        rw [← h.live, hrun]
        simp
      have hcodes : live.codes = run.codes := by
        rw [NoneRun.codes, hrun]
        rfl
      rw [tokenOwed, if_neg hlive]
      cases hform : codeExchange form with
      | none =>
        have hnot : ¬Redeems run.history now form := by
          simp [Redeems, hform]
        rw [answer_token_of_none now draw hrun hform, if_neg hnot]
      | some x =>
        obtain ⟨accepted, haccepted, hiff⟩ := h.accepts now hform
        rw [answer_token_of_some now draw hrun hform (hcodes ▸ haccepted)]
        by_cases hredeems : Redeems run.history now form
        · rw [if_pos hredeems, if_pos (hiff.mpr hredeems)]
        · rw [if_neg hredeems, if_neg (mt hiff.mp hredeems)]
  · cases request with
    | authorize r query => exact (h.answers_authorize outside now draw r query).2
    | token | protectedResource | authorizationServer | wellKnownProtectedResource | revoke
      | register => exact h.issued_other outside now draw (by simp)

/-- A request keeps the invariant, when it leaves in the store what it issued and what it left
pending. -/
theorem NoneRun.Inv.record (h : run.Inv) {live' : Option (NoneLive T)}
    {request : AnonymousRequest} {issued : Option Str} {answer : Except OAuthError Response}
    (hlive : live'.isSome = run.live.isSome) (hdict : ((live'.elim [] (·.codes)).map Prod.fst).Nodup)
    (hpending : ∀ code pending, dictGet? (live'.elim [] (·.codes)) code = some pending ↔
      (NoneRecord.answered request now issued answer).issued = some (code, pending) ∨
      (dictGet? run.codes code = some pending ∧
        (NoneRecord.answered request now issued answer).Leaves code pending))
    (hvalid : ∀ code pending, (NoneRecord.answered request now issued answer).issued =
      some (code, pending) → pkceChallengeRe pending.codeChallenge = true) :
    NoneRun.Inv ⟨live', run.history ++ [.answered request now issued answer]⟩ where
  live := by
    rw [hlive, h.live, live_append]
    simp
  dict := hdict
  pending := by
    intro code pending
    rw [pending_append, ← h.pending]
    exact hpending code pending
  valid := by
    intro code pending hget
    rcases (hpending code pending).mp hget with hissued | hold
    · exact hvalid code pending hissued
    · exact h.valid code pending hold.1

/-- An authorization request. -/
theorem NoneRun.Inv.authorize (h : run.Inv) (hlive : run.live = some live) (request : Request)
    (query : MultiDict) :
    (run.step outside (.ask (.authorize request query) now draw)).Inv := by
  have hcodes : run.codes = live.codes := by
    rw [NoneRun.codes, hlive]
    rfl
  simp only [NoneRun.step, answer_authorize now draw hlive, hlive, Option.map_some]
  cases hvalidate : validateAutoapproveAuthorize query with
  | some error =>
    refine h.record now (by simp [hlive]) (hcodes ▸ h.dict) ?_ ?_
    · simp [NoneRecord.issued, NoneRecord.Leaves, hvalidate, hcodes]
    · simp [NoneRecord.issued]
  | none =>
    have hdict : (live.codes.map Prod.fst).Nodup := hcodes ▸ h.dict
    set redirectUri := query.getD (str "redirect_uri") with hredirect
    set codeChallenge := query.getD (str "code_challenge") with hchallenge
    set issued := live.codes.issueCode redirectUri codeChallenge now draw with hissued
    refine h.record now (by simp [hlive]) ?_ ?_ ?_
    · exact nodup_keys_call hdict (.issue redirectUri codeChallenge now draw)
    · intro code pending
      have hget := dictGet?_issueCode hdict redirectUri codeChallenge draw code now
      rw [← hissued] at hget
      simp only [Option.elim_some, hget, NoneRecord.issued, NoneRecord.Leaves, hvalidate,
        ← hredirect, ← hchallenge, hcodes, Option.map_map]
      by_cases hcode : issued.1 = some code
      · simp [hcode]
      · rw [if_neg hcode, Option.filter_eq_some_iff]
        have hother : ¬(issued.1.map fun code => (code, (⟨redirectUri, codeChallenge,
            now + authCodeTtl⟩ : PendingCode T))) = some (code, pending) := by
          intro hsome
          obtain ⟨_, hcode', heq⟩ := Option.map_eq_some_iff.mp hsome
          exact hcode (hcode'.trans (congrArg some (Prod.ext_iff.mp heq).1))
        simp [hother, hcode, Function.comp_def]
    · intro code pending hsome
      simp only [NoneRecord.issued] at hsome
      obtain ⟨_, -, heq⟩ := Option.map_eq_some_iff.mp hsome
      obtain rfl : _ = pending := (Prod.ext_iff.mp heq).2
      exact pkceChallengeRe_of_validate hvalidate

/-- A token request. -/
theorem NoneRun.Inv.token (h : run.Inv) (hlive : run.live = some live) (form : Option MultiDict) :
    (run.step outside (.ask (.token form) now draw)).Inv := by
  have hcodes : run.codes = live.codes := by
    rw [NoneRun.codes, hlive]
    rfl
  cases hform : codeExchange form with
  | none =>
    simp only [NoneRun.step, answer_token_of_none now draw hlive hform, hlive, Option.map_some]
    refine h.record now (by simp [hlive]) (hcodes ▸ h.dict) ?_ ?_
    · simp [NoneRecord.issued, NoneRecord.Leaves, hform, hcodes]
    · simp [NoneRecord.issued]
  | some x =>
    obtain ⟨accepted, haccepted, -⟩ := h.accepts now hform
    obtain ⟨-, -, -, ⟨-, -, hverifier⟩, -⟩ := codeExchange_eq_some_iff.mp hform
    have hdict : (live.codes.map Prod.fst).Nodup := hcodes ▸ h.dict
    simp only [NoneRun.step, answer_token_of_some now draw hlive hform (hcodes ▸ haccepted), hlive,
      Option.map_some]
    refine h.record now (by simp [hlive]) ?_ ?_ ?_
    · exact nodup_keys_call hdict (.consume x.code x.redirectUri x.codeVerifier now)
    · intro code pending
      simp only [Option.elim_some, dictGet?_consumeCode hdict, NoneRecord.issued,
        NoneRecord.Leaves, hform, hcodes, hverifier]
      by_cases hcode : x.code = code
      · simp [hcode]
      · simp [hcode]
    · simp [NoneRecord.issued]

/-- A request to another view. -/
theorem NoneRun.Inv.other (h : run.Inv) (hlive : run.live = some live)
    {request : AnonymousRequest} (hauthorize : ∀ r query, request ≠ .authorize r query)
    (htoken : ∀ form, request ≠ .token form) :
    (run.step outside (.ask request now draw)).Inv := by
  have hcodes : run.codes = live.codes := by
    rw [NoneRun.codes, hlive]
    rfl
  have hsame := answer_other outside now draw hlive hauthorize htoken
  simp only [NoneRun.step, hsame, hlive, Option.map_some]
  refine h.record now (by simp [hlive]) (hcodes ▸ h.dict) ?_ ?_
  · intro code pending
    cases request with
    | authorize r query => exact absurd rfl (hauthorize r query)
    | token form => exact absurd rfl (htoken form)
    | protectedResource | authorizationServer | wellKnownProtectedResource | revoke | register =>
      simp [NoneRecord.issued, NoneRecord.Leaves, hcodes]
  · intro code pending hissued
    cases request with
    | authorize r query => exact absurd rfl (hauthorize r query)
    | token | protectedResource | authorizationServer | wellKnownProtectedResource | revoke
      | register => cases hissued

/-- A request that finds no provider. -/
theorem NoneRun.Inv.ask_of_not_live (h : run.Inv) (hlive : run.live = none)
    (request : AnonymousRequest) : (run.step outside (.ask request now draw)).Inv := by
  have hcodes : run.codes = [] := by
    rw [NoneRun.codes, hlive]
    rfl
  have hissued : (NoneRecord.answered request now (run.answer outside request now draw).2.2
      (run.answer outside request now draw).1).issued = none := by
    cases request with
    | authorize r query =>
      rw [(answer_of_not_live outside now draw hlive).1]
      rfl
    | token | protectedResource | authorizationServer | wellKnownProtectedResource | revoke
      | register => rfl
  simp only [NoneRun.step, hlive, Option.map_none]
  refine h.record now (by simp [hlive]) List.nodup_nil ?_ ?_
  · simp [hissued, hcodes]
  · simp [hissued]

variable (outside) in
theorem NoneRun.Inv.step (h : run.Inv) (step : NoneStep T) : (run.step outside step).Inv := by
  cases step with
  | register cfg =>
    refine ⟨?_, List.nodup_nil, ?_, ?_⟩
    · simp [NoneRun.step, live_append]
    · simp [NoneRun.step, NoneRun.codes, pending_append, NoneRecord.issued, NoneRecord.Leaves]
    · simp [NoneRun.step, NoneRun.codes]
  | unregister =>
    refine ⟨?_, List.nodup_nil, ?_, ?_⟩
    · simp [NoneRun.step, live_append]
    · simp [NoneRun.step, NoneRun.codes, pending_append, NoneRecord.issued, NoneRecord.Leaves]
    · simp [NoneRun.step, NoneRun.codes]
  | ask request now draw =>
    cases hlive : run.live with
    | none => exact h.ask_of_not_live now draw hlive request
    | some live =>
      by_cases hauthorize : ∀ r query, request ≠ .authorize r query
      · by_cases htoken : ∀ form, request ≠ .token form
        · exact h.other now draw hlive hauthorize htoken
        · obtain ⟨form, rfl⟩ : ∃ form, request = .token form := by simpa using htoken
          exact h.token now draw hlive form
      · obtain ⟨r, query, rfl⟩ : ∃ r query, request = .authorize r query := by
          simpa using hauthorize
        exact h.authorize now draw hlive r query

variable (outside) in
theorem noneRun_inv (steps : List (NoneStep T)) : (noneRun outside steps).Inv := by
  induction steps using List.reverseRecOn with
  | nil => exact ⟨by simp [noneRun, Live], List.nodup_nil, by simp [noneRun, NoneRun.codes, Pending],
      by simp [noneRun, NoneRun.codes]⟩
  | append_singleton steps step ih =>
    rw [noneRun, List.foldl_append]
    exact ih.step outside step

/-- Whatever has happened to the component, the two endpoints of none mode answer what is owed:
the authorization endpoint hands out a code while fewer than a thousand have not expired, and the
token endpoint a token for a code that was issued by the live provider, has not been presented
since and is presented in time, with the redirect and the verifier it was asked for. The only
exception is `yarl`'s, on a redirect that it does not read. -/
theorem noneServer_answers (outside : (c : ViewCmd) → Except OAuthError c.Ans)
    (steps : List (NoneStep T)) (now : T) (draw : Str) :
    (∀ request query, ((noneRun outside steps).answer outside (.authorize request query) now draw).1 =
      authorizeOwed (noneRun outside steps).history request query now draw) ∧
    (∀ form, ((noneRun outside steps).answer outside (.token form) now draw).1 =
      .ok (tokenOwed (noneRun outside steps).history form now draw)) ∧
    ∀ request, ((noneRun outside steps).answer outside request now draw).2.2 =
      issuedOwed (noneRun outside steps).history now draw request :=
  (noneRun_inv outside steps).answers outside now draw

/-! ## One client among others -/

/-- A step that may draw the code. -/
def NoneStep.Draws (code : Str) : NoneStep T → Prop
  | .ask (.authorize _ query) _ draw => validateAutoapproveAuthorize query = none ∧ draw = code
  | _ => False

/-- A step of others: the provider stays, the code is neither drawn again nor presented, and no
valid authorization request reads the clock when the code has expired. -/
def NoneStep.IsOther (code : Str) (expires : T) : NoneStep T → Prop
  | .register _ => False
  | .unregister => False
  | .ask (.authorize _ query) now draw =>
    validateAutoapproveAuthorize query = none → draw ≠ code ∧ now < expires
  | .ask (.token form) _ _ => ∀ x ∈ codeExchange form, x.code ≠ code
  | .ask _ _ _ => True

variable (outside) in
/-- What is remembered of a step. -/
def NoneRun.recordOf (run : NoneRun T) : NoneStep T → NoneRecord T
  | .register _ => .registered
  | .unregister => .unregistered
  | .ask request now draw => .answered request now (run.answer outside request now draw).2.2
      (run.answer outside request now draw).1

theorem history_step (step : NoneStep T) :
    (run.step outside step).history = run.history ++ [run.recordOf outside step] := by
  cases step with
  | register | unregister | ask => rfl

/-- What a step issues, it has drawn. -/
theorem NoneRun.Inv.draws_of_issued (h : run.Inv) {step : NoneStep T} {code : Str}
    {pending : PendingCode T}
    (hissued : (run.recordOf outside step).issued = some (code, pending)) : step.Draws code := by
  cases step with
  | register | unregister => cases hissued
  | ask request now draw =>
    cases request with
    | authorize request query =>
      rw [NoneRun.recordOf, (h.answers outside now draw).2.2] at hissued
      obtain ⟨_, hcode, heq⟩ := Option.map_eq_some_iff.mp hissued
      obtain rfl : _ = code := (Prod.ext_iff.mp heq).1
      rw [issuedOwed, Option.ite_none_right_eq_some] at hcode
      exact ⟨hcode.1.2.1, Option.some.inj hcode.2⟩
    | token | protectedResource | authorizationServer | wellKnownProtectedResource | revoke
      | register => cases hissued

/-- A step of others leaves a pending code pending. -/
theorem NoneRun.Inv.pending_step (h : run.Inv) {step : NoneStep T} {code : Str}
    {pending : PendingCode T} (hpending : Pending run.history code pending)
    (hother : step.IsOther code pending.expires) :
    Pending (run.step outside step).history code pending := by
  have hdraws : (run.recordOf outside step).issued.map Prod.fst ≠ some code := by
    intro hissued
    obtain ⟨issued, hissued, hcode⟩ := Option.map_eq_some_iff.mp hissued
    have hdraws : step.Draws code := hcode ▸ h.draws_of_issued hissued
    cases step with
    | register | unregister => exact hdraws
    | ask request now draw =>
      cases request with
      | authorize request query => exact (hother hdraws.1).1 hdraws.2
      | token | protectedResource | authorizationServer | wellKnownProtectedResource | revoke
        | register => exact hdraws
  rw [history_step, pending_append]
  refine .inr ⟨hpending, hdraws, ?_⟩
  cases step with
  | register | unregister => exact hother.elim
  | ask request now draw =>
    cases request with
    | authorize request query => exact fun hvalidate => (hother hvalidate).2
    | token form => exact hother
    | protectedResource | authorizationServer | wellKnownProtectedResource | revoke | register =>
      trivial

/-- A code that is not pending does not become so without being drawn. -/
theorem NoneRun.Inv.not_pending_step (h : run.Inv) {step : NoneStep T} {code : Str}
    (hpending : ∀ pending, ¬Pending run.history code pending) (hdraws : ¬step.Draws code) :
    ∀ pending, ¬Pending (run.step outside step).history code pending := by
  intro pending
  rw [history_step, pending_append]
  intro hor
  rcases hor with hissued | hold
  · exact hdraws (h.draws_of_issued hissued)
  · exact hpending pending hold.1

variable (outside)

theorem noneRun_append (steps more : List (NoneStep T)) :
    noneRun outside (steps ++ more) = more.foldl (NoneRun.step outside) (noneRun outside steps) :=
  List.foldl_append

theorem noneRun_concat (steps : List (NoneStep T)) (step : NoneStep T) :
    noneRun outside (steps ++ [step]) = (noneRun outside steps).step outside step :=
  noneRun_append outside steps [step]

/-- Any steps of others leave a pending code pending. -/
theorem pending_append_steps {steps : List (NoneStep T)} {code : Str} {pending : PendingCode T}
    (hpending : Pending (noneRun outside steps).history code pending) {others : List (NoneStep T)}
    (hothers : ∀ step ∈ others, step.IsOther code pending.expires) :
    Pending (noneRun outside (steps ++ others)).history code pending := by
  induction others using List.reverseRecOn with
  | nil => rwa [List.append_nil]
  | append_singleton others step ih =>
    rw [List.forall_mem_append] at hothers
    rw [← List.append_assoc, noneRun_concat]
    exact (noneRun_inv outside _).pending_step (ih hothers.1)
      (hothers.2 step (List.mem_singleton_self step))

/-- No steps make a code pending again that do not draw it. -/
theorem not_pending_append_steps {steps : List (NoneStep T)} {code : Str}
    (hpending : ∀ pending, ¬Pending (noneRun outside steps).history code pending)
    {later : List (NoneStep T)} (hlater : ∀ step ∈ later, ¬step.Draws code) :
    ∀ pending, ¬Pending (noneRun outside (steps ++ later)).history code pending := by
  induction later using List.reverseRecOn with
  | nil => rwa [List.append_nil]
  | append_singleton later step ih =>
    rw [List.forall_mem_append] at hlater
    rw [← List.append_assoc, noneRun_concat]
    exact (noneRun_inv outside _).not_pending_step (ih hlater.1)
      (hlater.2 step (List.mem_singleton_self step))

/-- A provider with a pending code is live. -/
theorem NoneRun.Inv.live_of_pending (h : run.Inv) {code : Str} {pending : PendingCode T}
    (hpending : Pending run.history code pending) : Live run.history := by
  have hget := (h.pending code pending).mpr hpending
  rw [← h.live]
  cases hlive : run.live with
  | none => simp [NoneRun.codes, hlive] at hget
  | some live => rfl

/-- Where there is room, a valid query ends in the redirect with its code or in the exception of
`yarl`, and the code is pending either way. -/
theorem issued_of_room {steps : List (NoneStep T)} (request : Request) {query : MultiDict}
    {now : T} (draw : Str) (hlive : Live (noneRun outside steps).history)
    (hquery : validateAutoapproveAuthorize query = none)
    (hroom : (unexpired (noneRun outside steps).history now).ncard < maxPendingCodes) :
    ((noneRun outside steps).answer outside (.authorize request query) now draw).1 =
      authorizeRedirect query (issuerForRequest request) (some draw) ∧
    Pending (noneRun outside (steps ++ [.ask (.authorize request query) now draw])).history draw
      ⟨query.getD (str "redirect_uri"), query.getD (str "code_challenge"), now + authCodeTtl⟩ := by
  obtain ⟨hanswer, -, hissued⟩ := (noneRun_inv outside steps).answers outside now draw
  have howed : issuedOwed (noneRun outside steps).history now draw (.authorize request query) =
      some draw := if_pos ⟨hlive, hquery, hroom⟩
  refine ⟨?_, ?_⟩
  · rw [hanswer, authorizeOwed, if_neg (not_not.mpr hlive), hquery]
    dsimp only
    rw [howed]
  · rw [noneRun_concat, history_step, pending_append, NoneRun.recordOf, hissued, howed]
    exact .inl rfl

/-- The flow of one client among others, from any state. A valid query whose redirect `yarl` reads is
answered with a code; after any steps of others an exchange in time is answered with a token; and
whatever comes then, the code is refused until it is drawn again. -/
theorem exchanged_once (before others later : List (NoneStep T)) (request : Request)
    (query : MultiDict) (now t : T) (draw token codeVerifier : Str) (form : MultiDict)
    (hlive : Live (noneRun outside before).history)
    (hquery : validateAutoapproveAuthorize query = none)
    (hroom : (unexpired (noneRun outside before).history now).ncard < maxPendingCodes)
    (hreads : yarlReads (query.getD (str "redirect_uri"))
      (redirectParams query (issuerForRequest request) (some draw)) = true)
    (hchallenge : query.getD (str "code_challenge") = derivedChallenge codeVerifier)
    (hform : codeExchange (some form) =
      some ⟨draw, query.getD (str "redirect_uri"), codeVerifier⟩)
    (hothers : ∀ step ∈ others, step.IsOther draw (now + authCodeTtl))
    (htime : t ≤ now + authCodeTtl) (hlater : ∀ step ∈ later, ¬step.Draws draw) :
    let asked := before ++ [.ask (.authorize request query) now draw]
    let exchanged := asked ++ others ++ [.ask (.token form) t token]
    ((noneRun outside before).answer outside (.authorize request query) now draw).1 =
      .ok (.redirect 302 [] (.updateQuery (query.getD (str "redirect_uri"))
        (redirectParams query (issuerForRequest request) (some draw)))) ∧
    ((noneRun outside (asked ++ others)).answer outside (.token form) t token).1 =
      .ok (tokenResponse token) ∧
    ∀ form' t' token', MultiDict.getD form' (str "code") = draw →
      let answer := ((noneRun outside (exchanged ++ later)).answer outside (.token (some form')) t'
        token').1
      (Live (noneRun outside (exchanged ++ later)).history →
        answer = .ok (tokenRefusal (some form'))) ∧
      (¬Live (noneRun outside (exchanged ++ later)).history → answer = .ok jsonNotFound) := by
  intro asked exchanged
  set pending : PendingCode T := ⟨query.getD (str "redirect_uri"), query.getD (str "code_challenge"),
    now + authCodeTtl⟩
  obtain ⟨hanswer, hissued⟩ := issued_of_room outside request draw hlive hquery hroom
  have hpending : Pending (noneRun outside (asked ++ others)).history draw pending :=
    pending_append_steps outside hissued hothers
  refine ⟨?_, ?_, ?_⟩
  · rw [hanswer, authorizeRedirect, redirectWith, if_pos hreads]
    rfl
  · have hinv := noneRun_inv outside (asked ++ others)
    have hredeems : Redeems (noneRun outside (asked ++ others)).history t (some form) :=
      ⟨_, hform, pending, hpending, htime, rfl, hchallenge⟩
    rw [(hinv.answers outside t token).2.1, tokenOwed, if_neg (not_not.mpr (hinv.live_of_pending hpending)),
      if_pos hredeems]
  · intro form' t' token' hcode answer
    have hgone : ∀ p, ¬Pending (noneRun outside exchanged).history draw p := by
      intro p
      rw [noneRun_concat, history_step, pending_append]
      intro hor
      rcases hor with hissued | hold
      · cases hissued
      · exact hold.2.2 _ hform rfl
    have hnot : ¬Redeems (noneRun outside (exchanged ++ later)).history t' (some form') := by
      intro hredeems
      obtain ⟨x, hx, p, hp, -⟩ := hredeems
      obtain ⟨fields, heq, -, -, hxcode, -⟩ := codeExchange_eq_some_iff.mp hx
      obtain rfl := Option.some.inj heq
      rw [← hxcode, hcode] at hp
      exact not_pending_append_steps outside hgone hlater p hp
    have howed := ((noneRun_inv outside (exchanged ++ later)).answers outside t' token').2.1
      (some form')
    refine ⟨fun hlive => ?_, fun hlive => ?_⟩
    · rw [tokenOwed, if_neg (not_not.mpr hlive), if_neg hnot] at howed
      exact howed
    · rw [tokenOwed, if_pos hlive] at howed
      exact howed

end

end

/-- A client whose code is issued at 0 and exchanged at 299, with a code of another client in
between and a reload afterwards. -/
theorem exchanged_once_reloaded :
    letI := asciiRuntime
    let outside : (c : ViewCmd) → Except OAuthError c.Ans := fun _ => .error .client
    let cfg : NoneCfg := ⟨noneLiveCfg (str "hook"), rfl, rfl⟩
    let verifier := List.replicate 43 (ch 'v')
    let callback := str "https://client.example/cb"
    let request : Request := ⟨str "GET", str "https", []⟩
    let query : MultiDict := [(str "response_type", str "code"),
      (str "code_challenge_method", str "S256"),
      (str "code_challenge", derivedChallenge verifier), (str "redirect_uri", callback)]
    let form : MultiDict := [(str "grant_type", str "authorization_code"), (str "code", str "mine"),
      (str "redirect_uri", callback), (str "code_verifier", verifier)]
    let asked : List (NoneStep ℤ) :=
      [.register cfg] ++ [.ask (.authorize request query) 0 (str "mine")]
    ((noneRun outside (asked ++ [.ask (.authorize request query) 10 (str "theirs")])).answer outside
      (.token (some form)) 299 (str "token")).1 = .ok (tokenResponse (str "token")) := by
  let := asciiRuntime
  intro outside cfg verifier callback request query form asked
  have hinv := noneRun_inv outside [NoneStep.register (T := ℤ) cfg]
  have hroom : (unexpired (noneRun outside [NoneStep.register (T := ℤ) cfg]).history 0).ncard <
      maxPendingCodes := by
    rw [hinv.ncard_unexpired]
    decide
  have hquery : validateAutoapproveAuthorize query = none := by
    unfold validateAutoapproveAuthorize
    rw [if_neg (by decide +kernel), if_neg (by decide +kernel), if_neg (by decide +kernel),
      if_neg (by decide +kernel)]
  have hform : codeExchange (some form) = some ⟨str "mine", callback, verifier⟩ :=
    codeExchange_eq_some_iff.mpr ⟨form, rfl, by decide +kernel, by decide +kernel, by decide +kernel,
      by decide +kernel, by decide +kernel⟩
  refine (exchanged_once outside [.register cfg] _ [.unregister, .register cfg] request query 0 299
    (str "mine") (str "token") verifier form (hinv.live.mp rfl) hquery hroom rfl rfl hform ?_
    (by decide) ?_).2.1
  · intro step hstep
    rw [List.mem_singleton] at hstep
    subst hstep
    exact fun _ => ⟨by decide, by decide⟩
  · intro step hstep
    simp only [List.mem_cons, List.not_mem_nil, or_false] at hstep
    rcases hstep with rfl | rfl <;> exact id

end EsphomeMcp.OAuth
