import EsphomeMcp.OAuth.OriginKeys
import EsphomeMcp.OAuth.Refresh

/-!
# What the refresh derivation decides

The values `resolve_forward_client_id` takes over the redirects that match a registration, and
what `translated_client_id_for_refresh` makes of the same registration without a redirect.
-/

namespace EsphomeMcp.OAuth

open Py Py.Prog

section

variable [Runtime] {S : Signature}

/-! ## Statements -/

/-- A program that yields one value, whatever the answers. -/
structure Yields {α : Type} (p : Prog S OAuthError α) (a : α) : Prop where
  run : ∃ tr, Runs p tr (.ok a)
  only : ∀ tr out, Runs p tr out → out = .ok a

/-- Where a registration comes from: it is signed in the client id, or it is the list of the
validated document that every lookup of the client id finds. -/
inductive IsVerified (fetch : Str → Prog S OAuthError (Option (List Str))) (session : Bool)
    (dcrKey : Option Bytes) (clientId : Str) (registered : List Str) : Prop
  | dcr : dcrRedirects dcrKey clientId = .ok (some registered) →
      IsVerified fetch session dcrKey clientId registered
  | cimd : dcrRedirects dcrKey clientId = .ok none → session = true →
      validCimdClientId clientId = true → Validated clientId registered →
      Yields (fetch clientId) (some registered) →
      IsVerified fetch session dcrKey clientId registered

/-- A verified registration of accepted redirects. -/
structure VerifiedRegistration (fetch : Str → Prog S OAuthError (Option (List Str)))
    (session : Bool) (dcrKey : Option Bytes) (clientId : Str) (registered : List Str) : Prop where
  verified : IsVerified fetch session dcrKey clientId registered
  nonempty : registered ≠ []
  accepted : ∀ uri ∈ registered, isValidRedirectUri uri = true

/-- What the accepted redirects that match the registration are forwarded as. -/
def forwardedIds (fetch : Str → Prog S OAuthError (Option (List Str))) (session : Bool)
    (dcrKey : Option Bytes) (clientId : Str) (registered : List Str) : Set Str :=
  {x | ∃ redirectUri tr, isValidRedirectUri redirectUri = true ∧
    redirectMatches registered redirectUri = .ok true ∧
    Runs (resolveForwardClientId fetch session dcrKey clientId redirectUri) tr (.ok x)}

/-- The identity that stands for a forwarded client id. -/
def identityOf (clientId forwarded : Str) : RefreshIdentity :=
  if forwarded = clientId then .passthrough else .origin forwarded

/-- The derivation yields the one value that is forwarded, gives up when there are several, and
never finds itself without an origin to name. -/
structure DecidesExactly (fetch : Str → Prog S OAuthError (Option (List Str))) (session : Bool)
    (dcrKey : Option Bytes) (clientId : Str) (registered : List Str) : Prop where
  nonempty : (forwardedIds fetch session dcrKey clientId registered).Nonempty
  single : ∀ x, forwardedIds fetch session dcrKey clientId registered = {x} →
    Yields (translatedClientIdForRefresh fetch session dcrKey clientId) (identityOf clientId x)
  several : (forwardedIds fetch session dcrKey clientId registered).Nontrivial →
    Yields (translatedClientIdForRefresh fetch session dcrKey clientId) .unreproducible
  named : refreshIdentityIsReproducible registered = .ok true →
    stableTranslationOrigin registered ≠ .ok none

/-- A redirect to a loopback host. -/
def IsLoopbackUri (redirectUri : Str) : Prop :=
  ∃ req, urlparse redirectUri = some req ∧ HasLoopbackHost req

/-- All redirects have one origin, the default port filled in. -/
def OneOrigin (registered : List Str) : Prop :=
  ∃ origin, ∀ uri ∈ registered, normalizedOrigin uri = .ok (some origin)

/-! ## The registered list -/

theorem IsRedirect.isLoopbackUri_iff {uri hostname : Str} {req : ParseResult} {port : Option ℕ}
    (h : IsRedirect uri req hostname port) :
    IsLoopbackUri uri ↔ OAuth.isLoopbackHost hostname = true := by
  constructor
  · rintro ⟨req', hparse, hostname', hhost, hloop⟩
    obtain rfl := Option.some.inj (h.parse.symm.trans hparse)
    obtain rfl := Option.some.inj (h.hostname.symm.trans hhost)
    exact hloop
  · exact fun hloop => ⟨req, h.parse, hostname, h.hostname, hloop⟩

theorem mem_collectOrigins {α : Type} [DecidableEq α] (make : Str × Str × ℕ → α)
    {uris : List Str} (hall : ∀ uri ∈ uris, isValidRedirectUri uri = true) :
    ∃ found, collectOrigins make uris = .ok found ∧ found.Nodup ∧ ∀ a, a ∈ found ↔
      ∃ uri ∈ uris, ¬IsLoopbackUri uri ∧
        ∃ origin, normalizedOrigin uri = .ok (some origin) ∧ make origin = a := by
  induction uris with
  | nil => exact ⟨[], rfl, List.nodup_nil, by simp⟩
  | cons uri uris ih =>
    rw [List.forall_mem_cons] at hall
    obtain ⟨req, hostname, port, h⟩ := exists_isRedirect hall.1
    obtain ⟨found, hfound, hnodup, hmem⟩ := ih hall.2
    have hparse : parseUrl uri = .ok req := by rw [parseUrl, h.parse]
    rw [collectOrigins, hparse, except_ok_bind, h.hostname]
    simp only
    by_cases hloop : OAuth.isLoopbackHost hostname = true
    · rw [if_pos hloop]
      refine ⟨found, hfound, hnodup, fun a => ?_⟩
      simp [hmem, h.isLoopbackUri_iff.mpr hloop]
    · rw [if_neg hloop, h.normalizedOrigin_eq, except_ok_bind]
      simp only [hfound, except_ok_bind]
      refine ⟨_, rfl, hnodup.insert, fun a => ?_⟩
      have hnot : ¬IsLoopbackUri uri := mt h.isLoopbackUri_iff.mp hloop
      simp [hmem, hnot, h.normalizedOrigin_eq, eq_comm]

theorem anyLoopback_eq {uris : List Str} (hall : ∀ uri ∈ uris, isValidRedirectUri uri = true) :
    ∃ b, anyLoopback uris = .ok b ∧ (b = true ↔ ∃ uri ∈ uris, IsLoopbackUri uri) := by
  induction uris with
  | nil => exact ⟨false, rfl, by simp⟩
  | cons uri uris ih =>
    rw [List.forall_mem_cons] at hall
    obtain ⟨req, hostname, port, h⟩ := exists_isRedirect hall.1
    have hparse : parseUrl uri = .ok req := by rw [parseUrl, h.parse]
    rw [anyLoopback, hparse, except_ok_bind, h.hostname, Option.all_some]
    split_ifs with hloop
    · exact ⟨true, rfl, by simp [h.isLoopbackUri_iff.mpr hloop]⟩
    · obtain ⟨b, hb, hiff⟩ := ih hall.2
      have hnot : ¬IsLoopbackUri uri := mt h.isLoopbackUri_iff.mp hloop
      exact ⟨b, hb, by simp [hiff, hnot]⟩

omit [Runtime] in
theorem eq_singleton_of_nodup {α : Type} {l : List α} {a : α} (hnodup : l.Nodup)
    (hmem : ∀ b, b ∈ l ↔ b = a) : l = [a] := by
  apply List.perm_singleton.mp
  rw [List.perm_ext_iff_of_nodup hnodup (List.nodup_singleton a)]
  simpa using hmem

theorem exists_normalizedOrigin {uri : Str} (hvalid : isValidRedirectUri uri = true) :
    ∃ origin, normalizedOrigin uri = .ok (some origin) := by
  obtain ⟨req, hostname, port, h⟩ := exists_isRedirect hvalid
  exact ⟨_, h.normalizedOrigin_eq⟩

section

variable {uris : List Str} (hne : uris ≠ []) (hall : ∀ uri ∈ uris, isValidRedirectUri uri = true)

include hne in
/-- What is collected of redirects with one origin. -/
theorem collectOrigins_eq {α : Type} [DecidableEq α] (make : Str × Str × ℕ → α)
    {found : List α} (hnodup : found.Nodup) (hmem : ∀ a, a ∈ found ↔
      ∃ uri ∈ uris, ¬IsLoopbackUri uri ∧
        ∃ origin, normalizedOrigin uri = .ok (some origin) ∧ make origin = a)
    (hweb : ∀ uri ∈ uris, ¬IsLoopbackUri uri) {origin : Str × Str × ℕ}
    (hone : ∀ uri ∈ uris, normalizedOrigin uri = .ok (some origin)) : found = [make origin] := by
  apply eq_singleton_of_nodup hnodup
  intro a
  rw [hmem]
  constructor
  · rintro ⟨uri, huri, -, origin', horigin', rfl⟩
    rw [hone uri huri, Except.ok.injEq, Option.some.injEq] at horigin'
    rw [horigin']
  · rintro rfl
    obtain ⟨uri, rest, rfl⟩ := List.exists_cons_of_ne_nil hne
    exact ⟨uri, List.mem_cons_self, hweb uri List.mem_cons_self, origin,
      hone uri List.mem_cons_self, rfl⟩

include hne hall

/-- A list is reproducible when it has one origin and no loopback redirect. -/
theorem refreshIdentityIsReproducible_eq : ∃ b, refreshIdentityIsReproducible uris = .ok b ∧
    (b = true ↔ (∀ uri ∈ uris, ¬IsLoopbackUri uri) ∧ OneOrigin uris) := by
  obtain ⟨found, hfound, hnodup, hmem⟩ := mem_collectOrigins id hall
  obtain ⟨loop, hloop, hiff⟩ := anyLoopback_eq hall
  have hweb : loop = false ↔ ∀ uri ∈ uris, ¬IsLoopbackUri uri := by
    rw [← Bool.not_eq_true, hiff]
    simp
  have hone (hweb : ∀ uri ∈ uris, ¬IsLoopbackUri uri) : found.length = 1 ↔ OneOrigin uris := by
    rw [List.length_eq_one_iff]
    constructor
    · rintro ⟨origin, rfl⟩
      refine ⟨origin, fun uri huri => ?_⟩
      obtain ⟨origin', horigin'⟩ := exists_normalizedOrigin (hall uri huri)
      have hin := (hmem origin').mpr ⟨uri, huri, hweb uri huri, origin', horigin', rfl⟩
      rw [horigin', List.mem_singleton.mp hin]
    · rintro ⟨origin, hsame⟩
      exact ⟨_, collectOrigins_eq hne id hnodup hmem hweb hsame⟩
  rw [refreshIdentityIsReproducible, nonLoopbackOrigins, hfound, except_ok_bind, hloop]
  rw [← hweb]
  split_ifs with hlen
  · refine ⟨false, rfl, iff_of_false Bool.false_ne_true fun h => hlen ?_⟩
    exact (hone (hweb.mp h.1)).mpr h.2
  · refine ⟨!loop, rfl, ?_⟩
    rw [Bool.not_eq_true']
    exact ⟨fun h => ⟨h, (hone (hweb.mp h)).mp (not_not.mp hlen)⟩, And.left⟩

theorem stableTranslationOrigin_eq (hweb : ∀ uri ∈ uris, ¬IsLoopbackUri uri)
    {origin : Str × Str × ℕ} (hone : ∀ uri ∈ uris, normalizedOrigin uri = .ok (some origin)) :
    stableTranslationOrigin uris = .ok (some (canonicalOriginUrl origin)) := by
  obtain ⟨found, hfound, hnodup, hmem⟩ := mem_collectOrigins canonicalOriginUrl hall
  rw [stableTranslationOrigin, hfound, collectOrigins_eq hne _ hnodup hmem hweb hone]
  rfl

omit hne in
/-- Which redirects have the client id's scheme and authority. -/
theorem matchedOrigins_eq {clientId : Str} {client : ParseResult}
    (hclient : urlparse clientId = some client) :
    ∃ shared, matchedOrigins client uris = .ok shared ∧
      (shared.all id = true ↔ ∀ uri ∈ uris, SameOriginAtCore clientId uri) ∧
      (shared.any id = true ↔ ∃ uri ∈ uris, SameOriginAtCore clientId uri) := by
  induction uris with
  | nil => exact ⟨[], rfl, by simp, by simp⟩
  | cons uri uris ih =>
    rw [List.forall_mem_cons] at hall
    obtain ⟨req, hostname, port, h⟩ := exists_isRedirect hall.1
    obtain ⟨shared, hshared, hiffAll, hiffAny⟩ := ih hall.2
    have hparse : parseUrl uri = .ok req := by rw [parseUrl, h.parse]
    have hsame : SameOriginAtCore clientId uri ↔
        (decide (req.scheme = client.scheme) && lower req.netloc = lower client.netloc) = true := by
      simp only [SameOriginAtCore, hclient, h.parse, Option.some.injEq, exists_and_left,
        exists_eq_left', Bool.and_eq_true, decide_eq_true_eq]
      exact and_congr eq_comm eq_comm
    rw [matchedOrigins] at hshared ⊢
    rw [List.mapM_cons, hparse, except_ok_bind]
    refine ⟨(decide (req.scheme = client.scheme) && lower req.netloc = lower client.netloc) ::
      shared, ?_, ?_, ?_⟩
    · rw [hshared]
      rfl
    · rw [List.all_cons, Bool.and_eq_true, hiffAll, List.forall_mem_cons, hsame]
      rfl
    · rw [List.any_cons, Bool.or_eq_true, hiffAny, List.exists_mem_cons_iff, hsame]
      rfl

/-! ## The derivation -/

theorem refreshIdentity_of_unreproducible (clientId : Str)
    (hnot : ¬((∀ uri ∈ uris, ¬IsLoopbackUri uri) ∧ OneOrigin uris)) :
    refreshIdentity uris clientId = .ok .unreproducible := by
  obtain ⟨b, hb, hiff⟩ := refreshIdentityIsReproducible_eq hne hall
  have hfalse : b = false := Bool.eq_false_iff.mpr (mt hiff.mp hnot)
  rw [refreshIdentity, if_neg hne, hb, hfalse]
  rfl

theorem refreshIdentity_of_unparsed {clientId : Str} (hclient : urlparse clientId = none)
    (hweb : ∀ uri ∈ uris, ¬IsLoopbackUri uri) (hone : OneOrigin uris) :
    refreshIdentity uris clientId = .ok .passthrough := by
  obtain ⟨b, hb, hiff⟩ := refreshIdentityIsReproducible_eq hne hall
  rw [refreshIdentity, if_neg hne, hb, hiff.mpr ⟨hweb, hone⟩, hclient]
  rfl

/-- The identity of a reproducible list depends on how many of its redirects have the client id's
own authority. -/
theorem refreshIdentity_of_parsed {clientId : Str} {client : ParseResult}
    (hclient : urlparse clientId = some client) (hweb : ∀ uri ∈ uris, ¬IsLoopbackUri uri)
    {origin : Str × Str × ℕ} (hone : ∀ uri ∈ uris, normalizedOrigin uri = .ok (some origin)) :
    ((∀ uri ∈ uris, SameOriginAtCore clientId uri) →
      refreshIdentity uris clientId = .ok .passthrough) ∧
    ((∃ uri ∈ uris, SameOriginAtCore clientId uri) →
      (¬∀ uri ∈ uris, SameOriginAtCore clientId uri) →
      refreshIdentity uris clientId = .ok .unreproducible) ∧
    ((¬∃ uri ∈ uris, SameOriginAtCore clientId uri) →
      refreshIdentity uris clientId = .ok (.origin (canonicalOriginUrl origin))) := by
  obtain ⟨b, hb, hiff⟩ := refreshIdentityIsReproducible_eq hne hall
  obtain ⟨shared, hshared, hiffAll, hiffAny⟩ := matchedOrigins_eq hall hclient
  have hrun : refreshIdentity uris clientId =
      if shared.all id then .ok .passthrough
      else if shared.any id then .ok .unreproducible
      else stableOriginOrUnreproducible uris := by
    rw [refreshIdentity, if_neg hne, hb, hiff.mpr ⟨hweb, origin, hone⟩, hclient]
    simp only [except_ok_bind, Bool.not_true, Bool.false_eq_true, if_false, hshared]
    rfl
  rw [hrun]
  refine ⟨fun hsame => if_pos (hiffAll.mpr hsame), fun hsome hnot => ?_, fun hnone => ?_⟩
  · rw [if_neg (mt hiffAll.mp hnot), if_pos (hiffAny.mpr hsome)]
  · have hnot : ¬∀ uri ∈ uris, SameOriginAtCore clientId uri := by
      intro hsame
      obtain ⟨uri, rest, rfl⟩ := List.exists_cons_of_ne_nil hne
      exact hnone ⟨uri, List.mem_cons_self, hsame uri List.mem_cons_self⟩
    rw [if_neg (mt hiffAll.mp hnot), if_neg (mt hiffAny.mp hnone), stableOriginOrUnreproducible,
      stableTranslationOrigin_eq hne hall hweb hone]
    rfl

end

/-! ## Programs -/

omit [Runtime] in
theorem Yields.unique {α : Type} {p : Prog S OAuthError α} {a b : α} (ha : Yields p a)
    (hb : Yields p b) : a = b := by
  obtain ⟨tr, hrun⟩ := ha.run
  exact Except.ok.inj (hb.only tr _ hrun)

omit [Runtime] in
theorem yields_ret {α : Type} (a : α) : Yields (ret a : Prog S OAuthError α) a :=
  ⟨⟨[], .ret a⟩, fun _ _ h => (runs_ret_iff.mp h).2⟩

omit [Runtime] in
theorem Yields.bind {α β : Type} {p : Prog S OAuthError α} {k : α → Prog S OAuthError β} {a : α}
    {b : β} (hp : Yields p a) (hk : Yields (k a) b) : Yields (Prog.bind p k) b := by
  obtain ⟨tr, hrun⟩ := hp.run
  obtain ⟨tr', hrun'⟩ := hk.run
  refine ⟨⟨tr ++ tr', runs_bind_iff.mpr (.inl ⟨a, tr, tr', hrun, hrun', rfl⟩)⟩, fun tr out h => ?_⟩
  rcases runs_bind_iff.mp h with ⟨a', tr₁, tr₂, h₁, h₂, -⟩ | ⟨e, h₁, -⟩
  · obtain rfl := Except.ok.inj (hp.only tr₁ _ h₁)
    exact hk.only tr₂ out h₂
  · cases hp.only tr _ h₁

section

variable {fetch : Str → Prog S OAuthError (Option (List Str))} {session : Bool}
  {dcrKey : Option Bytes} {clientId : Str} {registered : List Str}

/-- A client id whose document is validated is an `https` URL with a path. -/
theorem exists_https_of_validCimdClientId (h : validCimdClientId clientId = true) :
    ∃ client, urlparse clientId = some client ∧ client.scheme = str "https" ∧
      client.path ≠ [] := by
  rw [validCimdClientId] at h
  cases hclient : urlparse clientId with
  | none => simp [hclient] at h
  | some client =>
    simp only [hclient] at h
    cases hport : client.port with
    | none => simp [hport] at h
    | some port =>
      simp only [hport, Bool.and_eq_true, decide_eq_true_eq] at h
      exact ⟨client, rfl, List.mem_singleton.mp h.1.1.1.1.1.1.1, h.1.1.1.1.1.2⟩

theorem VerifiedRegistration.ne_nil
    (h : VerifiedRegistration fetch session dcrKey clientId registered) : clientId ≠ [] := by
  rintro rfl
  rcases h.verified with hdcr | ⟨-, -, hvalid, -⟩
  · unfold dcrRedirects at hdcr
    split at hdcr
    · cases hdcr
    · cases hdcr
  · obtain ⟨client, hclient, hscheme, -⟩ := exists_https_of_validCimdClientId hvalid
    obtain rfl : ⟨[], [], [], [], [], []⟩ = client := Option.some.inj hclient
    cases hscheme

/-- What a redirect that matches is forwarded as. -/
def ForwardsTo (clientId redirectUri x : Str) : Prop :=
  (urlparse clientId = none ∨ SameOriginAtCore clientId redirectUri) ∧ x = clientId ∨
    ¬(urlparse clientId = none ∨ SameOriginAtCore clientId redirectUri) ∧
      originClientId redirectUri = .ok x

theorem exists_forwardsTo (clientId : Str) {redirectUri : Str}
    (hvalid : isValidRedirectUri redirectUri = true) : ∃ x, ForwardsTo clientId redirectUri x := by
  obtain ⟨req, hostname, port, h⟩ := exists_isRedirect hvalid
  by_cases hsame : urlparse clientId = none ∨ SameOriginAtCore clientId redirectUri
  · exact ⟨clientId, .inl ⟨hsame, rfl⟩⟩
  · exact ⟨_, .inr ⟨hsame, h.originClientId_eq⟩⟩

/-- An accepted redirect has a web scheme, so that the fast path compares what core does. -/
theorem isSameOriginPair_iff {client req : ParseResult} {redirectUri hostname : Str}
    {port : Option ℕ} (h : IsRedirect redirectUri req hostname port)
    (hclient : urlparse clientId = some client) :
    isSameOriginPair client req = true ↔ SameOriginAtCore clientId redirectUri := by
  simp only [isSameOriginPair, SameOriginAtCore, hclient, h.parse, Option.some.injEq,
    exists_and_left, exists_eq_left', Bool.and_eq_true, Bool.or_eq_true, decide_eq_true_eq]
  constructor
  · exact fun hsame => ⟨hsame.1.2, hsame.2⟩
  · exact fun hsame => ⟨⟨hsame.1 ▸ h.scheme, hsame.1⟩, hsame.2⟩

/-- A redirect that matches is forwarded under one identity. -/
theorem yields_resolveForwardClientId
    (h : VerifiedRegistration fetch session dcrKey clientId registered) {redirectUri x : Str}
    (hvalid : isValidRedirectUri redirectUri = true)
    (hmatch : redirectMatches registered redirectUri = .ok true)
    (hx : ForwardsTo clientId redirectUri x) :
    Yields (resolveForwardClientId fetch session dcrKey clientId redirectUri) x := by
  obtain ⟨req, hostname, port, hreq⟩ := exists_isRedirect hvalid
  have hok : ¬(decide (clientId = []) || !isValidRedirectUri redirectUri) = true := by
    simp [h.ne_nil, hvalid]
  rw [resolveForwardClientId, if_neg hok, hreq.parse]
  cases hclient : urlparse clientId with
  | none =>
    rcases hx with ⟨-, rfl⟩ | ⟨hnot, -⟩
    · exact yields_ret x
    · exact absurd (.inl hclient) hnot
  | some client =>
    simp only
    by_cases hsame : isSameOriginPair client req = true
    · rw [if_pos hsame]
      rcases hx with ⟨-, rfl⟩ | ⟨hnot, -⟩
      · exact yields_ret x
      · exact absurd (.inr ((isSameOriginPair_iff hreq hclient).mp hsame)) hnot
    · rw [if_neg hsame]
      rw [isSameOriginPair_iff hreq hclient] at hsame
      have horigin : originClientId redirectUri = .ok x := by
        rcases hx with ⟨hsome | hsame', -⟩ | ⟨-, horigin⟩
        · rw [hclient] at hsome
          cases hsome
        · exact absurd hsame' hsame
        · exact horigin
      have htranslated : translationFor registered clientId redirectUri = .ok x := by
        rw [translationFor, hmatch, except_ok_bind, if_pos rfl, horigin]
      rcases h.verified with hdcr | ⟨hdcr, rfl, hcimd, -, hfetch⟩
      · rw [hdcr]
        show Yields (ofExcept ((translationFor registered clientId redirectUri).mapError .py)) x
        rw [htranslated]
        exact yields_ret x
      · obtain ⟨client', hclient', hscheme, -⟩ := exists_https_of_validCimdClientId hcimd
        obtain rfl := Option.some.inj (hclient.symm.trans hclient')
        rw [hdcr]
        simp only [Except.mapError, ofExcept_ok, bind_eq, bind_ret, hscheme, decide_true,
          Bool.and_self, if_true]
        refine hfetch.bind ?_
        simp only [htranslated, ofExcept_ok]
        exact yields_ret x

theorem mem_forwardedIds_iff (h : VerifiedRegistration fetch session dcrKey clientId registered)
    {x : Str} : x ∈ forwardedIds fetch session dcrKey clientId registered ↔
      ∃ redirectUri, isValidRedirectUri redirectUri = true ∧
        redirectMatches registered redirectUri = .ok true ∧ ForwardsTo clientId redirectUri x := by
  constructor
  · rintro ⟨redirectUri, tr, hvalid, hmatch, hrun⟩
    obtain ⟨y, hy⟩ := exists_forwardsTo clientId hvalid
    obtain rfl := Except.ok.inj ((yields_resolveForwardClientId h hvalid hmatch hy).only tr _ hrun)
    exact ⟨redirectUri, hvalid, hmatch, hy⟩
  · rintro ⟨redirectUri, hvalid, hmatch, hx⟩
    obtain ⟨tr, hrun⟩ := (yields_resolveForwardClientId h hvalid hmatch hx).run
    exact ⟨redirectUri, tr, hvalid, hmatch, hrun⟩

/-- The derivation looks at the registration alone. -/
theorem yields_translatedClientIdForRefresh
    (h : VerifiedRegistration fetch session dcrKey clientId registered) {d : RefreshIdentity}
    (hd : refreshIdentity registered clientId = .ok d) :
    Yields (translatedClientIdForRefresh fetch session dcrKey clientId) d := by
  rw [translatedClientIdForRefresh]
  rcases h.verified with hdcr | ⟨hdcr, rfl, hcimd, -, hfetch⟩
  · rw [hdcr]
    simp only [Except.mapError, ofExcept_ok, bind_eq, bind_ret, hd]
    exact yields_ret d
  · obtain ⟨client, hclient, hscheme, -⟩ := exists_https_of_validCimdClientId hcimd
    rw [hdcr]
    simp only [Except.mapError, ofExcept_ok, bind_eq, bind_ret, hclient, hscheme, decide_true,
      Bool.and_self, if_true]
    refine hfetch.bind ?_
    simp only [hd, ofExcept_ok]
    exact yields_ret d

/-! ## The forwarded values -/

/-- The origin of a redirect is never the client id of a registration. -/
theorem VerifiedRegistration.originClientId_ne
    (h : VerifiedRegistration fetch session dcrKey clientId registered) {redirectUri : Str}
    (hvalid : isValidRedirectUri redirectUri = true) :
    originClientId redirectUri ≠ .ok clientId := by
  obtain ⟨req, hostname, port, hreq⟩ := exists_isRedirect hvalid
  intro horigin
  rw [hreq.originClientId_eq, Except.ok.injEq] at horigin
  rcases h.verified with hdcr | ⟨-, -, hcimd, -⟩
  · have hpre : startsWith clientId clientIdPrefix = true := by
      unfold dcrRedirects clientRedirectUris at hdcr
      split at hdcr
      · split_ifs at hdcr with hpre
        · exact hpre
        · cases hdcr
      · cases hdcr
    rw [← horigin] at hpre
    rcases hreq.scheme with hs | hs <;> rw [hs] at hpre <;> cases hpre
  · obtain ⟨client, hclient, -, hpath⟩ := exists_https_of_validCimdClientId hcimd
    rw [← horigin, hreq.urlparse_origin] at hclient
    split_ifs at hclient
    rw [← Option.some.inj hclient] at hpath
    exact hpath rfl

end

/-- Redirects with one client id have one origin. -/
theorem normalizedOrigin_eq_of_originClientId {u v x : Str} (hu : isValidRedirectUri u = true)
    (hv : isValidRedirectUri v = true) (hx : originClientId u = .ok x)
    (hx' : originClientId v = .ok x) : normalizedOrigin u = normalizedOrigin v := by
  obtain ⟨req, hostname, port, h⟩ := exists_isRedirect hu
  obtain ⟨req', hostname', port', h'⟩ := exists_isRedirect hv
  rw [h.originClientId_eq, ← hx', h'.originClientId_eq, Except.ok.injEq, ← canonicalOriginUrl_eq,
    ← canonicalOriginUrl_eq, canonicalOriginUrl_eq_iff h h'] at hx
  rw [h.normalizedOrigin_eq, h'.normalizedOrigin_eq, hx]

/-! ## Loopback redirects -/

section

variable {uri hostname : Str} {req : ParseResult} {port : Option ℕ}

omit [Runtime] in
/-- A loopback host without a colon is a name or an IPv4 address. -/
theorem no_brackets_of_isLoopbackHost {host : Str} (hloop : OAuth.isLoopbackHost host = true)
    (hcolon : ch ':' ∉ host) : ch '[' ∉ host ∧ ch ']' ∉ host := by
  rw [OAuth.isLoopbackHost] at hloop
  split_ifs at hloop with hname
  · rw [List.mem_singleton.mp hname]
    decide
  · cases hip : ipAddress host with
    | none => simp [hip] at hloop
    | some ip =>
      have hchars := isDigit_of_ipAddress hip hcolon
      constructor
      all_goals
        intro hmem
        exact absurd (hchars _ hmem) (by decide)

namespace IsRedirect

theorem isValidRedirectUri_iff (h : IsRedirect uri req hostname port) :
    isValidRedirectUri uri = true ↔ hostname ≠ [] ∧
      (req.scheme = str "http" → OAuth.isLoopbackHost hostname = true) ∧ req.fragment = [] := by
  have hne : uri ≠ [] := by
    rintro rfl
    have hnil : ⟨[], [], [], [], [], []⟩ = req := Option.some.inj h.parse
    rcases h.scheme with hs | hs <;> rw [← hnil] at hs <;> cases hs
  have hscheme : (decide (req.scheme ≠ str "http") && decide (req.scheme ≠ str "https")) =
      false := by
    rcases h.scheme with hs | hs <;> simp [hs]
  rw [isValidRedirectUri, if_neg hne]
  simp only [h.parse, h.port, h.hostname, h.chars, Bool.not_true, Bool.or_false,
    decide_eq_true_eq]
  split_ifs with hnil hloop hother
  · simp [hnil]
  · simp only [Bool.and_eq_true, decide_eq_true_eq, Bool.not_eq_true'] at hloop
    simp [hloop.1, hloop.2]
  · exact absurd hother (by rw [hscheme]; exact Bool.false_ne_true)
  · simp only [Bool.and_eq_true, decide_eq_true_eq, Bool.not_eq_true', not_and,
      Bool.not_eq_false] at hloop
    rw [decide_eq_true_eq]
    exact ⟨fun hfragment => ⟨hnil, hloop, hfragment⟩, fun hvalid => hvalid.2.2⟩

/-- A loopback redirect at another port. -/
theorem exists_atPort (h : IsRedirect uri req hostname port)
    (hvalid : isValidRedirectUri uri = true) (hloop : OAuth.isLoopbackHost hostname = true)
    {n : ℕ} (hle : n ≤ 65535) (hspelled : spelledPort req.scheme n = some n) :
    ∃ uri', isValidRedirectUri uri' = true ∧
      IsRedirect uri' { req with netloc := originNetloc hostname (some n) } hostname (some n) := by
  have hplain := no_brackets_of_isLoopbackHost hloop
  have hnetloc : req.netloc ≠ [] := by
    intro hnil
    have hhost := h.hostname
    rw [ParseResult.hostname, hnil] at hhost
    cases hhost
  obtain ⟨uri', hparse⟩ := exists_urlparse_netloc h.parse h.scheme hnetloc
    (isNetlocChar_originNetloc h.isNetlocChar_hostname (some n))
    (checkBrackets_originNetloc h.at_not_mem h.bracketed_of_colon hplain (some n))
  have hport := h.port_origin hplain hle
  rw [hspelled] at hport
  have h' : IsRedirect uri' { req with netloc := originNetloc hostname (some n) } hostname
      (some n) :=
    ⟨hparse, h.hostname_origin hplain (some n), hport,
      h.isAuthorityChar_originNetloc (some n), h.scheme⟩
  refine ⟨uri', h'.isValidRedirectUri_iff.mpr ?_, h'⟩
  exact h.isValidRedirectUri_iff.mp hvalid

end IsRedirect

omit [Runtime] in
/-- Authorities with different ports differ in lower case too. -/
theorem map_asciiLower_originNetloc_ne (host : Str) :
    (originNetloc host (some 1)).map asciiLower ≠ (originNetloc host (some 2)).map asciiLower := by
  intro h
  have hlast := congrArg List.getLast? h
  have hone : natRepr 1 = [ch '1'] := by decide
  have htwo : natRepr 2 = [ch '2'] := by decide
  simp only [originNetloc, portSuffix, hone, htwo, List.map_append, List.map_cons, List.map_nil,
    List.getLast?_append_cons] at hlast
  revert hlast
  decide

end

/-! ## Deciding -/

section

variable {fetch : Str → Prog S OAuthError (Option (List Str))} {session : Bool}
  {dcrKey : Option Bytes} {clientId : Str} {registered : List Str}
  (h : VerifiedRegistration fetch session dcrKey clientId registered)

include h

namespace VerifiedRegistration

theorem exists_uri : ∃ uri, uri ∈ registered :=
  List.exists_mem_of_ne_nil registered h.nonempty

/-- Without a loopback redirect only the listed ones match. -/
theorem redirectMatches_iff (hweb : ∀ uri ∈ registered, ¬IsLoopbackUri uri) {redirectUri : Str}
    (hvalid : isValidRedirectUri redirectUri = true) :
    redirectMatches registered redirectUri = .ok true ↔ redirectUri ∈ registered := by
  obtain ⟨req, hostname, port, hreq⟩ := exists_isRedirect hvalid
  rw [redirectMatches_eq_true_iff hreq h.accepted]
  refine or_iff_left ?_
  rintro ⟨⟨hostname', hhost, hloop⟩, entry, hentry, reg, hreg, hsame⟩
  exact hweb entry hentry ⟨reg, hreg, hostname', hsame.hostname.trans hhost, hloop⟩

/-- What listed redirects are forwarded as, when no other matches. -/
theorem mem_forwardedIds_of_web (hweb : ∀ uri ∈ registered, ¬IsLoopbackUri uri) {x : Str} :
    x ∈ forwardedIds fetch session dcrKey clientId registered ↔
      ∃ uri ∈ registered, ForwardsTo clientId uri x := by
  rw [mem_forwardedIds_iff h]
  constructor
  · rintro ⟨uri, hvalid, hmatch, hx⟩
    exact ⟨uri, (h.redirectMatches_iff hweb hvalid).mp hmatch, hx⟩
  · rintro ⟨uri, huri, hx⟩
    exact ⟨uri, h.accepted uri huri, (h.redirectMatches_iff hweb (h.accepted uri huri)).mpr huri, hx⟩

/-- A client id that is forwarded untouched whichever redirect is presented. -/
theorem forwardedIds_of_untouched
    (hsame : ∀ uri, isValidRedirectUri uri = true → redirectMatches registered uri = .ok true →
      urlparse clientId = none ∨ SameOriginAtCore clientId uri) :
    forwardedIds fetch session dcrKey clientId registered = {clientId} := by
  ext x
  rw [mem_forwardedIds_iff h, Set.mem_singleton_iff]
  constructor
  · rintro ⟨uri, hvalid, hmatch, ⟨-, rfl⟩ | ⟨hnot, -⟩⟩
    · rfl
    · exact absurd (hsame uri hvalid hmatch) hnot
  · rintro rfl
    obtain ⟨uri, huri⟩ := h.exists_uri
    have hmatch : redirectMatches registered uri = .ok true := if_pos huri
    exact ⟨uri, h.accepted uri huri, hmatch, .inl ⟨hsame uri (h.accepted uri huri) hmatch, rfl⟩⟩

/-- A loopback redirect matches at every port, and no two ports are forwarded alike. -/
theorem forwardedIds_nontrivial_of_loopback (hclient : urlparse clientId ≠ none)
    (hloop : ∃ uri ∈ registered, IsLoopbackUri uri) :
    (forwardedIds fetch session dcrKey clientId registered).Nontrivial := by
  obtain ⟨uri, huri, hloop⟩ := hloop
  obtain ⟨req, hostname, port, hreq⟩ := exists_isRedirect (h.accepted uri huri)
  have hlocal := hreq.isLoopbackUri_iff.mp hloop
  have hatPort (n : ℕ) (hle : n ≤ 65535) (hspelled : spelledPort req.scheme n = some n) :
      ∃ uri', isValidRedirectUri uri' = true ∧
        redirectMatches registered uri' = .ok true ∧
        IsRedirect uri' { req with netloc := originNetloc hostname (some n) } hostname (some n) := by
    obtain ⟨uri', hvalid', hreq'⟩ := hreq.exists_atPort (h.accepted uri huri) hlocal hle hspelled
    refine ⟨uri', hvalid', (redirectMatches_eq_true_iff hreq' h.accepted).mpr (.inr ?_), hreq'⟩
    exact ⟨⟨hostname, hreq'.hostname, hlocal⟩, uri, huri, req, hreq.parse,
      ⟨rfl, hreq.hostname.trans hreq'.hostname.symm, rfl, rfl, rfl⟩⟩
  have hspelled (n : ℕ) (hn : n < 3) : spelledPort req.scheme n = some n := by
    rw [spelledPort, if_neg]
    rcases hreq.scheme with hs | hs <;> rw [hs] <;> simp [defaultPort] <;> omega
  obtain ⟨uri₁, hvalid₁, hmatch₁, hreq₁⟩ := hatPort 1 (by decide) (hspelled 1 (by decide))
  obtain ⟨uri₂, hvalid₂, hmatch₂, hreq₂⟩ := hatPort 2 (by decide) (hspelled 2 (by decide))
  obtain ⟨x₁, hx₁⟩ := exists_forwardsTo clientId hvalid₁
  obtain ⟨x₂, hx₂⟩ := exists_forwardsTo clientId hvalid₂
  refine ⟨x₁, (mem_forwardedIds_iff h).mpr ⟨uri₁, hvalid₁, hmatch₁, hx₁⟩, x₂,
    (mem_forwardedIds_iff h).mpr ⟨uri₂, hvalid₂, hmatch₂, hx₂⟩, ?_⟩
  rcases hx₁ with ⟨hsame₁, rfl⟩ | ⟨-, horigin₁⟩
  · rcases hx₂ with ⟨hsame₂, rfl⟩ | ⟨-, horigin₂⟩
    · -- the client id has one authority, and the redirects have two
      exfalso
      obtain ⟨client, req₁, hparse, hparse₁, -, hnetloc₁⟩ := hsame₁.resolve_left hclient
      obtain ⟨client', req₂, hparse', hparse₂, -, hnetloc₂⟩ := hsame₂.resolve_left hclient
      obtain rfl := Option.some.inj (hparse.symm.trans hparse')
      obtain rfl := Option.some.inj (hreq₁.parse.symm.trans hparse₁)
      obtain rfl := Option.some.inj (hreq₂.parse.symm.trans hparse₂)
      have hascii (n : ℕ) := isAscii_of_isNetlocChar
        (isNetlocChar_originNetloc hreq.isNetlocChar_hostname (some n))
      rw [hnetloc₁, lower_ascii (hascii 1), lower_ascii (hascii 2)] at hnetloc₂
      exact map_asciiLower_originNetloc_ne hostname hnetloc₂
    · rintro rfl
      exact h.originClientId_ne hvalid₂ horigin₂
  · rcases hx₂ with ⟨-, rfl⟩ | ⟨-, horigin₂⟩
    · rintro rfl
      exact h.originClientId_ne hvalid₁ horigin₁
    · rintro rfl
      have hsame := normalizedOrigin_eq_of_originClientId hvalid₁ hvalid₂ horigin₁ horigin₂
      rw [hreq₁.normalizedOrigin_eq, hreq₂.normalizedOrigin_eq] at hsame
      simp at hsame

/-- Listed redirects with the client id's authority and without it, or with several origins. -/
theorem forwardedIds_nontrivial_of_web (hclient : urlparse clientId ≠ none)
    (hweb : ∀ uri ∈ registered, ¬IsLoopbackUri uri)
    (hcross : ¬∀ uri ∈ registered, SameOriginAtCore clientId uri)
    (hmixed : (∃ uri ∈ registered, SameOriginAtCore clientId uri) ∨ ¬OneOrigin registered) :
    (forwardedIds fetch session dcrKey clientId registered).Nontrivial := by
  simp only [not_forall, exists_prop] at hcross
  obtain ⟨uri, huri, hcross⟩ := hcross
  have horigin {v : Str} (hv : v ∈ registered) (hnot : ¬SameOriginAtCore clientId v) :
      ∃ x, originClientId v = .ok x ∧ x ∈ forwardedIds fetch session dcrKey clientId registered := by
    obtain ⟨req, hostname, port, hreq⟩ := exists_isRedirect (h.accepted v hv)
    refine ⟨_, hreq.originClientId_eq, (h.mem_forwardedIds_of_web hweb).mpr ⟨v, hv, .inr ?_⟩⟩
    exact ⟨not_or.mpr ⟨hclient, hnot⟩, hreq.originClientId_eq⟩
  obtain ⟨x, hx, hmem⟩ := horigin huri hcross
  by_cases hsome : ∃ v ∈ registered, SameOriginAtCore clientId v
  · obtain ⟨v, hv, hsame⟩ := hsome
    refine ⟨x, hmem, clientId, ?_, ?_⟩
    · exact (h.mem_forwardedIds_of_web hweb).mpr ⟨v, hv, .inl ⟨.inr hsame, rfl⟩⟩
    · rintro rfl
      exact h.originClientId_ne (h.accepted uri huri) hx
  · -- two redirects with different origins are translated differently
    have hone := hmixed.resolve_left hsome
    obtain ⟨origin, hknown⟩ := exists_normalizedOrigin (h.accepted uri huri)
    obtain ⟨v, hv, hother⟩ : ∃ v ∈ registered, normalizedOrigin v ≠ .ok (some origin) := by
      by_contra hall
      refine hone ⟨origin, fun v hv => ?_⟩
      by_contra hother
      exact hall ⟨v, hv, hother⟩
    obtain ⟨y, hy, hmem'⟩ := horigin hv fun hsame => hsome ⟨v, hv, hsame⟩
    refine ⟨x, hmem, y, hmem', ?_⟩
    rintro rfl
    rw [← normalizedOrigin_eq_of_originClientId (h.accepted uri huri) (h.accepted v hv) hx hy]
      at hother
    exact hother hknown

/-- Listed redirects with one origin that is not the client id's. -/
theorem forwardedIds_of_translated (hclient : urlparse clientId ≠ none)
    (hweb : ∀ uri ∈ registered, ¬IsLoopbackUri uri) {origin : Str × Str × ℕ}
    (hone : ∀ uri ∈ registered, normalizedOrigin uri = .ok (some origin))
    (hcross : ¬∃ uri ∈ registered, SameOriginAtCore clientId uri) :
    forwardedIds fetch session dcrKey clientId registered = {canonicalOriginUrl origin} := by
  have hforwards {uri : Str} (huri : uri ∈ registered) {x : Str} :
      ForwardsTo clientId uri x ↔ x = canonicalOriginUrl origin := by
    have horigin : originClientId uri = .ok (canonicalOriginUrl origin) := by
      rw [originClientId, hone uri huri]
      rfl
    have hnot : ¬(urlparse clientId = none ∨ SameOriginAtCore clientId uri) :=
      not_or.mpr ⟨hclient, fun hsame => hcross ⟨uri, huri, hsame⟩⟩
    simp only [ForwardsTo, hnot, false_and, false_or, not_false_eq_true, true_and, horigin,
      Except.ok.injEq]
    exact eq_comm
  ext x
  rw [h.mem_forwardedIds_of_web hweb, Set.mem_singleton_iff]
  constructor
  · rintro ⟨uri, huri, hx⟩
    exact (hforwards huri).mp hx
  · rintro rfl
    obtain ⟨uri, huri⟩ := h.exists_uri
    exact ⟨uri, huri, (hforwards huri).mpr rfl⟩

theorem stableTranslationOrigin_ne (hrep : refreshIdentityIsReproducible registered = .ok true) :
    stableTranslationOrigin registered ≠ .ok none := by
  obtain ⟨b, hb, hiff⟩ := refreshIdentityIsReproducible_eq h.nonempty h.accepted
  obtain rfl := Except.ok.inj (hb.symm.trans hrep)
  obtain ⟨hweb, origin, hone⟩ := hiff.mp rfl
  rw [stableTranslationOrigin_eq h.nonempty h.accepted hweb hone]
  simp

/-- The derivation of a registration that is forwarded under one identity. -/
theorem decidesExactly_iff_of_single {x : Str} {d : RefreshIdentity}
    (hids : forwardedIds fetch session dcrKey clientId registered = {x})
    (hd : refreshIdentity registered clientId = .ok d) :
    DecidesExactly fetch session dcrKey clientId registered ↔ d = identityOf clientId x := by
  have hyields := yields_translatedClientIdForRefresh h hd
  constructor
  · exact fun hexact => hyields.unique (hexact.single x hids)
  · rintro rfl
    refine ⟨hids ▸ Set.singleton_nonempty x, fun y hy => ?_, fun hseveral => ?_,
      h.stableTranslationOrigin_ne⟩
    · rw [hids, Set.singleton_eq_singleton_iff] at hy
      exact hy ▸ hyields
    · rw [hids] at hseveral
      exact absurd hseveral Set.not_nontrivial_singleton

/-- The derivation of a registration that is forwarded under several identities. -/
theorem decidesExactly_of_nontrivial
    (hids : (forwardedIds fetch session dcrKey clientId registered).Nontrivial)
    (hd : refreshIdentity registered clientId = .ok .unreproducible) :
    DecidesExactly fetch session dcrKey clientId registered := by
  refine ⟨hids.nonempty, fun x hx => ?_, fun _ => yields_translatedClientIdForRefresh h hd,
    h.stableTranslationOrigin_ne⟩
  rw [hx] at hids
  exact absurd hids Set.not_nontrivial_singleton

/-- A client id that cannot be parsed is forwarded untouched, and the list decides. -/
theorem decidesExactly_iff_of_unparsed (hclient : urlparse clientId = none) :
    DecidesExactly fetch session dcrKey clientId registered ↔
      (∀ uri ∈ registered, ¬IsLoopbackUri uri) ∧ OneOrigin registered := by
  have hids := h.forwardedIds_of_untouched fun _ _ _ => .inl hclient
  by_cases hrep : (∀ uri ∈ registered, ¬IsLoopbackUri uri) ∧ OneOrigin registered
  · have hd := refreshIdentity_of_unparsed h.nonempty h.accepted hclient hrep.1 hrep.2
    rw [h.decidesExactly_iff_of_single hids hd]
    exact iff_of_true (if_pos rfl).symm hrep
  · have hd := refreshIdentity_of_unreproducible h.nonempty h.accepted clientId hrep
    rw [h.decidesExactly_iff_of_single hids hd, identityOf, if_pos rfl]
    exact iff_of_false (by decide) hrep

/-- Redirects with the client id's authority, none to a loopback host. -/
theorem decidesExactly_iff_of_same {client : ParseResult}
    (hclient : urlparse clientId = some client) (hweb : ∀ uri ∈ registered, ¬IsLoopbackUri uri)
    (hsame : ∀ uri ∈ registered, SameOriginAtCore clientId uri) :
    DecidesExactly fetch session dcrKey clientId registered ↔ OneOrigin registered := by
  have hids := h.forwardedIds_of_untouched fun uri hvalid hmatch =>
    .inr (hsame uri ((h.redirectMatches_iff hweb hvalid).mp hmatch))
  by_cases hone : OneOrigin registered
  · obtain ⟨origin, horigin⟩ := id hone
    have hd := (refreshIdentity_of_parsed h.nonempty h.accepted hclient hweb horigin).1 hsame
    rw [h.decidesExactly_iff_of_single hids hd]
    exact iff_of_true (if_pos rfl).symm hone
  · have hd := refreshIdentity_of_unreproducible h.nonempty h.accepted clientId
      fun hrep => hone hrep.2
    rw [h.decidesExactly_iff_of_single hids hd, identityOf, if_pos rfl]
    exact iff_of_false (by decide) hone

/-- Redirects of which not all have the client id's authority, none to a loopback host. -/
theorem decidesExactly_of_cross {client : ParseResult}
    (hclient : urlparse clientId = some client) (hweb : ∀ uri ∈ registered, ¬IsLoopbackUri uri)
    (hcross : ¬∀ uri ∈ registered, SameOriginAtCore clientId uri) :
    DecidesExactly fetch session dcrKey clientId registered := by
  have hparsed : urlparse clientId ≠ none := by
    rw [hclient]
    exact Option.some_ne_none client
  by_cases hone : OneOrigin registered
  · obtain ⟨origin, horigin⟩ := id hone
    have hd := (refreshIdentity_of_parsed h.nonempty h.accepted hclient hweb horigin).2
    by_cases hsome : ∃ uri ∈ registered, SameOriginAtCore clientId uri
    · exact h.decidesExactly_of_nontrivial
        (h.forwardedIds_nontrivial_of_web hparsed hweb hcross (.inl hsome)) (hd.1 hsome hcross)
    · have hids := h.forwardedIds_of_translated hparsed hweb horigin hsome
      obtain ⟨uri, huri⟩ := h.exists_uri
      have hne : canonicalOriginUrl origin ≠ clientId := by
        rintro rfl
        apply h.originClientId_ne (h.accepted uri huri)
        rw [originClientId, horigin uri huri]
        rfl
      rw [h.decidesExactly_iff_of_single hids (hd.2 hsome), identityOf, if_neg hne]
  · have hd := refreshIdentity_of_unreproducible h.nonempty h.accepted clientId
      fun hrep => hone hrep.2
    exact h.decidesExactly_of_nontrivial
      (h.forwardedIds_nontrivial_of_web hparsed hweb hcross (.inr hone)) hd

end VerifiedRegistration

/-- The derivation decides exactly, unless the client id cannot be parsed and its registration is
not reproducible, or all redirects have the client id's authority and yet several origins. -/
theorem translatedClientIdForRefresh_decides_iff :
    DecidesExactly fetch session dcrKey clientId registered ↔
      (urlparse clientId = none →
        (∀ uri ∈ registered, ¬IsLoopbackUri uri) ∧ OneOrigin registered) ∧
      ((∀ uri ∈ registered, SameOriginAtCore clientId uri) →
        (∀ uri ∈ registered, ¬IsLoopbackUri uri) → OneOrigin registered) := by
  by_cases hclient : urlparse clientId = none
  · rw [h.decidesExactly_iff_of_unparsed hclient]
    exact ⟨fun hrep => ⟨fun _ => hrep, fun _ _ => hrep.2⟩, fun hholds => hholds.1 hclient⟩
  · obtain ⟨client, hparse⟩ := Option.ne_none_iff_exists'.mp hclient
    rw [and_iff_right (fun hnone => absurd hnone hclient)]
    by_cases hweb : ∀ uri ∈ registered, ¬IsLoopbackUri uri
    · by_cases hsame : ∀ uri ∈ registered, SameOriginAtCore clientId uri
      · rw [h.decidesExactly_iff_of_same hparse hweb hsame]
        exact ⟨fun hone _ _ => hone, fun hholds => hholds hsame hweb⟩
      · exact iff_of_true (h.decidesExactly_of_cross hparse hweb hsame)
          fun hall => absurd hall hsame
    · -- a loopback redirect keeps the derivation from naming anyone
      have hloop : ∃ uri ∈ registered, IsLoopbackUri uri := by
        simpa only [not_forall, exists_prop, not_not] using hweb
      have hd := refreshIdentity_of_unreproducible h.nonempty h.accepted clientId
        fun hrep => hweb hrep.1
      refine iff_of_true ?_ fun _ hweb' => absurd hweb' hweb
      exact h.decidesExactly_of_nontrivial
        (h.forwardedIds_nontrivial_of_loopback hclient hloop) hd

end

/-! ## Two documents -/

/-- The document of a client with two redirects. -/
def twoRedirects (clientId first second : Str) : Bytes :=
  asciiBytes (str "\x7b\"client_id\":\"" ++ clientId ++
    str "\",\"client_name\":\"C\",\"redirect_uris\":[\"" ++ first ++ str "\",\"" ++ second ++
    str "\"]\x7d")

/-- A client whose document every lookup finds. -/
theorem verifiedRegistration_of_document (raw : Bytes) {clientId : Str} {registered : List Str}
    (hvalid : validCimdClientId clientId = true)
    (hdocument : parseCimd raw clientId = some registered) :
    VerifiedRegistration (S := S) (fun _ => ret (some registered)) true none clientId registered := by
  have hvalidated : Validated clientId registered := ⟨raw, hdocument⟩
  refine ⟨.cimd rfl rfl hvalid hvalidated (yields_ret _), hvalidated.spec.1, hvalidated.spec.2⟩

end

/-- The redirects of one other origin, one of them with the default port. -/
theorem translatedClientIdForRefresh_decides_translated :
    letI := asciiRuntime
    let registered := [str "https://web.example/cb", str "https://web.example:443/cb"]
    DecidesExactly (S := cimdSignature ℕ) (fun _ => ret (some registered)) true none
      (str "https://client.example/doc") registered := by
  let := asciiRuntime
  intro registered
  have hverified : VerifiedRegistration (S := cimdSignature ℕ) (fun _ => ret (some registered)) true
      none (str "https://client.example/doc") registered :=
    verifiedRegistration_of_document
      (twoRedirects (str "https://client.example/doc") (str "https://web.example/cb")
        (str "https://web.example:443/cb")) (by decide +kernel) (by decide +kernel)
  refine (translatedClientIdForRefresh_decides_iff hverified).mpr ⟨fun hnone => ?_, fun _ _ => ?_⟩
  · have hparse : (urlparse (str "https://client.example/doc")).isSome = true := by decide +kernel
    rw [hnone] at hparse
    cases hparse
  · refine ⟨(str "https", str "web.example", 443), ?_⟩
    decide +kernel

/-- Redirects that have the client id's authority, and yet two origins: a zone keeps its letter
case. Both are forwarded untouched, and the derivation gives up. -/
theorem not_decidesExactly_zone :
    letI := asciiRuntime
    let registered := [str "https://h%zA/cb", str "https://h%za/cb"]
    let fetch : Str → CimdProg ℕ (Option (List Str)) := fun _ => ret (some registered)
    VerifiedRegistration fetch true none (str "https://h%za/doc") registered ∧
      forwardedIds fetch true none (str "https://h%za/doc") registered =
        {str "https://h%za/doc"} ∧
      Yields (translatedClientIdForRefresh fetch true none (str "https://h%za/doc"))
        .unreproducible ∧
      ¬DecidesExactly fetch true none (str "https://h%za/doc") registered := by
  let := asciiRuntime
  intro registered fetch
  have hverified : VerifiedRegistration fetch true none (str "https://h%za/doc") registered :=
    verifiedRegistration_of_document (twoRedirects (str "https://h%za/doc")
      (str "https://h%zA/cb") (str "https://h%za/cb")) (by decide +kernel) (by decide +kernel)
  have hclient : urlparse (str "https://h%za/doc") =
      some ⟨str "https", str "h%za", str "/doc", [], [], []⟩ := by decide +kernel
  have hfirst : urlparse (str "https://h%zA/cb") =
      some ⟨str "https", str "h%zA", str "/cb", [], [], []⟩ := by decide +kernel
  have hsecond : urlparse (str "https://h%za/cb") =
      some ⟨str "https", str "h%za", str "/cb", [], [], []⟩ := by decide +kernel
  have hsame : ∀ uri ∈ registered, SameOriginAtCore (str "https://h%za/doc") uri := by
    rw [List.forall_mem_cons, List.forall_mem_singleton]
    exact ⟨⟨_, _, hclient, hfirst, rfl, by decide +kernel⟩, _, _, hclient, hsecond, rfl, rfl⟩
  have hweb : ∀ uri ∈ registered, ¬IsLoopbackUri uri := by
    obtain ⟨b, hb, hiff⟩ := anyLoopback_eq hverified.accepted
    have hnone : anyLoopback registered = .ok false := by decide +kernel
    rw [hnone, Except.ok.injEq] at hb
    exact fun uri huri hloop => Bool.false_ne_true (hb.trans (hiff.mpr ⟨uri, huri, hloop⟩))
  have hd : refreshIdentity registered (str "https://h%za/doc") = .ok .unreproducible := by
    decide +kernel
  have hids := hverified.forwardedIds_of_untouched fun uri hvalid hmatch =>
    .inr (hsame uri ((hverified.redirectMatches_iff hweb hvalid).mp hmatch))
  refine ⟨hverified, hids, yields_translatedClientIdForRefresh hverified hd, ?_⟩
  rw [hverified.decidesExactly_iff_of_single hids hd]
  decide +kernel

end EsphomeMcp.OAuth
