import EsphomeMcp.OAuth.RefreshIdentity

/-!
# What reading a registration raises

A payload that is signed is read with no handler around a nesting that is too deep, and the
redirects in it are parsed as they come. `mint_client_id` embeds accepted redirects only, but what
is signed is not looked at again: the errors below are those of a payload that holds others.
-/

namespace EsphomeMcp.OAuth

open Py

section

variable [Runtime]

/-- The bytes of a blob whose signature verifies behind a prefix. -/
def Signs (key : Bytes) (signedPrefix blob : Str) (raw : Bytes) : Prop :=
  ∃ body sigPart message, rpartition (ch '.') blob = some (body, sigPart) ∧ body ≠ [] ∧
    encodeAscii (signedPrefix ++ body) = some message ∧
    b64urlDecode sigPart = some (hmacSha256 key message) ∧ b64urlDecode body = some raw

/-- A blob is signed around JSON that is nested too deeply to be read. -/
def IsTooDeep (key : Bytes) (signedPrefix blob : Str) : Prop :=
  ∃ raw, Signs key signedPrefix blob raw ∧ loadsBytes raw = .error .recursion

/-- A redirect whose parts cannot be read. -/
def IsUnusable (uri : Str) : Prop :=
  urlparse uri = none ∨ ∃ parsed hostname, urlparse uri = some parsed ∧
    parsed.hostname = some hostname ∧ OAuth.isLoopbackHost hostname = false ∧
    parsed.scheme ≠ [] ∧ parsed.port = none

/-- A loopback redirect is compared with a registered one that cannot be parsed, as it is not in
the list and no redirect before that one matches. -/
def StopsMatching (registered : List Str) (redirectUri : Str) : Prop :=
  redirectUri ∉ registered ∧ ∃ req, urlparse redirectUri = some req ∧ HasLoopbackHost req ∧
    ∃ before entry rest, registered = before ++ entry :: rest ∧ urlparse entry = none ∧
      ∀ known ∈ before, ∀ reg, urlparse known = some reg → sameLoopback reg req = false

/-! ## Blobs that cannot be read -/

section

variable {key : Bytes}

omit [Runtime] in
/-- A blob is signed around one text only. -/
theorem Signs.unique {signedPrefix blob : Str} {raw raw' : Bytes}
    (h : Signs key signedPrefix blob raw) (h' : Signs key signedPrefix blob raw') : raw = raw' := by
  obtain ⟨body, sigPart, -, hparts, -, -, -, hraw⟩ := h
  obtain ⟨body', sigPart', -, hparts', -, -, -, hraw'⟩ := h'
  obtain ⟨rfl, rfl⟩ := Prod.mk.inj (Option.some.inj (hparts.symm.trans hparts'))
  exact Option.some.inj (hraw.symm.trans hraw')

/-- What a signed blob opens to. -/
theorem verifiedPayload_of_signs {signedPrefix blob : Str} {raw : Bytes}
    (h : Signs key signedPrefix blob raw) :
    verifiedPayload key signedPrefix blob = loadsCaught raw := by
  obtain ⟨body, sigPart, message, hparts, hbody, hmessage, hsig, hraw⟩ := h
  rw [verifiedPayload, hparts]
  simp only [if_neg hbody, hmessage, hsig, ne_eq, not_true_eq_false, if_false, hraw]

/-- A blob with another signature, or none, opens to nothing. -/
theorem verifiedPayload_of_not_signs {signedPrefix blob : Str}
    (h : ∀ raw, ¬Signs key signedPrefix blob raw) :
    verifiedPayload key signedPrefix blob = .ok none := by
  unfold verifiedPayload
  split
  · rfl
  · next body sigPart hparts =>
    split_ifs with hbody
    · rfl
    split
    · next message sig hmessage hsig =>
      split_ifs with hne
      · rfl
      split
      · next raw hraw =>
        rw [not_not] at hne
        rw [hne] at hsig
        exact absurd ⟨body, sigPart, message, hparts, hbody, hmessage, hsig, hraw⟩ (h raw)
      · rfl
    · rfl

/-- The one error of opening a blob is that of JSON that is too deep. -/
theorem verifiedPayload_error_iff {signedPrefix blob : Str} {e : PyError} :
    verifiedPayload key signedPrefix blob = .error e ↔
      e = .recursion ∧ IsTooDeep key signedPrefix blob := by
  by_cases hsigns : ∃ raw, Signs key signedPrefix blob raw
  · obtain ⟨raw, hraw⟩ := hsigns
    have hdeep : IsTooDeep key signedPrefix blob ↔ loadsBytes raw = .error .recursion := by
      constructor
      · rintro ⟨raw', hraw', hloads⟩
        rwa [hraw.unique hraw']
      · exact fun hloads => ⟨raw, hraw, hloads⟩
    rw [hdeep, verifiedPayload_of_signs hraw, loadsCaught]
    cases hloads : loadsBytes raw with
    | ok payload => simp
    | error err => cases err <;> simp [eq_comm]
  · rw [not_exists] at hsigns
    rw [verifiedPayload_of_not_signs hsigns]
    refine iff_of_false (by simp) fun h => ?_
    obtain ⟨-, raw, hraw, -⟩ := h
    exact hsigns raw hraw

/-- A blob opens to a payload when it is signed around its JSON. -/
theorem verifiedPayload_some_iff {signedPrefix blob : Str} {payload : Json} :
    verifiedPayload key signedPrefix blob = .ok (some payload) ↔
      ∃ raw, Signs key signedPrefix blob raw ∧ loadsBytes raw = .ok payload := by
  by_cases hsigns : ∃ raw, Signs key signedPrefix blob raw
  · obtain ⟨raw, hraw⟩ := hsigns
    have hiff : (∃ raw, Signs key signedPrefix blob raw ∧ loadsBytes raw = .ok payload) ↔
        loadsBytes raw = .ok payload := by
      constructor
      · rintro ⟨raw', hraw', hloads⟩
        rwa [hraw.unique hraw']
      · exact fun hloads => ⟨raw, hraw, hloads⟩
    rw [hiff, verifiedPayload_of_signs hraw, loadsCaught]
    cases hloads : loadsBytes raw with
    | ok payload => simp
    | error err => cases err <;> simp
  · rw [not_exists] at hsigns
    rw [verifiedPayload_of_not_signs hsigns]
    refine iff_of_false (by simp) fun h => ?_
    obtain ⟨raw, hraw, -⟩ := h
    exact hsigns raw hraw

end

/-! ## Redirects that cannot be read -/

/-- The loop raises at an entry that cannot be parsed, unless an entry before it matches. -/
theorem anyEntry_error_iff {req : ParseResult} {registered : List Str} :
    (∃ e, anyEntry req registered = .error e) ↔
      ∃ before entry rest, registered = before ++ entry :: rest ∧ urlparse entry = none ∧
        ∀ known ∈ before, ∀ reg, urlparse known = some reg → sameLoopback reg req = false := by
  induction registered with
  | nil => simp [anyEntry]
  | cons first registered ih =>
    rw [anyEntry]
    cases hparse : urlparse first with
    | none =>
      have herror : parseUrl first = .error .value := by rw [parseUrl, hparse]
      rw [herror]
      exact iff_of_true ⟨.value, rfl⟩ ⟨[], first, registered, rfl, hparse, by simp⟩
    | some reg =>
      have hok : parseUrl first = .ok reg := by rw [parseUrl, hparse]
      rw [hok, except_ok_bind]
      by_cases hsame : sameLoopback reg req = true
      · rw [if_pos hsame]
        refine iff_of_false (by simp [pure, Except.pure]) ?_
        rintro ⟨before, entry, rest, hsplit, hentry, hbefore⟩
        cases before with
        | nil =>
          obtain ⟨rfl, -⟩ := List.cons.inj hsplit
          cases hparse.symm.trans hentry
        | cons known before =>
          obtain ⟨rfl, -⟩ := List.cons.inj hsplit
          cases hsame.symm.trans (hbefore first List.mem_cons_self reg hparse)
      · -- the first entry parses and does not match, so the loop goes on to the rest
        rw [if_neg hsame, ih]
        constructor
        · rintro ⟨before, entry, rest, rfl, hentry, hbefore⟩
          refine ⟨first :: before, entry, rest, rfl, hentry, ?_⟩
          rw [List.forall_mem_cons]
          refine ⟨fun reg' hreg' => ?_, hbefore⟩
          obtain rfl := Option.some.inj (hparse.symm.trans hreg')
          exact Bool.eq_false_iff.mpr hsame
        · rintro ⟨before, entry, rest, hsplit, hentry, hbefore⟩
          cases before with
          | nil =>
            obtain ⟨rfl, -⟩ := List.cons.inj hsplit
            cases hparse.symm.trans hentry
          | cons known before =>
            obtain ⟨rfl, rfl⟩ := List.cons.inj hsplit
            exact ⟨before, entry, rest, rfl, hentry,
              fun other hother => hbefore other (List.mem_cons_of_mem first hother)⟩

/-- A translation raises in its loop only. -/
theorem translationFor_error_iff {registered : List Str} {clientId redirectUri : Str}
    (hvalid : isValidRedirectUri redirectUri = true) :
    (∃ e, translationFor registered clientId redirectUri = .error e) ↔
      StopsMatching registered redirectUri := by
  obtain ⟨req, hostname, port, hreq⟩ := exists_isRedirect hvalid
  have hmatched : (∃ e, translationFor registered clientId redirectUri = .error e) ↔
      ∃ e, redirectMatches registered redirectUri = .error e := by
    rw [translationFor]
    cases redirectMatches registered redirectUri with
    | error e => exact iff_of_true ⟨e, rfl⟩ ⟨e, rfl⟩
    | ok isMatch =>
      rw [except_ok_bind, hreq.originClientId_eq]
      cases isMatch <;> simp [pure, Except.pure]
  have hparse : parseUrl redirectUri = .ok req := by rw [parseUrl, hreq.parse]
  rw [hmatched, redirectMatches, StopsMatching]
  by_cases hmem : redirectUri ∈ registered
  · simp [hmem]
  · rw [if_neg hmem, hparse, except_ok_bind, hreq.hostname]
    simp only [hmem, not_false_eq_true, true_and, hreq.parse, Option.some.injEq]
    by_cases hloop : OAuth.isLoopbackHost hostname = true
    · rw [if_pos hloop, anyEntry_error_iff]
      constructor
      · exact fun hstops => ⟨req, rfl, ⟨hostname, hreq.hostname, hloop⟩, hstops⟩
      · rintro ⟨_, rfl, -, hstops⟩
        exact hstops
    · rw [if_neg hloop]
      refine iff_of_false (by simp [pure, Except.pure]) ?_
      rintro ⟨_, rfl, ⟨hostname', hhost, hloop'⟩, -⟩
      rw [hreq.hostname, Option.some.injEq] at hhost
      exact hloop (hhost ▸ hloop')

/-- The loop over the origins looks at every redirect. -/
theorem collectOrigins_error_iff {α : Type} [DecidableEq α] (make : Str × Str × ℕ → α)
    {uris : List Str} :
    (∃ e, collectOrigins make uris = .error e) ↔ ∃ uri ∈ uris, IsUnusable uri := by
  induction uris with
  | nil => simp [collectOrigins]
  | cons uri uris ih =>
    have hrest (h : ¬IsUnusable uri) :
        (∃ u ∈ uri :: uris, IsUnusable u) ↔ ∃ u ∈ uris, IsUnusable u := by
      simp [h]
    rw [collectOrigins]
    cases hparse : urlparse uri with
    | none =>
      have herror : parseUrl uri = .error .value := by rw [parseUrl, hparse]
      rw [herror]
      exact iff_of_true ⟨.value, rfl⟩ ⟨uri, List.mem_cons_self, .inl hparse⟩
    | some parsed =>
      have hok : parseUrl uri = .ok parsed := by rw [parseUrl, hparse]
      have hiff : IsUnusable uri ↔ ∃ hostname, parsed.hostname = some hostname ∧
          OAuth.isLoopbackHost hostname = false ∧ parsed.scheme ≠ [] ∧ parsed.port = none := by
        simp [IsUnusable, hparse]
      rw [hok, except_ok_bind]
      cases hhost : parsed.hostname with
      | none => rw [hrest (by simp [hiff, hhost]), ih]
      | some hostname =>
        simp only
        by_cases hloop : OAuth.isLoopbackHost hostname = true
        · rw [if_pos hloop, hrest (by simp [hiff, hhost, hloop]), ih]
        · rw [if_neg hloop, normalizedOrigin, hok, except_ok_bind]
          rw [Bool.not_eq_true] at hloop
          by_cases hscheme : parsed.scheme = []
          · rw [if_pos hscheme, hrest (by simp [hiff, hscheme]), ← ih]
            rfl
          · rw [if_neg hscheme, hhost]
            cases hport : parsed.port with
            | none =>
              refine iff_of_true ⟨.value, rfl⟩ ⟨uri, List.mem_cons_self, hiff.mpr ?_⟩
              exact ⟨hostname, hhost, hloop, hscheme, hport⟩
            | some port =>
              rw [hrest (by simp [hiff, hport]), ← ih]
              simp only [pure, Except.pure, except_ok_bind]
              cases collectOrigins make uris with
              | error e => exact iff_of_true ⟨e, rfl⟩ ⟨e, rfl⟩
              | ok found => exact iff_of_false (by simp [except_ok_bind]) (by simp)

section

variable {uris : List Str} (hall : ∀ uri ∈ uris, ¬IsUnusable uri)

include hall

theorem parses_of_usable : ∀ uri ∈ uris, ∃ parsed, urlparse uri = some parsed := by
  intro uri huri
  cases hparse : urlparse uri with
  | none => exact absurd (.inl hparse) (hall uri huri)
  | some parsed => exact ⟨parsed, rfl⟩

theorem collectOrigins_of_usable {α : Type} [DecidableEq α] (make : Str × Str × ℕ → α) :
    ∃ found, collectOrigins make uris = .ok found := by
  cases hfound : collectOrigins make uris with
  | ok found => exact ⟨found, rfl⟩
  | error e =>
    obtain ⟨uri, huri, hunusable⟩ := (collectOrigins_error_iff make).mp ⟨e, hfound⟩
    exact absurd hunusable (hall uri huri)

theorem anyLoopback_of_usable : ∃ b, anyLoopback uris = .ok b := by
  induction uris with
  | nil => exact ⟨false, rfl⟩
  | cons uri uris ih =>
    obtain ⟨parsed, hparsed⟩ := parses_of_usable hall uri List.mem_cons_self
    have hok : parseUrl uri = .ok parsed := by rw [parseUrl, hparsed]
    rw [anyLoopback, hok, except_ok_bind]
    split_ifs
    · exact ⟨true, rfl⟩
    · exact ih (List.forall_mem_cons.mp hall).2

theorem matchedOrigins_of_usable (client : ParseResult) :
    ∃ shared, matchedOrigins client uris = .ok shared := by
  induction uris with
  | nil => exact ⟨[], rfl⟩
  | cons uri uris ih =>
    obtain ⟨parsed, hparsed⟩ := parses_of_usable hall uri List.mem_cons_self
    obtain ⟨shared, hshared⟩ := ih (List.forall_mem_cons.mp hall).2
    have hok : parseUrl uri = .ok parsed := by rw [parseUrl, hparsed]
    rw [matchedOrigins] at hshared
    rw [matchedOrigins, List.mapM_cons, hok, except_ok_bind, hshared]
    exact ⟨_, rfl⟩

/-- Redirects that can be read have an identity. -/
theorem refreshIdentity_of_usable (clientId : Str) :
    ∃ d, refreshIdentity uris clientId = .ok d := by
  obtain ⟨origins, horigins⟩ := collectOrigins_of_usable hall id
  obtain ⟨loop, hloop⟩ := anyLoopback_of_usable hall
  have hrep : ∃ b, refreshIdentityIsReproducible uris = .ok b := by
    rw [refreshIdentityIsReproducible, nonLoopbackOrigins, horigins, except_ok_bind, hloop]
    split_ifs <;> exact ⟨_, rfl⟩
  have hstable : ∃ d, stableOriginOrUnreproducible uris = .ok d := by
    obtain ⟨found, hfound⟩ := collectOrigins_of_usable hall canonicalOriginUrl
    rw [stableOriginOrUnreproducible, stableTranslationOrigin, hfound, except_ok_bind]
    split <;> exact ⟨_, rfl⟩
  obtain ⟨b, hb⟩ := hrep
  rw [refreshIdentity, hb, except_ok_bind]
  split_ifs
  · exact ⟨_, rfl⟩
  · exact ⟨_, rfl⟩
  · split
    · exact ⟨_, rfl⟩
    · next client _ =>
      obtain ⟨shared, hshared⟩ := matchedOrigins_of_usable hall client
      rw [hshared, except_ok_bind]
      split_ifs
      · exact ⟨_, rfl⟩
      · exact ⟨_, rfl⟩
      · exact hstable

end

/-- What a refresh derives from a list fails on a redirect of it. -/
theorem refreshIdentity_error_iff {registered : List Str} {clientId : Str} :
    (∃ e, refreshIdentity registered clientId = .error e) ↔
      ∃ uri ∈ registered, IsUnusable uri := by
  constructor
  · rintro ⟨e, he⟩
    by_contra hnone
    simp only [not_exists, not_and] at hnone
    obtain ⟨d, hd⟩ := refreshIdentity_of_usable hnone clientId
    cases hd.symm.trans he
  · intro hunusable
    obtain ⟨e, he⟩ := (collectOrigins_error_iff id).mpr hunusable
    have hne : registered ≠ [] := by
      rintro rfl
      simp at hunusable
    rw [refreshIdentity, if_neg hne, refreshIdentityIsReproducible, nonLoopbackOrigins, he]
    exact ⟨e, rfl⟩

theorem not_isUnusable_of_valid {uri : Str} (hvalid : isValidRedirectUri uri = true) :
    ¬IsUnusable uri := by
  obtain ⟨req, hostname, port, h⟩ := exists_isRedirect hvalid
  simp [IsUnusable, h.parse, h.port]

/-- Accepted redirects can all be compared. -/
theorem not_stopsMatching_of_valid {registered : List Str} {redirectUri : Str}
    (hall : ∀ uri ∈ registered, isValidRedirectUri uri = true) :
    ¬StopsMatching registered redirectUri := by
  rintro ⟨-, req, -, -, before, entry, rest, rfl, hentry, -⟩
  have hmem : entry ∈ before ++ entry :: rest := by simp
  exact not_isUnusable_of_valid (hall entry hmem) (.inl hentry)

/-! ## A client id in the component's own form -/

/-- A client id that begins as the signed ones do is no web URL. -/
theorem scheme_ne_https_of_prefix {clientId : Str} {client : ParseResult}
    (hpre : startsWith clientId clientIdPrefix = true) (hclient : urlparse clientId = some client) :
    client.scheme ≠ str "https" := by
  obtain ⟨blob, rfl⟩ := startsWith_iff.mp hpre
  have hclean : (lstrip isC0OrSpace (clientIdPrefix ++ blob)).filter (!isUnsafeUrlChar ·) =
      ch 'e' :: (str "spmcp-dcr-" ++ blob).filter (!isUnsafeUrlChar ·) := rfl
  have hscheme : client.scheme = (splitScheme (ch 'e' ::
      (str "spmcp-dcr-" ++ blob).filter (!isUnsafeUrlChar ·))).1 := by
    simp only [urlparse, hclean] at hclient
    split_ifs at hclient
    all_goals rw [← Option.some.inj hclient]
  rw [hscheme, splitScheme]
  intro hhttps
  split at hhttps
  · next c s rest hparts =>
    obtain ⟨hsplit, -⟩ := partition_eq_some_iff.mp hparts
    obtain ⟨rfl, -⟩ := List.cons.inj hsplit
    split_ifs at hhttps
    · cases (List.cons.inj hhttps).1
    · cases hhttps
  · cases hhttps

end

end EsphomeMcp.OAuth
