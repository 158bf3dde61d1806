import EsphomeMcp.OAuth.Identity

/-!
# Canonical origins as keys

Two accepted redirects have the same canonical URL just when they have the same origin. The URL is
itself a redirect that is accepted, and has that origin, unless a host without a colon has lost
the brackets it needs.
-/

namespace EsphomeMcp.OAuth

open Py

/-! ## The URL determines the origin -/

theorem natRepr_injective : Function.Injective natRepr := by
  intro m n h
  rw [← digitsVal_natRepr m, h, digitsVal_natRepr]

theorem portSuffix_injective : Function.Injective portSuffix := by
  intro port port' h
  cases port with
  | none =>
    cases port' with
    | none => rfl
    | some n => exact absurd h.symm (List.cons_ne_nil _ _)
  | some m =>
    cases port' with
    | none => exact absurd h (List.cons_ne_nil _ _)
    | some n => rw [natRepr_injective (List.cons_inj_right _ |>.mp h)]

theorem spelledPort_injective (scheme : Str) : Function.Injective (spelledPort scheme) := by
  intro m n h
  rw [spelledPort, spelledPort] at h
  split_ifs at h with hm hn
  · exact Option.some.inj (hm.symm.trans hn)
  · exact Option.some.inj h

/-- A host in brackets is no host without them: behind its first colon there is a bracket, and
behind the first colon of the other there are digits. -/
theorem originNetloc_ne {host host' : Str} (hc : ch ':' ∈ host) (hc' : ch ':' ∉ host')
    (port port' : Option ℕ) : originNetloc host port ≠ originNetloc host' port' := by
  intro h
  rw [originNetloc, originNetloc, if_pos hc, if_neg hc'] at h
  obtain ⟨front, back, rfl, hfront⟩ := List.eq_append_cons_of_mem hc
  have hbracket : ch ':' ∉ ch '[' :: front := by
    rw [List.mem_cons, not_or]
    exact ⟨by decide, hfront⟩
  have hcut := congrArg (fun netloc => (partitionEnds (ch ':') netloc).2) h
  simp only [partitionEnds_portSuffix hc'] at hcut
  have hnetloc : ch '[' :: (front ++ ch ':' :: back ++ [ch ']']) ++ portSuffix port =
      ch '[' :: front ++ ch ':' :: (back ++ ch ']' :: portSuffix port) := by simp
  rw [hnetloc, partitionEnds_append_cons hbracket] at hcut
  have hmem : ch ']' ∈ (port'.map natRepr).getD [] := by
    rw [← hcut]
    simp
  cases port' with
  | none => exact absurd hmem List.not_mem_nil
  | some n => exact not_mem_natRepr (by decide) n hmem

theorem originNetloc_injective {host host' : Str} {port port' : Option ℕ}
    (hclose : ch ':' ∈ host → ch ']' ∉ host) (hclose' : ch ':' ∈ host' → ch ']' ∉ host')
    (h : originNetloc host port = originNetloc host' port') : host = host' ∧ port = port' := by
  by_cases hc : ch ':' ∈ host
  · by_cases hc' : ch ':' ∈ host'
    · rw [originNetloc, originNetloc, if_pos hc, if_pos hc', List.cons_append, List.cons_append,
        List.append_assoc, List.append_assoc, List.cons_inj_right] at h
      -- the hosts end at the first closing bracket
      have hcut := congrArg (partitionEnds (ch ']')) h
      rw [List.singleton_append, List.singleton_append, partitionEnds_append_cons (hclose hc),
        partitionEnds_append_cons (hclose' hc')] at hcut
      exact ⟨congrArg Prod.fst hcut, portSuffix_injective (congrArg Prod.snd hcut)⟩
    · exact absurd h (originNetloc_ne hc hc' port port')
  · by_cases hc' : ch ':' ∈ host'
    · exact absurd h.symm (originNetloc_ne hc' hc port' port)
    · rw [originNetloc, originNetloc, if_neg hc, if_neg hc'] at h
      have hcut := congrArg (partitionEnds (ch ':')) h
      rw [partitionEnds_portSuffix hc, partitionEnds_portSuffix hc'] at hcut
      have hhost : host = host' := congrArg Prod.fst hcut
      subst hhost
      exact ⟨rfl, portSuffix_injective (List.append_cancel_left h)⟩

/-- A scheme of a redirect ends at the first colon. -/
theorem scheme_injective {scheme scheme' rest rest' : Str}
    (hs : scheme = str "http" ∨ scheme = str "https")
    (hs' : scheme' = str "http" ∨ scheme' = str "https")
    (h : scheme ++ str "://" ++ rest = scheme' ++ str "://" ++ rest') :
    scheme = scheme' ∧ rest = rest' := by
  have hcolon : ∀ s : Str, s = str "http" ∨ s = str "https" → ch ':' ∉ s := by
    rintro s (rfl | rfl) <;> decide
  have hcut := congrArg (partitionEnds (ch ':')) h
  have hslash : str "://" = ch ':' :: str "//" := by decide
  rw [hslash, List.append_assoc, List.append_assoc, List.cons_append, List.cons_append,
    partitionEnds_append_cons (hcolon scheme hs), partitionEnds_append_cons (hcolon scheme' hs')]
    at hcut
  exact ⟨congrArg Prod.fst hcut, List.append_cancel_left (congrArg Prod.snd hcut)⟩

/-! ## The URL as a redirect -/

/-- The canonical URL of the first redirect's origin is accepted and has that origin, and it is
the second's just when their origins are the same. -/
structure IsFaithfulKey [Runtime] (u v : Str) : Prop where
  canonical : ∃ origin, normalizedOrigin u = .ok (some origin) ∧
    isValidRedirectUri (canonicalOriginUrl origin) = true ∧
    normalizedOrigin (canonicalOriginUrl origin) = .ok (some origin)
  injective : ∀ origin origin', normalizedOrigin u = .ok (some origin) →
    normalizedOrigin v = .ok (some origin') →
    (canonicalOriginUrl origin = canonicalOriginUrl origin' ↔ origin = origin')

section

variable [Runtime] {redirectUri : Str} {req : ParseResult} {hostname : Str} {port : Option ℕ}

/-- Over plain HTTP only loopback hosts are accepted. -/
theorem IsRedirect.isLoopbackHost (h : IsRedirect redirectUri req hostname port)
    (hvalid : isValidRedirectUri redirectUri = true) (hs : req.scheme = str "http") :
    isLoopbackHost hostname = true := by
  rw [isValidRedirectUri] at hvalid
  split_ifs at hvalid
  simp only [h.parse, h.port, h.hostname] at hvalid
  split_ifs at hvalid with hchars hloop
  by_contra hnot
  rw [Bool.not_eq_true] at hnot
  exact hloop (by rw [hs, hnot]; rfl)

omit [Runtime] in
theorem isAuthorityChar_asciiLower {c : CodePoint} (h : isAuthorityChar c = true) :
    isAuthorityChar (asciiLower c) = true := by
  by_cases hupper : 0x41 ≤ c.val ∧ c.val ≤ 0x5A
  · have halpha : isAlpha (asciiLower c) = true := by
      simp only [isAlpha, asciiLower_val, if_pos hupper, decide_eq_true_eq]
      omega
    rw [isAuthorityChar, halpha]
    rfl
  · have hsame : asciiLower c = c := by
      rw [Fin.ext_iff, asciiLower_val, if_neg hupper]
    rwa [hsame]

namespace IsRedirect

theorem isAuthorityChar_originNetloc (h : IsRedirect redirectUri req hostname port)
    (port' : Option ℕ) : (originNetloc hostname port').all isAuthorityChar = true := by
  have hhost : (hostinfo req.netloc).1.all isAuthorityChar = true := by
    rw [List.all_eq_true]
    intro c hc
    exact List.all_eq_true.mp h.chars c (mem_of_mem_afterLast (mem_of_mem_hostinfo (.inl hc)))
  have hlower : hostname.all isAuthorityChar = true := by
    rw [h.hostname_eq.1]
    exact all_lowerHost (fun c hc => isAuthorityChar_asciiLower hc)
      (isAscii_of_isNetlocChar h.netlocChars) hhost
  have hdigit (c : CodePoint) (hc : isDigit c = true) : isAuthorityChar c = true := by
    simp [isAuthorityChar, hc]
  exact all_originNetloc hdigit rfl rfl rfl hlower port'

/-- The URL of an origin that keeps its brackets is a redirect that is accepted. -/
theorem isValidRedirectUri_origin (h : IsRedirect redirectUri req hostname port)
    (hvalid : isValidRedirectUri redirectUri = true)
    (hplain : ch ':' ∉ hostname → ch '[' ∉ hostname ∧ ch ']' ∉ hostname) :
    isValidRedirectUri (req.scheme ++ str "://" ++ originNetloc hostname
      (spelledPort req.scheme (port.getD ((defaultPort req.scheme).getD 0)))) = true := by
  have hne : hostname ≠ [] := by
    rw [h.hostname_eq.1, ne_eq, lowerHost_eq_nil_iff (isAscii_of_isNetlocChar h.netlocChars)]
    exact h.hostname_eq.2
  have hurl (s : Str) : req.scheme ++ str "://" ++ s ≠ [] := by
    rw [List.append_assoc]
    exact List.append_ne_nil_of_right_ne_nil _ (List.cons_ne_nil _ _)
  rw [isValidRedirectUri, if_neg (hurl _), h.urlparse_origin,
    if_pos (checkBrackets_originNetloc h.at_not_mem h.bracketed_of_colon hplain _)]
  simp only [h.port_origin hplain h.port_le, h.hostname_origin hplain,
    h.isAuthorityChar_originNetloc, hne]
  rcases h.scheme with hs | hs
  · rw [h.isLoopbackHost hvalid hs, hs]
    decide
  · have hhttps : decide (str "https" = str "http") = false := by decide
    rw [hs, hhttps, Bool.false_and]
    decide

end IsRedirect

/-- The canonical URLs of two accepted redirects are the same just when their origins are. -/
theorem canonicalOriginUrl_eq_iff {u v : Str} {req' : ParseResult} {hostname' : Str}
    {port' : Option ℕ} (hu : IsRedirect u req hostname port)
    (hv : IsRedirect v req' hostname' port') (m n : ℕ) :
    canonicalOriginUrl (req.scheme, hostname, m) = canonicalOriginUrl (req'.scheme, hostname', n) ↔
      (req.scheme, hostname, m) = (req'.scheme, hostname', n) := by
  refine ⟨fun h => ?_, congrArg canonicalOriginUrl⟩
  rw [canonicalOriginUrl_eq, canonicalOriginUrl_eq] at h
  obtain ⟨hscheme, hnetloc⟩ := scheme_injective hu.scheme hv.scheme h
  obtain ⟨rfl, hport⟩ := originNetloc_injective (fun hc => (hu.bracketed_of_colon hc).2)
    (fun hc => (hv.bracketed_of_colon hc).2) hnetloc
  rw [← hscheme] at hport ⊢
  rw [spelledPort_injective _ hport]

/-- The canonical URL of an accepted redirect is a faithful key just when its host keeps its
brackets; that different origins have different URLs needs no condition. -/
theorem isFaithfulKey_iff {u v : Str} (hu : isValidRedirectUri u = true)
    (hv : isValidRedirectUri v = true) : IsFaithfulKey u v ↔ KeepsBrackets u := by
  obtain ⟨req, hostname, port, h⟩ := exists_isRedirect hu
  obtain ⟨req', hostname', port', h'⟩ := exists_isRedirect hv
  rw [keepsBrackets_iff h]
  constructor
  · intro hkey
    obtain ⟨origin, horigin, -, hback⟩ := hkey.canonical
    have heq := Option.some.inj (Except.ok.inj (h.normalizedOrigin_eq.symm.trans horigin))
    rw [← heq, canonicalOriginUrl_eq] at hback
    exact (h.normalizedOrigin_origin_iff rfl).mp hback
  · intro hplain
    refine ⟨⟨_, h.normalizedOrigin_eq, ?_, ?_⟩, ?_⟩
    · rw [canonicalOriginUrl_eq]
      exact h.isValidRedirectUri_origin hu hplain
    · rw [canonicalOriginUrl_eq]
      exact (h.normalizedOrigin_origin_iff rfl).mpr hplain
    · intro origin origin' horigin horigin'
      have heq := Option.some.inj (Except.ok.inj (h.normalizedOrigin_eq.symm.trans horigin))
      have heq' := Option.some.inj (Except.ok.inj (h'.normalizedOrigin_eq.symm.trans horigin'))
      rw [← heq, ← heq']
      exact canonicalOriginUrl_eq_iff h h' _ _

end

/-- An IPv6 host with an explicit port 0, beside a host with the default port. -/
theorem isFaithfulKey_iff_ipv6 :
    letI := asciiRuntime
    IsFaithfulKey (str "https://[2001:DB8::1]:0/cb") (str "https://Client.Example:443/cb") := by
  let := asciiRuntime
  have hparse : urlparse (str "https://[2001:DB8::1]:0/cb") =
      some ⟨str "https", str "[2001:DB8::1]:0", str "/cb", [], [], []⟩ := by decide +kernel
  refine (isFaithfulKey_iff (by decide +kernel) (by decide +kernel)).mpr ?_
  intro req hostname hreq hhost hcolon
  rw [hparse, Option.some.injEq] at hreq
  subst hreq
  have hname : some (str "2001:db8::1") = some hostname := by
    rw [← hhost]
    decide +kernel
  rw [← Option.some.inj hname] at hcolon
  exact absurd hcolon (by decide)

/-- The canonical URL of an origin whose host has a bracket but no colon cannot be parsed. -/
theorem not_isFaithfulKey_bracket :
    letI := asciiRuntime
    isValidRedirectUri (str "https://[v1.[x]/cb") = true ∧
      ¬IsFaithfulKey (str "https://[v1.[x]/cb") (str "https://[v1.[x]/cb") := by
  let := asciiRuntime
  refine ⟨by decide +kernel, fun hkey => ?_⟩
  obtain ⟨origin, horigin, -, hback⟩ := hkey.canonical
  have hknown : normalizedOrigin (str "https://[v1.[x]/cb") =
      .ok (some (str "https", str "v1.[x", 443)) := by decide +kernel
  obtain rfl := Option.some.inj (Except.ok.inj (hknown.symm.trans horigin))
  have herror : normalizedOrigin (canonicalOriginUrl (str "https", str "v1.[x", 443)) =
      .error .value := by decide +kernel
  rw [herror] at hback
  cases hback

end EsphomeMcp.OAuth
