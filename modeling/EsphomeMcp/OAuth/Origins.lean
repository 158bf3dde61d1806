import EsphomeMcp.OAuth.Redirects

/-!
# Origins as client ids

`origin_client_id` names the origin of a redirect as a URL: the scheme, the host with brackets if
it has a colon, and the port unless it is the scheme's default. Core compares that URL with the
redirect by their schemes and their authorities in lower case.

The URL has the redirect's own scheme, host and port unless a host without a colon contains a
bracket. It has the redirect's authority only where that is spelled canonically.
-/

namespace EsphomeMcp.OAuth

open Py

/-! ## The authority of an origin -/

/-- A port as it stands behind a host. -/
def portSuffix : Option ℕ → Str
  | none => []
  | some port => ch ':' :: natRepr port

/-- The authority `canonical_origin_url` writes for a host and a port that is no default. -/
def originNetloc (host : Str) (port : Option ℕ) : Str :=
  (if ch ':' ∈ host then ch '[' :: (host ++ [ch ']']) else host) ++ portSuffix port

/-- The port an origin spells out. -/
def spelledPort (scheme : Str) (port : ℕ) : Option ℕ :=
  if defaultPort scheme = some port then none else some port

theorem canonicalOriginUrl_eq (scheme host : Str) (port : ℕ) :
    canonicalOriginUrl (scheme, host, port) =
      scheme ++ str "://" ++ originNetloc host (spelledPort scheme port) := by
  simp only [canonicalOriginUrl, originNetloc, spelledPort]
  split_ifs <;> simp [portSuffix]

theorem not_mem_natRepr {c : CodePoint} (hc : isDigit c = false) (n : ℕ) : c ∉ natRepr n := by
  intro h
  rw [isDigit_of_mem_natRepr h] at hc
  cases hc

theorem isNetlocChar_of_isAuthorityChar {c : CodePoint} (h : isAuthorityChar c = true) :
    isNetlocChar c = true := by
  have hrange (n : CodePoint) : isNetlocChar n = true ↔
      0x20 < n.val ∧ n.val < 0x80 ∧ n.val ≠ 0x2F ∧ n.val ≠ 0x3F ∧ n.val ≠ 0x23 := by
    simp only [isNetlocChar, isAscii, isC0OrSpace, isNetlocEnd, Bool.and_eq_true,
      Bool.not_eq_true', Bool.or_eq_false_iff, decide_eq_true_eq, decide_eq_false_iff_not, Fin.ext_iff]
    have hslash : (ch '/').val = 0x2F := rfl
    have hquestion : (ch '?').val = 0x3F := rfl
    have hhash : (ch '#').val = 0x23 := rfl
    rw [hslash, hquestion, hhash]
    omega
  simp only [isAuthorityChar, Bool.or_eq_true] at h
  obtain (h | h) | h := h
  · rw [hrange]
    simp only [isAlpha, decide_eq_true_eq] at h
    omega
  · rw [hrange]
    simp only [isDigit, decide_eq_true_eq] at h
    omega
  · have hall : ∀ c ∈ str "._~%!$&'()*+,;=:@[]-", isNetlocChar c = true :=
      List.all_eq_true.mp rfl
    exact hall c (by simpa using h)

/-- What holds of digits, of a colon and of brackets holds of an authority if it does of the host. -/
theorem all_originNetloc {p : CodePoint → Bool} {host : Str}
    (hdigit : ∀ c, isDigit c = true → p c = true) (hcolon : p (ch ':') = true)
    (hopen : p (ch '[') = true) (hclose : p (ch ']') = true) (h : host.all p = true)
    (port : Option ℕ) : (originNetloc host port).all p = true := by
  rw [List.all_eq_true] at h ⊢
  intro c hc
  rw [originNetloc, List.mem_append] at hc
  rcases hc with hc | hc
  · split_ifs at hc
    · simp only [List.mem_cons, List.mem_append, List.not_mem_nil, or_false] at hc
      rcases hc with rfl | hc | rfl
      · exact hopen
      · exact h c hc
      · exact hclose
    · exact h c hc
  · cases port with
    | none => simp [portSuffix] at hc
    | some port =>
      rcases List.mem_cons.mp hc with rfl | hc
      · exact hcolon
      · exact hdigit c (isDigit_of_mem_natRepr hc)

theorem isNetlocChar_originNetloc {host : Str} (h : host.all isNetlocChar = true)
    (port : Option ℕ) : (originNetloc host port).all isNetlocChar = true := by
  have hdigit (c : CodePoint) (hc : isDigit c = true) : isNetlocChar c = true :=
    isNetlocChar_of_isAuthorityChar (by simp [isAuthorityChar, hc])
  exact all_originNetloc hdigit rfl rfl rfl h port

theorem not_mem_portSuffix {c : CodePoint} (hc : isDigit c = false) (hne : c ≠ ch ':')
    (port : Option ℕ) : c ∉ portSuffix port := by
  cases port with
  | none => simp [portSuffix]
  | some port => simp [portSuffix, hne, not_mem_natRepr hc]

/-- The port of an origin's authority, as text. -/
theorem partitionEnds_portSuffix {host : Str} (hc : ch ':' ∉ host) (port : Option ℕ) :
    partitionEnds (ch ':') (host ++ portSuffix port) = (host, (port.map natRepr).getD []) := by
  cases port with
  | none =>
    rw [portSuffix, List.append_nil, partitionEnds_of_not_mem hc]
    rfl
  | some port =>
    rw [portSuffix, partitionEnds_append_cons hc]
    rfl

/-- An origin's authority has the host and the port it was made of. -/
theorem hostinfo_originNetloc {host : Str} (hat : ch '@' ∉ host)
    (hcolon : ch ':' ∈ host → ch ']' ∉ host) (hplain : ch ':' ∉ host → ch '[' ∉ host)
    (port : Option ℕ) : hostinfo (originNetloc host port) = (host, (port.map natRepr).getD []) := by
  have hat' := not_mem_portSuffix (c := ch '@') (by decide) (by decide) port
  rw [originNetloc]
  by_cases hc : ch ':' ∈ host
  · have hnil : ch ':' ∉ ([] : Str) := List.not_mem_nil
    have hport := congrArg Prod.snd (partitionEnds_portSuffix hnil port)
    rw [if_pos hc, List.cons_append, List.append_assoc]
    rw [List.nil_append] at hport
    rw [List.singleton_append, hostinfo_bracketed (hcolon hc) ⟨hat, hat'⟩, hport]
  · have hopen := not_mem_portSuffix (c := ch '[') (by decide) (by decide) port
    rw [if_neg hc, hostinfo_plain (by simp [hat, hat']) (by simp [hplain hc, hopen]),
      partitionEnds_portSuffix hc]

/-- Its brackets are in order if the host may stand in them, or has none and needs none. -/
theorem checkBrackets_originNetloc {host : Str} (hat : ch '@' ∉ host)
    (hcolon : ch ':' ∈ host → checkBracketedHost host = true ∧ ch ']' ∉ host)
    (hplain : ch ':' ∉ host → ch '[' ∉ host ∧ ch ']' ∉ host) (port : Option ℕ) :
    checkBrackets (originNetloc host port) = true := by
  have hat' := not_mem_portSuffix (c := ch '@') (by decide) (by decide) port
  rw [originNetloc]
  by_cases hc : ch ':' ∈ host
  · have hnot : ch '@' ∉ ch '[' :: (host ++ ch ']' :: portSuffix port) := by
      simp only [List.mem_cons, List.mem_append, not_or]
      exact ⟨by decide, hat, by decide, hat'⟩
    have hopen : partition (ch '[') (ch '[' :: (host ++ ch ']' :: portSuffix port)) =
        some ([], host ++ ch ']' :: portSuffix port) := by
      rw [partition, if_pos rfl]
    have hport : portSuffix port = [] ∨ (portSuffix port).head? = some (ch ':') := by
      cases port with
      | none => exact .inl rfl
      | some port => exact .inr rfl
    rw [if_pos hc, List.cons_append, List.append_assoc, List.singleton_append, checkBrackets,
      if_pos (by simp), checkBracketedNetloc, afterLast_of_not_mem hnot, hopen]
    simp only [partitionEnds_append_cons (hcolon hc).2, (hcolon hc).1, hport, List.mem_cons,
      List.mem_append, true_or, or_true, decide_true, Bool.and_eq_true, and_self,
      Bool.or_eq_true, decide_eq_true_eq]
  · have hopen := not_mem_portSuffix (c := ch '[') (by decide) (by decide) port
    have hclose := not_mem_portSuffix (c := ch ']') (by decide) (by decide) port
    rw [if_neg hc, checkBrackets, if_neg (by simp [hplain hc, hopen]), decide_eq_true_eq]
    simp [hplain hc, hclose]

/-! ## The origin of an accepted redirect -/

section

variable [Runtime] {redirectUri : Str} {req : ParseResult} {hostname : Str} {port : Option ℕ}

namespace IsRedirect

theorem netlocChars (h : IsRedirect redirectUri req hostname port) :
    (hostinfo req.netloc).1.all isNetlocChar = true := by
  rw [List.all_eq_true]
  intro c hc
  have hmem := mem_of_mem_afterLast (mem_of_mem_hostinfo (.inl hc))
  exact isNetlocChar_of_isAuthorityChar (List.all_eq_true.mp h.chars c hmem)

theorem hostname_eq (h : IsRedirect redirectUri req hostname port) :
    hostname = lowerHost (hostinfo req.netloc).1 ∧ (hostinfo req.netloc).1 ≠ [] := by
  have hhost := h.hostname
  simp only [ParseResult.hostname] at hhost
  split_ifs at hhost with hnil
  exact ⟨(Option.some.inj hhost).symm, hnil⟩

theorem port_eq (h : IsRedirect redirectUri req hostname port) :
    (hostinfo req.netloc).2 = [] ∧ port = none ∨
      (hostinfo req.netloc).2 ≠ [] ∧ (hostinfo req.netloc).2.all isDigit = true ∧
        port = some (digitsVal (hostinfo req.netloc).2) ∧
        digitsVal (hostinfo req.netloc).2 ≤ 65535 := by
  have hport := h.port
  simp only [ParseResult.port] at hport
  split_ifs at hport with hnil hdigits
  · exact .inl ⟨hnil, (Option.some.inj hport).symm⟩
  · simp only [Bool.and_eq_true, decide_eq_true_eq] at hdigits
    exact .inr ⟨hnil, hdigits.1.1, (Option.some.inj hport).symm, hdigits.2⟩

/-- Whether a character that is no letter is in the host does not depend on its case. -/
theorem mem_hostname (h : IsRedirect redirectUri req hostname port) {c : CodePoint}
    (hc : isAlpha c = false) : c ∈ hostname ↔ c ∈ (hostinfo req.netloc).1 := by
  rw [h.hostname_eq.1]
  exact mem_lowerHost (isAscii_of_isNetlocChar h.netlocChars) hc

theorem at_not_mem (h : IsRedirect redirectUri req hostname port) : ch '@' ∉ hostname := by
  rw [h.mem_hostname (by decide)]
  exact (at_not_mem_hostinfo req.netloc).1

theorem isNetlocChar_hostname (h : IsRedirect redirectUri req hostname port) :
    hostname.all isNetlocChar = true := by
  rw [h.hostname_eq.1]
  exact all_lowerHost (fun c hc => isNetlocChar_asciiLower hc)
    (isAscii_of_isNetlocChar h.netlocChars) h.netlocChars

/-- A host with a colon may stand in brackets. -/
theorem bracketed_of_colon (h : IsRedirect redirectUri req hostname port)
    (hc : ch ':' ∈ hostname) : checkBracketedHost hostname = true ∧ ch ']' ∉ hostname := by
  rw [h.mem_hostname (by decide)] at hc
  obtain ⟨hhost, hclose⟩ := checkBracketedHost_of_colon (checkBrackets_of_urlparse h.parse) hc
  rw [h.mem_hostname (by decide)]
  rw [h.hostname_eq.1]
  exact ⟨checkBracketedHost_lowerHost (isAscii_of_isNetlocChar h.netlocChars) hhost, hclose⟩

/-- The port of the origin, and the port the origin spells out. -/
theorem normalizedOrigin_eq (h : IsRedirect redirectUri req hostname port) :
    normalizedOrigin redirectUri =
      .ok (some (req.scheme, hostname, port.getD ((defaultPort req.scheme).getD 0))) := by
  have hparse : parseUrl redirectUri = .ok req := by rw [parseUrl, h.parse]
  have hscheme : req.scheme ≠ [] := by
    rcases h.scheme with hs | hs <;> rw [hs] <;> decide
  rw [normalizedOrigin, hparse, except_ok_bind, if_neg hscheme, h.hostname, h.port]
  rfl

/-- `origin_client_id` of an accepted redirect. -/
theorem originClientId_eq (h : IsRedirect redirectUri req hostname port) :
    originClientId redirectUri = .ok (req.scheme ++ str "://" ++ originNetloc hostname
      (spelledPort req.scheme (port.getD ((defaultPort req.scheme).getD 0)))) := by
  rw [originClientId, h.normalizedOrigin_eq, except_ok_bind]
  exact congrArg Except.ok (canonicalOriginUrl_eq _ _ _)

/-- How the origin of an accepted redirect is parsed again. -/
theorem urlparse_origin (h : IsRedirect redirectUri req hostname port) (port' : Option ℕ) :
    urlparse (req.scheme ++ str "://" ++ originNetloc hostname port') =
      if checkBrackets (originNetloc hostname port') then
        some ⟨req.scheme, originNetloc hostname port', [], [], [], []⟩
      else none :=
  Py.urlparse_origin h.scheme (isNetlocChar_originNetloc h.isNetlocChar_hostname port')

end IsRedirect

/-! ## Core's comparison -/

/-- What core asks of a client id and a redirect at authorize. -/
def SameOriginAtCore (clientId redirectUri : Str) : Prop :=
  ∃ client req, urlparse clientId = some client ∧ urlparse redirectUri = some req ∧
    client.scheme = req.scheme ∧ lower client.netloc = lower req.netloc

/-- The authority of a redirect spells out the default port of its scheme. -/
def SpellsDefaultPort (redirectUri : Str) : Prop :=
  ∃ req port, urlparse redirectUri = some req ∧ req.port = some (some port) ∧
    defaultPort req.scheme = some port

/-- An authority spelled the way an origin is: without user information, without an empty or a
zero-padded port, and with a colon in its host if that stands in brackets. -/
structure CanonicalAuthority (netloc : Str) : Prop where
  noUserinfo : ch '@' ∉ netloc
  noEmptyPort : netloc.getLast? ≠ some (ch ':')
  noPadding : (hostinfo netloc).2 = [] ∨
    (hostinfo netloc).2 = natRepr (digitsVal (hostinfo netloc).2)
  colon : ch '[' ∈ netloc → ch ':' ∈ (hostinfo netloc).1

/-- A match is translated to a client id that core takes for the redirect's own origin. -/
def TranslationPassesCore (registered : List Str) (clientId redirectUri : Str) : Prop :=
  redirectMatches registered redirectUri = .ok true →
    ∃ translated, translationFor registered clientId redirectUri = .ok translated ∧
      SameOriginAtCore translated redirectUri

omit [Runtime] in
theorem map_asciiLower_portSuffix (port : Option ℕ) :
    (portSuffix port).map asciiLower = portSuffix port := by
  cases port with
  | none => rfl
  | some port =>
    have hdigits : (natRepr port).all isDigit = true :=
      List.all_eq_true.mpr fun c hc => isDigit_of_mem_natRepr hc
    rw [portSuffix, List.map_cons, map_asciiLower_of_digits hdigits]
    rfl

omit [Runtime] in
/-- The port an origin spells is the redirect's own text, if that is neither empty nor padded. -/
theorem portSuffix_eq_iff {portText rest : Str} {port : Option ℕ}
    (hrest : rest = [] ∧ portText = [] ∨ rest = ch ':' :: portText)
    (hport : portText = [] ∧ port = none ∨ portText ≠ [] ∧ port = some (digitsVal portText)) :
    portSuffix port = rest ↔
      rest ≠ [ch ':'] ∧ (portText = [] ∨ portText = natRepr (digitsVal portText)) := by
  obtain ⟨rfl, rfl⟩ | ⟨hne, rfl⟩ := hport
  · rcases hrest with ⟨rfl, -⟩ | rfl <;> simp [portSuffix]
  · obtain rfl : rest = ch ':' :: portText := hrest.resolve_left fun h => hne h.2
    simp [portSuffix, hne, eq_comm]

omit [Runtime] in
/-- An authority ends in a colon just when its port is empty. -/
theorem getLast?_eq_colon_iff {front portText rest : Str} (hfront : front.getLast? ≠ some (ch ':'))
    (hrest : rest = [] ∧ portText = [] ∨ rest = ch ':' :: portText)
    (hdigits : portText.all isDigit = true) :
    (front ++ rest).getLast? = some (ch ':') ↔ rest = [ch ':'] := by
  rcases hrest with ⟨rfl, -⟩ | rfl
  · simp [hfront]
  · cases hlast : portText.getLast? with
    | none =>
      rw [List.getLast?_eq_none_iff] at hlast
      simp [hlast]
    | some c =>
      have hmem := List.mem_of_getLast? hlast
      have hne : portText ≠ [] := List.ne_nil_of_mem hmem
      have hc : c ≠ ch ':' := by
        rintro rfl
        exact absurd (List.all_eq_true.mp hdigits _ hmem) (by decide)
      rw [List.getLast?_append, List.getLast?_cons, hlast]
      simp [hne, hc]

omit [Runtime] in
/-- A host that may stand in brackets and has no colon is no IP address. -/
theorem head_of_checkBracketedHost {host : Str} (h : checkBracketedHost host = true)
    (hc : ch ':' ∉ host) : host.head? = some (ch 'v') := by
  rw [checkBracketedHost] at h
  split_ifs at h
  · obtain ⟨digits, rest, rfl, -⟩ := isIpvFuture_iff.mp h
    rfl
  · have hv6 : ∃ ip scopeId, ipAddress host = some (.v6 ip scopeId) := by
      split at h
      · exact ⟨_, _, ‹_›⟩
      · cases h
    obtain ⟨addr, zone, rfl, -, -, -, haddr⟩ := ipAddress_v6_iff.mp hv6
    obtain ⟨ip, hip⟩ := Option.isSome_iff_exists.mp haddr
    exact absurd (List.mem_append_left _ (colon_mem_of_parseIpv6 hip)) hc

omit [Runtime] in
theorem at_not_mem_originNetloc {host : Str} (hat : ch '@' ∉ host) (port : Option ℕ) :
    ch '@' ∉ originNetloc host port := by
  have hport := not_mem_portSuffix (c := ch '@') (by decide) (by decide) port
  rw [originNetloc, List.mem_append]
  refine not_or.mpr ⟨?_, hport⟩
  split_ifs
  · simp only [List.mem_cons, List.mem_append, List.not_mem_nil, or_false]
    exact not_or.mpr ⟨by decide, not_or.mpr ⟨hat, by decide⟩⟩
  · exact hat

/-- In lower case the authority of the origin is the one of the redirect's host in lower case. -/
theorem IsRedirect.map_asciiLower_originNetloc (h : IsRedirect redirectUri req hostname port) :
    (originNetloc hostname port).map asciiLower =
      originNetloc ((hostinfo req.netloc).1.map asciiLower) port := by
  have hascii := isAscii_of_isNetlocChar h.netlocChars
  rw [originNetloc, originNetloc, List.map_append, map_asciiLower_portSuffix]
  simp only [h.mem_hostname (c := ch ':') (by decide), mem_map_asciiLower (c := ch ':') (by decide)]
  rw [h.hostname_eq.1]
  split_ifs
  · rw [List.map_cons, List.map_append, map_asciiLower_lowerHost hascii]
    rfl
  · rw [map_asciiLower_lowerHost hascii]

omit [Runtime] in
/-- An authority without brackets is the one of its origin just when it is canonical. -/
theorem originNetloc_plain_iff {netloc rest : Str} {port : Option ℕ}
    (hport : (hostinfo netloc).2 = [] ∧ port = none ∨
      (hostinfo netloc).2 ≠ [] ∧ port = some (digitsVal (hostinfo netloc).2))
    (hdigits : (hostinfo netloc).2.all isDigit = true)
    (hrest : rest = [] ∧ (hostinfo netloc).2 = [] ∨ rest = ch ':' :: (hostinfo netloc).2)
    (hrestLower : rest.map asciiLower = rest) (hat : ch '@' ∉ netloc)
    (hN : netloc = (hostinfo netloc).1 ++ rest) (hcolon : ch ':' ∉ (hostinfo netloc).1)
    (hopen : ch '[' ∉ netloc) :
    originNetloc ((hostinfo netloc).1.map asciiLower) port = netloc.map asciiLower ↔
      CanonicalAuthority netloc := by
  have hlower : netloc.map asciiLower = (hostinfo netloc).1.map asciiLower ++ rest := by
    rw [← hrestLower, ← List.map_append, ← hN]
  have hfront : (hostinfo netloc).1.getLast? ≠ some (ch ':') :=
    fun hl => hcolon (List.mem_of_getLast? hl)
  have hend : netloc.getLast? ≠ some (ch ':') ↔ rest ≠ [ch ':'] := by
    rw [ne_eq, ne_eq, ← getLast?_eq_colon_iff hfront hrest hdigits, ← hN]
  rw [originNetloc, if_neg (mt (mem_map_asciiLower (by decide) _).mp hcolon), hlower,
    List.append_cancel_left_eq, portSuffix_eq_iff hrest hport, ← hend]
  constructor
  · rintro ⟨hne, hpad⟩
    exact ⟨hat, hne, hpad, fun ho => absurd ho hopen⟩
  · rintro ⟨-, hne, hpad, -⟩
    exact ⟨hne, hpad⟩

omit [Runtime] in
/-- A bracketed authority is the one of its origin just when it is canonical: the brackets of a
literal without a colon are lost. -/
theorem originNetloc_bracketed_iff {netloc rest : Str} {port : Option ℕ}
    (hport : (hostinfo netloc).2 = [] ∧ port = none ∨
      (hostinfo netloc).2 ≠ [] ∧ port = some (digitsVal (hostinfo netloc).2))
    (hdigits : (hostinfo netloc).2.all isDigit = true)
    (hrest : rest = [] ∧ (hostinfo netloc).2 = [] ∨ rest = ch ':' :: (hostinfo netloc).2)
    (hrestLower : rest.map asciiLower = rest) (hat : ch '@' ∉ netloc)
    (hN : netloc = ch '[' :: ((hostinfo netloc).1 ++ ch ']' :: rest))
    (hhost : checkBracketedHost (hostinfo netloc).1 = true) :
    originNetloc ((hostinfo netloc).1.map asciiLower) port = netloc.map asciiLower ↔
      CanonicalAuthority netloc := by
  have hlower : netloc.map asciiLower =
      ch '[' :: ((hostinfo netloc).1.map asciiLower ++ ch ']' :: rest) := by
    refine (congrArg (List.map asciiLower) hN).trans ?_
    rw [List.map_cons, List.map_append, List.map_cons, hrestLower]
    rfl
  simp only [originNetloc, mem_map_asciiLower (c := ch ':') (by decide), hlower]
  by_cases hcolon : ch ':' ∈ (hostinfo netloc).1
  · have hfront : (ch '[' :: ((hostinfo netloc).1 ++ [ch ']'])).getLast? ≠ some (ch ':') := by
      rw [← List.cons_append, List.getLast?_concat]
      decide
    have hN' : netloc = (ch '[' :: ((hostinfo netloc).1 ++ [ch ']'])) ++ rest := by
      rw [List.cons_append, List.append_assoc]
      exact hN
    have hend : netloc.getLast? ≠ some (ch ':') ↔ rest ≠ [ch ':'] := by
      rw [ne_eq, ne_eq, ← getLast?_eq_colon_iff hfront hrest hdigits, ← hN']
    rw [if_pos hcolon, List.cons_append, List.append_assoc, List.cons.injEq,
      List.append_cancel_left_eq, List.singleton_append, List.cons.injEq,
      portSuffix_eq_iff hrest hport, ← hend]
    constructor
    · rintro ⟨-, -, hne, hpad⟩
      exact ⟨hat, hne, hpad, fun _ => hcolon⟩
    · rintro ⟨-, hne, hpad, -⟩
      exact ⟨rfl, rfl, hne, hpad⟩
  · have hopen : ch '[' ∈ netloc := by
      rw [hN]
      exact List.mem_cons_self
    refine iff_of_false ?_ fun hcanon => hcolon (hcanon.colon hopen)
    intro heq
    -- what may stand in brackets without a colon starts with a `v`
    have hhead := head_of_checkBracketedHost hhost hcolon
    obtain ⟨s, hs⟩ : ∃ s, (hostinfo netloc).1 = ch 'v' :: s := by
      cases hh : (hostinfo netloc).1 with
      | nil => simp [hh] at hhead
      | cons c s =>
        rw [hh, List.head?_cons, Option.some.injEq] at hhead
        exact ⟨s, by rw [hhead]⟩
    rw [if_neg hcolon, hs, List.map_cons, List.cons_append, List.cons.injEq] at heq
    exact absurd heq.1 (by decide)

namespace IsRedirect

/-- The authority of the origin is the redirect's own, in lower case, just when that is
canonical. -/
theorem originNetloc_eq_iff (h : IsRedirect redirectUri req hostname port) :
    originNetloc ((hostinfo req.netloc).1.map asciiLower) port = req.netloc.map asciiLower ↔
      CanonicalAuthority req.netloc := by
  by_cases hat : ch '@' ∈ req.netloc
  · refine iff_of_false ?_ fun hcanon => hcanon.noUserinfo hat
    intro heq
    have hhost : ch '@' ∉ (hostinfo req.netloc).1.map asciiLower :=
      mt (mem_map_asciiLower (by decide) _).mp (at_not_mem_hostinfo req.netloc).1
    apply at_not_mem_originNetloc hhost port
    rw [heq]
    exact (mem_map_asciiLower (by decide) _).mpr hat
  · have hdigits : (hostinfo req.netloc).2.all isDigit = true := by
      obtain ⟨hnil, -⟩ | ⟨-, hdigits, -, -⟩ := h.port_eq
      · rw [hnil]
        rfl
      · exact hdigits
    have hport : (hostinfo req.netloc).2 = [] ∧ port = none ∨
        (hostinfo req.netloc).2 ≠ [] ∧ port = some (digitsVal (hostinfo req.netloc).2) :=
      h.port_eq.imp_right fun hp => ⟨hp.1, hp.2.2.1⟩
    obtain ⟨rest, hrest, hnetloc⟩ := netloc_cases (checkBrackets_of_urlparse h.parse) hat
    have hrestLower : rest.map asciiLower = rest := by
      rcases hrest with ⟨rfl, -⟩ | rfl
      · rfl
      · rw [List.map_cons, map_asciiLower_of_digits hdigits]
        rfl
    obtain ⟨hN, hcolon, hopen, -⟩ | ⟨hN, hhost, -⟩ := hnetloc
    · exact originNetloc_plain_iff hport hdigits hrest hrestLower hat hN hcolon hopen
    · exact originNetloc_bracketed_iff hport hdigits hrest hrestLower hat hN hhost

/-- A canonical authority needs no brackets it does not get. -/
theorem checkBrackets_of_canonical (h : IsRedirect redirectUri req hostname port)
    (hcanon : CanonicalAuthority req.netloc) : checkBrackets (originNetloc hostname port) = true := by
  apply checkBrackets_originNetloc h.at_not_mem h.bracketed_of_colon
  rw [h.mem_hostname (by decide), h.mem_hostname (by decide), h.mem_hostname (by decide)]
  intro hcolon
  have hopen : ch '[' ∉ req.netloc := mt hcanon.colon hcolon
  have hclose : ch ']' ∉ req.netloc :=
    mt (brackets_of_checkBrackets (checkBrackets_of_urlparse h.parse)).mpr hopen
  have hsub {c : CodePoint} (hc : c ∈ (hostinfo req.netloc).1) : c ∈ req.netloc :=
    mem_of_mem_afterLast (mem_of_mem_hostinfo (.inl hc))
  exact ⟨mt hsub hopen, mt hsub hclose⟩

/-- Core takes the origin of a redirect for its own just when its authority is canonical. -/
theorem sameOrigin_iff (h : IsRedirect redirectUri req hostname port) :
    SameOriginAtCore (req.scheme ++ str "://" ++ originNetloc hostname port) redirectUri ↔
      CanonicalAuthority req.netloc := by
  have hchars : req.netloc.all isAscii = true := by
    apply isAscii_of_isNetlocChar
    rw [List.all_eq_true]
    exact fun c hc => isNetlocChar_of_isAuthorityChar (List.all_eq_true.mp h.chars c hc)
  have horigin := isAscii_of_isNetlocChar (isNetlocChar_originNetloc h.isNetlocChar_hostname port)
  have hsame : SameOriginAtCore (req.scheme ++ str "://" ++ originNetloc hostname port) redirectUri ↔
      checkBrackets (originNetloc hostname port) = true ∧
        (originNetloc hostname port).map asciiLower = req.netloc.map asciiLower := by
    rw [← lower_ascii horigin, ← lower_ascii hchars, SameOriginAtCore, h.urlparse_origin, h.parse]
    simp
  rw [hsame, h.map_asciiLower_originNetloc, h.originNetloc_eq_iff]
  exact ⟨And.right, fun hcanon => ⟨h.checkBrackets_of_canonical hcanon, hcanon⟩⟩

end IsRedirect

namespace IsRedirect

/-- The number of an accepted redirect's port, the default filled in. -/
theorem port_le (h : IsRedirect redirectUri req hostname port) :
    port.getD ((defaultPort req.scheme).getD 0) ≤ 65535 := by
  obtain ⟨-, rfl⟩ | ⟨-, -, rfl, hle⟩ := h.port_eq
  · rcases h.scheme with hs | hs <;> rw [hs] <;> decide
  · exact hle

/-- Brackets in a host without a colon make the URL of the origin one that cannot be parsed. -/
theorem noBrackets_of_checkBrackets (h : IsRedirect redirectUri req hostname port)
    {port' : Option ℕ} (hcheck : checkBrackets (originNetloc hostname port') = true)
    (hcolon : ch ':' ∉ hostname) : ch '[' ∉ hostname ∧ ch ']' ∉ hostname := by
  have hnot := not_brackets_mem_hostinfo req.netloc
  rw [← h.mem_hostname (by decide), ← h.mem_hostname (by decide)] at hnot
  have hsuffix {c : CodePoint} (hc : isDigit c = false) (hne : c ≠ ch ':') :
      c ∈ originNetloc hostname port' ↔ c ∈ hostname := by
    rw [originNetloc, if_neg hcolon, List.mem_append, or_iff_left (not_mem_portSuffix hc hne _)]
  have hboth := brackets_of_checkBrackets hcheck
  rw [hsuffix (by decide) (by decide), hsuffix (by decide) (by decide)] at hboth
  exact ⟨fun hopen => hnot ⟨hopen, hboth.mp hopen⟩, fun hclose => hnot ⟨hboth.mpr hclose, hclose⟩⟩

/-- The host of the origin's URL. -/
theorem hostname_origin (h : IsRedirect redirectUri req hostname port)
    (hplain : ch ':' ∉ hostname → ch '[' ∉ hostname ∧ ch ']' ∉ hostname) (port' : Option ℕ) :
    ParseResult.hostname ⟨req.scheme, originNetloc hostname port', [], [], [], []⟩ =
      some hostname := by
  have hinfo := hostinfo_originNetloc h.at_not_mem (fun hc => (h.bracketed_of_colon hc).2)
    (fun hc => (hplain hc).1) port'
  have hlower : lowerHost hostname = hostname := by
    rw [h.hostname_eq.1]
    exact lowerHost_lowerHost (isAscii_of_isNetlocChar h.netlocChars)
  have hne : hostname ≠ [] := by
    rw [h.hostname_eq.1, ne_eq, lowerHost_eq_nil_iff (isAscii_of_isNetlocChar h.netlocChars)]
    exact h.hostname_eq.2
  rw [ParseResult.hostname, hinfo]
  simp only [hne, if_false, hlower]

/-- The port of the origin's URL. -/
theorem port_origin (h : IsRedirect redirectUri req hostname port)
    (hplain : ch ':' ∉ hostname → ch '[' ∉ hostname ∧ ch ']' ∉ hostname) {n : ℕ}
    (hle : n ≤ 65535) :
    ParseResult.port
        ⟨req.scheme, originNetloc hostname (spelledPort req.scheme n), [], [], [], []⟩ =
      some (spelledPort req.scheme n) := by
  have hinfo := hostinfo_originNetloc h.at_not_mem (fun hc => (h.bracketed_of_colon hc).2)
    (fun hc => (hplain hc).1) (spelledPort req.scheme n)
  apply ParseResult.port_eq_of_natRepr (by rw [hinfo])
  intro m hm
  rw [spelledPort] at hm
  split_ifs at hm
  exact Option.some.inj hm ▸ hle

/-- The URL of the origin has that origin, unless its host has lost the brackets it needs. -/
theorem normalizedOrigin_origin_iff (h : IsRedirect redirectUri req hostname port) {n : ℕ}
    (hn : n = port.getD ((defaultPort req.scheme).getD 0)) :
    normalizedOrigin (req.scheme ++ str "://" ++
        originNetloc hostname (spelledPort req.scheme n)) = .ok (some (req.scheme, hostname, n)) ↔
      (ch ':' ∉ hostname → ch '[' ∉ hostname ∧ ch ']' ∉ hostname) := by
  have hle : n ≤ 65535 := hn ▸ h.port_le
  constructor
  · intro horigin
    suffices hcheck : checkBrackets (originNetloc hostname (spelledPort req.scheme n)) = true from
      h.noBrackets_of_checkBrackets hcheck
    by_contra hcheck
    rw [normalizedOrigin, parseUrl, h.urlparse_origin, if_neg hcheck, except_error_bind] at horigin
    cases horigin
  · intro hplain
    have hscheme : req.scheme ≠ [] := by
      rcases h.scheme with hs | hs <;> rw [hs] <;> decide
    have hget : (spelledPort req.scheme n).getD ((defaultPort req.scheme).getD 0) = n := by
      rw [spelledPort]
      split_ifs with hd
      · rw [hd]
        rfl
      · rfl
    rw [normalizedOrigin, parseUrl, h.urlparse_origin,
      if_pos (checkBrackets_originNetloc h.at_not_mem h.bracketed_of_colon hplain _),
      except_ok_bind, if_neg hscheme, h.hostname_origin hplain, h.port_origin hplain hle]
    simp only [hget]
    rfl

end IsRedirect

/-- A translated match passes core's rule just when the redirect spells its authority the way an
origin does. -/
theorem translationPassesCore_iff (registered : List Str) (clientId redirectUri : Str)
    (hvalid : isValidRedirectUri redirectUri = true) (hdefault : ¬SpellsDefaultPort redirectUri) :
    TranslationPassesCore registered clientId redirectUri ↔
      (redirectMatches registered redirectUri = .ok true →
        ∀ req, urlparse redirectUri = some req → CanonicalAuthority req.netloc) := by
  obtain ⟨req, hostname, port, h⟩ := exists_isRedirect hvalid
  have hspelled : spelledPort req.scheme (port.getD ((defaultPort req.scheme).getD 0)) = port := by
    cases port with
    | none =>
      rcases h.scheme with hs | hs <;> rw [hs] <;> rfl
    | some port =>
      rw [Option.getD_some, spelledPort, if_neg]
      exact fun hp => hdefault ⟨req, port, h.parse, h.port, hp⟩
  refine imp_congr_right fun hmatch => ?_
  rw [translationFor, hmatch, except_ok_bind, if_pos rfl, h.originClientId_eq, hspelled]
  simp only [Except.ok.injEq, exists_eq_left', h.sameOrigin_iff, h.parse, Option.some.injEq,
    forall_eq']

end

/-- The case of a host makes no difference. -/
theorem translationPassesCore_iff_client :
    letI := asciiRuntime
    TranslationPassesCore [str "https://Client.Example:8443/cb"] (str "client")
      (str "https://Client.Example:8443/cb") := by
  let := asciiRuntime
  have hparse : urlparse (str "https://Client.Example:8443/cb") =
      some ⟨str "https", str "Client.Example:8443", str "/cb", [], [], []⟩ := by decide +kernel
  refine (translationPassesCore_iff _ _ _ (by decide +kernel) ?_).mpr fun _ req hreq => ?_
  · rintro ⟨req, port, hreq, hport, hdefault⟩
    rw [hparse, Option.some.injEq] at hreq
    subst hreq
    obtain rfl : 8443 = port := Option.some.inj (Option.some.inj hport)
    exact absurd hdefault (by decide +kernel)
  · rw [hparse, Option.some.injEq] at hreq
    subst hreq
    exact ⟨by decide +kernel, by decide +kernel, .inr (by decide +kernel),
      fun h => absurd h (by decide +kernel)⟩

/-- The origin of a redirect with an empty port is one core does not take for the redirect's. -/
theorem not_translationPassesCore_emptyPort :
    letI := asciiRuntime
    isValidRedirectUri (str "https://host.example:/cb") = true ∧
      ¬SpellsDefaultPort (str "https://host.example:/cb") ∧
      ¬TranslationPassesCore [str "https://host.example:/cb"] (str "client")
        (str "https://host.example:/cb") := by
  let := asciiRuntime
  have hparse : urlparse (str "https://host.example:/cb") =
      some ⟨str "https", str "host.example:", str "/cb", [], [], []⟩ := by decide +kernel
  have horigin : urlparse (str "https://host.example") =
      some ⟨str "https", str "host.example", [], [], [], []⟩ := by decide +kernel
  refine ⟨by decide +kernel, ?_, fun h => ?_⟩
  · rintro ⟨req, port, hreq, hport, -⟩
    rw [hparse, Option.some.injEq] at hreq
    subst hreq
    have hempty : some none = some (some port) := hport
    cases hempty
  · obtain ⟨translated, htranslated, client, req, hclient, hreq, -, hnetloc⟩ := h rfl
    have hurl : translationFor [str "https://host.example:/cb"] (str "client")
        (str "https://host.example:/cb") = .ok (str "https://host.example") := by decide +kernel
    rw [hurl, Except.ok.injEq] at htranslated
    subst htranslated
    rw [horigin, Option.some.injEq] at hclient
    rw [hparse, Option.some.injEq] at hreq
    subst hclient hreq
    exact absurd hnetloc (by decide +kernel)

end EsphomeMcp.OAuth
