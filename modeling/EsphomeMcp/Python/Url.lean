import EsphomeMcp.Python.Bytes
import EsphomeMcp.Python.IpAddress
import EsphomeMcp.Python.Runtime

/-!
# URLs

`urllib.parse.urlparse` and `urlunparse`, and the attributes of a `ParseResult`. Parsing raises
`ValueError` for unbalanced or ill-formed brackets and for an authority that changes its shape
under NFKC; the port raises when it is read.

The authority of a URL is taken apart at the last `@`, the brackets and the first colon. What is
proved is how a URL that is a scheme and an authority only is parsed, and that lower-casing a
bracketed host leaves it one.
-/

namespace Py

/-- `ParseResult`. -/
structure ParseResult where
  scheme : Str
  netloc : Str
  path : Str
  params : Str
  query : Str
  fragment : Str
deriving DecidableEq

/-! ## Splitting -/

/-- `_WHATWG_C0_CONTROL_OR_SPACE`. -/
def isC0OrSpace (c : CodePoint) : Bool := c.val ≤ 0x20

/-- A character of a scheme. -/
def isSchemeChar (c : CodePoint) : Bool :=
  isAlpha c || isDigit c || c = ch '+' || c = ch '-' || c = ch '.'

/-- The scheme and what follows its colon. -/
def splitScheme (url : Str) : Str × Str :=
  match partition (ch ':') url with
  | some (c :: s, rest) =>
    if isAlpha c && (c :: s).all isSchemeChar then ((c :: s).map asciiLower, rest) else ([], url)
  | _ => ([], url)

/-- A character that ends an authority. -/
def isNetlocEnd (c : CodePoint) : Bool := c = ch '/' || c = ch '?' || c = ch '#'

/-- `_splitnetloc`, of a text that starts with two slashes. -/
def splitNetloc (url : Str) : Str × Str :=
  if startsWith url (str "//") then
    ((url.drop 2).takeWhile (!isNetlocEnd ·), (url.drop 2).dropWhile (!isNetlocEnd ·))
  else ([], url)

/-- The first and the last item of `s.partition(c)`. -/
def partitionEnds (c : CodePoint) (s : Str) : Str × Str := (partition c s).getD (s, [])

/-- A hexadecimal digit. -/
def isHexDigit (c : CodePoint) : Bool := (hexDigitVal c).isSome

/-- `re.match(r"\Av[a-fA-F0-9]+\..+\Z", hostname)`. -/
def isIpvFuture (hostname : Str) : Bool :=
  match hostname with
  | [] => false
  | c :: s =>
    c = ch 'v' && s.takeWhile isHexDigit ≠ [] &&
      match s.dropWhile isHexDigit with
      | d :: e :: t => d = ch '.' && (e :: t).all (·.val ≠ 0x0A)
      | _ => false

/-- `_check_bracketed_host` does not raise. -/
def checkBracketedHost (hostname : Str) : Bool :=
  if startsWith hostname (str "v") then isIpvFuture hostname
  else
    match ipAddress hostname with
    | some (.v6 _ _) => true
    | _ => false

/-- `_check_bracketed_netloc` does not raise. -/
def checkBracketedNetloc (netloc : Str) : Bool :=
  let hostnameAndPort := afterLast (ch '@') netloc
  match partition (ch '[') hostnameAndPort with
  | some (beforeBracket, bracketed) =>
    let (hostname, port) := partitionEnds (ch ']') bracketed
    beforeBracket = [] && (port = [] || port.head? = some (ch ':')) && checkBracketedHost hostname
  | none => checkBracketedHost (partitionEnds (ch ':') hostnameAndPort).1

/-- The checks on the brackets of an authority. -/
def checkBrackets (netloc : Str) : Bool :=
  if ch '[' ∈ netloc then ch ']' ∈ netloc && checkBracketedNetloc netloc else ch ']' ∉ netloc

/-- A character `_checknetloc` ignores. -/
def isIgnoredByChecknetloc (c : CodePoint) : Bool :=
  c = ch '@' || c = ch ':' || c = ch '#' || c = ch '?'

section

variable [Runtime]

/-- `_checknetloc` does not raise. -/
def checkNetloc (netloc : Str) : Bool :=
  netloc.all isAscii ||
    let n := netloc.filter (!isIgnoredByChecknetloc ·)
    n = nfkc n || (str "/?#@:").all fun c => c ∉ nfkc n

/-- The schemes whose paths have parameters. -/
def usesParams : List Str :=
  [str "", str "ftp", str "hdl", str "prospero", str "http", str "https", str "shttp", str "rtsp",
    str "rtsps", str "rtspu", str "sip", str "sips", str "mms", str "sftp", str "tel"]

/-- `_splitparams`: at the first semicolon of the last segment. -/
def splitParams (path : Str) : Str × Str :=
  match rpartition (ch '/') path with
  | some (dir, last) =>
    match partition (ch ';') last with
    | some (a, b) => (dir ++ ch '/' :: a, b)
    | none => (path, [])
  | none => partitionEnds (ch ';') path

/-- `urlparse(url)`, with `none` for the `ValueError`. -/
def urlparse (url : Str) : Option ParseResult :=
  let url := (lstrip isC0OrSpace url).filter (!isUnsafeUrlChar ·)
  let (scheme, rest) := splitScheme url
  let (netloc, rest) := splitNetloc rest
  let (rest, fragment) := partitionEnds (ch '#') rest
  let (path, query) := partitionEnds (ch '?') rest
  let (path, params) := if scheme ∈ usesParams then splitParams path else (path, [])
  if checkBrackets netloc && checkNetloc netloc then
    some ⟨scheme, netloc, path, params, query, fragment⟩
  else none

/-- `urlunparse(parsed)` of a result with an authority. -/
def urlunparse (p : ParseResult) : Str :=
  let url := if p.params = [] then p.path else p.path ++ ch ';' :: p.params
  let url := str "//" ++ p.netloc ++ if url = [] ∨ url.head? = some (ch '/') then url else ch '/' :: url
  let url := if p.scheme = [] then url else p.scheme ++ ch ':' :: url
  let url := if p.query = [] then url else url ++ ch '?' :: p.query
  if p.fragment = [] then url else url ++ ch '#' :: p.fragment

/-! ## The authority -/

/-- `_hostinfo`: the host and the port as text, the latter empty for `None`. -/
def hostinfo (netloc : Str) : Str × Str :=
  let hostinfo := afterLast (ch '@') netloc
  match partition (ch '[') hostinfo with
  | some (_, bracketed) =>
    let (hostname, rest) := partitionEnds (ch ']') bracketed
    (hostname, (partitionEnds (ch ':') rest).2)
  | none => partitionEnds (ch ':') hostinfo

/-- A host in lower case, its zone as it is. -/
def lowerHost (host : Str) : Str :=
  match partition (ch '%') host with
  | some (host, zone) => lower host ++ ch '%' :: zone
  | none => lower host

namespace ParseResult

/-- `parsed.hostname`. -/
def hostname (p : ParseResult) : Option Str :=
  let host := (hostinfo p.netloc).1
  if host = [] then none else some (lowerHost host)

/-- `parsed.port`, with `none` for the `ValueError`. -/
def port (p : ParseResult) : Option (Option ℕ) :=
  let port := (hostinfo p.netloc).2
  if port = [] then some none
  else if port.all isDigit && port.length ≤ maxStrDigits && digitsVal port ≤ 65535 then
    some (some (digitsVal port))
  else none

/-- `_userinfo`. -/
def userinfo (p : ParseResult) : Option Str × Option Str :=
  match rpartition (ch '@') p.netloc with
  | some (userinfo, _) =>
    match partition (ch ':') userinfo with
    | some (username, password) => (some username, some password)
    | none => (some userinfo, none)
  | none => (none, none)

/-- `parsed.username`. -/
def username (p : ParseResult) : Option Str := p.userinfo.1

/-- `parsed.password`. -/
def password (p : ParseResult) : Option Str := p.userinfo.2

end ParseResult

/-! ## Lower case -/

theorem lower_ascii {s : Str} (h : s.all isAscii = true) : lower s = s.map asciiLower :=
  Runtime.lower_of_ascii s (List.all_eq_true.mp h)

theorem lowerHost_of_not_mem {host : Str} (h : ch '%' ∉ host) : lowerHost host = lower host := by
  rw [lowerHost, partition_eq_none_iff.mpr h]

theorem lowerHost_append_cons {addr zone : Str} (h : ch '%' ∉ addr) :
    lowerHost (addr ++ ch '%' :: zone) = lower addr ++ ch '%' :: zone := by
  rw [lowerHost, partition_append_cons h]

/-- Lower-casing goes on behind a text without `%`. -/
theorem lowerHost_append {a b : Str} (ha : a.all isAscii = true) (hb : b.all isAscii = true)
    (h : ch '%' ∉ a) : lowerHost (a ++ b) = a.map asciiLower ++ lowerHost b := by
  cases hp : partition (ch '%') b with
  | none =>
    have hnot : ch '%' ∉ b := partition_eq_none_iff.mp hp
    rw [lowerHost_of_not_mem (by simp [h, hnot]), lowerHost_of_not_mem hnot, lower_ascii hb,
      lower_ascii (by rw [List.all_append, ha, hb]; rfl), List.map_append]
  | some q =>
    obtain ⟨addr, zone⟩ := q
    obtain ⟨rfl, hnot⟩ := partition_eq_some_iff.mp hp
    rw [List.all_append, Bool.and_eq_true] at hb
    rw [← List.append_assoc, lowerHost_append_cons (by simp [h, hnot]),
      lowerHost_append_cons hnot, lower_ascii hb.1,
      lower_ascii (by rw [List.all_append, ha, hb.1]; rfl), List.map_append, List.append_assoc]

/-- A character that is no letter is in a host or not, whatever its case. -/
theorem mem_lowerHost {host : Str} (ha : host.all isAscii = true) {c : CodePoint}
    (hc : isAlpha c = false) : c ∈ lowerHost host ↔ c ∈ host := by
  cases hp : partition (ch '%') host with
  | none =>
    rw [lowerHost_of_not_mem (partition_eq_none_iff.mp hp), lower_ascii ha, mem_map_asciiLower hc]
  | some q =>
    obtain ⟨addr, zone⟩ := q
    obtain ⟨rfl, hnot⟩ := partition_eq_some_iff.mp hp
    rw [List.all_append, Bool.and_eq_true] at ha
    rw [lowerHost_append_cons hnot, lower_ascii ha.1, List.mem_append, List.mem_append,
      mem_map_asciiLower hc]

/-- What holds of a character in either case holds all over a host in lower case. -/
theorem all_lowerHost {p : CodePoint → Bool} (hp : ∀ c, p c = true → p (asciiLower c) = true)
    {host : Str} (ha : host.all isAscii = true) (h : host.all p = true) :
    (lowerHost host).all p = true := by
  have hmap {s : Str} (hs : s.all p = true) : (s.map asciiLower).all p = true := by
    rw [List.all_eq_true] at hs ⊢
    intro c hc
    obtain ⟨d, hd, rfl⟩ := List.mem_map.mp hc
    exact hp d (hs d hd)
  cases hq : partition (ch '%') host with
  | none => rw [lowerHost_of_not_mem (partition_eq_none_iff.mp hq), lower_ascii ha, hmap h]
  | some q =>
    obtain ⟨addr, zone⟩ := q
    obtain ⟨rfl, hnot⟩ := partition_eq_some_iff.mp hq
    rw [List.all_append, Bool.and_eq_true] at ha h
    rw [lowerHost_append_cons hnot, lower_ascii ha.1, List.all_append, hmap h.1, h.2]
    rfl

theorem isAscii_lowerHost {host : Str} (ha : host.all isAscii = true) :
    (lowerHost host).all isAscii = true :=
  all_lowerHost (fun c hc => (isAscii_asciiLower c).trans hc) ha ha

theorem lowerHost_eq_nil_iff {host : Str} (ha : host.all isAscii = true) :
    lowerHost host = [] ↔ host = [] := by
  cases hp : partition (ch '%') host with
  | none => rw [lowerHost_of_not_mem (partition_eq_none_iff.mp hp), lower_ascii ha, List.map_eq_nil_iff]
  | some q =>
    obtain ⟨addr, zone⟩ := q
    obtain ⟨rfl, hnot⟩ := partition_eq_some_iff.mp hp
    rw [lowerHost_append_cons hnot]
    simp

omit [Runtime] in
theorem map_asciiLower_map_asciiLower (s : Str) :
    (s.map asciiLower).map asciiLower = s.map asciiLower := by
  rw [List.map_map]
  exact List.map_congr_left fun c _ => asciiLower_asciiLower c

theorem lowerHost_lowerHost {host : Str} (ha : host.all isAscii = true) :
    lowerHost (lowerHost host) = lowerHost host := by
  have hpct : isAlpha (ch '%') = false := by decide
  cases hp : partition (ch '%') host with
  | none =>
    have hnot := partition_eq_none_iff.mp hp
    have hlow := isAscii_lowerHost ha
    rw [lowerHost_of_not_mem hnot, lower_ascii ha] at hlow ⊢
    rw [lowerHost_of_not_mem (mt (mem_map_asciiLower hpct host).mp hnot), lower_ascii hlow,
      map_asciiLower_map_asciiLower]
  | some q =>
    obtain ⟨addr, zone⟩ := q
    obtain ⟨rfl, hnot⟩ := partition_eq_some_iff.mp hp
    have hlow := isAscii_lowerHost ha
    rw [List.all_append, Bool.and_eq_true] at ha
    rw [lowerHost_append_cons hnot, lower_ascii ha.1] at hlow ⊢
    rw [List.all_append, Bool.and_eq_true] at hlow
    rw [lowerHost_append_cons (mt (mem_map_asciiLower hpct addr).mp hnot), lower_ascii hlow.1,
      map_asciiLower_map_asciiLower]

/-- Core compares authorities in lower case, zones included. -/
theorem map_asciiLower_lowerHost {host : Str} (ha : host.all isAscii = true) :
    (lowerHost host).map asciiLower = host.map asciiLower := by
  cases hp : partition (ch '%') host with
  | none =>
    rw [lowerHost_of_not_mem (partition_eq_none_iff.mp hp), lower_ascii ha,
      map_asciiLower_map_asciiLower]
  | some q =>
    obtain ⟨addr, zone⟩ := q
    obtain ⟨rfl, hnot⟩ := partition_eq_some_iff.mp hp
    rw [List.all_append, Bool.and_eq_true] at ha
    rw [lowerHost_append_cons hnot, lower_ascii ha.1, List.map_append, List.map_append,
      map_asciiLower_map_asciiLower]

/-! ## Bracketed hosts -/

omit [Runtime] in
/-- The shape `isIpvFuture` asks for. -/
theorem isIpvFuture_iff {hostname : Str} : isIpvFuture hostname = true ↔
    ∃ digits rest, hostname = ch 'v' :: (digits ++ ch '.' :: rest) ∧ digits ≠ [] ∧
      digits.all isHexDigit = true ∧ rest ≠ [] ∧ rest.all (·.val ≠ 0x0A) = true := by
  have hdot : isHexDigit (ch '.') = false := by decide
  constructor
  · intro h
    cases hostname with
    | nil => cases h
    | cons c s =>
      simp only [isIpvFuture, Bool.and_eq_true, decide_eq_true_eq] at h
      obtain ⟨⟨rfl, hdigits⟩, hrest⟩ := h
      cases hd : s.dropWhile isHexDigit with
      | nil => simp [hd] at hrest
      | cons d u =>
        cases u with
        | nil => simp [hd] at hrest
        | cons e t =>
          simp only [hd, Bool.and_eq_true, decide_eq_true_eq] at hrest
          obtain ⟨rfl, hrest⟩ := hrest
          refine ⟨s.takeWhile isHexDigit, e :: t, ?_, hdigits, ?_, by simp, hrest⟩
          · rw [← hd, List.takeWhile_append_dropWhile]
          · exact List.all_takeWhile
  · rintro ⟨digits, rest, rfl, hne, hall, hrest, hline⟩
    obtain ⟨e, t, rfl⟩ := List.exists_cons_of_ne_nil hrest
    rw [List.all_eq_true] at hall
    have htake : (digits ++ ch '.' :: e :: t).takeWhile isHexDigit = digits := by
      rw [List.takeWhile_append_of_pos hall, List.takeWhile_cons_of_neg (by simp [hdot]),
        List.append_nil]
    have hdrop : (digits ++ ch '.' :: e :: t).dropWhile isHexDigit = ch '.' :: e :: t := by
      rw [List.dropWhile_append_of_pos hall, List.dropWhile_cons_of_neg (by simp [hdot])]
    simp only [isIpvFuture, htake, hdrop, hne, hline, ne_eq, not_false_eq_true, decide_true,
      Bool.and_self]

omit [Runtime] in
/-- An IPv6 address may stand in brackets: it has no `v` to start with. -/
theorem checkBracketedHost_of_v6 {host : Str}
    (h : ∃ ip scopeId, ipAddress host = some (.v6 ip scopeId)) :
    checkBracketedHost host = true := by
  have hv : startsWith host (str "v") = false := by
    rw [Bool.eq_false_iff]
    intro hs
    obtain ⟨addr, zone, rfl, hnot, -, hzone, haddr⟩ := ipAddress_v6_iff.mp h
    obtain ⟨ip, hip⟩ := Option.isSome_iff_exists.mp haddr
    obtain ⟨t, ht⟩ := startsWith_iff.mp hs
    cases addr with
    | nil => exact absurd (colon_mem_of_parseIpv6 hip) (by simp)
    | cons c addr =>
      obtain rfl : c = ch 'v' := (List.cons.inj ht).1
      exact absurd (isAddressChar_of_parseIpv6 hip _ List.mem_cons_self) (by decide)
  obtain ⟨ip, scopeId, hip⟩ := h
  rw [checkBracketedHost, hv, hip]
  rfl

/-- A bracketed host in lower case is one that may stand in brackets. -/
theorem checkBracketedHost_lowerHost {host : Str} (ha : host.all isAscii = true)
    (h : checkBracketedHost host = true) : checkBracketedHost (lowerHost host) = true := by
  have hpct : isAlpha (ch '%') = false := by decide
  rw [checkBracketedHost] at h
  split_ifs at h with hv
  · -- an IPvFuture literal keeps its shape
    obtain ⟨digits, rest, rfl, hne, hall, hrest, hline⟩ := isIpvFuture_iff.mp h
    have hnot : ch '%' ∉ ch 'v' :: (digits ++ [ch '.']) := by
      simp only [List.mem_cons, List.mem_append, List.not_mem_nil, or_false, not_or]
      exact ⟨by decide, fun hm => absurd (List.all_eq_true.mp hall _ hm) (by decide), by decide⟩
    have hsplit : ch 'v' :: (digits ++ ch '.' :: rest) =
        (ch 'v' :: (digits ++ [ch '.'])) ++ rest := by simp
    rw [hsplit, List.all_append, Bool.and_eq_true] at ha
    have hlower : lowerHost (ch 'v' :: (digits ++ ch '.' :: rest)) =
        ch 'v' :: (digits.map asciiLower ++ ch '.' :: lowerHost rest) := by
      rw [hsplit, lowerHost_append ha.1 ha.2 hnot]
      simp only [List.map_cons, List.map_append, List.map_nil, List.cons_append,
        List.append_assoc, List.nil_append]
      rfl
    have hv' : startsWith (ch 'v' :: (digits.map asciiLower ++ ch '.' :: lowerHost rest))
        (str "v") = true := startsWith_append (str "v") _
    rw [hlower, checkBracketedHost, if_pos hv', isIpvFuture_iff]
    refine ⟨digits.map asciiLower, lowerHost rest, rfl, by simpa using hne, ?_, ?_, ?_⟩
    · rw [List.all_map, ← hall]
      exact congrArg (digits.all ·) (funext fun c => congrArg Option.isSome (hexDigitVal_asciiLower c))
    · exact mt (lowerHost_eq_nil_iff ha.2).mp hrest
    · rw [List.all_eq_true] at hline ⊢
      intro c hc
      by_contra hn
      have hc' : c = codePoint 0x0A := Fin.ext (by simpa using hn)
      subst hc'
      have := hline _ ((mem_lowerHost ha.2 (by decide)).mp hc)
      exact absurd this (by decide)
  · have hv6 : ∃ ip scopeId, ipAddress host = some (.v6 ip scopeId) := by
      split at h
      · exact ⟨_, _, ‹_›⟩
      · cases h
    obtain ⟨addr, zone, rfl, hnot, hslash, hzone, haddr⟩ := ipAddress_v6_iff.mp hv6
    have hlower : lowerHost (addr ++ zone) = addr.map asciiLower ++ zone := by
      rw [List.all_append, Bool.and_eq_true] at ha
      rcases hzone with rfl | ⟨scopeId, rfl, -⟩
      · rw [List.append_nil, List.append_nil, lowerHost_of_not_mem hnot, lower_ascii ha.1]
      · rw [lowerHost_append_cons hnot, lower_ascii ha.1]
    have hslash' : isAlpha (ch '/') = false := by decide
    apply checkBracketedHost_of_v6
    rw [hlower]
    refine ipAddress_v6_iff.mpr ⟨addr.map asciiLower, zone, rfl, ?_, ?_, hzone, ?_⟩
    · exact mt (mem_map_asciiLower hpct addr).mp hnot
    · rw [List.mem_append, mem_map_asciiLower hslash', ← List.mem_append]
      exact hslash
    · rw [parseIpv6_map_asciiLower]
      exact haddr

end

theorem brackets_of_checkBrackets {netloc : Str} (h : checkBrackets netloc = true) :
    ch '[' ∈ netloc ↔ ch ']' ∈ netloc := by
  rw [checkBrackets] at h
  split_ifs at h with hopen
  · rw [Bool.and_eq_true, decide_eq_true_eq] at h
    exact iff_of_true hopen h.1
  · exact iff_of_false hopen (of_decide_eq_true h)

theorem checkBrackets_of_urlparse [Runtime] {url : Str} {p : ParseResult}
    (h : urlparse url = some p) : checkBrackets p.netloc = true := by
  simp only [urlparse] at h
  split_ifs at h with hcheck
  all_goals
    rw [← Option.some.inj h]
    exact (Bool.and_eq_true _ _ ▸ hcheck).1

/-! ## A scheme and an authority -/

/-- A character that may stand in an authority and does not end it. -/
def isNetlocChar (c : CodePoint) : Bool := isAscii c && !isC0OrSpace c && !isNetlocEnd c

theorem isNetlocChar_asciiLower {c : CodePoint} (h : isNetlocChar c = true) :
    isNetlocChar (asciiLower c) = true := by
  have hends : isAlpha (ch '/') = false ∧ isAlpha (ch '?') = false ∧ isAlpha (ch '#') = false := by
    decide
  simp only [isNetlocChar, isNetlocEnd, Bool.and_eq_true, Bool.not_eq_true', Bool.or_eq_false_iff,
    decide_eq_false_iff_not, asciiLower_eq_iff hends.1, asciiLower_eq_iff hends.2.1,
    asciiLower_eq_iff hends.2.2, isAscii_asciiLower] at h ⊢
  refine ⟨⟨h.1.1, ?_⟩, h.2⟩
  have hc := h.1.2
  simp only [isC0OrSpace, decide_eq_false_iff_not, asciiLower_val] at hc ⊢
  split_ifs <;> omega

theorem isAscii_of_isNetlocChar {s : Str} (h : s.all isNetlocChar = true) :
    s.all isAscii = true := by
  rw [List.all_eq_true] at h ⊢
  intro c hc
  have hn := h c hc
  simp only [isNetlocChar, Bool.and_eq_true] at hn
  exact hn.1.1

theorem partitionEnds_of_not_mem {c : CodePoint} {s : Str} (h : c ∉ s) :
    partitionEnds c s = (s, []) := by
  rw [partitionEnds, partition_eq_none_iff.mpr h]
  rfl

theorem partitionEnds_append_cons {c : CodePoint} {a b : Str} (h : c ∉ a) :
    partitionEnds c (a ++ c :: b) = (a, b) := by
  rw [partitionEnds, partition_append_cons h]
  rfl

/-- What `partition` returns at its ends: the text was one of two. -/
theorem partitionEnds_cases (c : CodePoint) (s : Str) :
    c ∉ (partitionEnds c s).1 ∧
      (s = (partitionEnds c s).1 ∧ (partitionEnds c s).2 = [] ∨
        s = (partitionEnds c s).1 ++ c :: (partitionEnds c s).2) := by
  cases h : partition c s with
  | none =>
    have hnot := partition_eq_none_iff.mp h
    rw [partitionEnds_of_not_mem hnot]
    exact ⟨hnot, .inl ⟨rfl, rfl⟩⟩
  | some q =>
    obtain ⟨rfl, hnot⟩ := partition_eq_some_iff.mp h
    rw [partitionEnds_append_cons hnot]
    exact ⟨hnot, .inr rfl⟩

/-- How the text after an authority is cut: path, parameters, query and fragment. -/
def splitRest (rest : Str) : Str × Str × Str × Str :=
  let (rest, fragment) := partitionEnds (ch '#') rest
  let (path, query) := partitionEnds (ch '?') rest
  ((splitParams path).1, (splitParams path).2, query, fragment)

/-- A URL of a web scheme is cut at the end of its authority. -/
theorem urlparse_web [Runtime] {scheme netloc rest : Str}
    (hs : scheme = str "http" ∨ scheme = str "https") (hn : netloc.all isNetlocChar = true)
    (hend : rest = [] ∨ ∃ c t, rest = c :: t ∧ isNetlocEnd c = true)
    (hrest : ∀ c ∈ rest, isUnsafeUrlChar c = false) :
    urlparse (scheme ++ str "://" ++ (netloc ++ rest)) =
      if checkBrackets netloc then
        some ⟨scheme, netloc, (splitRest rest).1, (splitRest rest).2.1, (splitRest rest).2.2.1,
          (splitRest rest).2.2.2⟩
      else none := by
  have hascii : checkNetloc netloc = true := by
    rw [checkNetloc, isAscii_of_isNetlocChar hn, Bool.true_or]
  have hchars : ∀ c ∈ netloc, isUnsafeUrlChar c = false ∧ isNetlocEnd c = false := by
    intro c hc
    have h := List.all_eq_true.mp hn c hc
    simp only [isNetlocChar, Bool.and_eq_true, Bool.not_eq_true', isC0OrSpace,
      decide_eq_false_iff_not] at h
    refine ⟨?_, h.2⟩
    rw [isUnsafeUrlChar, decide_eq_false_iff_not]
    omega
  have hclean : (lstrip isC0OrSpace (scheme ++ str "://" ++ (netloc ++ rest))).filter
      (!isUnsafeUrlChar ·) = scheme ++ ch ':' :: (str "//" ++ (netloc ++ rest)) := by
    have hkeep : (netloc ++ rest).filter (!isUnsafeUrlChar ·) = netloc ++ rest := by
      refine List.filter_eq_self.mpr fun c hc => ?_
      rcases List.mem_append.mp hc with hc | hc
      · rw [(hchars c hc).1]
        rfl
      · rw [hrest c hc]
        rfl
    have hstrip : lstrip isC0OrSpace (scheme ++ str "://" ++ (netloc ++ rest)) =
        scheme ++ str "://" ++ (netloc ++ rest) := by
      rcases hs with rfl | rfl <;> rfl
    rw [hstrip, List.filter_append, hkeep]
    rcases hs with rfl | rfl <;> rfl
  have hscheme : splitScheme (scheme ++ ch ':' :: (str "//" ++ (netloc ++ rest))) =
      (scheme, str "//" ++ (netloc ++ rest)) := by
    have hcolon : ch ':' ∉ scheme := by rcases hs with rfl | rfl <;> decide
    rw [splitScheme, partition_append_cons hcolon]
    rcases hs with rfl | rfl <;> rfl
  have hnetloc : splitNetloc (str "//" ++ (netloc ++ rest)) = (netloc, rest) := by
    have hrun : ∀ c ∈ netloc, (!isNetlocEnd c) = true := fun c hc => by rw [(hchars c hc).2]; rfl
    have hdrop : (str "//" ++ (netloc ++ rest)).drop 2 = netloc ++ rest := rfl
    rw [splitNetloc, if_pos (startsWith_append _ _), hdrop, List.takeWhile_append_of_pos hrun,
      List.dropWhile_append_of_pos hrun]
    rcases hend with rfl | ⟨c, t, rfl, hc⟩
    · rw [List.takeWhile_nil, List.dropWhile_nil, List.append_nil]
    · rw [List.takeWhile_cons_of_neg (by simp [hc]), List.dropWhile_cons_of_neg (by simp [hc]),
        List.append_nil]
  have hparams : scheme ∈ usesParams := by rcases hs with rfl | rfl <;> decide
  simp only [urlparse, hclean, hscheme, hnetloc, if_pos hparams, hascii, Bool.and_true]
  rfl

/-- A URL of a web scheme and an authority parses to the two, if its brackets are in order. -/
theorem urlparse_origin [Runtime] {scheme netloc : Str}
    (hs : scheme = str "http" ∨ scheme = str "https") (hn : netloc.all isNetlocChar = true) :
    urlparse (scheme ++ str "://" ++ netloc) =
      if checkBrackets netloc then some ⟨scheme, netloc, [], [], [], []⟩ else none := by
  have h := urlparse_web hs hn (.inl rfl) (by simp)
  rwa [List.append_nil] at h

/-! ## The host of an authority -/

theorem not_mem_afterLast (c : CodePoint) (s : Str) : c ∉ afterLast c s := by
  cases h : rpartition c s with
  | none =>
    rw [afterLast, h]
    exact rpartition_eq_none_iff.mp h
  | some q =>
    rw [afterLast, h]
    exact (rpartition_eq_some_iff.mp h).2

theorem mem_of_mem_afterLast {c d : CodePoint} {s : Str} (h : d ∈ afterLast c s) : d ∈ s := by
  cases hp : rpartition c s with
  | none => rwa [afterLast_of_not_mem (rpartition_eq_none_iff.mp hp)] at h
  | some q =>
    rw [afterLast, hp] at h
    obtain ⟨rfl, -⟩ := rpartition_eq_some_iff.mp hp
    exact List.mem_append_right _ (List.mem_cons_of_mem _ h)

theorem mem_of_mem_partitionEnds {c d : CodePoint} {s : Str}
    (h : d ∈ (partitionEnds c s).1 ∨ d ∈ (partitionEnds c s).2) : d ∈ s := by
  obtain ⟨-, ⟨hs, hnil⟩ | hs⟩ := partitionEnds_cases c s
  · rw [hnil] at h
    rw [hs]
    simpa using h
  · rw [hs]
    rcases h with h | h <;> simp [h]

/-- The host and the port are cut from what follows the last `@`. -/
theorem mem_of_mem_hostinfo {c : CodePoint} {netloc : Str}
    (h : c ∈ (hostinfo netloc).1 ∨ c ∈ (hostinfo netloc).2) : c ∈ afterLast (ch '@') netloc := by
  rw [hostinfo] at h
  cases hp : partition (ch '[') (afterLast (ch '@') netloc) with
  | none =>
    rw [hp] at h
    exact mem_of_mem_partitionEnds h
  | some q =>
    obtain ⟨before, bracketed⟩ := q
    rw [hp] at h
    rw [(partition_eq_some_iff.mp hp).1]
    apply List.mem_append_right _ ∘ List.mem_cons_of_mem _
    apply mem_of_mem_partitionEnds (c := ch ']')
    exact h.imp_right fun h => mem_of_mem_partitionEnds (.inr h)

theorem at_not_mem_hostinfo (netloc : Str) :
    ch '@' ∉ (hostinfo netloc).1 ∧ ch '@' ∉ (hostinfo netloc).2 :=
  not_or.mp fun h => not_mem_afterLast _ _ (mem_of_mem_hostinfo h)

/-- A host with a colon stood in brackets and may stand there again. -/
theorem checkBracketedHost_of_colon {netloc : Str} (h : checkBrackets netloc = true)
    (hc : ch ':' ∈ (hostinfo netloc).1) :
    checkBracketedHost (hostinfo netloc).1 = true ∧ ch ']' ∉ (hostinfo netloc).1 := by
  rw [hostinfo] at hc ⊢
  cases hp : partition (ch '[') (afterLast (ch '@') netloc) with
  | none =>
    rw [hp] at hc
    exact absurd hc (partitionEnds_cases _ _).1
  | some q =>
    obtain ⟨before, bracketed⟩ := q
    have hopen : ch '[' ∈ netloc := by
      apply mem_of_mem_afterLast (c := ch '@')
      rw [(partition_eq_some_iff.mp hp).1]
      simp
    rw [checkBrackets, if_pos hopen, checkBracketedNetloc, hp, Bool.and_eq_true] at h
    simp only [Bool.and_eq_true] at h
    exact ⟨h.2.2, (partitionEnds_cases _ _).1⟩

/-- The host of an authority ends before a closing bracket, or has no opening one. -/
theorem not_brackets_mem_hostinfo (netloc : Str) :
    ¬(ch '[' ∈ (hostinfo netloc).1 ∧ ch ']' ∈ (hostinfo netloc).1) := by
  rintro ⟨hopen, hclose⟩
  cases hp : partition (ch '[') (afterLast (ch '@') netloc) with
  | none =>
    exact partition_eq_none_iff.mp hp (mem_of_mem_hostinfo (.inl hopen))
  | some q =>
    rw [hostinfo, hp] at hclose
    exact absurd hclose (partitionEnds_cases _ _).1

/-- How an authority with a bracketed host is taken apart. -/
theorem hostinfo_bracketed {host rest : Str} (hclose : ch ']' ∉ host)
    (hat : ch '@' ∉ host ∧ ch '@' ∉ rest) :
    hostinfo (ch '[' :: (host ++ ch ']' :: rest)) = (host, (partitionEnds (ch ':') rest).2) := by
  have hnot : ch '@' ∉ ch '[' :: (host ++ ch ']' :: rest) := by
    simp only [List.mem_cons, List.mem_append, not_or]
    exact ⟨by decide, hat.1, by decide, hat.2⟩
  have hopen : partition (ch '[') (ch '[' :: (host ++ ch ']' :: rest)) =
      some ([], host ++ ch ']' :: rest) := by
    rw [partition, if_pos rfl]
  rw [hostinfo, afterLast_of_not_mem hnot, hopen]
  simp only [partitionEnds_append_cons hclose]

/-- How an authority without brackets and user information is taken apart. -/
theorem hostinfo_plain {netloc : Str} (hat : ch '@' ∉ netloc) (hopen : ch '[' ∉ netloc) :
    hostinfo netloc = partitionEnds (ch ':') netloc := by
  rw [hostinfo, afterLast_of_not_mem hat, partition_eq_none_iff.mpr hopen]

/-- How an authority without user information is made of its host and its port. -/
theorem netloc_cases {netloc : Str} (h : checkBrackets netloc = true) (hat : ch '@' ∉ netloc) :
    ∃ rest, (rest = [] ∧ (hostinfo netloc).2 = [] ∨ rest = ch ':' :: (hostinfo netloc).2) ∧
      (netloc = (hostinfo netloc).1 ++ rest ∧ ch ':' ∉ (hostinfo netloc).1 ∧ ch '[' ∉ netloc ∧
          ch ']' ∉ netloc ∨
        netloc = ch '[' :: ((hostinfo netloc).1 ++ ch ']' :: rest) ∧
          checkBracketedHost (hostinfo netloc).1 = true ∧ ch ']' ∉ (hostinfo netloc).1) := by
  by_cases hopen : ch '[' ∈ netloc
  · rw [checkBrackets, if_pos hopen, Bool.and_eq_true, checkBracketedNetloc,
      afterLast_of_not_mem hat] at h
    cases hp : partition (ch '[') netloc with
    | none => exact absurd hopen (partition_eq_none_iff.mp hp)
    | some q =>
      obtain ⟨before, bracketed⟩ := q
      obtain ⟨hnetloc, -⟩ := partition_eq_some_iff.mp hp
      simp only [hp, Bool.and_eq_true, Bool.or_eq_true, decide_eq_true_eq] at h
      obtain ⟨hclose, ⟨rfl, hport⟩, hhost⟩ := h
      rw [List.nil_append] at hnetloc
      obtain ⟨hnot, hcut⟩ := partitionEnds_cases (ch ']') bracketed
      have hbracketed : bracketed = (partitionEnds (ch ']') bracketed).1 ++
          ch ']' :: (partitionEnds (ch ']') bracketed).2 := by
        obtain ⟨hcut, -⟩ | hcut := hcut
        · -- the closing bracket of the authority stands behind the opening one
          rw [hnetloc, hcut, List.mem_cons] at hclose
          exact absurd (hclose.resolve_left (by decide)) hnot
        · exact hcut
      have hinfo : hostinfo netloc = ((partitionEnds (ch ']') bracketed).1,
          (partitionEnds (ch ':') (partitionEnds (ch ']') bracketed).2).2) := by
        rw [hostinfo, afterLast_of_not_mem hat, hp]
      rw [hinfo]
      refine ⟨(partitionEnds (ch ']') bracketed).2, ?_, .inr ⟨hbracketed ▸ hnetloc, hhost, hnot⟩⟩
      cases hrest : (partitionEnds (ch ']') bracketed).2 with
      | nil => exact .inl ⟨rfl, rfl⟩
      | cons c rest =>
        rw [hrest] at hport
        obtain rfl : c = ch ':' := Option.some.inj (hport.resolve_left (by simp))
        have hcut : partitionEnds (ch ':') (ch ':' :: rest) = ([], rest) :=
          partitionEnds_append_cons (a := []) (by simp)
        rw [hcut]
        exact .inr rfl
  · rw [checkBrackets, if_neg hopen, decide_eq_true_eq] at h
    rw [hostinfo_plain hat hopen]
    obtain ⟨hnot, ⟨hcut, hport⟩ | hcut⟩ := partitionEnds_cases (ch ':') netloc
    · exact ⟨[], .inl ⟨rfl, hport⟩, .inl ⟨by rwa [List.append_nil], hnot, hopen, h⟩⟩
    · exact ⟨_, .inr rfl, .inl ⟨hcut, hnot, hopen, h⟩⟩

theorem ParseResult.port_le {p : ParseResult} {n : ℕ} (h : p.port = some (some n)) : n ≤ 65535 := by
  simp only [ParseResult.port] at h
  split_ifs at h with hnil hdigits
  · simp at h
  · simp only [Bool.and_eq_true, decide_eq_true_eq] at hdigits
    obtain rfl := Option.some.inj (Option.some.inj h)
    exact hdigits.2

/-- A port written as a number is read back. -/
theorem ParseResult.port_eq_of_natRepr {p : ParseResult} {port : Option ℕ}
    (h : (hostinfo p.netloc).2 = (port.map natRepr).getD [])
    (hle : ∀ n, port = some n → n ≤ 65535) : p.port = some port := by
  rw [ParseResult.port, h]
  cases port with
  | none => rfl
  | some n =>
    have hdigits : (natRepr n).all isDigit = true :=
      List.all_eq_true.mpr fun c hc => isDigit_of_mem_natRepr hc
    have hlen : (natRepr n).length ≤ maxStrDigits := by
      rw [natRepr]
      split_ifs
      · simp [maxStrDigits]
      · rw [List.length_map, List.length_reverse, Nat.digits_length_le_iff (by norm_num)]
        calc n ≤ 65535 := hle n rfl
          _ < 10 ^ 5 := by norm_num
          _ ≤ 10 ^ maxStrDigits := Nat.pow_le_pow_right (by norm_num) (by decide)
    simp only [Option.map_some, Option.getD_some, natRepr_ne_nil, if_false, hdigits, hlen,
      digitsVal_natRepr, hle n rfl, decide_true, Bool.and_self, if_true]

end Py
