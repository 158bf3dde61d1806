import EsphomeMcp.Python.Str

/-!
# IP addresses

`ipaddress.ip_address` of a string, with `is_loopback` and `is_global`. An address is the number
it stands for; an IPv6 address also keeps its scope id, which neither property looks at.

Reading an address is insensitive to the case of its hexadecimal digits. But for its scope id an
address is hexadecimal digits, colons and dots, and an IPv6 address contains a colon.
-/

namespace Py

/-- `IPv4Address` or `IPv6Address`. -/
inductive IpAddress where
  | v4 (ip : BitVec 32)
  | v6 (ip : BitVec 128) (scopeId : Option Str)
deriving DecidableEq

/-! ## Reading IPv4 -/

/-- `IPv4Address._parse_octet`. -/
def parseOctet (s : Str) : Option ℕ :=
  if s ≠ [] ∧ s.all isDigit ∧ s.length ≤ 3 ∧ (s = [ch '0'] ∨ s.head? ≠ some (ch '0')) ∧
      digitsVal s ≤ 255 then
    some (digitsVal s)
  else none

/-- `IPv4Address(s)`, as a number. -/
def parseIpv4 (s : Str) : Option (BitVec 32) :=
  match (s.splitOn (ch '.')).map parseOctet with
  | [some a, some b, some c, some d] =>
    some (BitVec.ofNat 32 (((a * 256 + b) * 256 + c) * 256 + d))
  | _ => none

/-! ## Reading IPv6 -/

/-- `int(s, 16)` of hexadecimal digits. -/
def hexVal (s : Str) : Option ℕ :=
  s.foldl (fun n c => do return (← n) * 16 + (← hexDigitVal c)) (some 0)

/-- `IPv6Address._parse_hextet`. -/
def parseHextet (s : Str) : Option ℕ := if s = [] ∨ 4 < s.length then none else hexVal s

/-- A part between colons: empty, or a 16-bit number. -/
inductive Ipv6Part where
  | empty
  | hextet (n : Option ℕ)
deriving DecidableEq

/-- A part as text. -/
def ipv6Part (s : Str) : Ipv6Part := if s = [] then .empty else .hextet (parseHextet s)

/-- The parts between colons, a trailing IPv4 address as two numbers. -/
def ipv6Parts (s : Str) : Option (List Ipv6Part) :=
  let parts := s.splitOn (ch ':')
  if parts.length < 3 then none
  else
    let last := parts.getLast?.getD []
    if ch '.' ∈ last then
      (parseIpv4 last).map fun ip => parts.dropLast.map ipv6Part ++
        [.hextet (some (ip.toNat / 0x10000)), .hextet (some (ip.toNat % 0x10000))]
    else some (parts.map ipv6Part)

/-- The number of a part, unless it is empty or no hextet. -/
def Ipv6Part.value : Ipv6Part → Option ℕ
  | .empty => none
  | .hextet n => n

/-- Where `::` stands: the empty parts that are neither first nor last. -/
def skipIndexes (parts : List Ipv6Part) : List ℕ :=
  (List.range parts.length).filter fun i =>
    1 ≤ i ∧ i + 1 < parts.length ∧ parts[i]? = some .empty

/-- The hextets of all parts, the run of zeros that `::` stands for filled in. -/
def ipv6Hextets (parts : List Ipv6Part) : Option (List ℕ) :=
  match skipIndexes parts with
  | [] => if parts.length = 8 then parts.mapM Ipv6Part.value else none
  | [skip] =>
    -- an empty first or last part must belong to the `::`
    let hi := if parts.head? = some .empty then skip - 1 else skip
    let lo := parts.length - skip - 1
    let lo' := if parts.getLast? = some .empty then lo - 1 else lo
    if parts.head? = some .empty ∧ hi ≠ 0 then none
    else if parts.getLast? = some .empty ∧ lo' ≠ 0 then none
    else if 8 ≤ hi + lo' then none
    else do
      let high ← (parts.take hi).mapM Ipv6Part.value
      let low ← (parts.drop (parts.length - lo')).mapM Ipv6Part.value
      return high ++ List.replicate (8 - (hi + lo')) 0 ++ low
  | _ => none

/-- `IPv6Address._ip_int_from_string`. -/
def parseIpv6 (s : Str) : Option (BitVec 128) := do
  let parts ← ipv6Parts s
  if 9 < parts.length then none
  else
    let hextets ← ipv6Hextets parts
    return BitVec.ofNat 128 (hextets.foldl (fun n h => n * 0x10000 + h) 0)

/-- `IPv6Address(s)`, with its scope id. -/
def parseScopedIpv6 (s : Str) : Option IpAddress :=
  if ch '/' ∈ s then none
  else
    match partition (ch '%') s with
    | none => (parseIpv6 s).map fun ip => .v6 ip none
    | some (addr, scopeId) =>
      if scopeId = [] ∨ ch '%' ∈ scopeId then none
      else (parseIpv6 addr).map fun ip => .v6 ip (some scopeId)

/-- `ipaddress.ip_address(s)`, with `none` for the `ValueError`. -/
def ipAddress (s : Str) : Option IpAddress :=
  match parseIpv4 s with
  | some ip => some (.v4 ip)
  | none => parseScopedIpv6 s

/-! ## Properties -/

/-- `ip in network`, the network as its first address and the length of its prefix. -/
def inNetwork {w : ℕ} (ip : BitVec w) (network : BitVec w × ℕ) : Bool :=
  ip >>> (w - network.2) = network.1 >>> (w - network.2)

/-- `_IPv4Constants._private_networks`. -/
def privateNetworks4 : List (BitVec 32 × ℕ) :=
  [(0x00000000, 8), (0x0A000000, 8), (0x7F000000, 8), (0xA9FE0000, 16), (0xAC100000, 12),
    (0xC0000000, 24), (0xC00000AA, 31), (0xC0000200, 24), (0xC0A80000, 16), (0xC6120000, 15),
    (0xC6336400, 24), (0xCB007100, 24), (0xF0000000, 4), (0xFFFFFFFF, 32)]

/-- `_IPv4Constants._private_networks_exceptions`. -/
def privateExceptions4 : List (BitVec 32 × ℕ) := [(0xC0000009, 32), (0xC000000A, 32)]

/-- `_IPv6Constants._private_networks`. -/
def privateNetworks6 : List (BitVec 128 × ℕ) :=
  [(1, 128), (0, 128), (0xFFFF00000000, 96), (0x0064FF9B000100000000000000000000, 48),
    (0x01000000000000000000000000000000, 64), (0x20010000000000000000000000000000, 23),
    (0x20010DB8000000000000000000000000, 32), (0x20020000000000000000000000000000, 16),
    (0x3FFF0000000000000000000000000000, 20), (0xFC000000000000000000000000000000, 7),
    (0xFE800000000000000000000000000000, 10)]

/-- `_IPv6Constants._private_networks_exceptions`. -/
def privateExceptions6 : List (BitVec 128 × ℕ) :=
  [(0x20010001000000000000000000000001, 128), (0x20010001000000000000000000000002, 128),
    (0x20010003000000000000000000000000, 32), (0x20010004011200000000000000000000, 48),
    (0x20010020000000000000000000000000, 28), (0x20010030000000000000000000000000, 28)]

/-- `IPv6Address.ipv4_mapped`. -/
def ipv4Mapped (ip : BitVec 128) : Option (BitVec 32) :=
  if ip >>> 32 = 0xFFFF then some (ip.truncate 32) else none

/-- `IPv4Address.is_global`. -/
def isGlobal4 (ip : BitVec 32) : Bool :=
  !inNetwork ip (0x64400000, 10) &&
    !(privateNetworks4.any (inNetwork ip) && !privateExceptions4.any (inNetwork ip))

/-- `is_global`. -/
def IpAddress.isGlobal : IpAddress → Bool
  | v4 ip => isGlobal4 ip
  | v6 ip _ =>
    match ipv4Mapped ip with
    | some ip => isGlobal4 ip
    | none => !(privateNetworks6.any (inNetwork ip) && !privateExceptions6.any (inNetwork ip))

/-- `IPv4Address.is_loopback`. -/
def isLoopback4 (ip : BitVec 32) : Bool := inNetwork ip (0x7F000000, 8)

/-- `is_loopback`. -/
def IpAddress.isLoopback : IpAddress → Bool
  | v4 ip => isLoopback4 ip
  | v6 ip _ =>
    match ipv4Mapped ip with
    | some ip => isLoopback4 ip
    | none => ip = 1

example : (ipAddress (str "127.0.0.1")).map IpAddress.isLoopback = some true := by decide +kernel

example : (ipAddress (str "::ffff:10.0.0.1")).map IpAddress.isGlobal = some false := by
  decide +kernel

example : (ipAddress (str "2606:4700::6810:84e5%eth0")).map IpAddress.isGlobal = some true := by
  decide +kernel

/-! ## The text of an IPv6 address -/

theorem asciiLower_eq_iff {c d : CodePoint} (hd : isAlpha d = false) :
    asciiLower c = d ↔ c = d := by
  constructor
  · rintro rfl
    apply Fin.ext
    simp only [isAlpha, asciiLower_val, decide_eq_false_iff_not, not_or] at *
    split_ifs at * with h <;> omega
  · rintro rfl
    apply Fin.ext
    simp only [isAlpha, asciiLower_val, decide_eq_false_iff_not, not_or] at *
    rw [if_neg hd.1]

theorem mem_map_asciiLower {c : CodePoint} (hc : isAlpha c = false) (s : Str) :
    c ∈ s.map asciiLower ↔ c ∈ s := by
  rw [List.mem_map]
  constructor
  · rintro ⟨d, hd, he⟩
    exact (asciiLower_eq_iff hc).mp he ▸ hd
  · intro h
    exact ⟨c, h, (asciiLower_eq_iff hc).mpr rfl⟩

theorem hexDigitVal_asciiLower (c : CodePoint) : hexDigitVal (asciiLower c) = hexDigitVal c := by
  simp only [hexDigitVal, asciiLower_val]
  split_ifs <;> first | rfl | omega

theorem isDigit_asciiLower (c : CodePoint) : isDigit (asciiLower c) = isDigit c := by
  simp only [isDigit, asciiLower_val]
  split_ifs with h
  · simp only [decide_eq_decide]
    omega
  · rfl

theorem asciiLower_of_isDigit {c : CodePoint} (h : isDigit c = true) : asciiLower c = c := by
  apply Fin.ext
  simp only [isDigit, decide_eq_true_eq] at h
  rw [asciiLower_val, if_neg (by omega)]

theorem map_asciiLower_of_digits {s : Str} (h : s.all isDigit = true) : s.map asciiLower = s := by
  rw [List.all_eq_true] at h
  exact (List.map_congr_left fun c hc => asciiLower_of_isDigit (h c hc)).trans (List.map_id s)

/-- A separator that is no letter splits lower-cased text where it splits the text. -/
theorem splitOn_map_asciiLower {c : CodePoint} (hc : isAlpha c = false) (s : Str) :
    (s.map asciiLower).splitOn c = (s.splitOn c).map (List.map asciiLower) := by
  induction s with
  | nil => rfl
  | cons x s ih =>
    have hx : (asciiLower x == c) = (x == c) := by
      rw [Bool.eq_iff_iff, beq_iff_eq, beq_iff_eq]
      exact asciiLower_eq_iff hc
    rw [List.map_cons, List.splitOn_cons_eq_if_modifyHead, List.splitOn_cons_eq_if_modifyHead, hx, ih]
    split_ifs
    · rfl
    · cases s.splitOn c <;> rfl

theorem parseOctet_map_asciiLower (s : Str) : parseOctet (s.map asciiLower) = parseOctet s := by
  have hall : (s.map asciiLower).all isDigit = s.all isDigit := by
    rw [List.all_map]
    exact congrArg (s.all ·) (funext isDigit_asciiLower)
  by_cases hd : s.all isDigit = true
  · rw [map_asciiLower_of_digits hd]
  · rw [parseOctet, parseOctet, if_neg (by simp [hall, hd]), if_neg (by simp [hd])]

theorem parseIpv4_map_asciiLower (s : Str) : parseIpv4 (s.map asciiLower) = parseIpv4 s := by
  rw [parseIpv4, parseIpv4, splitOn_map_asciiLower (by decide), List.map_map,
    show parseOctet ∘ List.map asciiLower = parseOctet from funext parseOctet_map_asciiLower]

theorem ipv6Part_map_asciiLower (s : Str) : ipv6Part (s.map asciiLower) = ipv6Part s := by
  have hval : hexVal (s.map asciiLower) = hexVal s := by
    rw [hexVal, List.foldl_map]
    simp only [hexDigitVal_asciiLower]
    rfl
  rw [ipv6Part, ipv6Part, parseHextet, parseHextet, hval, List.length_map]
  simp only [List.map_eq_nil_iff]

/-- Reading an IPv6 address does not depend on the case of its digits. -/
theorem parseIpv6_map_asciiLower (s : Str) : parseIpv6 (s.map asciiLower) = parseIpv6 s := by
  have hparts : ipv6Parts (s.map asciiLower) = ipv6Parts s := by
    have hmap (l : List Str) : (l.map (List.map asciiLower)).map ipv6Part = l.map ipv6Part := by
      rw [List.map_map]
      exact List.map_congr_left fun x _ => ipv6Part_map_asciiLower x
    have hlast : ((s.splitOn (ch ':')).map (List.map asciiLower)).getLast?.getD [] =
        ((s.splitOn (ch ':')).getLast?.getD []).map asciiLower := by
      rw [List.getLast?_map]
      cases (s.splitOn (ch ':')).getLast? <;> rfl
    simp only [ipv6Parts, splitOn_map_asciiLower (show isAlpha (ch ':') = false by decide),
      List.length_map, hlast, mem_map_asciiLower (show isAlpha (ch '.') = false by decide),
      parseIpv4_map_asciiLower, ← List.map_dropLast, hmap]
  rw [parseIpv6, parseIpv6, hparts]

theorem colon_mem_of_parseIpv6 {s : Str} {ip : BitVec 128} (h : parseIpv6 s = some ip) :
    ch ':' ∈ s := by
  by_contra hn
  have hparts : ipv6Parts s = none := by
    rw [ipv6Parts, List.splitOn_eq_singleton hn]
    rfl
  rw [parseIpv6, hparts] at h
  cases h

/-- Splitting loses separators only. -/
theorem exists_mem_splitOn {c d : CodePoint} {s : Str} (h : d ∈ s) (hne : d ≠ c) :
    ∃ part ∈ s.splitOn c, d ∈ part := by
  induction s with
  | nil => cases h
  | cons x s ih =>
    rw [List.splitOn_cons_eq_if_modifyHead]
    split_ifs with hx
    · rcases List.mem_cons.mp h with rfl | h
      · exact absurd (beq_iff_eq.mp hx) hne
      · obtain ⟨part, hp, hd⟩ := ih h
        exact ⟨part, List.mem_cons_of_mem _ hp, hd⟩
    · cases hs : s.splitOn c with
      | nil => exact absurd hs (List.splitOn_ne_nil c s)
      | cons t ts =>
        rw [List.modifyHead_cons]
        rcases List.mem_cons.mp h with rfl | h
        · exact ⟨d :: t, List.mem_cons_self, List.mem_cons_self⟩
        · obtain ⟨part, hp, hd⟩ := ih h
          rw [hs] at hp
          rcases List.mem_cons.mp hp with rfl | hp
          · exact ⟨x :: part, List.mem_cons_self, List.mem_cons_of_mem _ hd⟩
          · exact ⟨part, List.mem_cons_of_mem _ hp, hd⟩

/-- An IPv4 address is digits and dots. -/
theorem isDigit_of_parseIpv4 {s : Str} {ip : BitVec 32} (h : parseIpv4 s = some ip) :
    ∀ c ∈ s, isDigit c = true ∨ c = ch '.' := by
  intro c hc
  by_contra hn
  rw [not_or] at hn
  obtain ⟨part, hpart, hmem⟩ := exists_mem_splitOn hc hn.2
  have hoctet : parseOctet part = none := by
    rw [parseOctet, if_neg]
    rintro ⟨-, hall, -⟩
    exact hn.1 (List.all_eq_true.mp hall _ hmem)
  have hnone : none ∈ (s.splitOn (ch '.')).map parseOctet := List.mem_map.mpr ⟨part, hpart, hoctet⟩
  rw [parseIpv4] at h
  split at h
  · next he =>
    rw [he] at hnone
    simp at hnone
  · cases h

/-- An IPv4 address has no colon. -/
theorem parseIpv4_of_colon {s : Str} (h : ch ':' ∈ s) : parseIpv4 s = none := by
  by_contra hn
  obtain ⟨ip, hip⟩ := Option.ne_none_iff_exists'.mp hn
  exact absurd (isDigit_of_parseIpv4 hip _ h) (by decide)

theorem ipAddress_of_colon {s : Str} (h : ch ':' ∈ s) : ipAddress s = parseScopedIpv6 s := by
  rw [ipAddress, parseIpv4_of_colon h]

/-- An address without a colon is digits and dots. -/
theorem isDigit_of_ipAddress {s : Str} {ip : IpAddress} (h : ipAddress s = some ip)
    (hcolon : ch ':' ∉ s) : ∀ c ∈ s, isDigit c = true ∨ c = ch '.' := by
  have hnot {addr : Str} (hsub : addr ⊆ s) : parseIpv6 addr = none := by
    by_contra hsome
    obtain ⟨ip, hip⟩ := Option.ne_none_iff_exists'.mp hsome
    exact hcolon (hsub (colon_mem_of_parseIpv6 hip))
  rw [ipAddress] at h
  split at h
  · next hv4 => exact isDigit_of_parseIpv4 hv4
  · rw [parseScopedIpv6] at h
    split_ifs at h
    split at h
    · rw [hnot (List.Subset.refl s)] at h
      cases h
    · next addr scopeId hpart =>
      split_ifs at h
      rw [hnot, Option.map_none] at h
      · cases h
      · rw [(partition_eq_some_iff.mp hpart).1]
        exact List.subset_append_left _ _

theorem value_of_mapM {parts : List Ipv6Part} {hextets : List ℕ}
    (h : parts.mapM Ipv6Part.value = some hextets) : ∀ part ∈ parts, part.value ≠ none := by
  induction parts generalizing hextets with
  | nil => simp
  | cons part parts ih =>
    rw [List.mapM_cons] at h
    obtain ⟨n, hn, h⟩ := Option.bind_eq_some_iff.mp h
    obtain ⟨ns, hns, -⟩ := Option.bind_eq_some_iff.mp h
    rw [List.forall_mem_cons, hn]
    exact ⟨by simp, ih hns⟩

/-- Every part of an address is empty or a hextet. -/
theorem value_of_ipv6Hextets {parts : List Ipv6Part} {hextets : List ℕ}
    (h : ipv6Hextets parts = some hextets) : ∀ part ∈ parts, part = .empty ∨ part.value ≠ none := by
  intro part hpart
  rw [ipv6Hextets] at h
  split at h
  · split_ifs at h
    exact .inr (value_of_mapM h part hpart)
  · next skip hskip =>
    have hmem : skip ∈ skipIndexes parts := by simp [hskip]
    have hfilter := (List.mem_filter.mp hmem).2
    simp only [decide_eq_true_eq] at hfilter
    obtain ⟨hpos, hlast, hempty⟩ := hfilter
    simp only at h
    generalize hhigh : (if parts.head? = some .empty then skip - 1 else skip) = high at h
    generalize hlow : (if parts.getLast? = some .empty then parts.length - skip - 1 - 1
      else parts.length - skip - 1) = low at h
    split_ifs at h with hhead hend hsum
    obtain ⟨highs, hhighs, h⟩ := Option.bind_eq_some_iff.mp h
    obtain ⟨lows, hlows, -⟩ := Option.bind_eq_some_iff.mp h
    obtain ⟨i, hi, rfl⟩ := List.mem_iff_getElem.mp hpart
    -- before the `::`, at it, or behind it
    rcases Nat.lt_trichotomy i skip with hlt | rfl | hgt
    · split_ifs at hhigh with hfirst
      · have hzero : high = 0 := not_not.mp fun hne => hhead ⟨hfirst, hne⟩
        obtain rfl : i = 0 := by omega
        rw [List.head?_eq_getElem?, List.getElem?_eq_getElem hi, Option.some.injEq] at hfirst
        exact .inl hfirst
      · exact .inr (value_of_mapM hhighs _ (List.mem_take_iff_getElem.mpr ⟨i, by omega, rfl⟩))
    · rw [List.getElem?_eq_getElem hi, Option.some.injEq] at hempty
      exact .inl hempty
    · split_ifs at hlow with hfinal
      · have hzero : low = 0 := not_not.mp fun hne => hend ⟨hfinal, hne⟩
        obtain rfl : i = parts.length - 1 := by omega
        rw [List.getLast?_eq_getElem?, List.getElem?_eq_getElem hi, Option.some.injEq] at hfinal
        exact .inl hfinal
      · refine .inr (value_of_mapM hlows _ (List.mem_drop_iff_getElem.mpr ⟨i - (skip + 1), ?_, ?_⟩))
        · omega
        · congr 1
          omega
  · cases h

/-- A character of an address without a scope id. -/
def isAddressChar (c : CodePoint) : Bool := (hexDigitVal c).isSome || c = ch ':' || c = ch '.'

theorem isAddressChar_of_parseIpv4 {s : Str} {ip : BitVec 32} (h : parseIpv4 s = some ip) :
    ∀ c ∈ s, isAddressChar c = true := by
  intro c hc
  rcases isDigit_of_parseIpv4 h c hc with hd | rfl
  · rw [isDigit, decide_eq_true_eq] at hd
    rw [isAddressChar, hexDigitVal, if_pos hd]
    rfl
  · rfl

theorem hexDigit_of_hexVal {s : Str} {n : ℕ} (h : hexVal s = some n) :
    ∀ c ∈ s, (hexDigitVal c).isSome = true := by
  have hfold (s : Str) (acc : Option ℕ) :
      (s.foldl (fun n c => do return (← n) * 16 + (← hexDigitVal c)) acc).isSome = true →
        acc.isSome = true ∧ ∀ c ∈ s, (hexDigitVal c).isSome = true := by
    induction s generalizing acc with
    | nil => exact fun hacc => ⟨hacc, by simp⟩
    | cons x s ih =>
      intro hacc
      obtain ⟨hx, hs⟩ := ih _ hacc
      cases acc with
      | none => cases hx
      | some m =>
        cases hd : hexDigitVal x with
        | none => simp [hd] at hx
        | some d =>
          rw [List.forall_mem_cons, hd]
          exact ⟨rfl, rfl, hs⟩
  exact (hfold s (some 0) (by rw [← hexVal, h]; rfl)).2

theorem hexDigit_of_ipv6Part {part : Str}
    (h : ipv6Part part = .empty ∨ (ipv6Part part).value ≠ none) :
    ∀ c ∈ part, (hexDigitVal c).isSome = true := by
  rw [ipv6Part] at h
  split_ifs at h with hnil
  · simp [hnil]
  · rw [parseHextet] at h
    split_ifs at h
    · simp [Ipv6Part.value] at h
    · obtain ⟨n, hn⟩ := Option.ne_none_iff_exists'.mp (h.resolve_left (by simp))
      exact hexDigit_of_hexVal hn

/-- An IPv6 address is hexadecimal digits, colons and dots. -/
theorem isAddressChar_of_parseIpv6 {s : Str} {ip : BitVec 128} (h : parseIpv6 s = some ip) :
    ∀ c ∈ s, isAddressChar c = true := by
  intro c hc
  by_cases hcolon : c = ch ':'
  · simp [isAddressChar, hcolon]
  obtain ⟨part, hpart, hmem⟩ := exists_mem_splitOn hc hcolon
  obtain ⟨parts, hparts, h⟩ := Option.bind_eq_some_iff.mp h
  split_ifs at h
  obtain ⟨hextets, hhextets, -⟩ := Option.bind_eq_some_iff.mp h
  have hvalue := value_of_ipv6Hextets hhextets
  have hhex (hp : ipv6Part part ∈ parts) : isAddressChar c = true := by
    rw [isAddressChar, hexDigit_of_ipv6Part (hvalue _ hp) c hmem, Bool.true_or, Bool.true_or]
  simp only [ipv6Parts] at hparts
  split_ifs at hparts with hlen hdot
  · obtain ⟨ip4, hip4, rfl⟩ := Option.map_eq_some_iff.mp hparts
    -- the last part is an IPv4 address
    have hne : (s.splitOn (ch ':')) ≠ [] := List.splitOn_ne_nil _ _
    rw [← List.dropLast_append_getLast hne, List.mem_append, List.mem_singleton] at hpart
    rcases hpart with hpart | rfl
    · exact hhex (List.mem_append_left _ (List.mem_map.mpr ⟨part, hpart, rfl⟩))
    · rw [List.getLast?_eq_getLast_of_ne_nil hne] at hip4
      exact isAddressChar_of_parseIpv4 hip4 c hmem
  · obtain rfl := Option.some.inj hparts
    exact hhex (List.mem_map.mpr ⟨part, hpart, rfl⟩)

/-- An address without a scope id is hexadecimal digits, colons and dots. -/
theorem isAddressChar_of_ipAddress {s : Str} {ip : IpAddress} (h : ipAddress s = some ip)
    (hscope : ch '%' ∉ s) : ∀ c ∈ s, isAddressChar c = true := by
  rw [ipAddress] at h
  split at h
  · next hv4 => exact isAddressChar_of_parseIpv4 hv4
  · rw [parseScopedIpv6, partition_eq_none_iff.mpr hscope] at h
    split_ifs at h
    obtain ⟨n, hn, -⟩ := Option.map_eq_some_iff.mp h
    exact isAddressChar_of_parseIpv6 hn

/-- A scope id with its percent sign, or nothing. -/
def IsZone (zone : Str) : Prop :=
  zone = [] ∨ ∃ scopeId, zone = ch '%' :: scopeId ∧ scopeId ≠ [] ∧ ch '%' ∉ scopeId

/-- The text of an IPv6 address: a number in colon notation and a scope id. -/
theorem ipAddress_v6_iff {s : Str} : (∃ ip scopeId, ipAddress s = some (.v6 ip scopeId)) ↔
    ∃ addr zone, s = addr ++ zone ∧ ch '%' ∉ addr ∧ ch '/' ∉ s ∧ IsZone zone ∧
      (parseIpv6 addr).isSome = true := by
  constructor
  · rintro ⟨ip, scopeId, h⟩
    have hscoped : parseScopedIpv6 s = some (.v6 ip scopeId) := by
      rw [ipAddress] at h
      split at h
      · cases h
      · exact h
    rw [parseScopedIpv6] at hscoped
    split_ifs at hscoped with hslash
    cases hp : partition (ch '%') s with
    | none =>
      rw [hp] at hscoped
      obtain ⟨n, hn, -⟩ := Option.map_eq_some_iff.mp hscoped
      exact ⟨s, [], by simp, partition_eq_none_iff.mp hp, hslash, .inl rfl, by simp [hn]⟩
    | some q =>
      obtain ⟨addr, zone⟩ := q
      simp only [hp] at hscoped
      split_ifs at hscoped with hzone
      obtain ⟨n, hn, -⟩ := Option.map_eq_some_iff.mp hscoped
      obtain ⟨rfl, hnot⟩ := partition_eq_some_iff.mp hp
      rw [not_or] at hzone
      exact ⟨addr, _, rfl, hnot, hslash, .inr ⟨zone, rfl, hzone⟩, by simp [hn]⟩
  · rintro ⟨addr, zone, rfl, hnot, hslash, hzone, haddr⟩
    obtain ⟨ip, hip⟩ := Option.isSome_iff_exists.mp haddr
    rw [ipAddress_of_colon (List.mem_append_left _ (colon_mem_of_parseIpv6 hip)), parseScopedIpv6,
      if_neg hslash]
    rcases hzone with rfl | ⟨scopeId, rfl, hzone⟩
    · rw [List.append_nil, partition_eq_none_iff.mpr hnot]
      exact ⟨ip, none, by simp [hip]⟩
    · rw [partition_append_cons hnot]
      exact ⟨ip, some scopeId, by simp [hip, hzone]⟩

end Py
