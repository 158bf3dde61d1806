import EsphomeMcp.Python.JsonText

/-!
# JSON texts read back

`json.loads` undoes `json.dumps` except in one respect: a high surrogate code point that a
low one follows comes back as the one code point the pair stands for. `rejoin` is that
change, and `loads_dumps` says it is the only one.

The other direction is what `loads` guarantees of its result (`WellFormed`): distinct keys,
float texts in their normal form, integers short enough to be written again, and a nesting
within the recursion limit.
-/

namespace Py

/-- Every high surrogate followed by a low one joined into one code point. -/
def rejoinStr : Str → Str
  | [] => []
  | [c] => [c]
  | c :: d :: s =>
    if isHighSurrogate c && isLowSurrogate d then joinSurrogates c.val d.val :: rejoinStr s
    else c :: rejoinStr (d :: s)

namespace Json

mutual

/-- `rejoinStr` on every string and key. -/
def rejoin : Json → Json
  | str s => str (rejoinStr s)
  | arr items => arr (rejoinItems items)
  | obj fields => obj (dictOf (rejoinFields fields))
  | j => j

/-- `rejoin` on the items of a list. -/
def rejoinItems : List Json → List Json
  | [] => []
  | j :: js => rejoin j :: rejoinItems js

/-- `rejoin` on the members of a dict. -/
def rejoinFields : List (Str × Json) → List (Str × Json)
  | [] => []
  | (k, j) :: fs => (rejoinStr k, rejoin j) :: rejoinFields fs

end

theorem rejoinItems_eq_map (items : List Json) : rejoinItems items = items.map rejoin := by
  induction items with
  | nil => rfl
  | cons j items ih => rw [rejoinItems, ih, List.map_cons]

theorem rejoinFields_eq_map (fields : List (Str × Json)) :
    rejoinFields fields = fields.map fun f => (rejoinStr f.1, f.2.rejoin) := by
  induction fields with
  | nil => rfl
  | cons f fields ih =>
    obtain ⟨k, j⟩ := f
    rw [rejoinFields, ih, List.map_cons]

/-- What `json.loads` returns. -/
inductive WellFormed [Runtime] : Json → Prop
  | null : WellFormed null
  | bool (b : Bool) : WellFormed (bool b)
  | int (n : ℤ) (h : (natRepr n.natAbs).length ≤ maxStrDigits) : WellFormed (int n)
  | float (t : Str) (h : t ∈ floatConstants ∨ (IsFloatText t ∧ floatText t = t)) :
      WellFormed (float t)
  | str (s : Str) : WellFormed (str s)
  | arr (items : List Json) (h : ∀ j ∈ items, WellFormed j) : WellFormed (arr items)
  | obj (fields : List (Str × Json)) (hk : (fields.map Prod.fst).Nodup)
      (h : ∀ f ∈ fields, WellFormed f.2) : WellFormed (obj fields)

theorem depth_le_depthItems {items : List Json} {j : Json} (h : j ∈ items) :
    j.depth ≤ depthItems items := by
  induction items with
  | nil => cases h
  | cons k items ih =>
    rw [depthItems]
    rcases List.mem_cons.mp h with rfl | h
    · exact le_max_left _ _
    · exact (ih h).trans (le_max_right _ _)

theorem depthItems_le {items : List Json} {n : ℕ} (h : ∀ j ∈ items, j.depth ≤ n) :
    depthItems items ≤ n := by
  induction items with
  | nil => exact Nat.zero_le n
  | cons k items ih =>
    exact max_le (h k (by simp)) (ih fun j hj => h j (List.mem_cons_of_mem _ hj))

theorem depth_le_depthFields {fields : List (Str × Json)} {f : Str × Json} (h : f ∈ fields) :
    f.2.depth ≤ depthFields fields := by
  induction fields with
  | nil => cases h
  | cons k fields ih =>
    obtain ⟨k, j⟩ := k
    rw [depthFields]
    rcases List.mem_cons.mp h with rfl | h
    · exact le_max_left _ _
    · exact (ih h).trans (le_max_right _ _)

theorem depthFields_le {fields : List (Str × Json)} {n : ℕ} (h : ∀ f ∈ fields, f.2.depth ≤ n) :
    depthFields fields ≤ n := by
  induction fields with
  | nil => exact Nat.zero_le n
  | cons k fields ih =>
    obtain ⟨k, j⟩ := k
    exact max_le (h (k, j) (by simp)) (ih fun f hf => h f (List.mem_cons_of_mem _ hf))

end Json

/-! ## Strings -/

/-- The units `escapeChar` writes a character as. -/
def unitsOf (c : CodePoint) : List StrUnit :=
  if isPlain c then [.raw c]
  else match shortEscapes.find? (·.2 = c) with
    | some p => [.raw p.2]
    | none =>
      if c.val < 0x10000 then [.esc c.val]
      else [.esc (0xD800 + (c.val - 0x10000) / 0x400), .esc (0xDC00 + (c.val - 0x10000) % 0x400)]

theorem hexDigitVal_hexDigit (n : ℕ) : hexDigitVal (hexDigit n) = some (n % 16) := by
  have hlt : n % 16 < 16 := Nat.mod_lt _ (by norm_num)
  by_cases h : n % 16 < 10
  · rw [hexDigit, if_pos h, hexDigitVal, codePoint_val (by omega), if_pos (by omega)]
    congr 1
    omega
  · rw [hexDigit, if_neg h, hexDigitVal, codePoint_val (by omega), if_neg (by omega),
      if_pos (by omega)]
    congr 1
    omega

theorem scanString_unicodeEscape {n : ℕ} (h : n < 0x10000) (s : Str) :
    scanString .text (unicodeEscape n ++ s) =
      (scanString .text s).map fun p => (.esc n :: p.1, p.2) := by
  have hq : ch '\\' ≠ ch '"' := by decide
  have hval : (((0 * 16 + n / 0x1000 % 16) * 16 + n / 0x100 % 16) * 16 + n / 0x10 % 16) * 16 +
      n % 16 = n := by omega
  simp only [unicodeEscape, List.cons_append, List.nil_append, scanString, if_neg hq, if_true,
    hexDigitVal_hexDigit, hval]

/-- The seven short escapes read back to the character they stand for. -/
theorem shortEscapes_spec : ∀ p ∈ shortEscapes,
    p.1 ≠ ch 'u' ∧ unescape p.1 = some p.2 ∧ isSurrogate p.2 = false := by
  intro p hp
  simp only [shortEscapes, List.mem_cons, List.not_mem_nil, or_false] at hp
  rcases hp with rfl | rfl | rfl | rfl | rfl | rfl | rfl <;> exact ⟨by decide, rfl, rfl⟩

theorem scanString_escapeChar (c : CodePoint) (s : Str) :
    scanString .text (escapeChar c ++ s) =
      (scanString .text s).map fun p => (unitsOf c ++ p.1, p.2) := by
  have hq : ch '\\' ≠ ch '"' := by decide
  unfold escapeChar unitsOf
  by_cases hplain : isPlain c = true
  · rw [if_pos hplain, if_pos hplain]
    simp only [isPlain, decide_eq_true_eq] at hplain
    simp only [List.singleton_append, scanString, if_neg hplain.2.2.1, if_neg hplain.2.2.2,
      if_neg (show ¬c.val < 0x20 by omega)]
  · rw [if_neg hplain, if_neg hplain]
    cases hf : shortEscapes.find? (·.2 = c) with
    | some p =>
      obtain ⟨hu, hesc, -⟩ := shortEscapes_spec p (List.mem_of_find?_eq_some hf)
      simp only [List.cons_append, List.nil_append, scanString, if_neg hq, if_true, if_neg hu, hesc]
    | none =>
      have hlt : c.val < 0x110000 := c.isLt
      by_cases hbmp : c.val < 0x10000
      · simp only [if_pos hbmp]
        exact scanString_unicodeEscape hbmp s
      · simp only [if_neg hbmp, List.append_assoc]
        rw [scanString_unicodeEscape (by omega), scanString_unicodeEscape (by omega),
          Option.map_map]
        rfl

theorem scanString_dumpsStr (s rest : Str) :
    scanString .text (s.flatMap escapeChar ++ ch '"' :: rest) = some (s.flatMap unitsOf, rest) := by
  induction s with
  | nil => rfl
  | cons c s ih =>
    rw [List.flatMap_cons, List.append_assoc, scanString_escapeChar, ih, Option.map_some]
    rfl

theorem joinUnits_esc {n : ℕ} {us : List StrUnit}
    (h : ∀ m ∈ us.head?, isHighSurrogate (codePoint n) = true →
      ∀ k, m = .esc k → isLowSurrogate (codePoint k) = false) :
    joinUnits (.esc n :: us) = codePoint n :: joinUnits us := by
  match us with
  | [] => rfl
  | .raw c :: us => rfl
  | .esc m :: us =>
    rw [joinUnits, if_neg]
    intro hj
    rw [Bool.and_eq_true] at hj
    have := h _ rfl hj.1 m rfl
    simp [hj.2] at this

/-- A supplementary character is put back together. -/
theorem joinUnits_pair {c : CodePoint} (h : ¬c.val < 0x10000) (us : List StrUnit) :
    joinUnits (.esc (0xD800 + (c.val - 0x10000) / 0x400) ::
      .esc (0xDC00 + (c.val - 0x10000) % 0x400) :: us) = c :: joinUnits us := by
  have hlt : c.val < 0x110000 := c.isLt
  have hjoin : joinSurrogates (0xD800 + (c.val - 0x10000) / 0x400)
      (0xDC00 + (c.val - 0x10000) % 0x400) = c := by
    have hval : 0x10000 + (0xD800 + (c.val - 0x10000) / 0x400 - 0xD800) * 0x400 +
        (0xDC00 + (c.val - 0x10000) % 0x400 - 0xDC00) = c.val := by omega
    rw [joinSurrogates, hval, codePoint_fin]
  rw [joinUnits, if_pos, hjoin]
  · rw [Bool.and_eq_true, isHighSurrogate, isLowSurrogate, decide_eq_true_eq, decide_eq_true_eq,
      codePoint_val (by omega), codePoint_val (by omega)]
    omega

/-- How the units of a character start: with itself, or with the high half of its pair. -/
theorem unitsOf_cases (c : CodePoint) :
    unitsOf c = [.raw c] ∧ isSurrogate c = false ∨
    unitsOf c = [.esc c.val] ∨
    (¬c.val < 0x10000 ∧ unitsOf c = [.esc (0xD800 + (c.val - 0x10000) / 0x400),
      .esc (0xDC00 + (c.val - 0x10000) % 0x400)]) := by
  unfold unitsOf
  by_cases hplain : isPlain c = true
  · rw [if_pos hplain]
    refine .inl ⟨rfl, ?_⟩
    simp only [isPlain, decide_eq_true_eq] at hplain
    rw [isSurrogate, decide_eq_false_iff_not]
    omega
  · rw [if_neg hplain]
    cases hf : shortEscapes.find? (·.2 = c) with
    | some p =>
      have hp : p.2 = c := by simpa using List.find?_some hf
      have hsur := (shortEscapes_spec p (List.mem_of_find?_eq_some hf)).2.2
      exact .inl ⟨by simp only [hp], hp ▸ hsur⟩
    | none =>
      by_cases hbmp : c.val < 0x10000
      · exact .inr (.inl (by simp only [if_pos hbmp]))
      · exact .inr (.inr ⟨hbmp, by simp only [if_neg hbmp]⟩)

theorem isHighSurrogate_isSurrogate {c : CodePoint} (h : isHighSurrogate c = true) :
    isSurrogate c = true := by
  simp only [isHighSurrogate, isSurrogate, decide_eq_true_eq] at *
  omega

/-- A character that no low surrogate follows, or that is no high surrogate, is kept. -/
theorem joinUnits_unitsOf {c : CodePoint} {s : Str}
    (h : ∀ d ∈ s.head?, (isHighSurrogate c && isLowSurrogate d) = false) :
    joinUnits (unitsOf c ++ s.flatMap unitsOf) = c :: joinUnits (s.flatMap unitsOf) := by
  rcases unitsOf_cases c with ⟨hc, -⟩ | hc | ⟨hbig, hc⟩
  · rw [hc]
    rfl
  · rw [hc, List.singleton_append, joinUnits_esc, codePoint_fin]
    intro m hm hhigh k hk
    subst hk
    rw [codePoint_fin] at hhigh
    cases s with
    | nil => simp at hm
    | cons d s =>
      have hd := h d rfl
      rw [hhigh, Bool.true_and] at hd
      rw [List.flatMap_cons] at hm
      rcases unitsOf_cases d with ⟨hu, -⟩ | hu | ⟨hbig, hu⟩
      · rw [hu] at hm
        simp at hm
      · rw [hu] at hm
        obtain rfl : d.val = k := by simpa using hm
        rw [codePoint_fin, hd]
      · rw [hu] at hm
        have hlt : d.val < 0x110000 := d.isLt
        obtain rfl : 0xD800 + (d.val - 0x10000) / 0x400 = k := by simpa using hm
        rw [isLowSurrogate, codePoint_val (by omega), decide_eq_false_iff_not]
        omega
  · rw [hc]
    exact joinUnits_pair hbig _

theorem joinUnits_flatMap_unitsOf (s : Str) : joinUnits (s.flatMap unitsOf) = rejoinStr s := by
  fun_induction rejoinStr s with
  | case1 => rfl
  | case2 c =>
    rw [List.flatMap_cons, joinUnits_unitsOf (by simp)]
    rfl
  | case3 c d s h ih =>
    rw [Bool.and_eq_true] at h
    -- both are surrogates, so both were written as escapes
    have hesc (x : CodePoint) (hx : isSurrogate x = true) : unitsOf x = [.esc x.val] := by
      rcases unitsOf_cases x with ⟨-, hn⟩ | hu | ⟨hbig, -⟩
      · simp [hx] at hn
      · exact hu
      · simp only [isSurrogate, decide_eq_true_eq] at hx
        omega
    have hd : isSurrogate d = true := by
      have := h.2
      simp only [isLowSurrogate, isSurrogate, decide_eq_true_eq] at *
      omega
    rw [List.flatMap_cons, List.flatMap_cons, hesc c (isHighSurrogate_isSurrogate h.1), hesc d hd,
      List.singleton_append, List.singleton_append, joinUnits, codePoint_fin, codePoint_fin, h.1,
      h.2, ih]
    rfl
  | case4 c d s h ih =>
    rw [List.flatMap_cons, joinUnits_unitsOf, ih]
    intro e he
    obtain rfl : d = e := by simpa using he
    simpa using h

/-- A string without a split pair reads back as it was. -/
theorem rejoinStr_eq_self {s : Str} (h : ∀ c ∈ s, isHighSurrogate c = false) : rejoinStr s = s := by
  fun_induction rejoinStr s with
  | case1 => rfl
  | case2 => rfl
  | case3 c d s hp ih => simp [h c (by simp)] at hp
  | case4 c d s hp ih => rw [ih fun x hx => h x (List.mem_cons_of_mem _ hx)]

/-- A high surrogate directly followed by a low one. -/
def HasSplitPair (s : Str) : Prop :=
  ∃ before hi lo after, s = before ++ hi :: lo :: after ∧ isHighSurrogate hi = true ∧
    isLowSurrogate lo = true

theorem length_rejoinStr_le (s : Str) : (rejoinStr s).length ≤ s.length := by
  fun_induction rejoinStr s with
  | case1 | case2 => exact le_rfl
  | case3 c d s hp ih =>
    simp only [List.length_cons]
    omega
  | case4 c d s hp ih =>
    simp only [List.length_cons] at ih ⊢
    omega

theorem hasSplitPair_cons_iff {c d : CodePoint} {s : Str}
    (h : ¬(isHighSurrogate c && isLowSurrogate d) = true) :
    HasSplitPair (c :: d :: s) ↔ HasSplitPair (d :: s) := by
  constructor
  · rintro ⟨before, hi, lo, after, hs, hhi, hlo⟩
    cases before with
    | nil =>
      obtain ⟨rfl, htail⟩ := List.cons.inj hs
      obtain ⟨rfl, -⟩ := List.cons.inj htail
      simp [hhi, hlo] at h
    | cons x before => exact ⟨before, hi, lo, after, (List.cons.inj hs).2, hhi, hlo⟩
  · rintro ⟨before, hi, lo, after, hs, hhi, hlo⟩
    exact ⟨c :: before, hi, lo, after, by rw [hs]; rfl, hhi, hlo⟩

/-- Joining changes exactly the strings that have a split pair. -/
theorem rejoinStr_eq_self_iff {s : Str} : rejoinStr s = s ↔ ¬HasSplitPair s := by
  fun_induction rejoinStr s with
  | case1 =>
    refine iff_of_true rfl ?_
    rintro ⟨before, hi, lo, after, hs, -⟩
    cases before <;> cases hs
  | case2 c =>
    refine iff_of_true rfl ?_
    rintro ⟨before, hi, lo, after, hs, -⟩
    cases before with
    | nil => cases hs
    | cons x before => cases before <;> cases hs
  | case3 c d s hp ih =>
    rw [Bool.and_eq_true] at hp
    refine iff_of_false (fun h => ?_) fun hn => hn ⟨[], c, d, s, rfl, hp.1, hp.2⟩
    have hlen := congrArg List.length h
    have hle := length_rejoinStr_le s
    simp only [List.length_cons] at hlen
    omega
  | case4 c d s hp ih =>
    rw [List.cons.injEq, hasSplitPair_cons_iff hp, ← ih]
    exact ⟨And.right, fun h => ⟨rfl, h⟩⟩

theorem rejoinStr_ascii {s : Str} (h : ∀ c ∈ s, isAscii c) : rejoinStr s = s := by
  refine rejoinStr_eq_self fun c hc => ?_
  have := h c hc
  simp only [isAscii, isHighSurrogate, decide_eq_true_eq, decide_eq_false_iff_not] at *
  omega

/-- Joining the pairs in a dict display whose keys are distinct ASCII literals. -/
theorem Json.rejoin_dict {items : List (String × Json)} (hk : (items.map Prod.fst).Nodup)
    (ha : ((items.map Prod.fst).all fun k => (Py.str k).all isAscii) = true) :
    (Json.dict items).rejoin = Json.dict (items.map fun p => (p.1, p.2.rejoin)) := by
  have hfields : Json.rejoinFields (items.map fun p => (Py.str p.1, p.2)) =
      (items.map fun p => (p.1, p.2.rejoin)).map fun p => (Py.str p.1, p.2) := by
    clear hk
    induction items with
    | nil => rfl
    | cons p items ih =>
      rw [List.map_cons, List.all_cons, Bool.and_eq_true] at ha
      simp only [List.map_cons, Json.rejoinFields, ih ha.2,
        rejoinStr_ascii (List.all_eq_true.mp ha.1)]
  have hkeys : (((items.map fun p => (p.1, p.2.rejoin)).map fun p => (Py.str p.1, p.2)).map
      Prod.fst).Nodup := by
    have hfst : ((items.map fun p => (p.1, p.2.rejoin)).map fun p => (Py.str p.1, p.2)).map Prod.fst =
        (items.map Prod.fst).map Py.str := by
      simp only [List.map_map]
      rfl
    rw [hfst]
    exact hk.map fun a b hab => str_inj.mp hab
  rw [Json.dict, Json.rejoin, hfields, dictOf_of_nodup hkeys, Json.dict]

/-! ## Values written and read back -/

/-- The start of a value: neither white space nor a closing bracket. -/
def StartsValue (s : Str) : Prop :=
  ∃ c t, s = c :: t ∧ isJsonSpace c = false ∧ c ≠ ch ']' ∧ c ≠ ch '}'

theorem StartsValue.append {s : Str} (h : StartsValue s) (t : Str) : StartsValue (s ++ t) := by
  obtain ⟨c, u, rfl, hc⟩ := h
  exact ⟨c, u ++ t, rfl, hc⟩

theorem StartsValue.skipSpace {s : Str} (h : StartsValue s) : skipSpace s = s := by
  obtain ⟨c, t, rfl, hc, -⟩ := h
  rw [Py.skipSpace, List.dropWhile_cons, hc]
  rfl

/-- White space in front of a value is skipped. -/
theorem skipSpace_gap {gap s : Str} (hgap : ∀ c ∈ gap, isJsonSpace c = true) (h : StartsValue s) :
    skipSpace (gap ++ s) = s := by
  rw [Py.skipSpace, List.dropWhile_append_of_pos hgap]
  exact h.skipSpace

/-- How a number starts. -/
theorem scanNumber_start {s r : Str} {n : Number} (h : scanNumber s = some (n, r)) :
    ∃ c t, s = c :: t ∧ (isDigit c = true ∨ c = ch '-' ∧ ∃ d u, t = d :: u ∧ isDigit d = true) := by
  have hdigit {s : Str} {p : Number × Str} (hs : scanUnsigned s = some p) :
      ∃ c t, s = c :: t ∧ isDigit c = true := by
    obtain ⟨q, hq, -⟩ := Option.map_eq_some_iff.mp hs
    cases s with
    | nil => simp [scanInt] at hq
    | cons c t =>
      refine ⟨c, t, rfl, ?_⟩
      rw [scanInt] at hq
      split_ifs at hq with h0 hd
      · subst h0
        decide
      · exact hd
  cases s with
  | nil => simp [scanNumber] at h
  | cons c t =>
    rw [scanNumber] at h
    split_ifs at h with hc
    · obtain ⟨q, hq, -⟩ := Option.map_eq_some_iff.mp h
      exact ⟨c, t, rfl, .inr ⟨hc, hdigit hq⟩⟩
    · obtain ⟨d, u, hd, hdig⟩ := hdigit h
      rw [List.cons.injEq] at hd
      exact ⟨c, t, rfl, .inl (hd.1 ▸ hdig)⟩

/-- A number is no named constant. -/
theorem scanKeyword_of_number {s r : Str} {n : Number} (strict : Bool)
    (h : scanNumber s = some (n, r)) : scanKeyword strict s = none := by
  obtain ⟨c, t, rfl, hc⟩ := scanNumber_start h
  rw [scanKeyword, List.findSome?_eq_none_iff]
  intro p hp
  have hmem : p.1 = str "null" ∨ p.1 = str "true" ∨ p.1 = str "false" ∨ p.1 = str "NaN" ∨
      p.1 = str "Infinity" ∨ p.1 = str "-Infinity" := by
    cases strict <;> simp [keywords, floatConstants] at hp <;>
      rcases hp with rfl | rfl | rfl | rfl | rfl | rfl <;> simp
  rw [if_neg]
  rw [Bool.not_eq_true, startsWith]
  have hfirst (x : CodePoint) (k : Str) (hx : isDigit x = false) (hx' : x ≠ ch '-') :
      (x :: k).isPrefixOf (c :: t) = false := by
    have hne : x ≠ c := by
      rintro rfl
      rcases hc with hc | hc
      · simp [hx] at hc
      · exact hx' hc.1
    simp [List.isPrefixOf, hne]
  rcases hmem with h | h | h | h | h | h
  · rw [h]; exact hfirst _ _ (by decide) (by decide)
  · rw [h]; exact hfirst _ _ (by decide) (by decide)
  · rw [h]; exact hfirst _ _ (by decide) (by decide)
  · rw [h]; exact hfirst _ _ (by decide) (by decide)
  · rw [h]; exact hfirst _ _ (by decide) (by decide)
  · -- only `-Infinity` shares its first character with a number
    rw [h]
    rcases hc with hc | ⟨rfl, d, u, rfl, hd⟩
    · have hne : ch '-' ≠ c := by
        rintro rfl
        exact absurd hc (by decide)
      show (ch '-' :: str "Infinity").isPrefixOf (c :: t) = false
      simp [List.isPrefixOf, hne]
    · have hne : ch 'I' ≠ d := by
        rintro rfl
        exact absurd hd (by decide)
      show (ch '-' :: ch 'I' :: str "nfinity").isPrefixOf (ch '-' :: d :: u) = false
      simp [List.isPrefixOf, hne]

theorem isDigit_not_special {c : CodePoint} (h : isDigit c = true ∨ c = ch '-') :
    c ≠ ch '"' ∧ c ≠ ch '[' ∧ c ≠ ch '{' ∧ isJsonSpace c = false ∧ c ≠ ch ']' ∧ c ≠ ch '}' := by
  rcases h with h | rfl
  · refine ⟨?_, ?_, ?_, ?_, ?_, ?_⟩
    · rintro rfl; exact absurd h (by decide)
    · rintro rfl; exact absurd h (by decide)
    · rintro rfl; exact absurd h (by decide)
    · simp only [isDigit, decide_eq_true_eq] at h
      have hsp : c ≠ ch ' ' := by rintro rfl; exact absurd h (by decide)
      rw [isJsonSpace, decide_eq_false_iff_not]
      rintro (h' | h' | h' | h')
      · exact hsp h'
      all_goals omega
    · rintro rfl; exact absurd h (by decide)
    · rintro rfl; exact absurd h (by decide)
  · decide

theorem filter_isDigit_intRepr (n : ℤ) :
    ((intRepr n).filter isDigit).length = (natRepr n.natAbs).length := by
  have hall : (natRepr n.natAbs).filter isDigit = natRepr n.natAbs :=
    List.filter_eq_self.mpr fun c hc => isDigit_of_mem_natRepr hc
  unfold intRepr
  split_ifs
  · rw [List.filter_cons, if_neg (by decide), hall]
  · rw [hall]

theorem startsValue_number {s r : Str} {n : Number} (h : scanNumber s = some (n, r)) :
    StartsValue s := by
  obtain ⟨c, t, rfl, hc⟩ := scanNumber_start h
  obtain ⟨-, -, -, hs, hb, ho⟩ := isDigit_not_special (hc.imp_right And.left)
  exact ⟨c, t, rfl, hs, hb, ho⟩

theorem stopsNumber_cons {c : CodePoint} {s : Str}
    (h : isDigit c = false ∧ isSign c = false ∧ isExpMark c = false ∧ c ≠ ch '.') :
    StopsNumber (c :: s) := by
  intro d hd
  obtain rfl : c = d := by simpa using hd
  exact h

theorem skipSpace_cons {c : CodePoint} (s : Str) (h : isJsonSpace c = false) :
    skipSpace (c :: s) = c :: s := by
  rw [skipSpace, List.dropWhile_cons, h]
  rfl

theorem skipSpace_closing {last : Str} (hlast : ∀ c ∈ last, isJsonSpace c = true) {c : CodePoint}
    (hc : isJsonSpace c = false) (rest : Str) : skipSpace (last ++ c :: rest) = c :: rest := by
  rw [skipSpace, List.dropWhile_append_of_pos hlast]
  exact skipSpace_cons rest hc

/-- Neither white space nor a closing bracket continues a number. -/
theorem stopsNumber_closing {last : Str} (hlast : ∀ c ∈ last, isJsonSpace c = true) {c : CodePoint}
    (hc : c = ch ']' ∨ c = ch '}') (rest : Str) : StopsNumber (last ++ c :: rest) := by
  cases last with
  | nil => rcases hc with rfl | rfl <;> exact stopsNumber_cons (by decide)
  | cons d last =>
    apply stopsNumber_cons
    have hd : isJsonSpace d = true := hlast d List.mem_cons_self
    rcases of_decide_eq_true hd with rfl | hval
    · decide
    · have hval' : d.val < 0x20 := by omega
      simp only [isDigit, isSign, isExpMark, decide_eq_false_iff_not, ne_eq, Fin.ext_iff]
      exact ⟨by omega, by simp [ch]; omega, by simp [ch]; omega, by simp [ch]; omega⟩

/-- A key with its colon is read, and the white space behind the colon is skipped. -/
theorem scanKey_dumpsStr {space : Str} (hspace : ∀ c ∈ space, isJsonSpace c = true) (k : Str)
    {s : Str} (h : StartsValue s) :
    scanKey (dumpsStr k ++ ch ':' :: (space ++ s)) = .ok (rejoinStr k, s) := by
  have hk : dumpsStr k ++ ch ':' :: (space ++ s) =
      ch '"' :: (k.flatMap escapeChar ++ ch '"' :: ch ':' :: (space ++ s)) := by
    simp [dumpsStr]
  rw [hk, scanKey, if_pos rfl, scanString_dumpsStr]
  simp only [skipSpace_cons _ (show isJsonSpace (ch ':') = false by decide), if_true,
    skipSpace_gap hspace h, joinUnits_flatMap_unitsOf]

/-- A text is read as a value, in front of anything that cannot continue a number. -/
structure ReadsAs (value : Str → Except JsonError (Json × Str)) (s : Str) (j : Json) : Prop where
  starts : StartsValue s
  reads : ∀ rest, StopsNumber rest → value (s ++ rest) = .ok (j, rest)

/-- Items behind the first one, each behind a comma and white space. -/
def itemTexts (gap : Str) (items : List (Str × Json)) : Str :=
  items.flatMap fun i => ch ',' :: (gap ++ i.1)

/-- A key with its value behind a colon and white space. -/
def memberText (space : Str) (m : Str × Str × Json) : Str :=
  dumpsStr m.1 ++ ch ':' :: (space ++ m.2.1)

/-- Members behind the first one, each behind a comma and white space. -/
def memberTexts (space gap : Str) (members : List (Str × Str × Json)) : Str :=
  members.flatMap fun m => ch ',' :: (gap ++ memberText space m)

theorem length_le_itemTexts (gap : Str) (items : List (Str × Json)) :
    items.length ≤ (itemTexts gap items).length := by
  induction items with
  | nil => exact Nat.zero_le _
  | cons i items ih =>
    simp only [itemTexts, List.flatMap_cons, List.length_append, List.length_cons] at ih ⊢
    omega

theorem length_le_memberTexts (space gap : Str) (members : List (Str × Str × Json)) :
    members.length ≤ (memberTexts space gap members).length := by
  induction members with
  | nil => exact Nat.zero_le _
  | cons m members ih =>
    simp only [memberTexts, List.flatMap_cons, List.length_append, List.length_cons] at ih ⊢
    omega

section

variable {value : Str → Except JsonError (Json × Str)} {space gap last : Str}

/-- A list is read item by item, whatever white space is behind its commas and before its end. -/
theorem scanItems_itemTexts (hgap : ∀ c ∈ gap, isJsonSpace c = true)
    (hlast : ∀ c ∈ last, isJsonSpace c = true) {items : List (Str × Json)} {item : Str × Json}
    {fuel : ℕ} (hfuel : items.length < fuel)
    (hread : ∀ i ∈ item :: items, ReadsAs value i.1 i.2) (rest : Str) :
    scanItems value fuel (item.1 ++ (itemTexts gap items ++ (last ++ ch ']' :: rest))) =
      .ok (item.2 :: items.map Prod.snd, rest) := by
  induction items generalizing item fuel with
  | nil =>
    obtain ⟨fuel, rfl⟩ := Nat.exists_eq_succ_of_ne_zero (by omega : fuel ≠ 0)
    have hclose := skipSpace_closing hlast (show isJsonSpace (ch ']') = false by decide) rest
    rw [itemTexts, List.flatMap_nil, List.nil_append, scanItems,
      (hread item (by simp)).reads _ (stopsNumber_closing hlast (.inl rfl) rest)]
    simp only [bind, Except.bind, hclose, if_true]
    rfl
  | cons next items ih =>
    obtain ⟨fuel, rfl⟩ := Nat.exists_eq_succ_of_ne_zero (by omega : fuel ≠ 0)
    have hstart := (hread next (by simp)).starts.append
      (itemTexts gap items ++ (last ++ ch ']' :: rest))
    have hsplit : itemTexts gap (next :: items) ++ (last ++ ch ']' :: rest) =
        ch ',' :: (gap ++ (next.1 ++ (itemTexts gap items ++ (last ++ ch ']' :: rest)))) := by
      simp [itemTexts]
    have hlen : items.length < fuel := by simpa using hfuel
    have hrec := ih hlen fun i hi => hread i (List.mem_cons_of_mem _ hi)
    rw [hsplit, scanItems, (hread item (by simp)).reads _ (stopsNumber_cons (by decide))]
    simp only [bind, Except.bind, skipSpace_cons _ (show isJsonSpace (ch ',') = false by decide),
      if_neg (show ch ',' ≠ ch ']' by decide), if_true, skipSpace_gap hgap hstart, hrec]
    rfl

/-- A dict is read member by member, whatever white space is behind its colons and commas and
before its end. -/
theorem scanFields_memberTexts (hspace : ∀ c ∈ space, isJsonSpace c = true)
    (hgap : ∀ c ∈ gap, isJsonSpace c = true) (hlast : ∀ c ∈ last, isJsonSpace c = true)
    {members : List (Str × Str × Json)} {member : Str × Str × Json} {fuel : ℕ}
    (hfuel : members.length < fuel)
    (hread : ∀ m ∈ member :: members, ReadsAs value m.2.1 m.2.2) (rest : Str) :
    scanFields value fuel
        (memberText space member ++ (memberTexts space gap members ++ (last ++ ch '}' :: rest))) =
      .ok ((rejoinStr member.1, member.2.2) :: members.map (fun m => (rejoinStr m.1, m.2.2)),
        rest) := by
  induction members generalizing member fuel with
  | nil =>
    obtain ⟨fuel, rfl⟩ := Nat.exists_eq_succ_of_ne_zero (by omega : fuel ≠ 0)
    have hclose := skipSpace_closing hlast (show isJsonSpace (ch '}') = false by decide) rest
    rw [memberTexts, List.flatMap_nil, List.nil_append, memberText, List.append_assoc,
      List.cons_append, List.append_assoc, scanFields,
      scanKey_dumpsStr hspace member.1 ((hread member (by simp)).starts.append _)]
    simp only [bind, Except.bind]
    rw [(hread member (by simp)).reads _ (stopsNumber_closing hlast (.inr rfl) rest)]
    simp only [hclose, if_true]
    rfl
  | cons next members ih =>
    obtain ⟨fuel, rfl⟩ := Nat.exists_eq_succ_of_ne_zero (by omega : fuel ≠ 0)
    have hstart : StartsValue (memberText space next ++
        (memberTexts space gap members ++ (last ++ ch '}' :: rest))) := ⟨_, _, rfl, by decide⟩
    have hsplit : memberTexts space gap (next :: members) ++ (last ++ ch '}' :: rest) =
        ch ',' :: (gap ++ (memberText space next ++
          (memberTexts space gap members ++ (last ++ ch '}' :: rest)))) := by
      simp [memberTexts]
    have hlen : members.length < fuel := by simpa using hfuel
    have hrec := ih hlen fun m hm => hread m (List.mem_cons_of_mem _ hm)
    rw [hsplit, memberText, List.append_assoc, List.cons_append, List.append_assoc, scanFields,
      scanKey_dumpsStr hspace member.1 ((hread member (by simp)).starts.append _)]
    simp only [bind, Except.bind]
    rw [(hread member (by simp)).reads _ (stopsNumber_cons (by decide))]
    simp only [skipSpace_cons _ (show isJsonSpace (ch ',') = false by decide),
      if_neg (show ch ',' ≠ ch '}' by decide), if_true, skipSpace_gap hgap hstart, hrec]
    rfl

/-- A list that is not empty, its opening bracket read. -/
theorem scanArray_itemTexts {first : Str} (hfirst : ∀ c ∈ first, isJsonSpace c = true)
    (hgap : ∀ c ∈ gap, isJsonSpace c = true) (hlast : ∀ c ∈ last, isJsonSpace c = true)
    {items : List (Str × Json)} {item : Str × Json}
    (hread : ∀ i ∈ item :: items, ReadsAs value i.1 i.2) (rest : Str) :
    scanArray value (first ++ (item.1 ++ (itemTexts gap items ++ (last ++ ch ']' :: rest)))) =
      .ok (.arr (item.2 :: items.map Prod.snd), rest) := by
  have hstart := (hread item (by simp)).starts.append
    (itemTexts gap items ++ (last ++ ch ']' :: rest))
  have hlen : items.length <
      (first ++ (item.1 ++ (itemTexts gap items ++ (last ++ ch ']' :: rest)))).length := by
    have := length_le_itemTexts gap items
    simp only [List.length_append, List.length_cons]
    omega
  have hitems := scanItems_itemTexts hgap hlast hlen hread rest
  rw [scanArray, skipSpace_gap hfirst hstart]
  obtain ⟨c, t, hct, -, hb, -⟩ := hstart
  rw [hct] at hitems ⊢
  simp only [if_neg hb, hitems]
  rfl

/-- A dict that is not empty, its opening brace read. -/
theorem scanObject_memberTexts {first : Str} (hfirst : ∀ c ∈ first, isJsonSpace c = true)
    (hspace : ∀ c ∈ space, isJsonSpace c = true) (hgap : ∀ c ∈ gap, isJsonSpace c = true)
    (hlast : ∀ c ∈ last, isJsonSpace c = true) {members : List (Str × Str × Json)}
    {member : Str × Str × Json} (hread : ∀ m ∈ member :: members, ReadsAs value m.2.1 m.2.2)
    (rest : Str) :
    scanObject value (first ++
        (memberText space member ++ (memberTexts space gap members ++ (last ++ ch '}' :: rest)))) =
      .ok (.obj (dictOf ((rejoinStr member.1, member.2.2) ::
        members.map (fun m => (rejoinStr m.1, m.2.2)))), rest) := by
  have hstart : StartsValue (memberText space member ++
      (memberTexts space gap members ++ (last ++ ch '}' :: rest))) := ⟨_, _, rfl, by decide⟩
  have hlen : members.length < (first ++ (memberText space member ++
      (memberTexts space gap members ++ (last ++ ch '}' :: rest)))).length := by
    have := length_le_memberTexts space gap members
    simp only [List.length_append, List.length_cons]
    omega
  have hfields := scanFields_memberTexts hspace hgap hlast hlen hread rest
  rw [scanObject, skipSpace_gap hfirst hstart]
  obtain ⟨c, t, hct, -, -, ho⟩ := hstart
  rw [hct] at hfields ⊢
  simp only [if_neg ho, hfields]
  rfl

end

/-! ## The two styles -/

/-- The white space behind a comma or a colon. -/
def JsonStyle.gap : JsonStyle → Str
  | compact => []
  | spaced => [ch ' ']

theorem JsonStyle.item_eq (sty : JsonStyle) : sty.item = ch ',' :: sty.gap := by cases sty <;> rfl

theorem JsonStyle.key_eq (sty : JsonStyle) : sty.key = ch ':' :: sty.gap := by cases sty <;> rfl

theorem JsonStyle.isJsonSpace_gap (sty : JsonStyle) : ∀ c ∈ sty.gap, isJsonSpace c = true := by
  cases sty <;> exact List.all_eq_true.mp rfl

theorem dumpsItems_eq (sty : JsonStyle) (js : List Json) :
    dumpsItems sty js =
      itemTexts sty.gap (js.map fun j => (dumpsText sty j, j.rejoin)) ++ [ch ']'] := by
  induction js with
  | nil => rfl
  | cons j js ih =>
    rw [dumpsItems, ih, sty.item_eq]
    simp [itemTexts]

theorem dumpsFields_eq (sty : JsonStyle) (fs : List (Str × Json)) :
    dumpsFields sty fs = memberTexts sty.gap sty.gap
      (fs.map fun f => (f.1, dumpsText sty f.2, f.2.rejoin)) ++ [ch '}'] := by
  induction fs with
  | nil => rfl
  | cons f fs ih =>
    rw [dumpsFields, ih, sty.item_eq, sty.key_eq]
    simp [memberTexts, memberText]

/-! ## Values -/

section

variable [Runtime]

/-- A value whose text is a number is read as that number. -/
theorem scanValue_number {s r rest : Str} {n : Number} (d : ℕ) (hrest : StopsNumber rest)
    (h : scanNumber s = some (n, r)) :
    scanValue false d (s ++ rest) = (numberValue n).map fun j => (j, r ++ rest) := by
  have hs := scanNumber_append hrest h
  have hk := scanKeyword_of_number false hs
  obtain ⟨c, t, he, hc⟩ := scanNumber_start hs
  obtain ⟨hq, hb, ho, -⟩ := isDigit_not_special (hc.imp_right And.left)
  rw [he] at hs hk ⊢
  have hscalar : scanScalar false (c :: t) = (numberValue n).map fun j => (j, r ++ rest) := by
    rw [scanScalar, if_neg hq, hk, hs]
  cases d with
  | zero => rw [scanValue, if_neg (by simp [hb, ho]), hscalar]
  | succ d => rw [scanValue, if_neg hb, if_neg ho, hscalar]

theorem startsValue_dumpsText (sty : JsonStyle) {j : Json} (h : j.WellFormed) :
    StartsValue (dumpsText sty j) := by
  cases h with
  | null => exact ⟨_, _, rfl, by decide⟩
  | bool b => cases b <;> exact ⟨_, _, rfl, by decide⟩
  | int n _ => exact startsValue_number (scanNumber_intRepr n)
  | float t ht =>
    rcases ht with ht | ht
    · simp only [floatConstants, List.mem_cons, List.not_mem_nil, or_false] at ht
      rcases ht with rfl | rfl | rfl <;> exact ⟨_, _, rfl, by decide⟩
    · exact startsValue_number ht.1
  | str s => exact ⟨_, _, rfl, by decide⟩
  | arr items _ => cases items <;> exact ⟨_, _, rfl, by decide⟩
  | obj fields _ _ =>
    cases fields with
    | nil => exact ⟨_, _, rfl, by decide⟩
    | cons f fields => exact ⟨_, _, rfl, by decide⟩

/-- A member other than a list or a dict is read through `scanScalar` at every depth. -/
theorem scanValue_scalar {c : CodePoint} {t : Str} (d : ℕ) (hb : c ≠ ch '[') (ho : c ≠ ch '{') :
    scanValue false d (c :: t) = scanScalar false (c :: t) := by
  cases d with
  | zero => rw [scanValue, if_neg (by simp [hb, ho])]
  | succ d => rw [scanValue, if_neg hb, if_neg ho]

theorem scanValue_dumpsStr (d : ℕ) (s rest : Str) :
    scanValue false d (dumpsStr s ++ rest) = .ok (.str (rejoinStr s), rest) := by
  have hs : dumpsStr s ++ rest = ch '"' :: (s.flatMap escapeChar ++ ch '"' :: rest) := by
    simp [dumpsStr]
  rw [hs, scanValue_scalar d (by decide) (by decide), scanScalar, if_pos rfl,
    scanString_dumpsStr]
  simp only [joinUnits_flatMap_unitsOf]

/-- A named constant is read as itself. -/
theorem scanValue_keyword {k rest : Str} {v : Json} (d : ℕ) (h : (k, v) ∈ keywords false) :
    scanValue false d (k ++ rest) = .ok (v, rest) := by
  simp only [keywords, floatConstants, List.map_cons, List.map_nil, List.cons_append,
    List.nil_append, List.mem_cons, Prod.mk.injEq, List.not_mem_nil, or_false, Bool.false_eq_true,
    if_false] at h
  rcases h with ⟨rfl, rfl⟩ | ⟨rfl, rfl⟩ | ⟨rfl, rfl⟩ | ⟨rfl, rfl⟩ | ⟨rfl, rfl⟩ | ⟨rfl, rfl⟩
  all_goals
    refine (scanValue_scalar d (by decide) (by decide)).trans ?_
    rfl

/-- The text of a value reads back, in front of anything that cannot continue a number. -/
theorem scanValue_dumpsText (sty : JsonStyle) {j : Json} (hwf : j.WellFormed) {d : ℕ}
    (hd : j.depth ≤ d) {rest : Str} (hrest : StopsNumber rest) :
    scanValue false d (dumpsText sty j ++ rest) = .ok (j.rejoin, rest) := by
  induction j using Json.induct generalizing d rest with
  | null => exact scanValue_keyword d (by simp [keywords, dumpsText, Json.rejoin])
  | bool b => cases b <;> exact scanValue_keyword d (by simp [keywords, dumpsText, Json.rejoin])
  | int n =>
    cases hwf with | int _ hlen =>
    rw [dumpsText, scanValue_number d hrest (scanNumber_intRepr n), numberValue,
      filter_isDigit_intRepr, if_pos hlen, intVal_intRepr]
    rfl
  | float t =>
    cases hwf with | float _ ht =>
    rcases ht with ht | ⟨ht, hfix⟩
    · exact scanValue_keyword d (by simp [keywords, dumpsText, Json.rejoin, ht])
    · rw [dumpsText, scanValue_number d hrest ht, numberValue, hfix]
      rfl
  | str s => exact scanValue_dumpsStr d s rest
  | arr items ih =>
    cases hwf with | arr _ hall =>
    rw [Json.depth] at hd
    obtain ⟨d, rfl⟩ := Nat.exists_eq_succ_of_ne_zero (by omega : d ≠ 0)
    cases items with
    | nil => rfl
    | cons k items =>
      have hread : ∀ x ∈ k :: items,
          ReadsAs (scanValue false d) (dumpsText sty x) x.rejoin := fun x hx =>
        ⟨startsValue_dumpsText sty (hall x hx), fun rest hr =>
          ih x hx (hall x hx) ((Json.depth_le_depthItems hx).trans (by omega)) hr⟩
      have htext : dumpsText sty (.arr (k :: items)) ++ rest = ch '[' :: ([] ++ (dumpsText sty k ++
          (itemTexts sty.gap (items.map fun j => (dumpsText sty j, j.rejoin)) ++
            ([] ++ ch ']' :: rest)))) := by
        simp [dumpsText, dumpsItems_eq]
      have hitems : ∀ i ∈ (k :: items).map fun j => (dumpsText sty j, j.rejoin),
          ReadsAs (scanValue false d) i.1 i.2 := List.forall_mem_map.mpr hread
      rw [List.map_cons] at hitems
      have harray := scanArray_itemTexts (List.forall_mem_nil _) sty.isJsonSpace_gap
        (List.forall_mem_nil _) hitems rest
      rw [htext, Nat.succ_eq_add_one, scanValue, if_pos rfl, harray, Json.rejoin,
        Json.rejoinItems_eq_map]
      simp [List.map_map, Function.comp_def]
  | obj fields ih =>
    cases hwf with | obj _ hk hall =>
    rw [Json.depth] at hd
    obtain ⟨d, rfl⟩ := Nat.exists_eq_succ_of_ne_zero (by omega : d ≠ 0)
    cases fields with
    | nil => rfl
    | cons f fields =>
      have hread : ∀ x ∈ f :: fields,
          ReadsAs (scanValue false d) (dumpsText sty x.2) x.2.rejoin := fun x hx =>
        ⟨startsValue_dumpsText sty (hall x hx), fun rest hr =>
          ih x hx (hall x hx) ((Json.depth_le_depthFields hx).trans (by omega)) hr⟩
      have htext : dumpsText sty (.obj (f :: fields)) ++ rest = ch '{' :: ([] ++
          (memberText sty.gap (f.1, dumpsText sty f.2, f.2.rejoin) ++ (memberTexts sty.gap sty.gap
            (fields.map fun f => (f.1, dumpsText sty f.2, f.2.rejoin)) ++
              ([] ++ ch '}' :: rest)))) := by
        simp [dumpsText, dumpsFields_eq, memberText, sty.key_eq]
      have hmembers : ∀ m ∈ (f :: fields).map fun f => (f.1, dumpsText sty f.2, f.2.rejoin),
          ReadsAs (scanValue false d) m.2.1 m.2.2 := List.forall_mem_map.mpr hread
      rw [List.map_cons] at hmembers
      have hobject := scanObject_memberTexts (List.forall_mem_nil _) sty.isJsonSpace_gap
        sty.isJsonSpace_gap (List.forall_mem_nil _) hmembers rest
      rw [htext, Nat.succ_eq_add_one, scanValue, if_neg (by decide), if_pos rfl, hobject,
        Json.rejoin, Json.rejoinFields_eq_map]
      simp [List.map_map, Function.comp_def]

/-- `json.loads(json.dumps(j))` is `j` with its split surrogate pairs joined. -/
theorem decodeJson_dumpsText (sty : JsonStyle) {j : Json} (hwf : j.WellFormed)
    (hd : j.depth ≤ recursionLimit) : decodeJson false (dumpsText sty j) = .ok j.rejoin := by
  have h := scanValue_dumpsText sty hwf hd stopsNumber_nil
  rw [List.append_nil] at h
  rw [decodeJson, (startsValue_dumpsText sty hwf).skipSpace, h]
  rfl

/-! ## What reading returns -/

theorem scanKeyword_wellFormed {strict : Bool} {s r : Str} {j : Json}
    (h : scanKeyword strict s = some (j, r)) : j.WellFormed ∧ j.depth = 0 := by
  obtain ⟨_, ⟨k, v⟩, _, _, hv, _⟩ := List.findSome?_eq_some_iff.mp h
  have hmem : (k, v) ∈ keywords strict := by simp_all
  obtain rfl : v = j := by
    simp only [Option.ite_none_right_eq_some, Option.some.injEq, Prod.mk.injEq] at hv
    exact hv.2.1
  cases strict <;>
    simp only [keywords, floatConstants, List.mem_append, List.mem_cons, List.mem_map,
      List.not_mem_nil, or_false, Prod.mk.injEq, Bool.false_eq_true, if_false, if_true] at hmem
  · rcases hmem with (⟨-, rfl⟩ | ⟨-, rfl⟩ | ⟨-, rfl⟩) | ⟨t, ht, -, rfl⟩
    · exact ⟨.null, rfl⟩
    · exact ⟨.bool true, rfl⟩
    · exact ⟨.bool false, rfl⟩
    · exact ⟨.float t (.inl (by simpa [floatConstants] using ht)), rfl⟩
  · rcases hmem with ⟨-, rfl⟩ | ⟨-, rfl⟩ | ⟨-, rfl⟩
    · exact ⟨.null, rfl⟩
    · exact ⟨.bool true, rfl⟩
    · exact ⟨.bool false, rfl⟩

/-- A number that converts is a well-formed value. -/
theorem numberValue_wellFormed {s r : Str} {n : Number} {j : Json} (hs : scanNumber s = some (n, r))
    (h : numberValue n = .ok j) : j.WellFormed ∧ j.depth = 0 := by
  cases n with
  | float t =>
    obtain rfl : Json.float (floatText t) = j := by simpa [numberValue] using h
    exact ⟨.float _ (Runtime.floatText_spec t), rfl⟩
  | int t =>
    rw [numberValue] at h
    split_ifs at h with hlen
    obtain rfl : Json.int (intVal t) = j := by simpa using h
    exact ⟨.int _ (length_natRepr_intVal hs hlen), rfl⟩

theorem scanScalar_wellFormed {strict : Bool} {s r : Str} {j : Json}
    (h : scanScalar strict s = .ok (j, r)) : j.WellFormed ∧ j.depth = 0 := by
  cases s with
  | nil => simp [scanScalar] at h
  | cons c t =>
    rw [scanScalar] at h
    split_ifs at h
    · cases hstr : scanString .text t with
      | none => simp [hstr] at h
      | some p =>
        simp only [hstr, Except.ok.injEq, Prod.mk.injEq] at h
        exact h.1 ▸ ⟨.str _, rfl⟩
    · cases hk : scanKeyword strict (c :: t) with
      | some p =>
        obtain rfl : p = (j, r) := by simpa [hk] using h
        exact scanKeyword_wellFormed hk
      | none =>
        cases hn : scanNumber (c :: t) with
        | none => simp [hk, hn] at h
        | some p =>
          simp only [hk, hn] at h
          cases hv : numberValue p.1 with
          | error e => simp [hv, Except.map] at h
          | ok v =>
            obtain ⟨rfl, -⟩ : v = j ∧ p.2 = r := by simpa [hv, Except.map] using h
            exact numberValue_wellFormed hn hv

end

/-- Whatever holds of the values a scanner returns holds of every item. -/
theorem scanItems_forall {P : Json → Prop} {value : Str → Except JsonError (Json × Str)}
    (hval : ∀ s j r, value s = .ok (j, r) → P j) {fuel : ℕ} {s r : Str} {js : List Json}
    (h : scanItems value fuel s = .ok (js, r)) : ∀ j ∈ js, P j := by
  induction fuel generalizing s r js with
  | zero => simp [scanItems] at h
  | succ fuel ih =>
    rw [scanItems] at h
    obtain ⟨⟨v, t⟩, hv, h⟩ := except_bind_eq_ok h
    cases hs : skipSpace t with
    | nil => simp [hs] at h
    | cons c u =>
      simp only [hs] at h
      split_ifs at h
      · obtain ⟨rfl, rfl⟩ : [v] = js ∧ u = r := by simpa using h
        simpa using hval s v t hv
      · obtain ⟨⟨vs, w⟩, hvs, h⟩ := except_bind_eq_ok h
        obtain ⟨rfl, -⟩ : v :: vs = js ∧ w = r := by simpa using h
        exact List.forall_mem_cons.mpr ⟨hval s v t hv, ih hvs⟩

theorem scanFields_forall {P : Json → Prop} {value : Str → Except JsonError (Json × Str)}
    (hval : ∀ s j r, value s = .ok (j, r) → P j) {fuel : ℕ} {s r : Str} {fs : List (Str × Json)}
    (h : scanFields value fuel s = .ok (fs, r)) : ∀ f ∈ fs, P f.2 := by
  induction fuel generalizing s r fs with
  | zero => simp [scanFields] at h
  | succ fuel ih =>
    rw [scanFields] at h
    obtain ⟨k, -, h⟩ := except_bind_eq_ok h
    obtain ⟨⟨v, t⟩, hv, h⟩ := except_bind_eq_ok h
    cases hs : skipSpace t with
    | nil => simp [hs] at h
    | cons c u =>
      simp only [hs] at h
      split_ifs at h
      · obtain ⟨rfl, -⟩ : [(k.1, v)] = fs ∧ u = r := by simpa using h
        simpa using hval k.2 v t hv
      · obtain ⟨⟨vs, w⟩, hvs, h⟩ := except_bind_eq_ok h
        obtain ⟨rfl, -⟩ : (k.1, v) :: vs = fs ∧ w = r := by simpa using h
        exact List.forall_mem_cons.mpr ⟨hval k.2 v t hv, ih hvs⟩

section

variable [Runtime]

/-- Everything the scanner returns is well formed and no deeper than it was allowed. -/
theorem scanValue_wellFormed {strict : Bool} {d : ℕ} {s r : Str} {j : Json}
    (h : scanValue strict d s = .ok (j, r)) : j.WellFormed ∧ j.depth ≤ d := by
  induction d generalizing s r j with
  | zero =>
    cases s with
    | nil => simp [scanValue] at h
    | cons c t =>
      rw [scanValue] at h
      split_ifs at h
      exact (scanScalar_wellFormed h).imp_right fun h0 => h0.le
  | succ d ih =>
    cases s with
    | nil => simp [scanValue] at h
    | cons c t =>
      rw [scanValue] at h
      split_ifs at h
      · rw [scanArray] at h
        cases hs : skipSpace t with
        | nil => simp [hs] at h
        | cons b u =>
          simp only [hs] at h
          split_ifs at h
          · obtain ⟨rfl, -⟩ : Json.arr [] = j ∧ u = r := by simpa using h
            exact ⟨.arr [] (by simp), by simp [Json.depth, Json.depthItems]⟩
          · obtain ⟨⟨js, w⟩, hjs, h⟩ := except_map_eq_ok h
            obtain ⟨rfl, -⟩ : Json.arr js = j ∧ w = r := by simpa using h
            have hall := scanItems_forall (P := fun j => j.WellFormed ∧ j.depth ≤ d)
              (fun _ _ _ hv => ih hv) hjs
            exact ⟨.arr js fun j hj => (hall j hj).1,
              Nat.succ_le_succ (Json.depthItems_le fun j hj => (hall j hj).2)⟩
      · rw [scanObject] at h
        cases hs : skipSpace t with
        | nil => simp [hs] at h
        | cons b u =>
          simp only [hs] at h
          split_ifs at h
          · obtain ⟨rfl, -⟩ : Json.obj [] = j ∧ u = r := by simpa using h
            exact ⟨.obj [] (by simp) (by simp), by simp [Json.depth, Json.depthFields]⟩
          · obtain ⟨⟨fs, w⟩, hfs, h⟩ := except_map_eq_ok h
            obtain ⟨rfl, -⟩ : Json.obj (dictOf fs) = j ∧ w = r := by simpa using h
            have hall := scanFields_forall (P := fun j => j.WellFormed ∧ j.depth ≤ d)
              (fun _ _ _ hv => ih hv) hfs
            exact ⟨.obj _ (nodup_keys_dictOf fs) fun f hf => (hall f (mem_dictOf hf)).1,
              Nat.succ_le_succ (Json.depthFields_le fun f hf => (hall f (mem_dictOf hf)).2)⟩
      · exact (scanScalar_wellFormed h).imp_right fun h0 => h0.le.trans (Nat.zero_le _)

theorem decodeJson_wellFormed {strict : Bool} {s : Str} {j : Json}
    (h : decodeJson strict s = .ok j) : j.WellFormed ∧ j.depth ≤ recursionLimit := by
  obtain ⟨⟨v, r⟩, hv, h⟩ := except_bind_eq_ok h
  simp only at h
  split_ifs at h
  obtain rfl : v = j := by simpa using h
  exact scanValue_wellFormed hv

theorem loadsBytes_wellFormed {b : Bytes} {j : Json} (h : loadsBytes b = .ok j) :
    j.WellFormed ∧ j.depth ≤ recursionLimit := by
  rw [loadsBytes] at h
  cases hd : decodeDetected b with
  | none => simp [hd] at h
  | some s => exact decodeJson_wellFormed (by simpa [hd] using h)

end

end Py
