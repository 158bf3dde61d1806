import EsphomeMcp.Python.Url

/-!
# Putting a URL together again

`urlunparse` of what `urlparse` returned, the authority replaced, parses to the same parts. What
makes this go through is that the parts are free of the separators they were cut at.
-/

namespace Py

/-! ## Parameters -/

/-- A path whose last segment has no parameters of its own. -/
def HasNoParams (path : Str) : Prop :=
  splitParams path = (path, []) ∧
    ∀ params, ch '/' ∉ params → splitParams (path ++ ch ';' :: params) = (path, params)

theorem hasNoParams_segment {dir segment : Str} (hslash : ch '/' ∉ segment)
    (hsemi : ch ';' ∉ segment) : HasNoParams (dir ++ ch '/' :: segment) := by
  constructor
  · rw [splitParams, rpartition_append_cons hslash]
    simp only [partition_eq_none_iff.mpr hsemi]
  · intro params hparams
    have hnot : ch '/' ∉ segment ++ ch ';' :: params := by
      simp only [List.mem_append, List.mem_cons, not_or]
      exact ⟨hslash, by decide, hparams⟩
    rw [List.append_assoc, List.cons_append, splitParams, rpartition_append_cons hnot]
    simp only [partition_append_cons hsemi]

theorem hasNoParams_plain {path : Str} (hslash : ch '/' ∉ path) (hsemi : ch ';' ∉ path) :
    HasNoParams path := by
  constructor
  · rw [splitParams, rpartition_eq_none_iff.mpr hslash]
    exact partitionEnds_of_not_mem hsemi
  · intro params hparams
    have hnot : ch '/' ∉ path ++ ch ';' :: params := by
      simp only [List.mem_append, List.mem_cons, not_or]
      exact ⟨hslash, by decide, hparams⟩
    rw [splitParams, rpartition_eq_none_iff.mpr hnot]
    exact partitionEnds_append_cons hsemi

/-- `_splitparams` cuts at the semicolon of the last segment, if there is one. -/
theorem splitParams_cases (path : Str) :
    (path = (splitParams path).1 ∧ (splitParams path).2 = [] ∨
        path = (splitParams path).1 ++ ch ';' :: (splitParams path).2) ∧
      ch '/' ∉ (splitParams path).2 ∧ HasNoParams (splitParams path).1 := by
  cases hr : rpartition (ch '/') path with
  | none =>
    have hslash := rpartition_eq_none_iff.mp hr
    have hsplit : splitParams path = partitionEnds (ch ';') path := by rw [splitParams, hr]
    obtain ⟨hsemi, hcut⟩ := partitionEnds_cases (ch ';') path
    rw [hsplit]
    refine ⟨hcut, ?_, hasNoParams_plain ?_ hsemi⟩
    · exact fun h => hslash (mem_of_mem_partitionEnds (.inr h))
    · exact fun h => hslash (mem_of_mem_partitionEnds (.inl h))
  | some q =>
    obtain ⟨dir, last⟩ := q
    obtain ⟨rfl, hslash⟩ := rpartition_eq_some_iff.mp hr
    cases hp : partition (ch ';') last with
    | none =>
      have hsplit : splitParams (dir ++ ch '/' :: last) = (dir ++ ch '/' :: last, []) := by
        rw [splitParams, hr]
        simp only [hp]
      rw [hsplit]
      exact ⟨.inl ⟨rfl, rfl⟩, by simp, hasNoParams_segment hslash (partition_eq_none_iff.mp hp)⟩
    | some q =>
      obtain ⟨segment, params⟩ := q
      obtain ⟨rfl, hsemi⟩ := partition_eq_some_iff.mp hp
      have hsplit : splitParams (dir ++ ch '/' :: (segment ++ ch ';' :: params)) =
          (dir ++ ch '/' :: segment, params) := by
        rw [splitParams, hr]
        simp only [hp]
      simp only [List.mem_append, List.mem_cons, not_or] at hslash
      rw [hsplit]
      exact ⟨.inr (by simp), hslash.2.2, hasNoParams_segment hslash.1 hsemi⟩

/-! ## The parts of a parsed URL -/

/-- What `urlparse` has made sure of a path that is not empty and what comes behind it. -/
structure IsCut (p : ParseResult) : Prop where
  slash : p.path.head? = some (ch '/')
  chars : ∀ c ∈ p.path ++ p.params ++ p.query, isUnsafeUrlChar c = false
  path : ∀ c ∈ p.path ++ p.params, c ≠ ch '?' ∧ c ≠ ch '#'
  query : ch '#' ∉ p.query
  params : ch '/' ∉ p.params
  noParams : HasNoParams p.path

theorem mem_of_mem_splitNetloc {c : CodePoint} {url : Str} (h : c ∈ (splitNetloc url).2) :
    c ∈ url := by
  rw [splitNetloc] at h
  split_ifs at h
  · exact List.mem_of_mem_drop ((List.dropWhile_sublist _).subset h)
  · exact h

theorem mem_of_mem_splitScheme {c : CodePoint} {url : Str} (h : c ∈ (splitScheme url).2) :
    c ∈ url := by
  rw [splitScheme] at h
  split at h
  · next hp =>
    split_ifs at h
    · rw [(partition_eq_some_iff.mp hp).1]
      exact List.mem_append_right _ (List.mem_cons_of_mem _ h)
    · exact h
  · exact h

/-- What follows an authority is nothing or starts with the character that ended it. -/
theorem head_splitNetloc {url : Str} (h : (splitNetloc url).1 ≠ []) {c : CodePoint}
    (hc : (splitNetloc url).2.head? = some c) : isNetlocEnd c = true := by
  rw [splitNetloc] at h hc
  split_ifs at h hc
  · have hnot := List.head?_dropWhile_not (!isNetlocEnd ·) (url.drop 2)
    rw [hc] at hnot
    simpa using hnot
  · exact absurd rfl h

theorem head_of_partitionEnds {c d : CodePoint} {s : Str}
    (h : (partitionEnds c s).1.head? = some d) : s.head? = some d := by
  obtain ⟨-, ⟨hs, -⟩ | hs⟩ := partitionEnds_cases c s
  · rwa [hs]
  · rw [hs, List.head?_append, h]
    rfl

theorem head_of_splitParams {d : CodePoint} {path : Str}
    (h : (splitParams path).1.head? = some d) : path.head? = some d := by
  obtain ⟨⟨hs, -⟩ | hs, -⟩ := splitParams_cases path
  · rwa [hs]
  · rw [hs, List.head?_append, h]
    rfl

theorem mem_of_mem_splitParams {c : CodePoint} {path : Str}
    (h : c ∈ (splitParams path).1 ++ (splitParams path).2) : c ∈ path := by
  obtain ⟨⟨hs, hnil⟩ | hs, -⟩ := splitParams_cases path
  · rw [hnil, List.append_nil] at h
    rwa [hs]
  · rw [hs]
    rcases List.mem_append.mp h with h | h <;> simp [h]

section

variable [Runtime]

/-- The parts of a URL with an authority and a path are free of the separators they end at. -/
theorem isCut_of_urlparse {url : Str} {p : ParseResult} (h : urlparse url = some p)
    (hscheme : p.scheme ∈ usesParams) (hnetloc : p.netloc ≠ []) (hpath : p.path ≠ []) : IsCut p := by
  simp only [urlparse] at h
  generalize hclean : (lstrip isC0OrSpace url).filter (!isUnsafeUrlChar ·) = clean at h
  have hsafe : ∀ c ∈ clean, isUnsafeUrlChar c = false := by
    intro c hc
    rw [← hclean] at hc
    simpa using (List.mem_filter.mp hc).2
  have hrest {c : CodePoint} (hc : c ∈ (splitNetloc (splitScheme clean).2).2) :
      isUnsafeUrlChar c = false := hsafe c (mem_of_mem_splitScheme (mem_of_mem_splitNetloc hc))
  have hhead (hn : (splitNetloc (splitScheme clean).2).1 ≠ []) {c : CodePoint}
      (hc : (splitNetloc (splitScheme clean).2).2.head? = some c) := head_splitNetloc hn hc
  generalize (splitNetloc (splitScheme clean).2).2 = rest at h hrest hhead
  -- the text before the fragment, the path with its parameters
  have hfragment := (partitionEnds_cases (ch '#') rest).1
  have hfront {c : CodePoint} (hc : c ∈ (partitionEnds (ch '#') rest).1) : c ∈ rest :=
    mem_of_mem_partitionEnds (.inl hc)
  have hfrontHead {c : CodePoint} (hc : (partitionEnds (ch '#') rest).1.head? = some c) :=
    head_of_partitionEnds hc
  generalize (partitionEnds (ch '#') rest).1 = front at h hfragment hfront hfrontHead
  have hquestion := (partitionEnds_cases (ch '?') front).1
  have hwhole {c : CodePoint} (hc : c ∈ (partitionEnds (ch '?') front).1) : c ∈ front :=
    mem_of_mem_partitionEnds (.inl hc)
  have hquery {c : CodePoint} (hc : c ∈ (partitionEnds (ch '?') front).2) : c ∈ front :=
    mem_of_mem_partitionEnds (.inr hc)
  have hwholeHead {c : CodePoint} (hc : (partitionEnds (ch '?') front).1.head? = some c) :=
    head_of_partitionEnds hc
  generalize (partitionEnds (ch '?') front).1 = whole at h hquestion hwhole hwholeHead
  generalize (partitionEnds (ch '?') front).2 = query at h hquery
  obtain ⟨-, hslash, hnoParams⟩ := splitParams_cases whole
  split_ifs at h with hcheck hmem
  · obtain rfl := Option.some.inj h
    have hsub {c : CodePoint} (hc : c ∈ (splitParams whole).1 ++ (splitParams whole).2) :
        c ∈ whole := mem_of_mem_splitParams hc
    refine ⟨?_, ?_, ?_, fun hc => hfragment (hquery hc), hslash, hnoParams⟩
    · obtain ⟨d, t, hd⟩ := List.exists_cons_of_ne_nil hpath
      have hd' : (splitParams whole).1.head? = some d := congrArg List.head? hd
      have hend := hhead hnetloc (hfrontHead (hwholeHead (head_of_splitParams hd')))
      have hmemd : d ∈ whole := List.mem_of_head? (head_of_splitParams hd')
      have hne : d ≠ ch '?' ∧ d ≠ ch '#' :=
        ⟨fun he => hquestion (he ▸ hmemd), fun he => hfragment (he ▸ hwhole hmemd)⟩
      simp only [isNetlocEnd, Bool.or_eq_true, decide_eq_true_eq, hne.1, hne.2, or_false] at hend
      exact hd'.trans (congrArg some hend)
    · intro c hc
      apply hrest ∘ hfront
      rcases List.mem_append.mp hc with hc | hc
      · exact hwhole (hsub hc)
      · exact hquery hc
    · intro c hc
      exact ⟨fun he => hquestion (he ▸ hsub hc), fun he => hfragment (he ▸ hwhole (hsub hc))⟩
  · obtain rfl := Option.some.inj h
    exact absurd hscheme hmem

/-- A URL with another authority in place of its own. -/
theorem exists_urlparse_netloc {url : Str} {p : ParseResult} (h : urlparse url = some p)
    (hscheme : p.scheme = str "http" ∨ p.scheme = str "https") (hne : p.netloc ≠ [])
    {netloc : Str} (hn : netloc.all isNetlocChar = true) (hcheck : checkBrackets netloc = true) :
    ∃ url', urlparse url' = some { p with netloc := netloc } := by
  have hparams : p.scheme ∈ usesParams := by
    rcases hscheme with hs | hs <;> rw [hs] <;> decide
  simp only [urlparse] at h
  generalize hclean : (lstrip isC0OrSpace url).filter (!isUnsafeUrlChar ·) = clean at h
  have hsafe : ∀ c ∈ (splitNetloc (splitScheme clean).2).2, isUnsafeUrlChar c = false := by
    intro c hc
    have hmem : c ∈ clean := mem_of_mem_splitScheme (mem_of_mem_splitNetloc hc)
    rw [← hclean] at hmem
    simpa using (List.mem_filter.mp hmem).2
  have hhead (hn : (splitNetloc (splitScheme clean).2).1 ≠ []) {c : CodePoint}
      (hc : (splitNetloc (splitScheme clean).2).2.head? = some c) := head_splitNetloc hn hc
  generalize (splitNetloc (splitScheme clean).2).2 = rest at h hsafe hhead
  split_ifs at h with hok hmem
  · obtain rfl := Option.some.inj h
    refine ⟨(splitScheme clean).1 ++ str "://" ++ (netloc ++ rest), ?_⟩
    have hend : rest = [] ∨ ∃ c t, rest = c :: t ∧ isNetlocEnd c = true := by
      cases rest with
      | nil => exact .inl rfl
      | cons c t => exact .inr ⟨c, t, rfl, hhead hne rfl⟩
    rw [urlparse_web hscheme hn hend hsafe, if_pos hcheck]
    rfl
  · obtain rfl := Option.some.inj h
    exact absurd hparams hmem

/-- A URL without a hash sign has no fragment. -/
theorem fragment_of_urlparse {url : Str} {p : ParseResult} (h : urlparse url = some p)
    (hhash : ch '#' ∉ url) : p.fragment = [] := by
  simp only [urlparse] at h
  generalize hclean : (lstrip isC0OrSpace url).filter (!isUnsafeUrlChar ·) = clean at h
  have hclean' : ch '#' ∉ clean := by
    rw [← hclean]
    exact fun hc => hhash ((List.dropWhile_sublist _).subset (List.mem_filter.mp hc).1)
  have hrest : ch '#' ∉ (splitNetloc (splitScheme clean).2).2 :=
    fun hc => hclean' (mem_of_mem_splitScheme (mem_of_mem_splitNetloc hc))
  rw [partitionEnds_of_not_mem hrest] at h
  split_ifs at h
  all_goals rw [← Option.some.inj h]

/-! ## The round trip -/

omit [Runtime] in
/-- `urlunparse` of parts that were cut from a URL. -/
theorem urlunparse_eq {p : ParseResult} (hscheme : p.scheme ≠ []) (hcut : IsCut p)
    (hfragment : p.fragment = []) :
    urlunparse p = p.scheme ++ str "://" ++ (p.netloc ++
      ((if p.params = [] then p.path else p.path ++ ch ';' :: p.params) ++
        if p.query = [] then [] else ch '?' :: p.query)) := by
  have hhead : (if p.params = [] then p.path else p.path ++ ch ';' :: p.params).head? =
      some (ch '/') := by
    split_ifs
    · exact hcut.slash
    · rw [List.head?_append, hcut.slash]
      rfl
  have hmark : str "://" = ch ':' :: str "//" := rfl
  simp only [urlunparse, hhead, or_true, if_true, if_neg hscheme, hfragment, hmark]
  split_ifs <;> simp

omit [Runtime] in
/-- The parts are cut again where they were put together. -/
theorem splitRest_eq {p : ParseResult} (hcut : IsCut p) :
    splitRest ((if p.params = [] then p.path else p.path ++ ch ';' :: p.params) ++
      if p.query = [] then [] else ch '?' :: p.query) = (p.path, p.params, p.query, []) := by
  have hparams : splitParams (if p.params = [] then p.path else p.path ++ ch ';' :: p.params) =
      (p.path, p.params) := by
    split_ifs with hnil
    · rw [hcut.noParams.1, hnil]
    · exact hcut.noParams.2 p.params hcut.params
  have hchars : ∀ c ∈ if p.params = [] then p.path else p.path ++ ch ';' :: p.params,
      c ≠ ch '?' ∧ c ≠ ch '#' := by
    intro c hc
    by_cases hsemi : c = ch ';'
    · rw [hsemi]
      decide
    · apply hcut.path
      split_ifs at hc
      · exact List.mem_append_left _ hc
      · simpa [hsemi] using hc
  generalize (if p.params = [] then p.path else p.path ++ ch ';' :: p.params) = whole at hparams hchars
  have hquestion : ch '?' ∉ whole := fun h => (hchars _ h).1 rfl
  have hhash : ch '#' ∉ whole ++ if p.query = [] then [] else ch '?' :: p.query := by
    intro h
    rcases List.mem_append.mp h with h | h
    · exact (hchars _ h).2 rfl
    · split_ifs at h
      · cases h
      · exact hcut.query ((List.mem_cons.mp h).resolve_left (by decide))
  have hquery : partitionEnds (ch '?') (whole ++ if p.query = [] then [] else ch '?' :: p.query) =
      (whole, p.query) := by
    split_ifs with hnil
    · rw [List.append_nil, partitionEnds_of_not_mem hquestion, hnil]
    · exact partitionEnds_append_cons hquestion
  simp only [splitRest, partitionEnds_of_not_mem hhash, hquery, hparams]

/-- A URL put together from parts that were cut from one is parsed to the same parts. -/
theorem urlparse_urlunparse {p : ParseResult}
    (hscheme : p.scheme = str "http" ∨ p.scheme = str "https")
    (hn : p.netloc.all isNetlocChar = true) (hbrackets : checkBrackets p.netloc = true)
    (hcut : IsCut p) (hfragment : p.fragment = []) : urlparse (urlunparse p) = some p := by
  have hne : p.scheme ≠ [] := by
    rcases hscheme with hs | hs <;> rw [hs] <;> decide
  have hend : ∃ c t, ((if p.params = [] then p.path else p.path ++ ch ';' :: p.params) ++
      if p.query = [] then [] else ch '?' :: p.query) = c :: t ∧ isNetlocEnd c = true := by
    obtain ⟨t, ht⟩ := List.head?_eq_some_iff.mp hcut.slash
    rw [ht]
    split_ifs <;> exact ⟨ch '/', _, rfl, rfl⟩
  have hsafe : ∀ c ∈ (if p.params = [] then p.path else p.path ++ ch ';' :: p.params) ++
      if p.query = [] then [] else ch '?' :: p.query, isUnsafeUrlChar c = false := by
    intro c hc
    by_cases hmark : c = ch ';' ∨ c = ch '?'
    · rcases hmark with rfl | rfl <;> decide
    · apply hcut.chars
      rw [not_or] at hmark
      simp only [List.mem_append] at hc ⊢
      split_ifs at hc <;> simp [hmark] at hc <;> tauto
  rw [urlunparse_eq hne hcut hfragment, urlparse_web hscheme hn (.inr hend) hsafe,
    if_pos hbrackets, splitRest_eq hcut, ← hfragment]

/-! ## Text without structure -/

/-- A character that is never a separator. -/
def isUnreserved (c : CodePoint) : Bool :=
  isAlpha c || isDigit c || c = ch '-' || c = ch '.' || c = ch '_' || c = ch '~'

/-- A text without separators is parsed as a path. -/
theorem urlparse_unreserved {s : Str} (h : s.all isUnreserved = true) :
    urlparse s = some ⟨[], [], s, [], [], []⟩ := by
  rw [List.all_eq_true] at h
  have hrange {c : CodePoint} (hc : isUnreserved c = true) : 0x20 < c.val := by
    simp only [isUnreserved, isAlpha, isDigit, Bool.or_eq_true, decide_eq_true_eq] at hc
    rcases hc with ((((hc | hc) | rfl) | rfl) | rfl) | rfl
    · omega
    · omega
    all_goals decide
  have hnot {c : CodePoint} (hc : isUnreserved c = false) : c ∉ s := by
    intro hmem
    rw [h c hmem] at hc
    cases hc
  have hstrip : (lstrip isC0OrSpace s).filter (!isUnsafeUrlChar ·) = s := by
    have hhead : lstrip isC0OrSpace s = s := by
      cases s with
      | nil => rfl
      | cons c s =>
        have hc := hrange (h c List.mem_cons_self)
        have hspace : isC0OrSpace c = false := by
          rw [isC0OrSpace, decide_eq_false_iff_not]
          omega
        rw [lstrip, List.dropWhile_cons_of_neg (by simp [hspace])]
    rw [hhead, List.filter_eq_self]
    intro c hc
    have hc' := hrange (h c hc)
    rw [isUnsafeUrlChar, Bool.not_eq_true', decide_eq_false_iff_not]
    omega
  have hscheme : splitScheme s = ([], s) := by
    rw [splitScheme, partition_eq_none_iff.mpr (hnot (by decide))]
  have hnetloc : splitNetloc s = ([], s) := by
    rw [splitNetloc, if_neg]
    rw [startsWith_iff]
    rintro ⟨t, rfl⟩
    exact hnot (c := ch '/') (by decide) (List.mem_append_left _ (by decide))
  have hparams : splitParams s = (s, []) :=
    (hasNoParams_plain (hnot (by decide)) (hnot (by decide))).1
  have hempty : ([] : Str) ∈ usesParams := by decide
  have hcheck : (checkBrackets [] && checkNetloc []) = true := rfl
  simp only [urlparse, hstrip, hscheme, hnetloc,
    partitionEnds_of_not_mem (hnot (c := ch '#') (by decide)),
    partitionEnds_of_not_mem (hnot (c := ch '?') (by decide)), if_pos hempty, hparams,
    if_pos hcheck]

end

end Py
