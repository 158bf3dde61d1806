import EsphomeMcp.Python.JsonBytes

/-!
# Looking a text up in a JSON text

A search that writes a value as JSON and looks for a text in what was written finds a string of
the value in its JSON spelling: with quotes around it, and with every character escaped that is
no printable ASCII character, a quote or a backslash.
-/

namespace Py

theorem contains_iff {sub s : Str} : contains sub s = true ↔ sub <:+: s := by
  induction s with
  | nil => rw [contains, List.isPrefixOf_iff_prefix, List.prefix_nil, List.infix_nil]
  | cons c s ih =>
    rw [contains, Bool.or_eq_true, List.isPrefixOf_iff_prefix, ih, List.infix_cons_iff]

/-- A string that stands as a value in a payload, at any depth. -/
inductive Json.HasString (s : Str) : Json → Prop
  | here : HasString s (.str s)
  | item {items : List Json} {j : Json} (hmem : j ∈ items) (h : HasString s j) :
      HasString s (.arr items)
  | member {fields : Dict} {key : Str} {j : Json} (hmem : (key, j) ∈ fields)
      (h : HasString s j) : HasString s (.obj fields)

/-! ## Where a value is written -/

section

variable {sty : JsonStyle}

theorem infix_dumpsItems {items : List Json} {j : Json} (h : j ∈ items) :
    dumpsText sty j <:+: dumpsItems sty items := by
  induction items with
  | nil => cases h
  | cons k items ih =>
    rw [dumpsItems]
    rcases List.mem_cons.mp h with rfl | h
    · exact ⟨sty.item, dumpsItems sty items, rfl⟩
    · exact (ih h).trans (List.suffix_append _ _).isInfix

theorem infix_dumpsFields {fields : Dict} {key : Str} {j : Json} (h : (key, j) ∈ fields) :
    dumpsText sty j <:+: dumpsFields sty fields := by
  induction fields with
  | nil => cases h
  | cons f fields ih =>
    rw [dumpsFields]
    rcases List.mem_cons.mp h with rfl | h
    · exact ⟨sty.item ++ dumpsStr key ++ sty.key, dumpsFields sty fields, rfl⟩
    · exact (ih h).trans (List.suffix_append _ _).isInfix

/-- The text of a list has the text of each of its items in it. -/
theorem infix_dumpsText_item {items : List Json} {j : Json} (h : j ∈ items) :
    dumpsText sty j <:+: dumpsText sty (.arr items) := by
  cases items with
  | nil => cases h
  | cons k items =>
    rw [dumpsText]
    rcases List.mem_cons.mp h with rfl | h
    · exact ⟨[ch '['], dumpsItems sty items, rfl⟩
    · exact (infix_dumpsItems h).trans (List.suffix_append _ _).isInfix

/-- The text of a dict has the text of each of its values in it. -/
theorem infix_dumpsText_member {fields : Dict} {key : Str} {j : Json} (h : (key, j) ∈ fields) :
    dumpsText sty j <:+: dumpsText sty (.obj fields) := by
  cases fields with
  | nil => cases h
  | cons f fields =>
    rw [dumpsText]
    rcases List.mem_cons.mp h with rfl | h
    · exact ⟨ch '{' :: dumpsStr key ++ sty.key, dumpsFields sty fields, rfl⟩
    · exact (infix_dumpsFields h).trans (List.suffix_append _ _).isInfix

/-- The text of a payload has the spelling of each of its strings in it. -/
theorem infix_dumpsText {s : Str} {j : Json} (h : j.HasString s) :
    dumpsStr s <:+: dumpsText sty j := by
  induction h with
  | here => exact List.infix_rfl
  | item hmem _ ih => exact ih.trans (infix_dumpsText_item hmem)
  | member hmem _ ih => exact ih.trans (infix_dumpsText_member hmem)

end

/-! ## Stretches of a spelling -/

section

variable {α β : Type} {f : α → List β}

/-- A beginning of the spellings is some of them, and a beginning of the next. -/
theorem exists_of_prefix_flatMap {l : List α} {head : List β} (hne : head ≠ [])
    (h : head <+: l.flatMap f) : ∃ mid y rest head', l = mid ++ y :: rest ∧ head' <+: f y ∧
      head' ≠ [] ∧ head = mid.flatMap f ++ head' := by
  induction l generalizing head with
  | nil => exact absurd (List.prefix_nil.mp h) hne
  | cons x l ih =>
    obtain ⟨behind, hbehind⟩ := h
    rw [List.flatMap_cons] at hbehind
    rcases List.append_eq_append_iff.mp hbehind with ⟨rest, hx, -⟩ | ⟨head', rfl, hl⟩
    · exact ⟨[], x, l, head, rfl, ⟨rest, hx.symm⟩, hne, rfl⟩
    have h : head' <+: l.flatMap f := ⟨behind, hl.symm⟩
    by_cases hnil : head' = []
    · subst hnil
      rw [List.append_nil] at hne ⊢
      exact ⟨[], x, l, f x, rfl, List.prefix_refl _, hne, rfl⟩
    · obtain ⟨mid, y, rest, head'', rfl, hy, hne', rfl⟩ := ih hnil h
      refine ⟨x :: mid, y, rest, head'', rfl, hy, hne', ?_⟩
      rw [List.flatMap_cons, List.append_assoc]

/-- A stretch of the spellings is in one of them, or it is the end of one, some whole ones and the
beginning of one. -/
theorem infix_flatMap_iff {l : List α} {n : List β} (hn : n ≠ []) :
    n <:+: l.flatMap f ↔ (∃ x ∈ l, n <:+: f x) ∨ ∃ x mid y tail head, x :: (mid ++ [y]) <:+: l ∧
      tail <:+ f x ∧ tail ≠ [] ∧ head <+: f y ∧ head ≠ [] ∧ n = tail ++ mid.flatMap f ++ head := by
  constructor
  · intro h
    induction l with
    | nil => exact absurd (List.infix_nil.mp h) hn
    | cons x l ih =>
      rw [List.flatMap_cons, List.infix_append_iff_ne_nil] at h
      rcases h with h | h | ⟨tail, head, htail, hhead, rfl, hx, hl⟩
      · exact .inl ⟨x, List.mem_cons_self, h⟩
      · rcases ih h with ⟨y, hy, hstands⟩ | ⟨y, mid, z, tail, head, hl, hrest⟩
        · exact .inl ⟨y, List.mem_cons_of_mem _ hy, hstands⟩
        · exact .inr ⟨y, mid, z, tail, head, hl.trans (List.suffix_cons x l).isInfix, hrest⟩
      · obtain ⟨mid, y, rest, head', rfl, hy, hne, rfl⟩ := exists_of_prefix_flatMap hhead hl
        refine .inr ⟨x, mid, y, tail, head', ⟨[], rest, by simp⟩, hx, htail, hy, hne, ?_⟩
        rw [List.append_assoc]
  · rintro (⟨x, hx, h⟩ | ⟨x, mid, y, tail, head, ⟨before, behind, rfl⟩, ⟨left, hx⟩, -, ⟨right, hy⟩, -, rfl⟩)
    · obtain ⟨before, behind, rfl⟩ := List.append_of_mem hx
      rw [List.flatMap_append, List.flatMap_cons]
      exact h.trans ⟨before.flatMap f, behind.flatMap f, by rw [List.append_assoc]⟩
    · refine ⟨before.flatMap f ++ left, right ++ behind.flatMap f, ?_⟩
      simp [← hx, ← hy]

end

/-! ## What stands in the spelling of a string -/

/-- The characters of a string between its quotes; `none` is a quote. -/
def quoted (s : Str) : List (Option CodePoint) := none :: (s.map some ++ [none])

/-- What a character is spelled as, in lower case. -/
def spelled : Option CodePoint → Str
  | none => [ch '"']
  | some c => (escapeChar c).map asciiLower

/-- A character that is spelled as itself. -/
def isBare (x : Option CodePoint) : Bool := x.any isPlain

/-- A stretch of plain characters of the string is the text, up to the case of its letters. -/
def StandsPlain (n s : Str) : Prop :=
  ∃ m, m <:+: s ∧ (∀ c ∈ m, isPlain c = true) ∧ n = m.map asciiLower

/-- The text can be read off the escape sequences or the quotes of the string. -/
inductive ReadsSpelled (n s : Str) : Prop
  /-- It is a part of one of them. -/
  | inside {x : Option CodePoint} (hmem : x ∈ quoted s) (hbare : isBare x = false)
      (h : n <:+: spelled x)
  /-- It goes over several characters of the string: it begins with an end of what the first is
  spelled as, and it ends with a beginning of what the last is spelled as. -/
  | across {x y : Option CodePoint} {mid : List (Option CodePoint)} {tail head : Str}
      (hmem : x :: (mid ++ [y]) <:+: quoted s) (hbare : ∃ z ∈ x :: (mid ++ [y]), isBare z = false)
      (htail : tail <:+ spelled x ∧ tail ≠ []) (hhead : head <+: spelled y ∧ head ≠ [])
      (h : n = tail ++ mid.flatMap spelled ++ head)

/-- Lower-casing makes no character plain. -/
theorem isPlain_of_asciiLower {c : CodePoint} (h : isPlain (asciiLower c) = true) :
    isPlain c = true := by
  have hval : ∀ d : CodePoint, isPlain d = true ↔
      0x20 ≤ d.val ∧ d.val ≤ 0x7E ∧ d.val ≠ 0x22 ∧ d.val ≠ 0x5C := by
    intro d
    have hchar : ∀ k : CodePoint, d ≠ k ↔ d.val ≠ k.val := fun k => not_congr Fin.ext_iff
    rw [isPlain, decide_eq_true_eq, hchar, hchar]
    rfl
  rw [hval, asciiLower_val] at h
  rw [hval]
  split_ifs at h <;> omega

theorem spelled_of_isPlain {c : CodePoint} (h : isPlain c = true) :
    spelled (some c) = [asciiLower c] := by
  rw [spelled, escapeChar, if_pos h]
  rfl

theorem flatMap_spelled {m : Str} (h : ∀ c ∈ m, isPlain c = true) :
    (m.map some).flatMap spelled = m.map asciiLower := by
  induction m with
  | nil => rfl
  | cons c m ih =>
    rw [List.forall_mem_cons] at h
    rw [List.map_cons, List.flatMap_cons, spelled_of_isPlain h.1, ih h.2]
    rfl

/-- A stretch of a quoted string without its quotes is a stretch of the string. -/
theorem exists_map_some_of_infix {s : Str} {l : List (Option CodePoint)} (hne : l ≠ [])
    (h : l <:+: quoted s) (hbare : ∀ x ∈ l, isBare x = true) :
    ∃ m, l = m.map some ∧ m <:+: s ∧ ∀ c ∈ m, isPlain c = true := by
  obtain ⟨before, behind, hsplit⟩ := h
  have hquote : none ∉ l := fun hmem => by cases hbare none hmem
  -- the quotes are outside
  obtain ⟨before, rfl⟩ : ∃ before', before = none :: before' := by
    cases before with
    | nil =>
      cases l with
      | nil => exact absurd rfl hne
      | cons x l =>
        obtain ⟨rfl, -⟩ := List.cons.inj hsplit
        exact absurd List.mem_cons_self hquote
    | cons x before =>
      obtain ⟨rfl, -⟩ := List.cons.inj hsplit
      exact ⟨before, rfl⟩
  have hinner : before ++ l ++ behind = s.map some ++ [none] := (List.cons.inj hsplit).2
  rcases List.eq_nil_or_concat behind with rfl | ⟨behind, y, rfl⟩
  · rcases List.eq_nil_or_concat l with rfl | ⟨l, y, rfl⟩
    · exact absurd rfl hne
    · rw [List.append_nil, List.concat_eq_append, ← List.append_assoc] at hinner
      obtain ⟨-, hy⟩ := List.append_inj' hinner rfl
      rw [List.cons.inj hy |>.1, List.concat_eq_append] at hquote
      exact absurd (List.mem_append_right _ List.mem_cons_self) hquote
  · rw [List.concat_eq_append, ← List.append_assoc] at hinner
    obtain ⟨hmap, -⟩ := List.append_inj' hinner rfl
    obtain ⟨s₁, s₂, rfl, h₁, -⟩ := List.map_eq_append_iff.mp hmap.symm
    obtain ⟨s₃, m, rfl, -, rfl⟩ := List.map_eq_append_iff.mp h₁
    refine ⟨m, rfl, ⟨s₃, s₂, rfl⟩, fun c hc => ?_⟩
    exact hbare (some c) (List.mem_map_of_mem hc)

section

variable [Runtime]

/-- Lower-casing two ASCII texts keeps one inside the other. -/
theorem lower_isInfix {s t : Str} (ht : ∀ c ∈ t, isAscii c = true) (h : s <:+: t) :
    lower s <:+: lower t := by
  have hs : ∀ c ∈ s, isAscii c = true := fun c hc => ht c (h.subset hc)
  rw [Runtime.lower_of_ascii s hs, Runtime.lower_of_ascii t ht]
  exact h.map asciiLower

omit [Runtime] in
theorem isAscii_dumpsStr (s : Str) : ∀ c ∈ dumpsStr s, isAscii c = true :=
  fun c hc => isAscii_of_isPrintable (isPrintable_dumpsStr s c hc)

theorem isAscii_dumpsText (sty : JsonStyle) {j : Json} (h : j.WellFormed) :
    ∀ c ∈ dumpsText sty j, isAscii c = true :=
  fun c hc => isAscii_of_isPrintable (isPrintable_dumpsText sty h c hc)

theorem lower_dumpsStr (s : Str) : lower (dumpsStr s) = (quoted s).flatMap spelled := by
  rw [Runtime.lower_of_ascii _ (isAscii_dumpsStr s), dumpsStr, quoted, List.flatMap_cons,
    List.flatMap_append, List.flatMap_map, List.map_append, List.map_cons, List.map_flatMap]
  rfl

theorem isPrintable_lower_dumpsStr (s : Str) : ∀ c ∈ lower (dumpsStr s), isPrintable c = true := by
  rw [Runtime.lower_of_ascii _ (isAscii_dumpsStr s)]
  intro c hc
  obtain ⟨d, hd, rfl⟩ := List.mem_map.mp hc
  have hprint := isPrintable_dumpsStr s d hd
  simp only [isPrintable, asciiLower_val, decide_eq_true_eq] at *
  split_ifs <;> omega

/-- What stands in the spelling of a string, character by character. -/
theorem infix_lower_dumpsStr_iff {n s : Str} :
    n <:+: lower (dumpsStr s) ↔ StandsPlain n s ∨ ReadsSpelled n s := by
  by_cases hn : n = []
  · subst hn
    exact iff_of_true List.nil_infix (.inl ⟨[], List.nil_infix, by simp, rfl⟩)
  rw [lower_dumpsStr, infix_flatMap_iff hn]
  constructor
  · rintro (⟨x, hx, h⟩ | ⟨x, mid, y, tail, head, hmem, htail, hne, hhead, hne', rfl⟩)
    · cases hbare : isBare x with
      | false => exact .inr (.inside hx hbare h)
      | true =>
        obtain ⟨c, rfl, hc⟩ := (Option.any_eq_true _ _).mp hbare
        rw [spelled_of_isPlain hc, List.infix_singleton_iff] at h
        have hmem : c ∈ s := by simpa [quoted] using hx
        obtain ⟨before, behind, rfl⟩ := List.append_of_mem hmem
        refine .inl ⟨[c], ⟨before, behind, by simp⟩, by simpa using hc, ?_⟩
        exact h.resolve_left hn
    · by_cases hbare : ∀ z ∈ x :: (mid ++ [y]), isBare z = true
      · obtain ⟨m, hm, hinfix, hplain⟩ := exists_map_some_of_infix (by simp) hmem hbare
        refine .inl ⟨m, hinfix, hplain, ?_⟩
        -- of one character there is no proper part
        have hone : ∀ z ∈ x :: (mid ++ [y]), (spelled z).length = 1 := by
          intro z hz
          obtain ⟨c, rfl, hc⟩ := (Option.any_eq_true _ _).mp (hbare z hz)
          rw [spelled_of_isPlain hc, List.length_singleton]
        have hx : tail = spelled x := by
          refine htail.eq_of_length_le ?_
          rw [hone x List.mem_cons_self]
          exact List.length_pos_iff.mpr hne
        have hy : head = spelled y := by
          refine hhead.eq_of_length_le ?_
          rw [hone y (by simp)]
          exact List.length_pos_iff.mpr hne'
        rw [← flatMap_spelled hplain, ← hm, hx, hy]
        simp
      · push Not at hbare
        exact .inr (.across hmem (by simpa using hbare) ⟨htail, hne⟩ ⟨hhead, hne'⟩ rfl)
  · rintro (⟨m, ⟨before, behind, rfl⟩, hplain, rfl⟩ | ⟨hmem, -, h⟩ | ⟨hmem, -, htail, hhead, rfl⟩)
    · refine (infix_flatMap_iff hn).mp ?_
      rw [← flatMap_spelled hplain]
      refine ⟨(none :: before.map some).flatMap spelled, (behind.map some ++ [none]).flatMap spelled, ?_⟩
      rw [← List.flatMap_append, ← List.flatMap_append, quoted]
      simp
    · exact .inl ⟨_, hmem, h⟩
    · exact .inr ⟨_, _, _, _, _, hmem, htail.1, htail.2, hhead.1, hhead.2, rfl⟩

/-- A text of plain characters that stands in an ASCII string in lower case stands there among its
plain characters. -/
theorem standsPlain_of_ascii {n s : Str} (hs : ∀ c ∈ s, isAscii c = true)
    (hn : ∀ c ∈ n, isPlain c = true) (h : n <:+: lower s) : StandsPlain n s := by
  rw [Runtime.lower_of_ascii s hs] at h
  obtain ⟨before, behind, hsplit⟩ := h
  obtain ⟨s₁, s₂, rfl, h₁, -⟩ := List.map_eq_append_iff.mp hsplit.symm
  obtain ⟨s₃, m, rfl, -, rfl⟩ := List.map_eq_append_iff.mp h₁
  refine ⟨m, ⟨s₃, s₂, rfl⟩, fun c hc => ?_, rfl⟩
  exact isPlain_of_asciiLower (hn _ (List.mem_map_of_mem hc))

end

end Py
