import EsphomeMcp.Vendor.Extras
import EsphomeMcp.Vendor.Merging

/-!
# Supported markers

`_marker_applies` looks a text up in a table and tries a pattern on it. Of the texts of markers it
evaluates only those of one supported comparison, perhaps in parentheses, and to what this says of
the deployed Home Assistant; at every other marker the merge for the component manifest stops.
-/

namespace EsphomeMcp.Vendor

open Py

/-! ## In single quotes -/

/-- `replace('"', "'")` of one character. -/
def singleQuote (c : CodePoint) : CodePoint := if c = ch '"' then ch '\'' else c

/-- Changing the quotes leaves the white space. -/
theorem isSpace_singleQuote (c : CodePoint) : isSpace (singleQuote c) = isSpace c := by
  rw [singleQuote]
  split_ifs with hc
  · subst hc
    decide
  · rfl

theorem singleQuote_of_isQuote {c : CodePoint} (h : isQuote c = true) :
    singleQuote c = ch '\'' := by
  rcases isQuote_iff.mp h with rfl | rfl <;> decide

/-- A text stays as it is if it has no single quotes afterwards. -/
theorem map_singleQuote {s : Str} (h : ch '\'' ∉ s.map singleQuote) : s.map singleQuote = s := by
  refine (List.map_congr_left fun c hc => ?_).trans (List.map_id s)
  have hne : singleQuote c ≠ ch '\'' := fun he => h (he ▸ List.mem_map_of_mem hc)
  rw [singleQuote] at hne ⊢
  split_ifs at hne ⊢
  · exact absurd rfl hne
  · rfl

/-- There are no quotes in white space. -/
theorem Blank.map_singleQuote (b : Blank) : b.val.map singleQuote = b.val := by
  refine EsphomeMcp.Vendor.map_singleQuote fun hmem => ?_
  obtain ⟨c, hc, hquote⟩ := List.mem_map.mp hmem
  have hspace := b.property c hc
  rw [← isSpace_singleQuote, hquote] at hspace
  revert hspace
  decide

/-- So it makes no difference which is done first. -/
theorem strip_map_singleQuote (s : Str) :
    strip (s.map singleQuote) = (strip s).map singleQuote := by
  have hsame : isSpace ∘ singleQuote = isSpace := funext isSpace_singleQuote
  rw [strip, strip, lstrip, lstrip, rstrip, rstrip, List.dropWhile_map, hsame, ← List.map_reverse,
    List.dropWhile_map, hsame, List.map_reverse]

/-- There are none in the names of the variables, nor in the operators. -/
theorem MarkerVariable.map_singleQuote (v : MarkerVariable) : v.text.map singleQuote = v.text := by
  cases v <;> decide

theorem MarkerOperator.map_singleQuote (o : MarkerOperator) : o.text.map singleQuote = o.text := by
  cases o with
  | notIn gap hgap =>
    rw [MarkerOperator.text, List.map_append, List.map_append, Blank.map_singleQuote gap]
    rfl
  | _ => decide

/-! ## One comparison -/

/-- A character of `<`, `=` and the other operators that are no words. -/
def isSymbol (c : CodePoint) : Bool :=
  c = ch '<' ∨ c = ch '>' ∨ c = ch '=' ∨ c = ch '!' ∨ c = ch '~'

/-- A text that begins with a character of this kind. -/
def StartsWith (p : CodePoint → Bool) (s : Str) : Prop := ∃ c t, s = c :: t ∧ p c = true

/-- What a text begins with does not depend on what follows it. -/
theorem StartsWith.append {p : CodePoint → Bool} {s : Str} (h : StartsWith p s) (t : Str) :
    StartsWith p (s ++ t) := by
  obtain ⟨c, u, rfl, hc⟩ := h
  exact ⟨c, u ++ t, rfl, hc⟩

theorem StartsWith.flush {p : CodePoint → Bool} {s : Str} (h : StartsWith p s)
    (hp : ∀ c, p c = true → isSpace c = false) : Flush s := by
  obtain ⟨c, u, rfl, hc⟩ := h
  exact flush_cons (hp c hc)

/-- Where two texts change to another kind of character, they have the same start. -/
theorem append_inj_of_takeWhile {p : CodePoint → Bool} {s s' t t' : Str}
    (hs : ∀ c ∈ s, p c = true) (hs' : ∀ c ∈ s', p c = true) (ht : StartsWith (!p ·) t)
    (ht' : StartsWith (!p ·) t') (h : s ++ t = s' ++ t') : s = s' ∧ t = t' := by
  have htake {s t : Str} (hs : ∀ c ∈ s, p c = true) (ht : StartsWith (!p ·) t) :
      (s ++ t).takeWhile p = s := by
    obtain ⟨c, u, rfl, hc⟩ := ht
    rw [List.takeWhile_append_of_pos hs, List.takeWhile_cons_of_neg (by simpa using hc),
      List.append_nil]
  have hsame : s = s' := by
    rw [← htake hs ht, h, htake hs' ht']
  subst hsame
  exact ⟨rfl, List.append_cancel_left h⟩

theorem isSpace_of_isSymbol {c : CodePoint} (h : isSymbol c = true) : isSpace c = false := by
  rcases of_decide_eq_true h with rfl | rfl | rfl | rfl | rfl <;> decide

/-- No name of a variable is the beginning of another one. -/
theorem MarkerVariable.eq_of_append {v w : MarkerVariable} {s t : Str}
    (h : v.text ++ s = w.text ++ t) : v = w := by
  have hcomparable : v.text <+: w.text ∨ w.text <+: v.text :=
    List.prefix_or_prefix_of_prefix ⟨s, h⟩ (List.prefix_append _ _)
  revert hcomparable
  cases v <;> cases w <;> decide

/-- The name of a variable begins with a letter. -/
theorem MarkerVariable.startsWith (v : MarkerVariable) : StartsWith isAlpha v.text := by
  cases v <;> exact ⟨_, _, rfl, by decide⟩

/-- An operator is a word or made of symbols. -/
theorem MarkerOperator.word_or_symbols (o : MarkerOperator) :
    StartsWith isAlpha o.text ∨ o.text ≠ [] ∧ ∀ c ∈ o.text, isSymbol c = true := by
  cases o with
  | isIn => exact .inl ⟨_, _, rfl, by decide⟩
  | notIn gap hgap => exact .inl ⟨ch 'n', _, rfl, by decide⟩
  | _ => exact .inr ⟨by decide, List.all_eq_true.mp rfl⟩

theorem isSpace_of_isAlpha {c : CodePoint} (h : isAlpha c = true) : isSpace c = false := by
  rw [isAlpha, decide_eq_true_eq] at h
  rw [isSpace, decide_eq_false_iff_not]
  omega

theorem isSymbol_of_isAlpha {c : CodePoint} (h : isAlpha c = true) : isSymbol c = false := by
  rw [isSymbol, decide_eq_false_iff_not]
  rintro (rfl | rfl | rfl | rfl | rfl) <;> revert h <;> decide

theorem isSymbol_of_isSpace {c : CodePoint} (h : isSpace c = true) : isSymbol c = false := by
  rw [isSymbol, decide_eq_false_iff_not]
  rintro (rfl | rfl | rfl | rfl | rfl) <;> revert h <;> decide

/-- A right side, in single quotes, begins with a letter or a quote. -/
theorem Operand.startsWith (o : Operand) (k : Str) {p : CodePoint → Bool}
    (halpha : ∀ c, isAlpha c = true → p c = true) (hquote : p (ch '\'') = true) :
    StartsWith p ((o.text ++ k).map singleQuote) := by
  rw [List.map_append]
  refine StartsWith.append ?_ _
  cases o with
  | named v =>
    obtain ⟨c, t, ht, hc⟩ := v.startsWith
    rw [Operand.text, v.map_singleQuote]
    exact ⟨c, t, ht, halpha c hc⟩
  | quoted quote body hq => exact ⟨_, _, rfl, by rwa [singleQuote_of_isQuote hq]⟩

/-- What stands behind an operator begins with no symbol. -/
theorem startsWith_blank {b : Blank} {s : Str} (h : StartsWith (!isSymbol ·) s) :
    StartsWith (!isSymbol ·) (b.val ++ s) := by
  cases hb : b.val with
  | nil => exact h
  | cons c t =>
    have hspace := b.property c (hb ▸ List.mem_cons_self)
    exact ⟨c, t ++ s, rfl, by simp [isSymbol_of_isSpace hspace]⟩

/-- A right side and what follows it, in single quotes, is read in one way. -/
theorem Operand.read {operand : Operand} {k body : Str} (hbody : ch '\'' ∉ body)
    (h : (operand.text ++ k).map singleQuote = ch '\'' :: (body ++ [ch '\''])) :
    k = [] ∧ ∃ quote, operand.text = quote :: (body ++ [quote]) := by
  rw [List.map_append] at h
  rcases operand with w | ⟨quote, t, hquote, hmem⟩
  · obtain ⟨c, s, hs, hc⟩ := w.startsWith
    rw [Operand.text, w.map_singleQuote, hs] at h
    rw [(List.cons.inj h).1] at hc
    cases hc
  · have hinner : t.map singleQuote ++ ch '\'' :: k.map singleQuote = body ++ [ch '\''] := by
      have hcons := (List.cons.inj h).2
      simpa [singleQuote_of_isQuote hquote] using hcons
    -- there is one quote on the right, so there is none before it on the left
    have hone := congrArg (List.count (ch '\'')) hinner
    rw [List.count_append, List.count_append, List.count_cons_self,
      List.count_eq_zero_of_not_mem hbody, List.count_singleton_self] at hone
    have ht : ch '\'' ∉ t.map singleQuote := by
      rw [← List.count_eq_zero]
      omega
    have hparts := congrArg (partition (ch '\'')) hinner
    rw [partition_append_cons ht, partition_append_cons hbody] at hparts
    obtain ⟨htext, hk⟩ := Prod.mk.inj (Option.some.inj hparts)
    rw [map_singleQuote ht] at htext
    subst htext
    exact ⟨List.map_eq_nil_iff.mp hk, quote, rfl⟩

/-- A comparison, in single quotes and in front of a text, is read in one way. -/
theorem MarkerComparison.read {c : MarkerComparison} {v : MarkerVariable} {b a : Blank}
    {k o body : Str} (ho : o ≠ []) (hsymbols : ∀ c ∈ o, isSymbol c = true)
    (hbody : ch '\'' ∉ body) (h : (c.text ++ k).map singleQuote =
      v.text ++ (b.val ++ (o ++ (a.val ++ (ch '\'' :: (body ++ [ch '\''])))))) :
    k = [] ∧ c.left = .named v ∧ c.operator.text = o ∧
      ∃ quote, c.right.text = quote :: (body ++ [quote]) := by
  have htext : (c.text ++ k).map singleQuote = c.left.text.map singleQuote ++ (c.before.val ++
      (c.operator.text ++ (c.after.val ++ (c.right.text ++ k).map singleQuote))) := by
    simp only [MarkerComparison.text, List.map_append, Blank.map_singleQuote,
      MarkerOperator.map_singleQuote, List.append_assoc]
  rw [htext] at h
  -- the left side is the variable
  have hleft : c.left = .named v := by
    cases hl : c.left with
    | named w =>
      rw [hl, Operand.text, w.map_singleQuote] at h
      rw [MarkerVariable.eq_of_append h]
    | quoted quote t hquote =>
      rw [hl, Operand.text, List.map_cons, singleQuote_of_isQuote hquote] at h
      cases v <;> cases (List.cons.inj h).1
  rw [hleft, Operand.text, v.map_singleQuote] at h
  have hrest := List.append_cancel_left h
  -- then come the white space, the operator and white space again
  obtain ⟨d, u, rfl, hd⟩ : StartsWith isSymbol o := by
    cases o with
    | nil => exact absurd rfl ho
    | cons d u => exact ⟨d, u, rfl, hsymbols d List.mem_cons_self⟩
  have hspace : StartsWith (!isSpace ·) (c.operator.text ++
      (c.after.val ++ (c.right.text ++ k).map singleQuote)) := by
    refine StartsWith.append ?_ _
    rcases c.operator.word_or_symbols with ⟨e, t, ht, he⟩ | ⟨hne, hall⟩
    · exact ⟨e, t, ht, by simp [isSpace_of_isAlpha he]⟩
    · obtain ⟨e, t, ht⟩ := List.exists_cons_of_ne_nil hne
      exact ⟨e, t, ht, by simp [isSpace_of_isSymbol (hall e (ht ▸ List.mem_cons_self))]⟩
  obtain ⟨-, hoperator⟩ := append_inj_of_takeWhile c.before.property b.property hspace
    ⟨d, _, rfl, by simp [isSpace_of_isSymbol hd]⟩ hrest
  rcases c.operator.word_or_symbols with ⟨e, t, ht, he⟩ | ⟨-, hall⟩
  · rw [ht] at hoperator
    rw [← (List.cons.inj hoperator).1, isSymbol_of_isAlpha he] at hd
    cases hd
  · have hright (p : CodePoint → Bool) (halpha : ∀ c, isAlpha c = true → p c = false)
        (hquote : p (ch '\'') = false) :
        StartsWith (!p ·) ((c.right.text ++ k).map singleQuote) ∧
          StartsWith (!p ·) (ch '\'' :: (body ++ [ch '\''])) :=
      ⟨c.right.startsWith k (fun c hc => by simp [halpha c hc]) (by simp [hquote]),
        _, _, rfl, by simp [hquote]⟩
    obtain ⟨hstart, hstart'⟩ := hright isSymbol (fun _ => isSymbol_of_isAlpha) (by decide)
    obtain ⟨hsame, hafter⟩ := append_inj_of_takeWhile hall hsymbols (startsWith_blank hstart)
      (startsWith_blank hstart') hoperator
    obtain ⟨hstart, hstart'⟩ := hright isSpace (fun _ => isSpace_of_isAlpha) (by decide)
    obtain ⟨-, hquoted⟩ := append_inj_of_takeWhile c.after.property a.property hstart hstart' hafter
    obtain ⟨hk, hquote⟩ := c.right.read hbody hquoted
    exact ⟨hk, hleft, hsame, hquote⟩

/-! ## What is evaluated -/

/-- `_marker_applies` evaluates this text. -/
inductive IsEvaluated (t : Str) : Bool → Prop where
  | table {holds : Bool} (h : (t, holds) ∈ targetMarkers) : IsEvaluated t holds
  | pattern {comparison : Comparison} {major minor : Str}
    (h : matchPythonVersion t = some (comparison, major, minor)) :
    IsEvaluated t (comparison.holds targetPythonVersion [digitsVal major, digitsVal minor])

/-- A marker that is answered is empty or one comparison that is evaluated. -/
theorem isEvaluated_of_markerApplies {marker requirement : Str} {holds : Bool}
    (h : markerApplies marker requirement = .ok holds) : IsEvaluated (bareMarker marker) holds := by
  rw [markerApplies] at h
  cases htable : targetMarkers.lookup (bareMarker marker) with
  | some found =>
    rw [htable] at h
    obtain rfl := Except.ok.inj h
    obtain ⟨front, back, htargets, -⟩ := List.lookup_eq_some_iff.mp htable
    refine .table ?_
    rw [htargets]
    exact List.mem_append_right _ List.mem_cons_self
  | none =>
    rw [htable] at h
    cases hmatch : matchPythonVersion (bareMarker marker) with
    | none =>
      rw [hmatch] at h
      cases h
    | some groups =>
      obtain ⟨comparison, major, minor⟩ := groups
      rw [hmatch] at h
      obtain ⟨a, ha, h⟩ := except_bind_eq_ok h
      obtain ⟨b, hb, h⟩ := except_bind_eq_ok h
      rw [← Except.ok.inj h, (intOfDigits_eq_ok_iff.mp ha).2, (intOfDigits_eq_ok_iff.mp hb).2]
      exact .pattern hmatch

/-- What is read of a comparison is the beginning of the text. -/
theorem eq_of_readComparison {s rest : Str} {comparison : Comparison}
    (h : readComparison s = some (comparison, rest)) : s = comparison.text ++ rest := by
  obtain ⟨⟨text, found⟩, hmem, hfound⟩ := List.exists_of_findSome?_eq_some h
  obtain ⟨rest', hrest, heq⟩ := Option.map_eq_some_iff.mp hfound
  obtain ⟨rfl, rfl⟩ := Prod.mk.inj heq
  have htext : text = found.text := by
    simp only [List.mem_cons, Prod.mk.injEq, List.not_mem_nil, or_false] at hmem
    rcases hmem with ⟨rfl, rfl⟩ | ⟨rfl, rfl⟩ | ⟨rfl, rfl⟩ | ⟨rfl, rfl⟩ | ⟨rfl, rfl⟩ | ⟨rfl, rfl⟩
      <;> rfl
  rw [← htext]
  exact eq_append_of_dropStart hrest

theorem eq_of_readDigits {s digits rest : Str} (h : readDigits s = some (digits, rest)) :
    s = digits ++ rest ∧ digits.all isDigit = true := by
  rw [readDigits] at h
  split_ifs at h
  obtain ⟨rfl, rfl⟩ := Prod.mk.inj (Option.some.inj h)
  refine ⟨List.takeWhile_append_dropWhile.symm, List.all_eq_true.mpr fun c hc => ?_⟩
  exact List.mem_takeWhile_imp hc

/-- A text that the pattern matches. -/
theorem eq_of_matchPythonVersion {t major minor : Str} {comparison : Comparison}
    (h : matchPythonVersion t = some (comparison, major, minor)) :
    (∃ b a : Blank, t = MarkerVariable.pythonVersion.text ++ (b.val ++ (comparison.text ++
      (a.val ++ (ch '\'' :: (major ++ ch '.' :: minor ++ [ch '\'']))))))
    ∧ major.all isDigit = true ∧ minor.all isDigit = true := by
  simp only [matchPythonVersion, Option.bind_eq_bind, Option.bind_eq_some_iff, Prod.exists] at h
  obtain ⟨s₁, h₁, comparison', s₂, h₂, s₃, h₃, major', s₄, h₄, s₅, h₅, minor', s₆, h₆, h⟩ := h
  split_ifs at h with hend
  obtain ⟨rfl, hpair⟩ := Prod.mk.inj (Option.some.inj h)
  obtain ⟨rfl, rfl⟩ := Prod.mk.inj hpair
  obtain ⟨hmajor, hdigits⟩ := eq_of_readDigits h₄
  obtain ⟨hminor, hdigits'⟩ := eq_of_readDigits h₆
  refine ⟨⟨⟨s₁.takeWhile isSpace, fun c hc => List.mem_takeWhile_imp hc⟩,
    ⟨s₂.takeWhile isSpace, fun c hc => List.mem_takeWhile_imp hc⟩, ?_⟩, hdigits, hdigits'⟩
  calc t = str "python_version" ++ (s₁.takeWhile isSpace ++ s₁.dropWhile isSpace) := by
        rw [List.takeWhile_append_dropWhile]
        exact eq_append_of_dropStart h₁
    _ = str "python_version" ++ (s₁.takeWhile isSpace ++ (comparison'.text ++
          (s₂.takeWhile isSpace ++ s₂.dropWhile isSpace))) := by
        rw [List.takeWhile_append_dropWhile (l := s₂), ← eq_of_readComparison h₂]
    _ = _ := by
        rw [eq_append_of_dropStart h₃, hmajor, eq_append_of_dropStart h₅, hminor, hend]
        simp [MarkerVariable.text]
        rfl

/-- What is evaluated has the form of a comparison, and a comparison that is written like this is
supported. -/
theorem IsEvaluated.exists_read {t : Str} {holds : Bool} (h : IsEvaluated t holds) :
    ∃ (v : MarkerVariable) (b a : Blank) (o body : Str), t = v.text ++ (b.val ++ (o ++
      (a.val ++ (ch '\'' :: (body ++ [ch '\'']))))) ∧ o ≠ [] ∧ (∀ c ∈ o, isSymbol c = true) ∧
      ch '\'' ∉ body ∧ ∀ c : MarkerComparison, c.left = .named v → c.operator.text = o →
        (∃ quote, c.right.text = quote :: (body ++ [quote])) → c.OnTarget holds := by
  cases h with
  | table hmem =>
    -- the two texts of the table
    simp only [targetMarkers, List.mem_cons, Prod.mk.injEq, List.not_mem_nil, or_false] at hmem
    rcases hmem with ⟨rfl, rfl⟩ | ⟨rfl, rfl⟩
    · refine ⟨.sysPlatform, oneSpace, oneSpace, str "==", str "win32", by decide,
        by decide, List.all_eq_true.mp rfl, by decide, fun c hleft ho hquoted => ?_⟩
      obtain ⟨quote, hright⟩ := hquoted
      exact .windows hleft ho hright
    · refine ⟨.sysPlatform, oneSpace, oneSpace, str "!=", str "emscripten",
        by decide, by decide, List.all_eq_true.mp rfl, by decide,
        fun c hleft ho hquoted => ?_⟩
      obtain ⟨quote, hright⟩ := hquoted
      exact .noEmscripten hleft ho hright
  | @pattern comparison major minor hmatch =>
    obtain ⟨⟨b, a, htext⟩, hmajor, hminor⟩ := eq_of_matchPythonVersion hmatch
    refine ⟨.pythonVersion, b, a, comparison.text, major ++ ch '.' :: minor, htext, ?_, ?_, ?_,
      fun c hleft ho hquoted => ?_⟩
    · cases comparison <;> decide
    · cases comparison <;> exact List.all_eq_true.mp rfl
    · have hdigits {s : Str} (hs : s.all isDigit = true) : ch '\'' ∉ s := fun hmem => by
        have hdigit := List.all_eq_true.mp hs _ hmem
        revert hdigit
        decide
      simp only [List.mem_append, List.mem_cons, not_or]
      exact ⟨hdigits hmajor, by decide, hdigits hminor⟩
    · obtain ⟨quote, hright⟩ := hquoted
      exact .pythonVersion hleft ho hright hmajor hminor

/-- A marker that is evaluated, in front of a text, is one comparison, and the text is empty. -/
theorem Marker.isOnly_of_isEvaluated {l : MarkerLevel} (m : Marker l) {k : Str} {holds : Bool}
    (h : IsEvaluated ((m.text ++ k).map singleQuote) holds) :
    k = [] ∧ ∃ c, m.IsOnly c ∧ c.OnTarget holds := by
  obtain ⟨v, b, a, o, body, htext, hne, hsymbols, hbody, honTarget⟩ := h.exists_read
  clear h
  induction m generalizing k with
  | comparison c =>
    obtain ⟨hk, hleft, ho, hright⟩ := MarkerComparison.read hne hsymbols hbody htext
    exact ⟨hk, c, .comparison, honTarget c hleft ho hright⟩
  | clause e => cases v <;> cases (List.cons.inj htext).1
  | paren before m after => cases v <;> cases (List.cons.inj htext).1
  | single m ih =>
    obtain ⟨hk, c, honly, hholds⟩ := ih htext
    exact ⟨hk, c, .single honly, hholds⟩
  | whole m ih =>
    obtain ⟨hk, c, honly, hholds⟩ := ih htext
    exact ⟨hk, c, .whole honly, hholds⟩
  | and m before after rest ih ihrest =>
    -- the first operand is followed by something
    have hfirst := (@ih (before.val ++ (str "and" ++ (after.val ++ (rest.text ++ k))))
      (by rw [← htext]; simp [Marker.text])).1
    simp [str] at hfirst
  | or m before after rest ih ihrest =>
    have hfirst := (@ih (before.val ++ (str "or" ++ (after.val ++ (rest.text ++ k))))
      (by rw [← htext]; simp [Marker.text])).1
    simp [str] at hfirst

/-! ## Parentheses -/

/-- A marker that begins with a parenthesis: it is one in parentheses, or goes on behind it. -/
theorem Marker.exists_paren {m : Marker .disjunction} (h : m.text.head? = some (ch '(')) :
    ∃ (b : Blank) (inner : Marker .disjunction) (a : Blank) (rest : Str),
      m.text = ch '(' :: (b.val ++ (inner.text ++ (a.val ++ ch ')' :: rest))) ∧
      (rest = [] → m = .whole (.single (.paren b inner a))) := by
  have hoperand {m : Marker .operand} (hm : m.text.head? = some (ch '(')) :
      ∃ b inner a, m = .paren b inner a := by
    cases m with
    | comparison c =>
      rw [Marker.text, MarkerComparison.text] at hm
      cases hl : c.left with
      | named v =>
        rw [hl] at hm
        cases v <;> cases hm
      | quoted quote body hquote =>
        rw [hl] at hm
        rw [Option.some.inj hm] at hquote
        cases hquote
    | clause e => cases hm
    | paren b inner a => exact ⟨b, inner, a, rfl⟩
  have hconjunction {m : Marker .conjunction} (hm : m.text.head? = some (ch '(')) :
      ∃ b inner a rest, m.text = ch '(' :: (b.val ++ (inner.text ++ (a.val ++ ch ')' :: rest))) ∧
        (rest = [] → m = .single (.paren b inner a)) := by
    cases m with
    | single m =>
      obtain ⟨b, inner, a, rfl⟩ := hoperand hm
      exact ⟨b, inner, a, [], rfl, fun _ => rfl⟩
    | and m before after tail =>
      obtain ⟨b, inner, a, rfl⟩ :=
        hoperand (by rwa [Marker.text, List.head?_append_of_ne_nil _ m.operandText.ne_nil] at hm)
      refine ⟨b, inner, a, before.val ++ (str "and" ++ (after.val ++ tail.text)), ?_, ?_⟩
      · simp [Marker.text]
      · intro hnil
        simp [str] at hnil
  cases m with
  | whole m =>
    obtain ⟨b, inner, a, rest, htext, hrest⟩ := hconjunction h
    exact ⟨b, inner, a, rest, htext, fun hnil => congrArg _ (hrest hnil)⟩
  | or m before after tail =>
    obtain ⟨b, inner, a, rest, htext, -⟩ :=
      hconjunction (by rwa [Marker.text, List.head?_append_of_ne_nil _ m.operandText.ne_nil] at h)
    refine ⟨b, inner, a, rest ++ (before.val ++ (str "or" ++ (after.val ++ tail.text))), ?_, ?_⟩
    · simp [Marker.text, htext]
    · intro hnil
      simp [str] at hnil

/-- White space in front of a text goes, and what is behind it is stripped by itself. -/
theorem strip_append {s : Str} (hs : OperandText s) (b : Blank) (u : Str) :
    strip (b.val ++ (s ++ u)) = s ++ rstrip isSpace u := by
  obtain ⟨t, c, rfl, hc⟩ := hs.last
  rw [strip, lstrip, dropWhile_blank b.property (hs.flush u), rstrip, rstrip, List.reverse_append]
  by_cases hall : ∀ c ∈ u.reverse, isSpace c = true
  · rw [List.dropWhile_append_of_pos hall, List.dropWhile_eq_nil_iff.mpr hall]
    simp [hc]
  · have hne : u.reverse.dropWhile isSpace ≠ [] := fun hnil =>
      hall (List.dropWhile_eq_nil_iff.mp hnil)
    rw [List.dropWhile_append, if_neg (by simpa [List.isEmpty_iff] using hne)]
    simp

/-- `_marker_applies` evaluates a marker only if it is supported, and to what it says. -/
theorem Marker.onTarget_of_markerApplies {m : Marker .disjunction} {requirement : Str}
    {holds : Bool} (h : markerApplies m.text requirement = .ok holds) : m.OnTarget holds := by
  have hevaluated := isEvaluated_of_markerApplies h
  have hstrip : strip m.text = m.text := by
    have htext := strip_text m.operandText ⟨[], by simp⟩ ⟨[], by simp⟩
    simpa using htext
  have hbare : bareMarker m.text = if startsWith (m.text.map singleQuote) "(" ∧
      endsWith (m.text.map singleQuote) ")" then
        strip ((m.text.map singleQuote).drop 1).dropLast else m.text.map singleQuote := by
    rw [bareMarker, hstrip]
    rfl
  rw [hbare] at hevaluated
  split_ifs at hevaluated with hparen
  · have hhead : m.text.head? = some (ch '(') := by
      obtain ⟨c, t, ht, -, -⟩ := m.operandText.head
      obtain ⟨u, hu⟩ := startsWith_iff.mp hparen.1
      rw [ht] at hu ⊢
      have hc : singleQuote c = ch '(' := (List.cons.inj hu).1
      rw [singleQuote] at hc
      split_ifs at hc
      · cases hc
      · exact congrArg some hc
    obtain ⟨b, inner, a, rest, htext, hrest⟩ := Marker.exists_paren hhead
    rw [htext, ← List.map_drop, ← List.map_dropLast, strip_map_singleQuote] at hevaluated
    have hinner : strip ((ch '(' :: (b.val ++ (inner.text ++ (a.val ++ ch ')' :: rest)))).drop
        1).dropLast = inner.text ++ rstrip isSpace (a.val ++ ch ')' :: rest).dropLast := by
      rw [List.drop_succ_cons, List.drop_zero, List.dropLast_append_of_ne_nil (by simp),
        List.dropLast_append_of_ne_nil (by simp), strip_append inner.operandText]
    rw [hinner] at hevaluated
    obtain ⟨hnone, c, honly, hholds⟩ := inner.isOnly_of_isEvaluated hevaluated
    -- behind the parenthesis that is closed there is nothing
    have hnil : rest = [] := by
      rcases List.eq_nil_or_concat rest with hnil | ⟨r, d, rfl⟩
      · exact hnil
      · have hall := List.dropWhile_eq_nil_iff.mp (List.reverse_eq_nil_iff.mp hnone)
        have hlast : a.val ++ ch ')' :: r.concat d = (a.val ++ ch ')' :: r) ++ [d] := by simp
        rw [hlast, List.dropLast_concat] at hall
        exact absurd (hall (ch ')') (by simp)) (by decide)
    rw [hrest hnil]
    exact .paren honly hholds
  · obtain ⟨-, c, honly, hholds⟩ := m.isOnly_of_isEvaluated (k := []) (by simpa using hevaluated)
    exact .bare honly hholds

/-! ## The lines of a tree -/

theorem mem_strip {s : Str} {c : CodePoint} (h : c ∈ s) (hc : isSpace c = false) : c ∈ strip s := by
  have hkeep {s : Str} (h : c ∈ s) : c ∈ s.dropWhile isSpace := by
    rw [← List.takeWhile_append_dropWhile (p := isSpace) (l := s)] at h
    rcases List.mem_append.mp h with h | h
    · rw [List.mem_takeWhile_imp h] at hc
      cases hc
    · exact h
  exact List.mem_reverse.mpr (hkeep (List.mem_reverse.mpr (hkeep h)))

/-- The marker of a line is read as it is written, if a bracket is closed in front of it. -/
theorem matchRequirement_marker {requirement spec text : Str} {r : Requirement}
    (hpartition : partition (ch ';') requirement = some (spec, text))
    (hbracket : ch '[' ∈ strip spec → ch ']' ∈ strip spec)
    (hr : matchRequirement requirement = some r) : r.marker = text := by
  obtain ⟨rfl, hspec⟩ := partition_eq_some_iff.mp hpartition
  have hname : (spec ++ ch ';' :: text).dropWhile isNameChar =
      spec.dropWhile isNameChar ++ ch ';' :: text := by
    rw [List.dropWhile_append]
    split_ifs with hnil
    · rw [List.isEmpty_iff.mp hnil]
      rfl
    · rfl
  -- behind the extras the `;` is still there, and it is the first one
  have hrest : ∃ s, ch ';' ∉ s ∧
      (readExtras (spec.dropWhile isNameChar ++ ch ';' :: text)).2 = s ++ ch ';' :: text := by
    have hsub : ∀ c ∈ spec.dropWhile isNameChar, c ∈ spec :=
      fun c hc => (List.dropWhile_sublist _).mem hc
    cases hs : spec.dropWhile isNameChar with
    | nil => exact ⟨[], by simp, rfl⟩
    | cons c s =>
      rw [hs] at hsub
      have hs' : ch ';' ∉ s := fun hmem => hspec (hsub _ (List.mem_cons_of_mem _ hmem))
      rw [List.cons_append, readExtras]
      split_ifs with hc
      · -- the bracket is closed in front of the marker
        subst hc
        have hclose : ch ']' ∈ spec := mem_of_mem_strip
          (hbracket (mem_strip (hsub _ List.mem_cons_self) (by decide)))
        have hclose' : ch ']' ∈ s := by
          rw [← List.takeWhile_append_dropWhile (p := isNameChar) (l := spec), hs] at hclose
          rcases List.mem_append.mp hclose with hmem | hmem
          · exact absurd (List.mem_takeWhile_imp hmem) (by decide)
          · exact (List.mem_cons.mp hmem).resolve_left (by decide)
        obtain ⟨x, y, rfl, hx⟩ := List.eq_append_cons_of_mem hclose'
        refine ⟨y, fun hmem => hs' (by simp [hmem]), ?_⟩
        rw [List.append_assoc, List.cons_append, partition_append_cons hx]
        rfl
      · exact ⟨c :: s, by simpa [hs'] using fun he => hspec (hsub _ (by simp [he])), rfl⟩
  obtain ⟨s, hs, hrest⟩ := hrest
  unfold matchRequirement at hr
  split_ifs at hr
  obtain rfl := Option.some.inj hr
  show ((partition (ch ';') (readExtras ((spec ++ ch ';' :: text).dropWhile isNameChar)).2).map
    Prod.snd).getD [] = text
  rw [hname, hrest, partition_append_cons hs]
  rfl

/-- A marker that is read counts for what it says. -/
theorem ReadsAs.onTarget {kept spec : Str} {m : Marker .disjunction} (h : ReadsAs kept spec (some m))
    (hbracket : ch '[' ∈ spec → ch ']' ∈ spec) {r : Requirement}
    (hr : matchRequirement kept = some r) {holds : Bool} (happlies : r.applies kept = .ok holds) :
    m.OnTarget holds := by
  obtain _ | @⟨_, text, _, hpartition, hm⟩ := h
  obtain ⟨-, before, after, rfl⟩ := hm
  have hmarker := matchRequirement_marker hpartition hbracket hr
  rw [Requirement.applies, hmarker, strip_text m.operandText, if_neg m.operandText.ne_nil] at happlies
  exact m.onTarget_of_markerApplies happlies

/-- A run that gets through has read every line. -/
theorem exists_mergeLine_of_foldlM {lines : List Str} {merged merged' : Merged}
    (h : lines.foldlM mergeLine merged = .ok merged') {line : Str} (hline : line ∈ lines) :
    ∃ before after, mergeLine before line = .ok after := by
  induction lines generalizing merged with
  | nil => cases hline
  | cons first lines ih =>
    rw [List.foldlM_cons] at h
    obtain ⟨next, hnext, h⟩ := except_bind_eq_ok h
    rcases List.mem_cons.mp hline with rfl | hline
    · exact ⟨merged, next, hnext⟩
    · exact ih h hline

/-- At a line with an unsupported marker the merge stops. -/
theorem ReadsAs.stops {kept spec : Str} {m : Marker .disjunction} (h : ReadsAs kept spec (some m))
    (hbracket : ch '[' ∈ spec → ch ']' ∈ spec) (hm : ∀ holds, ¬m.OnTarget holds)
    {texts : List Str} (hkept : kept ∈ requirementLines texts) (order : SetOrder Str) :
    ∃ e, manifestRequirements order texts = .error e := by
  cases hresult : manifestRequirements order texts with
  | error e => exact ⟨e, rfl⟩
  | ok out =>
    exfalso
    obtain ⟨merged, hrun, -⟩ := except_bind_eq_ok hresult
    obtain ⟨before, after, hline⟩ := exists_mergeLine_of_foldlM hrun hkept
    cases hr : matchRequirement kept with
    | none =>
      rw [mergeLine, hr] at hline
      cases hline
    | some r =>
      obtain ⟨holds, happlies, -⟩ := (mergeLine_eq_ok_iff hr).mp hline
      exact hm holds (h.onTarget hbracket hr happlies)

end EsphomeMcp.Vendor
