import EsphomeMcp.Vendor.Markers

/-!
# The requirements of the selected extras

What `runtime_requirements` keeps. Taking the clauses out of the text of a marker leaves the text
of `Marker.kept`, as long as they stand at the ends of their conjunctions; and that is the right
marker as long as it says the same as the original for the selected extras.
-/

namespace EsphomeMcp.Vendor

open Py

/-! ## White space -/

/-- A text that does not begin with white space. -/
def Flush (t : Str) : Prop := ∀ c ∈ t.head?, isSpace c = false

/-- A text that begins with something else than white space. -/
theorem flush_cons {c : CodePoint} {t : Str} (h : isSpace c = false) : Flush (c :: t) := by
  intro d hd
  obtain rfl : c = d := by simpa using hd
  exact h

/-- The white space in front of a flush text, and what is left behind it. -/
theorem takeWhile_blank {b t : Str} (hb : ∀ c ∈ b, isSpace c = true) (ht : Flush t) :
    (b ++ t).takeWhile isSpace = b := by
  rw [List.takeWhile_append_of_pos hb]
  have hnone : t.takeWhile isSpace = [] := by
    cases t with
    | nil => rfl
    | cons c t => simp [ht c rfl]
  rw [hnone, List.append_nil]

theorem dropWhile_blank {b t : Str} (hb : ∀ c ∈ b, isSpace c = true) (ht : Flush t) :
    (b ++ t).dropWhile isSpace = t := by
  rw [List.dropWhile_append_of_pos hb]
  cases t with
  | nil => rfl
  | cons c t => simp [ht c rfl]

/-! ## The patterns -/

/-- A text that begins with another character is no match for a keyword. -/
theorem dropStart_eq_none {c : CodePoint} {p s : Str} (h : s.head? ≠ some c) :
    dropStart (c :: p) s = none := by
  by_contra hne
  obtain ⟨t, ht⟩ := Option.ne_none_iff_exists'.mp hne
  rw [eq_append_of_dropStart ht] at h
  exact h rfl

/-- A clause begins with the word `extra`. -/
theorem matchExtra_eq_none {s : Str} (h : s.head? ≠ some (ch 'e')) : matchExtra s = none := by
  have hnone : dropStart "extra" s = none := dropStart_eq_none h
  rw [matchExtra, hnone]
  rfl

theorem isQuote_iff {c : CodePoint} : isQuote c = true ↔ c = ch '"' ∨ c = ch '\'' := by
  simp [isQuote]

theorem isSpace_of_isQuote {c : CodePoint} (h : isQuote c = true) : isSpace c = false := by
  rcases isQuote_iff.mp h with rfl | rfl <;> decide

theorem isWordChar_of_isQuote {c : CodePoint} (h : isQuote c = true) : isWordChar c = false := by
  rcases isQuote_iff.mp h with rfl | rfl <;> decide

theorem not_isQuote_of_isNameChar {c : CodePoint} (h : isNameChar c = true) :
    isQuote c = false := by
  by_contra hquote
  rw [Bool.not_eq_false] at hquote
  rcases isQuote_iff.mp hquote with rfl | rfl <;> revert h <;> decide

/-- The pattern matches a clause as it is written. -/
theorem matchExtra_clause (e : ExtraClause) (t : Str) :
    matchExtra (e.text ++ t) = some (e.name, t) := by
  have hname : ∀ c ∈ e.name, (!isQuote c) = true := fun c hc => by
    rw [not_isQuote_of_isNameChar (e.hname c hc)]
    rfl
  have htext : e.text ++ t = str "extra" ++ (e.before.val ++ (str "==" ++ (e.after.val ++
      (e.quote :: (e.name ++ e.quote :: t))))) := by simp [ExtraClause.text]
  have hequals : (e.before.val ++ (str "==" ++ (e.after.val ++
      (e.quote :: (e.name ++ e.quote :: t))))).dropWhile isSpace =
      str "==" ++ (e.after.val ++ (e.quote :: (e.name ++ e.quote :: t))) :=
    dropWhile_blank e.before.property (flush_cons (by decide))
  have hquote : (e.after.val ++ (e.quote :: (e.name ++ e.quote :: t))).dropWhile isSpace =
      e.quote :: (e.name ++ e.quote :: t) :=
    dropWhile_blank e.after.property (flush_cons (isSpace_of_isQuote e.hquote))
  have htake : (e.name ++ e.quote :: t).takeWhile (!isQuote ·) = e.name := by
    rw [List.takeWhile_append_of_pos hname]
    simp [e.hquote]
  have hdrop : (e.name ++ e.quote :: t).dropWhile (!isQuote ·) = e.quote :: t := by
    rw [List.dropWhile_append_of_pos hname]
    simp [e.hquote]
  rw [htext]
  simp only [matchExtra, dropStart_append, hequals, hquote, htake, hdrop, e.hquote, e.hne,
    Option.bind_eq_bind, Option.bind_some, ne_eq, not_false_eq_true, and_self, if_true]

/-- An `and` with white space on both sides is read over. -/
theorem matchAnd_and {b a : Blank} {t : Str} {behindWord : Bool}
    (hb : b.val ≠ [] ∨ behindWord = false) (ha : a.val ≠ []) (ht : Flush t) :
    matchAnd behindWord (b.val ++ (str "and" ++ (a.val ++ t))) = some t := by
  have hdrop : (b.val ++ (str "and" ++ (a.val ++ t))).dropWhile isSpace =
      str "and" ++ (a.val ++ t) := dropWhile_blank b.property (flush_cons (by decide))
  have hbound : ¬((b.val ++ (str "and" ++ (a.val ++ t))).dropWhile isSpace =
      b.val ++ (str "and" ++ (a.val ++ t)) ∧ behindWord = true) := by
    rintro ⟨hsame, hword⟩
    rcases hb with hb | hb
    · rw [hdrop] at hsame
      have hlen := congrArg List.length hsame
      have hpos := List.length_pos_of_ne_nil hb
      simp only [List.length_append] at hlen
      omega
    · rw [hb] at hword
      cases hword
  rw [matchAnd, if_neg hbound, hdrop, dropStart_append]
  simp only [Option.bind_eq_bind, Option.bind_some, takeWhile_blank a.property ht, ha, if_false,
    dropWhile_blank a.property ht]

/-- Where the next word does not begin like `and`, there is none. -/
theorem matchAnd_eq_none {s : Str} (h : (s.dropWhile isSpace).head? ≠ some (ch 'a'))
    (behindWord : Bool) : matchAnd behindWord s = none := by
  have hnone : dropStart "and" (s.dropWhile isSpace) = none := dropStart_eq_none h
  rw [matchAnd, hnone]
  split_ifs <;> rfl

/-- What an `and` that is read over looks like. -/
theorem eq_of_matchAnd {s t : Str} {behindWord : Bool} (h : matchAnd behindWord s = some t) :
    ∃ b a : Blank, s = b.val ++ (str "and" ++ (a.val ++ t)) := by
  rw [matchAnd] at h
  split_ifs at h with hbound
  cases hrest : dropStart "and" (s.dropWhile isSpace) with
  | none => simp [hrest] at h
  | some rest =>
    simp only [hrest, Option.bind_eq_bind, Option.bind_some] at h
    split_ifs at h
    obtain rfl : rest.dropWhile isSpace = t := Option.some.inj h
    refine ⟨⟨s.takeWhile isSpace, fun c hc => List.mem_takeWhile_imp hc⟩,
      ⟨rest.takeWhile isSpace, fun c hc => List.mem_takeWhile_imp hc⟩, ?_⟩
    rw [List.takeWhile_append_dropWhile, ← eq_append_of_dropStart hrest,
      List.takeWhile_append_dropWhile]

/-- An `and` with white space before it goes, and the white space behind it. -/
theorem dropAnd_and {b a : Blank} {t : Str} (hb : b.val ≠ [])
    (ha : Apart (str "and") (a.val ++ t)) (ht : Flush t) :
    dropAnd (b.val ++ (str "and" ++ (a.val ++ t))) = t := by
  have hand : Flush (str "and" ++ (a.val ++ t)) := flush_cons (by decide)
  have hword : (a.val ++ t).head?.any isWordChar = false := by
    rw [← Bool.not_eq_true]
    exact fun hhead => ha ⟨by decide, hhead⟩
  simp only [dropAnd, takeWhile_blank b.property hand, hb, if_false,
    dropWhile_blank b.property hand, dropStart_append, hword, Bool.false_eq_true,
    dropWhile_blank a.property ht]

/-- The text does not go on with `and`. -/
def Closed (k : Str) : Prop := (k.dropWhile isSpace).head? ≠ some (ch 'a')

/-- Where no `and` follows, nothing more goes. -/
theorem dropAnd_of_closed {k : Str} (h : Closed k) : dropAnd k = k := by
  have hnone : dropStart "and" (k.dropWhile isSpace) = none := dropStart_eq_none h
  rw [dropAnd, hnone]
  split_ifs <;> rfl

/-! ## Taking out and leaving in -/

/-- Whether a word character comes last, behind `behindWord` and a text. -/
def behind (behindWord : Bool) (s : Str) : Bool := (s.getLast?.map isWordChar).getD behindWord

theorem behind_cons (w : Bool) (c : CodePoint) (s : Str) :
    behind (isWordChar c) s = behind w (c :: s) := by
  rw [behind, behind, List.getLast?_cons]
  cases s.getLast? <;> rfl

/-- Whether a text ends in a word is decided by its last part that is not empty. -/
theorem behind_append (w : Bool) (s t : Str) : behind (behind w s) t = behind w (s ++ t) := by
  rw [behind, behind, behind, List.getLast?_append]
  cases t.getLast? <;> rfl

/-- No text that ends in a quote ends in a word. -/
theorem behind_of_quote (w : Bool) (s : Str) {quote : CodePoint} (h : isQuote quote = true) :
    behind w (s ++ [quote]) = false := by
  simp [behind, isWordChar_of_isQuote h]

/-- No match begins in `s`, with `t` behind it. -/
def Stays (w : Bool) (s t : Str) : Prop :=
  ∀ s₁ s₂, s = s₁ ++ s₂ → s₂ ≠ [] → matchClause (behind w s₁) (s₂ ++ t) = none

/-- What no match begins in stays as it is. -/
theorem removeClauses_of_stays {w : Bool} {s t : Str} (h : Stays w s t) :
    removeClauses 0 w (s ++ t) = s ++ removeClauses 0 (behind w s) t := by
  induction s generalizing w with
  | nil => rfl
  | cons c s ih =>
    have hfirst : matchClause w (c :: (s ++ t)) = none := h [] (c :: s) rfl (by simp)
    have hrest : Stays (isWordChar c) s t := by
      intro s₁ s₂ hs hne
      rw [behind_cons w]
      exact h (c :: s₁) s₂ (by rw [hs]; rfl) hne
    rw [List.cons_append, removeClauses, hfirst]
    show c :: removeClauses 0 (isWordChar c) (s ++ t) = _
    rw [ih hrest, behind_cons w]
    rfl

/-- What belongs to a match is passed over. -/
theorem removeClauses_skip (w : Bool) (s t : Str) :
    removeClauses s.length w (s ++ t) = removeClauses 0 (behind w s) t := by
  induction s generalizing w with
  | nil => rfl
  | cons c s ih =>
    show removeClauses s.length (isWordChar c) (s ++ t) = _
    rw [ih, behind_cons w]

/-- What is matched goes. -/
theorem removeClauses_of_match {w : Bool} {s t : Str} (hne : s ≠ [])
    (h : matchClause w (s ++ t) = some t) :
    removeClauses 0 w (s ++ t) = removeClauses 0 (behind w s) t := by
  cases s with
  | nil => exact absurd rfl hne
  | cons c s =>
    rw [List.cons_append, removeClauses, ← List.cons_append, h]
    have hlen : (s ++ t).length - t.length = s.length := by
      rw [List.length_append]
      omega
    show removeClauses ((s ++ t).length - t.length) (isWordChar c) (s ++ t) = _
    rw [hlen, removeClauses_skip, behind_cons w]

/-- Nothing is matched that does not begin with white space, an `and` or an `extra`. -/
theorem matchClause_eq_none {s : Str} (hs : Flush s) (ha : s.head? ≠ some (ch 'a'))
    (he : s.head? ≠ some (ch 'e')) (w : Bool) : matchClause w s = none := by
  have hdrop : s.dropWhile isSpace = s := dropWhile_blank (b := []) (by simp) hs
  rw [matchClause, matchAnd_eq_none (hdrop.symm ▸ ha), matchExtra_eq_none he]
  rfl

/-- A clause starts with white space, with an `and` or with `extra`. -/
theorem matchClause_cons_eq_none {c : CodePoint} {t : Str} (hc : isSpace c = false)
    (ha : c ≠ ch 'a') (he : c ≠ ch 'e') (w : Bool) : matchClause w (c :: t) = none := by
  apply matchClause_eq_none (flush_cons hc)
  · simpa using ha
  · simpa using he

theorem head?_blank {b : Blank} {s t : Str} (hne : s ≠ []) (hs : s <:+ b.val) :
    ∃ c, (s ++ t).head? = some c ∧ isSpace c = true := by
  cases s with
  | nil => exact absurd rfl hne
  | cons c s => exact ⟨c, rfl, b.property c (hs.subset List.mem_cons_self)⟩

/-- White space stays in front of what neither begins with white space nor like `and`. -/
theorem stays_blank (w : Bool) (b : Blank) {t : Str} (ht : Flush t)
    (ha : t.head? ≠ some (ch 'a')) : Stays w b.val t := by
  intro s₁ s₂ hs hne
  have hsuffix : s₂ <:+ b.val := ⟨s₁, hs.symm⟩
  obtain ⟨c, hhead, hspace⟩ := head?_blank (t := t) hne hsuffix
  have hdrop : (s₂ ++ t).dropWhile isSpace = t :=
    dropWhile_blank (fun c hc => b.property c (hsuffix.subset hc)) ht
  have he : (s₂ ++ t).head? ≠ some (ch 'e') := by
    rw [hhead]
    rintro ⟨⟩
    revert hspace
    decide
  rw [matchClause, matchAnd_eq_none (hdrop.symm ▸ ha), matchExtra_eq_none he]
  rfl

/-- A keyword between two operands stays, if no clause follows an `and`. -/
theorem stays_append {w : Bool} {s u t : Str} (hs : Stays w s (u ++ t))
    (hu : Stays (behind w s) u t) : Stays w (s ++ u) t := by
  intro s₁ s₂ h hne
  rcases List.append_eq_append_iff.mp h with ⟨r, rfl, hr⟩ | ⟨r, rfl, rfl⟩
  · rw [← behind_append]
    exact hu r s₂ hr hne
  · by_cases hr : r = []
    · subst hr
      rw [List.append_nil] at hu
      rw [List.nil_append] at hne ⊢
      exact hu [] u rfl hne
    · rw [List.append_assoc]
      exact hs s₁ r rfl hr

/-! ## The texts of markers -/

/-- A text that begins like an operand, and ends like one. -/
structure OperandText (s : Str) : Prop where
  head : ∃ c t, s = c :: t ∧ isSpace c = false ∧ c ≠ ch 'a'
  last : ∃ t c, s = t ++ [c] ∧ isSpace c = false

theorem OperandText.flush {s : Str} (h : OperandText s) (t : Str) : Flush (s ++ t) := by
  obtain ⟨c, u, rfl, hspace, _⟩ := h.head
  exact flush_cons hspace

theorem OperandText.head_ne {s : Str} (h : OperandText s) (t : Str) :
    (s ++ t).head? ≠ some (ch 'a') := by
  obtain ⟨c, u, rfl, _, hc⟩ := h.head
  exact fun he => hc (Option.some.inj he)

theorem OperandText.ne_nil {s : Str} (h : OperandText s) : s ≠ [] := by
  obtain ⟨c, u, rfl, _⟩ := h.head
  simp

/-- What two texts of operands enclose does not show at the ends. -/
theorem OperandText.between {s t : Str} (hs : OperandText s) (ht : OperandText t) (u : Str) :
    OperandText (s ++ (u ++ t)) := by
  obtain ⟨c, s', rfl, hspace, hc⟩ := hs.head
  obtain ⟨t', d, rfl, hlast⟩ := ht.last
  exact ⟨⟨c, _, rfl, hspace, hc⟩, ⟨c :: (s' ++ (u ++ t')), d, by simp, hlast⟩⟩

theorem Operand.operandText (o : Operand) : OperandText o.text := by
  cases o with
  | named v =>
    constructor
    · cases v <;> exact ⟨_, _, rfl, by decide, by decide⟩
    · refine ⟨_, _, (List.dropLast_append_getLast (l := v.text) ?_).symm, ?_⟩
      all_goals cases v <;> decide
  | quoted quote body hquote =>
    have hspace := isSpace_of_isQuote hquote
    have hne : quote ≠ ch 'a' := by
      rcases isQuote_iff.mp hquote with rfl | rfl <;> decide
    exact ⟨⟨quote, _, rfl, hspace, hne⟩, ⟨quote :: body, quote, rfl, hspace⟩⟩

theorem MarkerComparison.operandText (c : MarkerComparison) : OperandText c.text := by
  have htext := c.left.operandText.between c.right.operandText
    (c.before.val ++ (c.operator.text ++ c.after.val))
  simpa only [MarkerComparison.text, List.append_assoc] using htext

theorem ExtraClause.text_eq (e : ExtraClause) : ∃ s, e.text = s ++ [e.quote] :=
  ⟨str "extra" ++ (e.before.val ++ (str "==" ++ (e.after.val ++ (e.quote :: e.name)))),
    by simp [ExtraClause.text]⟩

theorem ExtraClause.operandText (e : ExtraClause) : OperandText e.text := by
  obtain ⟨s, hs⟩ := e.text_eq
  exact ⟨⟨ch 'e', _, rfl, by decide, by decide⟩, ⟨s, _, hs, isSpace_of_isQuote e.hquote⟩⟩

/-- At either end of a marker stands an operand. -/
theorem Marker.operandText {l : MarkerLevel} (m : Marker l) : OperandText m.text := by
  induction m with
  | comparison c => exact c.operandText
  | clause e => exact e.operandText
  | paren before m after =>
    refine ⟨⟨ch '(', _, rfl, by decide, by decide⟩, ?_⟩
    exact ⟨ch '(' :: (before.val ++ (m.text ++ after.val)), ch ')', by simp [Marker.text],
      by decide⟩
  | single m ih | whole m ih => exact ih
  | and m before after rest ih ihrest =>
    have htext := ih.between ihrest (before.val ++ (str "and" ++ after.val))
    simpa only [Marker.text, List.append_assoc] using htext
  | or m before after rest ih ihrest =>
    have htext := ih.between ihrest (before.val ++ (str "or" ++ after.val))
    simpa only [Marker.text, List.append_assoc] using htext

/-- An operand does not end like the beginning of an `and`. -/
theorem Operand.not_isSuffix (o : Operand) {r : Str}
    (hr : r = str "a" ∨ r = str "an" ∨ r = str "and") : ¬r <:+ o.text ∧ ¬o.text <:+ r := by
  cases o with
  | named v => rcases hr with rfl | rfl | rfl <;> cases v <;> decide
  | quoted quote body hquote =>
    have hword : r.getLast?.any isWordChar = true := by
      rcases hr with rfl | rfl | rfl <;> decide
    have hnone : r.any isQuote = false := by
      rcases hr with rfl | rfl | rfl <;> decide
    constructor
    · rintro ⟨s, hs⟩
      have hlast := congrArg List.getLast? hs
      rw [Operand.text, ← List.cons_append, List.getLast?_concat, List.getLast?_append] at hlast
      cases hr : r.getLast? with
      | none => simp [hr] at hword
      | some c =>
        rw [hr] at hlast hword
        obtain rfl := Option.some.inj hlast
        simp [isWordChar_of_isQuote hquote] at hword
    · intro hsuffix
      have hmem : quote ∈ r := hsuffix.subset List.mem_cons_self
      rw [List.any_eq_false] at hnone
      exact hnone quote hmem hquote

/-- A comparison ends in a quote or in the name of a variable, and none of those ends so. -/
theorem MarkerComparison.not_isSuffix (c : MarkerComparison) {r : Str}
    (hr : r = str "a" ∨ r = str "an" ∨ r = str "and") : ¬r <:+ c.text := by
  intro hsuffix
  have hright : c.right.text <:+ c.text :=
    ⟨c.left.text ++ (c.before.val ++ (c.operator.text ++ c.after.val)),
      by simp [MarkerComparison.text]⟩
  obtain ⟨hshort, hlong⟩ := c.right.not_isSuffix hr
  exact (List.suffix_or_suffix_of_suffix hsuffix hright).elim hshort hlong

theorem prefix_and {r : Str} (h : r <+: str "and") (hne : r ≠ []) :
    r = str "a" ∨ r = str "an" ∨ r = str "and" := by
  have hmem : r ∈ (str "and").inits := List.mem_inits _ _ |>.mpr h
  have hinits : (str "and").inits = [[], str "a", str "an", str "and"] := by decide
  rw [hinits] at hmem
  simpa [hne] using hmem

/-- Nothing at the end of a comparison is the beginning of an `and` with white space around it. -/
theorem MarkerComparison.not_isPrefix_and (c : MarkerComparison) {s u : Str} (hne : s ≠ [])
    (hs : s <:+ c.text) (b a : Blank) : s ++ u ≠ b.val ++ (str "and" ++ a.val) := by
  obtain ⟨t, d, htext, hspace⟩ := c.operandText.last
  have hblank {r : Str} (b : Blank) (hr : r ≠ []) (hrs : r <:+ s) (hrb : r <+: b.val) : False := by
    -- the last character is no white space
    have hd : r.getLast hr = d := by
      obtain ⟨v, hv⟩ := hrs.trans hs
      have hlast := congrArg List.getLast? (hv.trans htext)
      rw [List.getLast?_concat, List.getLast?_append, List.getLast?_eq_getLast_of_ne_nil hr] at hlast
      exact Option.some.inj hlast
    have hin := b.property _ (hrb.subset (List.getLast_mem hr))
    rw [hd, hspace] at hin
    cases hin
  have hkeyword {r : Str} (hr : r ≠ []) (hrs : r <:+ s) (hra : r <+: str "and") : False :=
    c.not_isSuffix (prefix_and hra hr) (hrs.trans hs)
  intro h
  rcases List.append_eq_append_iff.mp h with ⟨r, hr, _⟩ | ⟨r, rfl, hr⟩
  · exact hblank b hne (List.suffix_refl s) ⟨r, hr.symm⟩
  · by_cases hr0 : r = []
    · subst hr0
      rw [List.append_nil] at hne
      exact hblank b hne (by simp) (List.prefix_refl _)
    · rcases List.append_eq_append_iff.mp hr.symm with ⟨v, hv, _⟩ | ⟨v, rfl, hv⟩
      · exact hkeyword hr0 (List.suffix_append _ _) ⟨v, hv.symm⟩
      · by_cases hv0 : v = []
        · subst hv0
          exact hkeyword (by decide) (by simp) (List.prefix_refl _)
        · refine hblank a hv0 ?_ ⟨u, hv.symm⟩
          rw [← List.append_assoc]
          exact List.suffix_append _ _

/-! ## What stays -/

theorem stays_nil (w : Bool) (t : Str) : Stays w [] t := by
  intro s₁ s₂ hs hne
  exact absurd (List.append_eq_nil_iff.mp hs.symm).2 hne

/-- A text stays if no clause begins at its first character and the rest stays. -/
theorem stays_cons {w : Bool} {c : CodePoint} {s t : Str}
    (hc : matchClause w (c :: (s ++ t)) = none) (hs : Stays (isWordChar c) s t) :
    Stays w (c :: s) t := by
  intro s₁ s₂ h hne
  cases s₁ with
  | nil =>
    obtain rfl : s₂ = c :: s := h.symm
    exact hc
  | cons d s₁ =>
    obtain ⟨rfl, hrest⟩ := List.cons.inj h
    rw [← behind_cons w]
    exact hs s₁ s₂ hrest hne

/-- No clause follows the `and`, so it is no match. -/
theorem matchClause_and {b : Str} (hb : ∀ c ∈ b, isSpace c = true) (a : Blank) {t : Str}
    (ht : Flush t) (he : matchExtra t = none) (w : Bool) :
    matchClause w (b ++ (str "and" ++ (a.val ++ t))) = none := by
  have hdrop : (b ++ (str "and" ++ (a.val ++ t))).dropWhile isSpace =
      str "and" ++ (a.val ++ t) := dropWhile_blank hb (flush_cons (by decide))
  have hand : (matchAnd w (b ++ (str "and" ++ (a.val ++ t)))).bind matchExtra = none := by
    rw [matchAnd, hdrop, dropStart_append]
    split_ifs
    · rfl
    · simp only [Option.bind_eq_bind, Option.bind_some, dropWhile_blank a.property ht]
      split_ifs
      · rfl
      · exact he
  have hextra : matchExtra (b ++ (str "and" ++ (a.val ++ t))) = none := by
    refine matchExtra_eq_none ?_
    cases b with
    | nil =>
      show some (ch 'a') ≠ some (ch 'e')
      decide
    | cons c b =>
      rintro ⟨⟩
      have hspace := hb _ List.mem_cons_self
      revert hspace
      decide
  rw [matchClause, hand, hextra]
  rfl

/-- The `and` between two operands stays if no clause follows it. -/
theorem stays_and (w : Bool) (b a : Blank) {t : Str} (ht : Flush t)
    (ha : t.head? ≠ some (ch 'a')) (he : matchExtra t = none) :
    Stays w (b.val ++ (str "and" ++ a.val)) t := by
  apply stays_append
  · intro s₁ s₂ hs _
    have hsuffix : s₂ <:+ b.val := ⟨s₁, hs.symm⟩
    rw [List.append_assoc]
    exact matchClause_and (fun c hc => b.property c (hsuffix.subset hc)) a ht he _
  · apply stays_append
    · have hn : ∀ w, matchClause w (str "nd" ++ (a.val ++ t)) = none := fun w =>
        matchClause_cons_eq_none (by decide) (by decide) (by decide) w
      have hd : ∀ w, matchClause w (str "d" ++ (a.val ++ t)) = none := fun w =>
        matchClause_cons_eq_none (by decide) (by decide) (by decide) w
      have hand := matchClause_and (b := []) (by simp) a ht he
      exact stays_cons (hand _) (stays_cons (hn _) (stays_cons (hd _) (stays_nil _ _)))
    · exact stays_blank _ a ht ha

/-- An `or` stays. -/
theorem stays_or (w : Bool) (b a : Blank) {t : Str} (ht : Flush t)
    (ha : t.head? ≠ some (ch 'a')) : Stays w (b.val ++ (str "or" ++ a.val)) t := by
  apply stays_append
  · apply stays_blank w b (flush_cons (by decide))
    show some (ch 'o') ≠ some (ch 'a')
    decide
  · apply stays_append
    · have ho : ∀ w, matchClause w (str "or" ++ (a.val ++ t)) = none := fun w =>
        matchClause_cons_eq_none (by decide) (by decide) (by decide) w
      have hr : ∀ w, matchClause w (str "r" ++ (a.val ++ t)) = none := fun w =>
        matchClause_cons_eq_none (by decide) (by decide) (by decide) w
      exact stays_cons (ho _) (stays_cons (hr _) (stays_nil _ _))
    · exact stays_blank _ a ht ha

/-- A comparison stays, as long as the pattern for a clause matches nowhere in it. -/
theorem stays_comparison (w : Bool) (c : MarkerComparison) {k : Str}
    (hquiet : (Marker.comparison c).Quiet k) : Stays w c.text k := by
  intro s₁ s₂ hs hne
  have hsuffix : s₂ <:+ c.text := ⟨s₁, hs.symm⟩
  have hand : (matchAnd (behind w s₁) (s₂ ++ k)).bind matchExtra = none := by
    by_contra hmatch
    obtain ⟨m, hm⟩ := Option.ne_none_iff_exists'.mp hmatch
    obtain ⟨t, ht, hextra⟩ := Option.bind_eq_some_iff.mp hm
    obtain ⟨b, a, heq⟩ := eq_of_matchAnd ht
    rw [← List.append_assoc, ← List.append_assoc] at heq
    rcases List.append_eq_append_iff.mp heq with ⟨r, hr, _⟩ | ⟨r, hr, hrt⟩
    · -- the comparison ends within the `and`
      rw [List.append_assoc] at hr
      exact c.not_isPrefix_and hne hsuffix b a hr.symm
    · by_cases hr0 : r = []
      · subst hr0
        refine c.not_isPrefix_and (u := []) hne hsuffix b a ?_
        rw [hr, List.append_nil, List.append_nil, List.append_assoc]
      · -- the clause begins within the comparison
        have hrs : r <:+ c.text := (List.suffix_append _ r).trans (hr ▸ hsuffix)
        rw [hrt, hquiet r hr0 hrs] at hextra
        cases hextra
  rw [matchClause, hand, hquiet s₂ hne hsuffix]
  rfl

/-- An operand that is no clause does not read as one. -/
theorem Marker.matchExtra_operand {m : Marker .operand} (h : m.isClause = false) {k : Str}
    (hquiet : m.Quiet k) : matchExtra (m.text ++ k) = none := by
  cases m with
  | comparison c => exact hquiet c.text c.operandText.ne_nil (List.suffix_refl _)
  | clause e => cases h
  | paren before m after => exact matchExtra_eq_none (by simp [Marker.text]; decide)

/-- Neither does a conjunction that does not start with one. -/
theorem Marker.matchExtra_conjunction {m : Marker .conjunction} (h : m.startsWithClause = false)
    {k : Str} (hquiet : m.Quiet k) : matchExtra (m.text ++ k) = none := by
  cases m with
  | single m => exact m.matchExtra_operand h hquiet
  | and m before after rest =>
    have hfirst := m.matchExtra_operand h hquiet.1
    simpa only [Marker.text, List.append_assoc] using hfirst

/-! ## What goes -/

/-- A clause is matched where it begins, with the `and` behind it. -/
theorem matchClause_clause (w : Bool) (e : ExtraClause) (t : Str) :
    matchClause w (e.text ++ t) = some (dropAnd t) := by
  have hdrop : (e.text ++ t).dropWhile isSpace = e.text ++ t :=
    dropWhile_blank (b := []) (by simp) (e.operandText.flush t)
  have hand : matchAnd w (e.text ++ t) = none :=
    matchAnd_eq_none (hdrop.symm ▸ e.operandText.head_ne t) w
  rw [matchClause, hand, matchExtra_clause]
  rfl

/-- It is matched from the `and` in front of it, where that stands apart. -/
theorem matchClause_and_clause {w : Bool} {b a : Blank} (hb : b.val ≠ [] ∨ w = false)
    (ha : a.val ≠ []) (e : ExtraClause) (t : Str) :
    matchClause w (b.val ++ (str "and" ++ (a.val ++ (e.text ++ t)))) = some (dropAnd t) := by
  rw [matchClause, matchAnd_and hb ha (e.operandText.flush t), Option.bind_some, matchExtra_clause]
  rfl

theorem Marker.isClause_iff {m : Marker .operand} :
    m.isClause = true ↔ ∃ e, m = .clause e := by
  cases m <;> simp [Marker.isClause]

/-- A conjunction of clauses ends with a quote. -/
theorem Marker.behind_onlyClauses :
    (m : Marker .conjunction) → m.onlyClauses = true → ∀ w, behind w m.text = false
  | .single m, h, w => by
    obtain ⟨e, rfl⟩ := Marker.isClause_iff.mp h
    obtain ⟨s, hs⟩ := e.text_eq
    show behind w e.text = false
    rw [hs, behind_of_quote w s e.hquote]
  | .and m before after rest, h, w => by
    have hrest := Marker.behind_onlyClauses rest (Bool.and_eq_true_iff.mp h).2
    show behind w (m.text ++ (before.val ++ (str "and" ++ (after.val ++ rest.text)))) = false
    rw [← behind_append, ← behind_append, ← behind_append, ← behind_append, hrest]

/-- Of a conjunction of clauses nothing is kept. -/
theorem Marker.kept_of_onlyClauses :
    (m : Marker .conjunction) → m.onlyClauses = true → m.kept = none
  | .single m, h => by
    obtain ⟨e, rfl⟩ := Marker.isClause_iff.mp h
    rfl
  | .and m before after rest, h => by
    obtain ⟨e, rfl⟩ := Marker.isClause_iff.mp (Bool.and_eq_true_iff.mp h).1
    exact Marker.kept_of_onlyClauses rest (Bool.and_eq_true_iff.mp h).2

/-- A word stands next to the white space before it. -/
theorem ne_nil_of_apart {s t : Str} {b : Blank} (h : Apart s (b.val ++ t))
    (hs : s.getLast?.any isWordChar = true) (ht : t.head?.any isWordChar = true) : b.val ≠ [] := by
  intro hb
  rw [hb, List.nil_append] at h
  exact h ⟨hs, ht⟩

theorem Marker.head_of_onlyClauses {m : Marker .conjunction} (h : m.onlyClauses = true) :
    m.text.head?.any isWordChar = true := by
  cases m with
  | single m =>
    obtain ⟨e, rfl⟩ := Marker.isClause_iff.mp h
    rfl
  | and m before after rest =>
    obtain ⟨e, rfl⟩ := Marker.isClause_iff.mp (Bool.and_eq_true_iff.mp h).1
    rfl

/-- What is next to a text only depends on its beginning. -/
theorem Apart.append_right {s t : Str} {b : Str} (h : Apart s (b ++ t)) (ht : t ≠ []) (u : Str) :
    Apart s ((b ++ t) ++ u) := by
  intro ⟨hs, hu⟩
  refine h ⟨hs, ?_⟩
  rwa [List.head?_append_of_ne_nil] at hu
  simp [ht]

/-- A text that stands apart from a word does not end in one. -/
theorem behind_of_apart {s t : Str} (h : Apart s t) (hs : s ≠ [])
    (ht : t.head?.any isWordChar = true) (w : Bool) : behind w s = false := by
  have hlast : s.getLast?.any isWordChar = false := by
    rw [← Bool.not_eq_true]
    exact fun hword => h ⟨hword, ht⟩
  rw [List.getLast?_eq_getLast_of_ne_nil hs] at hlast
  rw [behind, List.getLast?_eq_getLast_of_ne_nil hs]
  exact hlast

theorem dropAnd_of_flush {k : Str} (h : Flush k) : dropAnd k = k := by
  have hnone : k.takeWhile isSpace = [] := takeWhile_blank (b := []) (by simp) h
  rw [dropAnd, if_pos hnone]

/-- A conjunction of clauses goes as a whole, with an `and` in front of it that belongs to a
match. -/
theorem removeClauses_onlyClauses {k : Str} (hk : Closed k) :
    (m : Marker .conjunction) → m.onlyClauses = true → m.Spaced → ∀ {w : Bool} {s : Str},
      (∀ (e : ExtraClause) t, matchClause w (s ++ (e.text ++ t)) = some (dropAnd t)) →
      removeClauses 0 w (s ++ (m.text ++ k)) = removeClauses 0 false k
  | .single m, h, _, w, s, hmatch => by
    obtain ⟨e, rfl⟩ := Marker.isClause_iff.mp h
    have hclause := hmatch e k
    rw [dropAnd_of_closed hk, ← List.append_assoc] at hclause
    show removeClauses 0 w (s ++ (e.text ++ k)) = _
    rw [← List.append_assoc, removeClauses_of_match (by simp [e.operandText.ne_nil]) hclause,
      ← behind_append]
    exact congrArg (removeClauses 0 · k) (Marker.behind_onlyClauses (.single (.clause e)) rfl _)
  | .and m before after rest, h, hspaced, w, s, hmatch => by
    obtain ⟨e, rfl⟩ := Marker.isClause_iff.mp (Bool.and_eq_true_iff.mp h).1
    have hrest := (Bool.and_eq_true_iff.mp h).2
    obtain ⟨_, hspacedRest, _, hafter⟩ := hspaced
    have hclause := hmatch e (before.val ++ (str "and" ++ (after.val ++ (rest.text ++ k))))
    have hflush := rest.operandText.flush k
    have htext : s ++ ((Marker.and (.clause e) before after rest).text ++ k) =
        s ++ (e.text ++ (before.val ++ (str "and" ++ (after.val ++ (rest.text ++ k))))) := by
      simp [Marker.text]
    rw [htext]
    by_cases hbefore : before.val = []
    · -- the `and` is left for the match of the next clause
      have hand : Flush (str "and" ++ (after.val ++ (rest.text ++ k))) := flush_cons (by decide)
      have hnext : after.val ≠ [] :=
        ne_nil_of_apart hafter (by decide) (rest.head_of_onlyClauses hrest)
      rw [hbefore, List.nil_append, dropAnd_of_flush hand, ← List.append_assoc] at hclause
      rw [hbefore, List.nil_append, ← List.append_assoc,
        removeClauses_of_match (by simp [e.operandText.ne_nil]) hclause, ← behind_append]
      have hquote : behind (behind w s) e.text = false :=
        Marker.behind_onlyClauses (.single (.clause e)) rfl (behind w s)
      rw [hquote, ← List.append_assoc]
      refine removeClauses_onlyClauses hk rest hrest hspacedRest fun e t => ?_
      rw [List.append_assoc]
      exact matchClause_and_clause (b := ⟨[], by simp⟩) (.inr rfl) hnext e t
    · rw [dropAnd_and hbefore (t := rest.text ++ k) ?_ hflush] at hclause
      · have hgroup : s ++ (e.text ++ (before.val ++ (str "and" ++ (after.val ++ (rest.text ++ k))))) =
            (s ++ (e.text ++ (before.val ++ (str "and" ++ after.val)))) ++ (rest.text ++ k) := by
          simp
        rw [hgroup] at hclause ⊢
        rw [removeClauses_of_match (by simp [e.operandText.ne_nil]) hclause]
        exact removeClauses_onlyClauses hk rest hrest hspacedRest (s := [])
          fun e t => matchClause_clause _ e t
      · rw [← List.append_assoc]
        exact hafter.append_right rest.operandText.ne_nil k

/-! ## The text of what is kept -/

/-- No `and` follows where the next character is another one. -/
theorem closed_of_flush {b : Blank} {t : Str} (ht : Flush t) (ha : t.head? ≠ some (ch 'a')) :
    Closed (b.val ++ t) := by
  rw [Closed, dropWhile_blank b.property ht]
  exact ha

/-- Parentheses stay, and what is inside them is read up to the closing one. -/
theorem Marker.removeClauses_paren {before after : Blank} {m kept : Marker .disjunction} {k : Str}
    (w : Bool)
    (hinner : removeClauses 0 (behind (isWordChar (ch '(')) before.val)
        (m.text ++ (after.val ++ ch ')' :: k)) =
      kept.text ++ removeClauses 0 (behind (behind (isWordChar (ch '(')) before.val) m.text)
        (after.val ++ ch ')' :: k)) :
    removeClauses 0 w ((Marker.paren before m after).text ++ k) =
      (Marker.paren before kept after).text ++
        removeClauses 0 (behind w (Marker.paren before m after).text) k := by
  have hclose : Flush (ch ')' :: k) := flush_cons (by decide)
  have hne : (ch ')' :: k).head? ≠ some (ch 'a') := by
    show some (ch ')') ≠ some (ch 'a')
    decide
  have hopen : Stays w (ch '(' :: before.val) (m.text ++ (after.val ++ ch ')' :: k)) := by
    refine stays_cons ?_ (stays_blank _ before (m.operandText.flush _) (m.operandText.head_ne _))
    exact matchClause_cons_eq_none (by decide) (by decide) (by decide) w
  have hshut : ∀ v, Stays v (after.val ++ [ch ')']) k := fun v => by
    refine stays_append (stays_blank v after hclose hne) (stays_cons ?_ (stays_nil _ _))
    exact matchClause_eq_none hclose hne (by simp; decide) _
  have htext : (Marker.paren before m after).text ++ k =
      (ch '(' :: before.val) ++ (m.text ++ (after.val ++ ch ')' :: k)) := by simp [Marker.text]
  have hgroup : after.val ++ ch ')' :: k = (after.val ++ [ch ')']) ++ k := by simp
  rw [htext, removeClauses_of_stays hopen, ← behind_cons, hinner, hgroup,
    removeClauses_of_stays (hshut _), behind_cons w, behind_append, behind_append]
  simp [Marker.text]

/-- A clause at the start goes with the `and` behind it. -/
theorem removeClauses_clause_and {e : ExtraClause} {before after : Blank}
    {rest : Marker .conjunction} {k : Str} (w : Bool) (hne : before.val ≠ [])
    (hafter : Apart (str "and") (after.val ++ rest.text)) :
    removeClauses 0 w ((Marker.and (.clause e) before after rest).text ++ k) =
      removeClauses 0 (behind w (e.text ++ (before.val ++ (str "and" ++ after.val))))
        (rest.text ++ k) := by
  have hand : dropAnd (before.val ++ (str "and" ++ (after.val ++ (rest.text ++ k)))) =
      rest.text ++ k := by
    refine dropAnd_and hne ?_ (rest.operandText.flush k)
    rw [← List.append_assoc]
    exact hafter.append_right rest.operandText.ne_nil k
  have hmatch := matchClause_clause w e
    (before.val ++ (str "and" ++ (after.val ++ (rest.text ++ k))))
  have hgroup : (Marker.and (.clause e) before after rest).text ++ k =
      (e.text ++ (before.val ++ (str "and" ++ after.val))) ++ (rest.text ++ k) := by
    simp [Marker.text]
  rw [hand] at hmatch
  rw [hgroup, removeClauses_of_match (by simp [e.operandText.ne_nil]) (by simpa using hmatch)]

/-- Clauses at the end go with the `and` before them. -/
theorem Marker.removeClauses_and_clauses {m : Marker .operand} {before after : Blank}
    {rest : Marker .conjunction} {k : Str} (w : Bool) (hk : Closed k)
    (honly : rest.onlyClauses = true) (hspaced : rest.Spaced)
    (hbefore : Apart (m.text ++ before.val) (str "and"))
    (hafter : Apart (str "and") (after.val ++ rest.text)) :
    removeClauses 0 (behind w m.text)
        ((before.val ++ (str "and" ++ after.val)) ++ (rest.text ++ k)) =
      removeClauses 0 (behind w (Marker.and m before after rest).text) k := by
  have hnext : after.val ≠ [] :=
    ne_nil_of_apart hafter (by decide) (rest.head_of_onlyClauses honly)
  have hword : before.val ≠ [] ∨ behind w m.text = false := by
    refine or_iff_not_imp_left.mpr fun hnone => ?_
    rw [Classical.not_not.mp hnone, List.append_nil] at hbefore
    exact behind_of_apart hbefore m.operandText.ne_nil (by decide) w
  have hlast : behind w (Marker.and m before after rest).text = false := by
    rw [Marker.text, ← behind_append, ← behind_append, ← behind_append, ← behind_append]
    exact rest.behind_onlyClauses honly _
  rw [hlast]
  exact removeClauses_onlyClauses hk rest honly hspaced fun e t => by
    simpa using matchClause_and_clause hword hnext e t

/-- Without its clauses, the text of a marker is that of what is kept of it. The induction is on
the marker: a clause is matched together with the `and` next to it, and everything else stays. -/
theorem Marker.removeClauses_text {l : MarkerLevel} {m : Marker l} (hends : m.ClausesAtEnds)
    (hspaced : m.Spaced) {k : Str} (hquiet : m.Quiet k) (hk : l ≠ .operand → Closed k) (w : Bool) :
    ∃ kept, m.kept = some kept ∧
      removeClauses 0 w (m.text ++ k) = kept.text ++ removeClauses 0 (behind w m.text) k := by
  induction m generalizing k w with
  | comparison c =>
    exact ⟨.comparison c, rfl, removeClauses_of_stays (stays_comparison w c hquiet)⟩
  | clause e => exact hends.elim
  | paren before m after ih =>
    have hclosed : Closed (after.val ++ ch ')' :: k) := by
      refine closed_of_flush (flush_cons (by decide)) ?_
      show some (ch ')') ≠ some (ch 'a')
      decide
    obtain ⟨kept, hkept, hinner⟩ := ih hends hspaced hquiet (fun _ => hclosed)
      (behind (isWordChar (ch '(')) before.val)
    exact ⟨.paren before kept after, by simp [Marker.kept, hkept],
      Marker.removeClauses_paren w hinner⟩
  | single m ih =>
    obtain ⟨kept, hkept, hinner⟩ := ih hends hspaced hquiet (fun h => absurd rfl h) w
    exact ⟨.single kept, by simp [Marker.kept, hkept], hinner⟩
  | whole m ih =>
    obtain ⟨kept, hkept, hinner⟩ := ih hends hspaced hquiet (fun _ => hk (by simp)) w
    exact ⟨.whole kept, by simp [Marker.kept, hkept], hinner⟩
  | and m before after rest ih ihrest =>
    obtain ⟨hspacedFirst, hspacedRest, hbefore, hafter⟩ := hspaced
    have hclosed := hk (by simp)
    have hflush := rest.operandText.flush k
    have htext : (Marker.and m before after rest).text ++ k =
        m.text ++ ((before.val ++ (str "and" ++ after.val)) ++ (rest.text ++ k)) := by
      simp [Marker.text]
    rcases hends with ⟨hclause, hne, hends⟩ | ⟨hends, htail⟩
    · obtain ⟨e, rfl⟩ := Marker.isClause_iff.mp hclause
      obtain ⟨kept, hkept, hinner⟩ := ihrest hends hspacedRest hquiet.2 (fun _ => hclosed)
        (behind w (e.text ++ (before.val ++ (str "and" ++ after.val))))
      refine ⟨kept, by simp [Marker.kept, hkept], ?_⟩
      rw [removeClauses_clause_and w hne hafter, hinner, behind_append]
      simp [Marker.text]
    · obtain ⟨first, hfirst, hinner⟩ := ih hends hspacedFirst
        (k := (before.val ++ (str "and" ++ after.val)) ++ (rest.text ++ k))
        (by simpa using hquiet.1) (fun h => absurd rfl h) w
      rw [htext, hinner]
      rcases htail with honly | ⟨hstart, hendsRest⟩
      · refine ⟨.single first, by simp [Marker.kept, hfirst, rest.kept_of_onlyClauses honly], ?_⟩
        rw [Marker.removeClauses_and_clauses w hclosed honly hspacedRest hbefore hafter]
        rfl
      · obtain ⟨kept, hkept, hinnerRest⟩ := ihrest hendsRest hspacedRest hquiet.2
          (fun _ => hclosed) (behind w (m.text ++ (before.val ++ (str "and" ++ after.val))))
        refine ⟨.and first before after kept, by simp [Marker.kept, hfirst, hkept], ?_⟩
        have hstays := stays_and (behind w m.text) before after hflush (rest.operandText.head_ne k)
          (rest.matchExtra_conjunction hstart hquiet.2)
        rw [removeClauses_of_stays hstays, behind_append, hinnerRest, behind_append]
        simp [Marker.text]
  | or m before after rest ih ihrest =>
    have hclosed := hk (by simp)
    have hflush := rest.operandText.flush k
    have hor : Closed ((before.val ++ (str "or" ++ after.val)) ++ (rest.text ++ k)) := by
      rw [List.append_assoc, List.append_assoc]
      refine closed_of_flush (flush_cons (by decide)) ?_
      show some (ch 'o') ≠ some (ch 'a')
      decide
    obtain ⟨first, hfirst, hinner⟩ := ih hends.1 hspaced.1
      (k := (before.val ++ (str "or" ++ after.val)) ++ (rest.text ++ k))
      (by simpa using hquiet.1) (fun _ => hor) w
    obtain ⟨kept, hkept, hinnerRest⟩ := ihrest hends.2 hspaced.2.1 hquiet.2
      (fun _ => hclosed) (behind w (m.text ++ (before.val ++ (str "or" ++ after.val))))
    refine ⟨.or first before after kept, by simp [Marker.kept, hfirst, hkept], ?_⟩
    have hstays := stays_or (behind w m.text) before after hflush (rest.operandText.head_ne k)
    have htext : (Marker.or m before after rest).text ++ k =
        m.text ++ ((before.val ++ (str "or" ++ after.val)) ++ (rest.text ++ k)) := by
      simp [Marker.text]
    rw [htext, hinner, removeClauses_of_stays hstays, behind_append, hinnerRest, behind_append]
    simp [Marker.text]

/-! ## The first clause -/

/-- The search goes past a text no part of which begins a clause. -/
theorem searchExtra_append {s t : Str} (h : ∀ r, r ≠ [] → r <:+ s → matchExtra (r ++ t) = none) :
    searchExtra (s ++ t) = searchExtra t := by
  induction s with
  | nil => rfl
  | cons c s ih =>
    have hfirst := h (c :: s) (by simp) (List.suffix_refl _)
    rw [List.cons_append] at hfirst ⊢
    rw [searchExtra, hfirst]
    exact ih fun r hne hr => h r hne (hr.trans (List.suffix_cons c s))

/-- No clause begins in front of another letter. -/
theorem searchExtra_of_not_mem {s : Str} (h : ch 'e' ∉ s) (t : Str) :
    searchExtra (s ++ t) = searchExtra t := by
  apply searchExtra_append
  intro r hne hr
  cases r with
  | nil => exact absurd rfl hne
  | cons c r =>
    refine matchExtra_eq_none fun he => ?_
    exact h (Option.some.inj he ▸ hr.subset List.mem_cons_self)

theorem Blank.not_mem (b : Blank) : ch 'e' ∉ b.val := by
  intro hc
  have hspace := b.property _ hc
  revert hspace
  decide

/-- Behind a clause the search does not go on. -/
theorem or_searchExtra {names names' : List Str} {s : Str} {found : Option Str}
    (h : names = [] → searchExtra s = names'.head?.or found) :
    names.head?.or (searchExtra s) = (names ++ names').head?.or found := by
  cases names with
  | nil => exact h rfl
  | cons name names => rfl

/-- The search finds the first clause of the marker. -/
theorem Marker.searchExtra_text {l : MarkerLevel} {m : Marker l} {k : Str}
    (hquiet : m.QuietStart k) :
    searchExtra (m.text ++ k) = m.names.head?.or (searchExtra k) := by
  induction m generalizing k with
  | comparison c => exact searchExtra_append hquiet
  | clause e =>
    have hmatch := matchExtra_clause e k
    show searchExtra (e.text ++ k) = some e.name
    rw [show e.text ++ k = ch 'e' :: (e.text.tail ++ k) from rfl] at hmatch ⊢
    rw [searchExtra, hmatch]
  | paren before m after ih =>
    have hinner := ih hquiet
    have hopen := searchExtra_of_not_mem (s := str "(") (by decide)
      (before.val ++ (m.text ++ (after.val ++ ch ')' :: k)))
    have hshut := searchExtra_of_not_mem (s := str ")") (by decide) k
    have htext : (Marker.paren before m after).text ++ k =
        str "(" ++ (before.val ++ (m.text ++ (after.val ++ (str ")" ++ k)))) := by
      simp [Marker.text]
      rfl
    rw [searchExtra_of_not_mem after.not_mem] at hinner
    rw [htext, searchExtra_of_not_mem (by decide), searchExtra_of_not_mem before.not_mem]
    exact hinner.trans (congrArg _ hshut)
  | single m ih | whole m ih => exact ih hquiet
  | and m before after rest ih ihrest =>
    have hfirst := ih hquiet.1
    rw [searchExtra_of_not_mem before.not_mem, searchExtra_of_not_mem (s := str "and") (by decide),
      searchExtra_of_not_mem after.not_mem] at hfirst
    have hboth := hfirst.trans (or_searchExtra fun hnil => ihrest (hquiet.2 hnil))
    simpa only [Marker.text, Marker.names, List.append_assoc] using hboth
  | or m before after rest ih ihrest =>
    have hfirst := ih hquiet.1
    rw [searchExtra_of_not_mem before.not_mem, searchExtra_of_not_mem (s := str "or") (by decide),
      searchExtra_of_not_mem after.not_mem] at hfirst
    have hboth := hfirst.trans (or_searchExtra fun hnil => ihrest (hquiet.2 hnil))
    simpa only [Marker.text, Marker.names, List.append_assoc] using hboth

/-! ## What markers say -/

/-- What is kept of a marker says what it says with its clauses taken to be true. -/
theorem Marker.eval_kept {l : MarkerLevel} (m : Marker l) (env : MarkerComparison → Bool)
    (asked : Str → Bool) :
    (m.kept.map (Marker.eval env asked)).getD true = m.eval env fun _ => true := by
  induction m with
  | comparison | clause => rfl
  | paren before m after ih | single m ih | whole m ih =>
    rw [Marker.eval, ← ih, Marker.kept, Option.map_map]
    rfl
  | and m before after rest ih ihrest =>
    rw [Marker.eval, ← ih, ← ihrest, Marker.kept]
    cases m.kept <;> cases rest.kept <;> simp [Marker.eval]
  | or m before after rest ih ihrest =>
    rw [Marker.eval, ← ih, ← ihrest, Marker.kept]
    cases m.kept <;> cases rest.kept <;> simp [Marker.eval]

/-- Nothing in a marker is negated. -/
theorem Marker.eval_true {l : MarkerLevel} (m : Marker l) :
    m.eval (fun _ => true) (fun _ => true) = true := by
  induction m with
  | comparison | clause => rfl
  | paren before m after ih | single m ih | whole m ih => exact ih
  | and m before after rest ih ihrest => simp [Marker.eval, ih, ihrest]
  | or m before after rest ih ihrest => simp [Marker.eval, ih]

/-- Without clauses, the extras make no difference. -/
theorem Marker.eval_of_names_eq_nil {l : MarkerLevel} {m : Marker l} (h : m.names = [])
    (env : MarkerComparison → Bool) (asked : Str → Bool) :
    m.eval env asked = m.eval env fun _ => true := by
  induction m with
  | comparison => rfl
  | clause => cases h
  | paren before m after ih | single m ih | whole m ih => exact ih h
  | and m before after rest ih ihrest | or m before after rest ih ihrest =>
    have hnil := List.append_eq_nil_iff.mp h
    rw [Marker.eval, Marker.eval, ih hnil.1, ihrest hnil.2]

/-- What asks for another extra everywhere is never true. -/
theorem Marker.eval_of_asksOther {l : MarkerLevel} {m : Marker l} {extra : Option Str}
    {asked : Str → Bool} (hasked : ∀ name, asked name = true → extra = some name)
    (h : m.AsksOther extra) (env : MarkerComparison → Bool) : m.eval env asked = false := by
  induction m with
  | comparison => cases h
  | clause e =>
    rw [Marker.eval, ← Bool.not_eq_true]
    exact fun htrue => h (hasked e.name htrue)
  | paren before m after ih | single m ih | whole m ih => exact ih h
  | and m before after rest ih ihrest =>
    rcases h with h | h
    · rw [Marker.eval, ih h, Bool.false_and]
    · rw [Marker.eval, ihrest h, Bool.and_false]
  | or m before after rest ih ihrest => rw [Marker.eval, ih h.1, ihrest h.2, Bool.or_false]

/-- What does not is true where all comparisons are. -/
theorem Marker.eval_of_not_asksOther {l : MarkerLevel} {m : Marker l} {extra : Option Str}
    {asked : Str → Bool} (hasked : ∀ name, extra = some name → asked name = true)
    (h : ¬m.AsksOther extra) : m.eval (fun _ => true) asked = true := by
  induction m with
  | comparison => rfl
  | clause e => exact hasked e.name (not_not.mp h)
  | paren before m after ih | single m ih | whole m ih => exact ih h
  | and m before after rest ih ihrest =>
    obtain ⟨hfirst, hrest⟩ := not_or.mp h
    rw [Marker.eval, ih hfirst, ihrest hrest, Bool.and_self]
  | or m before after rest ih ihrest =>
    rw [Marker.eval, Bool.or_eq_true]
    exact (not_and_or.mp h).imp ih ihrest

/-- Nothing needs a marker that asks for other extras than the selected ones. -/
theorem needed_iff (m : Marker .disjunction) (extras : List Str) :
    (∃ env, (contexts extras).any (m.eval env) = true) ↔
      ¬(m.AsksOther none ∧ ∀ extra ∈ extras, m.AsksOther (some extra)) := by
  constructor
  · rintro ⟨env, htrue⟩ ⟨hnone, hextras⟩
    obtain ⟨asked, hmem, heval⟩ := List.any_eq_true.mp htrue
    rcases List.mem_cons.mp hmem with rfl | hmem
    · rw [m.eval_of_asksOther (by simp) hnone] at heval
      cases heval
    · obtain ⟨extra, hextra, rfl⟩ := List.mem_map.mp hmem
      have hasked : ∀ name, decide (name = extra) = true → some extra = some name := by
        simp [eq_comm]
      rw [m.eval_of_asksOther hasked (hextras extra hextra)] at heval
      cases heval
  · intro h
    refine ⟨fun _ => true, List.any_eq_true.mpr ?_⟩
    rcases not_and_or.mp h with hnone | hextras
    · exact ⟨_, List.mem_cons_self, m.eval_of_not_asksOther (by simp) hnone⟩
    · push Not at hextras
      obtain ⟨extra, hextra, hother⟩ := hextras
      refine ⟨_, List.mem_cons_of_mem _ (List.mem_map_of_mem hextra), ?_⟩
      have hasked : ∀ name, some extra = some name → decide (name = extra) = true := by
        simp [eq_comm]
      exact m.eval_of_not_asksOther hasked hother

/-! ## One requirement -/

/-- Stripping leaves the text between the white space. -/
theorem strip_text {s : Str} (hs : OperandText s) (b a : Blank) :
    strip (b.val ++ (s ++ a.val)) = s := by
  obtain ⟨t, c, hlast, hspace⟩ := hs.last
  have hend : Flush s.reverse := by
    rw [hlast, List.reverse_append]
    exact flush_cons hspace
  have ha : ∀ c ∈ a.val.reverse, isSpace c = true := fun c hc =>
    a.property c (List.mem_reverse.mp hc)
  rw [strip, lstrip, dropWhile_blank b.property (hs.flush a.val), rstrip, List.reverse_append,
    dropWhile_blank ha hend, List.reverse_reverse]

theorem strip_blank (b a : Blank) : strip (b.val ++ a.val) = [] := by
  have hall : ∀ c ∈ b.val ++ a.val, isSpace c = true := by
    intro c hc
    exact (List.mem_append.mp hc).elim (b.property c) (a.property c)
  rw [strip, lstrip, List.dropWhile_eq_nil_iff.mpr hall]
  rfl

/-- White space alone is kept. -/
theorem removeClauses_blank (w : Bool) (b : Blank) : removeClauses 0 w b.val = b.val := by
  have hstays := removeClauses_of_stays (stays_blank w b (t := []) (by simp [Flush]) (by simp))
  simpa [removeClauses] using hstays

theorem closed_blank (b : Blank) : Closed b.val := by
  have hdrop := closed_of_flush (b := b) (t := []) (by simp [Flush]) (by simp)
  rwa [List.append_nil] at hdrop

/-- Of the text of a marker with its clauses at the ends, the text of what is kept is left. -/
theorem strip_removeClauses {m : Marker .disjunction} {before after : Blank} (hspaced : m.Spaced)
    (hquiet : m.Quiet after.val) (hends : m.onlyClauses = true ∨ m.ClausesAtEnds) :
    strip (removeClauses 0 false (before.val ++ (m.text ++ after.val))) =
      (m.kept.map Marker.text).getD [] := by
  rw [removeClauses_of_stays (stays_blank false before (m.operandText.flush _)
    (m.operandText.head_ne _))]
  rcases hends with honly | hends
  · cases m with
    | whole m =>
      have hgone := removeClauses_onlyClauses (closed_blank after) m honly hspaced (s := [])
        fun e t => matchClause_clause (behind false before.val) e t
      rw [List.nil_append] at hgone
      show strip (before.val ++ removeClauses 0 _ (m.text ++ after.val)) = _
      rw [hgone, removeClauses_blank, strip_blank, Marker.kept, m.kept_of_onlyClauses honly]
      rfl
    | or => cases honly
  · obtain ⟨kept, hkept, hleft⟩ := m.removeClauses_text hends hspaced hquiet
      (fun _ => closed_blank after) (behind false before.val)
    rw [hleft, removeClauses_blank, strip_text kept.operandText, hkept]
    rfl

/-- How a requirement with a marker is taken apart. -/
theorem keptRequirement_marked {extras : List Str} {requirement spec text : Str}
    (h : partition (ch ';') requirement = some (spec, text)) :
    keptRequirement extras requirement =
      match searchExtra text with
      | none => some requirement
      | some extra =>
        if extra ∈ extras then
          let rest := strip (removeClauses 0 false text)
          some (if rest = [] then strip spec else strip spec ++ str "; " ++ rest)
        else none := by
  rw [keptRequirement, before, h]
  rfl

/-- The search looks at the first clause of the marker only. -/
theorem searchExtra_reads {m : Marker .disjunction} {before after : Blank}
    (hquiet : m.QuietStart after.val) :
    searchExtra (before.val ++ (m.text ++ after.val)) = m.names.head? := by
  rw [searchExtra_of_not_mem before.not_mem, Marker.searchExtra_text hquiet]
  have hnone := searchExtra_of_not_mem after.not_mem []
  rw [List.append_nil] at hnone
  rw [hnone, searchExtra, Option.or_none]

/-- A line is dropped when the first clause of its marker names an extra that is not selected,
whatever else the marker says. -/
theorem keptRequirement_eq_none_iff {line : RequiresDist} {extras : List Str}
    (hquiet : ∀ m ∈ line.marker, ∀ after : Blank, m.QuietStart after.val) :
    keptRequirement extras line.requirement = none ↔
      ∃ m ∈ line.marker, ∃ name ∈ m.names.head?, name ∉ extras := by
  obtain ⟨requirement, spec, marker, hreads⟩ := line
  cases hreads with
  | bare hnone => simp [keptRequirement, partition_eq_none_iff.mpr hnone, searchExtra]
  | @marked spec text m hpartition hm =>
    obtain ⟨_, before, after, rfl⟩ := hm
    rw [keptRequirement_marked hpartition, searchExtra_reads (hquiet m rfl after)]
    cases hname : m.names.head? with
    | none => simp [hname]
    | some name => by_cases hin : name ∈ extras <;> simp [hname, hin]

theorem contexts_any_const (extras : List Str) (b : Bool) :
    ((contexts extras).any fun _ => b) = b := by
  cases b with
  | false => simp
  | true => rfl

def oneSpace : Blank := ⟨str " ", fun c hc => by
  obtain rfl := List.mem_singleton.mp hc
  decide⟩

/-- What is written for a line, with what is kept of its marker, is read that way. -/
theorem readsAs_kept {requirement spec text : Str} {m : Marker .disjunction}
    (h : partition (ch ';') requirement = some (spec, text))
    (hkept : ∀ kept ∈ m.kept, kept.Spaced) :
    ReadsAs (if (m.kept.map Marker.text).getD [] = [] then strip spec
      else strip spec ++ str "; " ++ (m.kept.map Marker.text).getD []) (strip spec) m.kept := by
  have hspec : ch ';' ∉ strip spec := fun hc =>
    (partition_eq_some_iff.mp h).2 (mem_of_mem_strip hc)
  cases hk : m.kept with
  | none =>
    have hbare := ReadsAs.bare hspec
    rwa [strip_strip] at hbare
  | some kept =>
    have hne : kept.text ≠ [] := kept.operandText.ne_nil
    have hparts : partition (ch ';') (strip spec ++ str "; " ++ kept.text) =
        some (strip spec, str " " ++ kept.text) := by
      rw [List.append_assoc]
      exact partition_append_cons hspec
    have hmarked := ReadsAs.marked (m := kept) hparts
      ⟨hkept kept hk, oneSpace, ⟨[], by simp⟩, by simp [oneSpace]⟩
    rw [strip_strip] at hmarked
    simpa [hne] using hmarked

/-- A line that the patterns handle is kept exactly when it is needed, and says then what it
should. -/
theorem RequiresDist.Handled.kept {line : RequiresDist} {extras : List Str}
    (h : line.Handled extras) :
    match keptRequirement extras line.requirement with
    | none => ¬line.Needed extras
    | some kept => line.Needed extras ∧ line.KeptAs extras kept := by
  obtain ⟨requirement, spec, marker, hreads⟩ := line
  cases hreads with
  | bare hnone =>
    have hpartition := partition_eq_none_iff.mpr hnone
    have hall : ∀ env, (contexts extras).any (fun asked => holdsIn env asked none) = true :=
      fun _ => contexts_any_const extras true
    rw [keptRequirement, hpartition]
    refine ⟨⟨fun _ => true, hall _⟩, none, .bare hnone, fun env asked => (hall env).symm⟩
  | @marked spec text m hpartition hm =>
    obtain ⟨hspaced, before, after, rfl⟩ := hm
    have hquiet := h.quiet m rfl
    have hfirst := h.marker m rfl
    rw [keptRequirement_marked hpartition, searchExtra_reads (hquiet after)]
    cases hname : m.names.head? with
    | none =>
      -- no clause: the line is kept as it is, and no extra matters
      have hnil : m.names = [] := List.head?_eq_none_iff.mp hname
      have hsame : ∀ env, (contexts extras).any (m.eval env) = m.eval env fun _ => true := by
        intro env
        rw [funext (Marker.eval_of_names_eq_nil hnil env)]
        exact contexts_any_const extras _
      refine ⟨⟨fun _ => true, (hsame _).trans m.eval_true⟩, some m,
        .marked hpartition ⟨hspaced, before, after, rfl⟩, fun env asked => ?_⟩
      exact (Marker.eval_of_names_eq_nil hnil env asked).trans (hsame env).symm
    | some name =>
      have hhandled := hfirst name hname
      by_cases hin : name ∈ extras
      · rw [if_pos hin] at hhandled
        obtain ⟨hquiet, hends, hkept, hsame⟩ := hhandled
        simp only [hin, if_true, strip_removeClauses hspaced (hquiet after) hends]
        refine ⟨⟨fun _ => true, (hsame _).symm.trans m.eval_true⟩, m.kept,
          readsAs_kept hpartition hkept, fun env asked => ?_⟩
        exact (m.eval_kept env asked).trans (hsame env)
      · rw [if_neg hin] at hhandled
        simp only [hin, if_false]
        show ¬∃ env, (contexts extras).any (m.eval env) = true
        rw [needed_iff, not_not]
        exact hhandled

end EsphomeMcp.Vendor
