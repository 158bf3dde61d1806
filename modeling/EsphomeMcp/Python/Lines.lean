import EsphomeMcp.Python.Str
import Mathlib.Data.List.DropRight

/-!
# Lines and fields

`str.splitlines`, and texts of fields with commas between them: `split(",")` with every part
stripped and the empty ones left out, and `",".join`, which it undoes.
-/

namespace Py

/-! ## Lines -/

/-- The code points at which `str.splitlines` cuts. -/
def isLineBreak (c : CodePoint) : Bool :=
  (0x0A ≤ c.val ∧ c.val ≤ 0x0D) ∨ (0x1C ≤ c.val ∧ c.val ≤ 0x1E) ∨ c.val = 0x85 ∨
  c.val = 0x2028 ∨ c.val = 0x2029

/-- The loop of `str.splitlines`; `line` is what was read since the last line break. A `\n` right
behind a `\r` belongs to the same line break. -/
def linesFrom (line : Str) (afterCr : Bool) : Str → List Str
  | [] => if line = [] then [] else [line]
  | c :: s =>
    if afterCr ∧ c = ch '\n' then linesFrom [] false s
    else if isLineBreak c then line :: linesFrom [] (c = ch '\r') s
    else linesFrom (line ++ [c]) false s

/-- `s.splitlines()`. -/
def splitlines (s : Str) : List Str := linesFrom [] false s

/-- There are no line breaks in a line. -/
theorem not_isLineBreak_of_mem_splitlines {s line : Str} (h : line ∈ splitlines s) :
    ∀ c ∈ line, isLineBreak c = false := by
  have hfrom (s read : Str) (afterCr : Bool) (hread : ∀ c ∈ read, isLineBreak c = false)
      (h : line ∈ linesFrom read afterCr s) : ∀ c ∈ line, isLineBreak c = false := by
    induction s generalizing read afterCr with
    | nil =>
      rw [linesFrom] at h
      split_ifs at h
      · cases h
      · exact List.mem_singleton.mp h ▸ hread
    | cons d s ih =>
      rw [linesFrom] at h
      split_ifs at h with hskip hbreak
      · exact ih [] false (by simp) h
      · rcases List.mem_cons.mp h with rfl | h
        · exact hread
        · exact ih [] _ (by simp) h
      · refine ih (read ++ [d]) false (fun c hc => ?_) h
        rcases List.mem_append.mp hc with hc | hc
        · exact hread c hc
        · rw [List.mem_singleton.mp hc, ← Bool.not_eq_true]
          exact hbreak
  exact hfrom s [] false (by simp) h

/-- A line that ends in `\n` is read as it is. -/
theorem splitlines_append {line : Str} (h : ∀ c ∈ line, isLineBreak c = false) (s : Str) :
    splitlines (line ++ ch '\n' :: s) = line :: splitlines s := by
  have hfrom (line read : Str) (h : ∀ c ∈ line, isLineBreak c = false) :
      linesFrom read false (line ++ ch '\n' :: s) = (read ++ line) :: linesFrom [] false s := by
    induction line generalizing read with
    | nil => simp [linesFrom, isLineBreak, ch]
    | cons c line ih =>
      have hc := h c List.mem_cons_self
      rw [List.cons_append, linesFrom, if_neg (by simp), if_neg (by simp [hc]),
        ih (read ++ [c]) fun d hd => h d (List.mem_cons_of_mem _ hd), List.append_assoc]
      rfl
  exact hfrom line [] h

/-- Lines that are joined are read back. -/
theorem mem_splitlines_intercalate {lines : List Str}
    (h : ∀ line ∈ lines, ∀ c ∈ line, isLineBreak c = false) {line : Str} (hline : line ∈ lines) :
    line ∈ splitlines ([ch '\n'].intercalate lines ++ [ch '\n']) := by
  induction lines with
  | nil => cases hline
  | cons first lines ih =>
    have hfirst := h first List.mem_cons_self
    cases lines with
    | nil =>
      obtain rfl := List.mem_singleton.mp hline
      rw [List.intercalate_singleton, splitlines_append hfirst]
      exact List.mem_cons_self
    | cons second lines =>
      rw [List.intercalate_cons_cons, List.append_assoc, List.append_assoc, List.singleton_append,
        splitlines_append hfirst]
      rcases List.mem_cons.mp hline with rfl | hline
      · exact List.mem_cons_self
      · exact List.mem_cons_of_mem _ (ih (fun l hl => h l (List.mem_cons_of_mem _ hl)) hline)

/-- What reading in text mode makes of line ends: `\r\n` and `\r` become `\n`. -/
def universalNewlines (afterCr : Bool) : Str → Str
  | [] => []
  | c :: s =>
    if c = ch '\r' then ch '\n' :: universalNewlines true s
    else if afterCr ∧ c = ch '\n' then universalNewlines false s
    else c :: universalNewlines false s

theorem not_mem_universalNewlines (afterCr : Bool) (s : Str) :
    ch '\r' ∉ universalNewlines afterCr s := by
  induction s generalizing afterCr with
  | nil => exact List.not_mem_nil
  | cons c s ih =>
    rw [universalNewlines]
    split_ifs with hc
    · exact List.not_mem_cons_of_ne_of_not_mem (by decide) (ih true)
    · exact ih false
    · exact List.not_mem_cons_of_ne_of_not_mem (Ne.symm hc) (ih false)

/-- A text without carriage returns is read as it is. -/
theorem universalNewlines_eq_self {s : Str} (h : ch '\r' ∉ s) : universalNewlines false s = s := by
  induction s with
  | nil => rfl
  | cons c s ih =>
    rw [List.mem_cons, not_or] at h
    rw [universalNewlines, if_neg (Ne.symm h.1), if_neg (fun hcr => Bool.false_ne_true hcr.1),
      ih h.2]

/-! ## White space at the ends -/

/-- Stripping a stripped text changes nothing: its first and last characters are no white space. -/
theorem strip_strip (s : Str) : strip (strip s) = strip s := by
  have hleft : lstrip isSpace (strip s) = strip s := by
    cases ht : strip s with
    | nil => rfl
    | cons c t =>
      -- the first character is the one at which the left end was cut
      have hle : c :: t <+: s.dropWhile isSpace :=
        ht ▸ List.rdropWhile_prefix isSpace (s.dropWhile isSpace)
      obtain ⟨rest, hrest⟩ := hle
      have hc : ¬ isSpace c = true := by
        have hhead := List.head?_dropWhile_not isSpace s
        rw [← hrest, List.cons_append, List.head?_cons] at hhead
        simpa using hhead
      exact List.dropWhile_cons_of_neg hc
  show rstrip isSpace (lstrip isSpace (strip s)) = strip s
  rw [hleft]
  exact List.rdropWhile_idempotent isSpace (lstrip isSpace s)

theorem mem_of_mem_strip {s : Str} {c : CodePoint} (h : c ∈ strip s) : c ∈ s := by
  have hl : c ∈ lstrip isSpace s :=
    List.mem_reverse.mp ((List.dropWhile_sublist _).mem (List.mem_reverse.mp h))
  exact (List.dropWhile_sublist _).mem hl

/-! ## Fields -/

theorem not_mem_of_mem_splitOn {c : CodePoint} {s seg : Str} (h : seg ∈ s.splitOn c) : c ∉ seg := by
  induction s generalizing seg with
  | nil =>
    obtain rfl : seg = [] := by simpa using h
    simp
  | cons x s ih =>
    rw [List.splitOn_cons_eq_if_modifyHead] at h
    split_ifs at h with hx
    · rcases List.mem_cons.mp h with rfl | h
      · simp
      · exact ih h
    · cases hs : s.splitOn c with
      | nil => exact absurd hs (List.splitOn_ne_nil c s)
      | cons t ts =>
        rw [hs, List.modifyHead_cons] at h
        rcases List.mem_cons.mp h with rfl | h
        · rw [List.mem_cons, not_or]
          exact ⟨fun he => hx (by simp [he]), ih (by simp [hs])⟩
        · exact ih (by simp [hs, h])

/-- What stands between commas, without the white space around it and without empty parts. -/
def commaFields (s : Str) : List Str := ((s.splitOn (ch ',')).map strip).filter (· ≠ [])

/-- `",".join(..)`. -/
def joinCommas (fields : List Str) : Str := [ch ','].intercalate fields

/-- A joined text has the commas and the characters of its fields. -/
theorem mem_joinCommas {fields : List Str} {c : CodePoint} :
    (c ∈ joinCommas fields → c = ch ',' ∨ ∃ f ∈ fields, c ∈ f) ∧
    ((∃ f ∈ fields, c ∈ f) → c ∈ joinCommas fields) := by
  induction fields with
  | nil => simp [joinCommas]
  | cons f fields ih =>
    cases fields with
    | nil =>
      simp only [joinCommas, List.intercalate_singleton, List.mem_singleton, exists_eq_left]
      exact ⟨.inr, id⟩
    | cons g fields =>
      rw [joinCommas, List.intercalate_cons_cons, ← joinCommas]
      constructor
      · intro h
        rcases List.mem_append.mp h with h | h
        · rcases List.mem_append.mp h with h | h
          · exact .inr ⟨f, List.mem_cons_self, h⟩
          · exact .inl (List.mem_singleton.mp h)
        · exact (ih.1 h).imp_right fun ⟨k, hk, hc⟩ => ⟨k, List.mem_cons_of_mem _ hk, hc⟩
      · intro ⟨k, hk, hc⟩
        rcases List.mem_cons.mp hk with rfl | hk
        · simp [hc]
        · exact List.mem_append_right _ (ih.2 ⟨k, hk, hc⟩)

/-- A text that `commaFields` can yield. -/
structure IsField (s : Str) : Prop where
  ne_nil : s ≠ []
  comma : ch ',' ∉ s
  strip : strip s = s

theorem isField_of_mem_commaFields {s f : Str} (h : f ∈ commaFields s) : IsField f := by
  obtain ⟨hmem, hne⟩ := List.mem_filter.mp h
  obtain ⟨part, hpart, rfl⟩ := List.mem_map.mp hmem
  refine ⟨of_decide_eq_true hne, fun hc => ?_, strip_strip part⟩
  exact not_mem_of_mem_splitOn hpart (mem_of_mem_strip hc)

theorem mem_of_mem_commaFields {s f : Str} (h : f ∈ commaFields s) {c : CodePoint} (hc : c ∈ f) :
    c ∈ s := by
  obtain ⟨part, hpart, rfl⟩ := List.mem_map.mp (List.mem_filter.mp h).1
  have hin : c ∈ joinCommas (s.splitOn (ch ',')) :=
    mem_joinCommas.2 ⟨part, hpart, mem_of_mem_strip hc⟩
  rwa [joinCommas, List.intercalate_splitOn] at hin

/-- Joined fields are read back. -/
theorem commaFields_joinCommas {fields : List Str} (h : ∀ f ∈ fields, IsField f) :
    commaFields (joinCommas fields) = fields := by
  by_cases hne : fields = []
  · subst hne
    decide
  · rw [commaFields, joinCommas, List.splitOn_intercalate (ch ',') (fun f hf => (h f hf).comma) hne]
    have hmap : fields.map strip = fields :=
      (List.map_congr_left fun f hf => (h f hf).strip).trans (List.map_id _)
    rw [hmap, List.filter_eq_self]
    exact fun f hf => decide_eq_true (h f hf).ne_nil

end Py
