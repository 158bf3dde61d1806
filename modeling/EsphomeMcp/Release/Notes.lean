import EsphomeMcp.Python.Lines

/-!
# Release notes of a pull request

`extract_release_notes`: the one section under `## Release notes` of a pull request body. Both of
its scans keep the fence they are in, and they close it at any marker line of the same character
that is long enough, also where text follows the marker. `oneSection_iff` says of which bodies the
result is right by the rule that only blanks may follow.
-/

namespace EsphomeMcp.Release

open Py

/-! ## Definitions -/

/-- A character of `[ \t]`. -/
def isBlank (c : CodePoint) : Bool := c = ch ' ' ∨ c = ch '\t'

/-- `s.find(sub)`, with `none` when `sub` does not occur. -/
def find (sub : Str) : Str → Option ℕ
  | [] => if sub = [] then some 0 else none
  | c :: s => if startsWith (c :: s) sub then some 0 else (find sub s).map (· + 1)

/-- The length of the match of `_HTML_COMMENT_RE` at the start of a text, or 0. -/
def commentLength (s : Str) : ℕ :=
  if startsWith s (str "<!--") then
    match find (str "-->") (s.drop 4) with
    | some n => n + 7
    | none => 0
  else 0

/-- `_HTML_COMMENT_RE.sub("", s)`, with the number of characters still to be left out. -/
def withoutComments : ℕ → Str → Str
  | _, [] => []
  | skip + 1, _ :: s => withoutComments skip s
  | 0, c :: s =>
    match commentLength (c :: s) with
    | n + 1 => withoutComments n s
    | 0 => c :: withoutComments 0 s

/-- `_fence_marker`. -/
def fenceMarker (line : Str) : Option Str :=
  match line.dropWhile isBlank with
  | [] => none
  | c :: rest =>
    let marker := (c :: rest).takeWhile (· = c)
    if (c = ch '\x60' ∨ c = ch '~') ∧ 3 ≤ marker.length then some marker else none

/-- The text of a line behind its fence marker. -/
def behindMarker (line marker : Str) : Str := (line.dropWhile isBlank).drop marker.length

/-- A marker closes the fence in the scans. -/
def closesFence (active marker _line : Str) : Bool :=
  marker.head? = active.head? ∧ active.length ≤ marker.length

/-- `active_fence` after a line with a marker. -/
def nextFence (closes : Str → Str → Str → Bool) (active : Option Str) (marker line : Str) :
    Option Str :=
  match active with
  | none => some marker
  | some fence => if closes fence marker line then none else some fence

/-- A letter of `_RELEASE_HEADING_RE`, which ignores case: `ſ` counts as an `s`. -/
def isLetter (letter c : CodePoint) : Bool :=
  asciiLower c = letter ∨ (letter = ch 's' ∧ c.val = 0x17F)

/-- `release notes`, in any case, with blanks behind it. -/
def isPhrase : Str → Str → Bool
  | [], s => s.all isBlank
  | _ :: _, [] => false
  | letter :: phrase, c :: s => isLetter letter c && isPhrase phrase s

/-- `_RELEASE_HEADING_RE.fullmatch(line.strip())`. -/
def isReleaseHeading (line : Str) : Bool :=
  match strip line with
  | a :: b :: c :: s =>
    a = ch '#' && b = ch '#' && isBlank c && isPhrase (str "release notes") (s.dropWhile isBlank)
  | _ => false

/-- `_TOP_LEVEL_HEADING_RE.match(line.strip())`. -/
def isTopLevelHeading (line : Str) : Bool :=
  match (strip line).takeWhile (· = ch '#') with
  | [_] => ((strip line).drop 1).head?.all isBlank
  | [_, _] => ((strip line).drop 2).head?.all isBlank
  | _ => false

/-- The first scan: `section_starts`. -/
def sectionStarts : ℕ → Option Str → List Str → List ℕ
  | _, _, [] => []
  | index, active, line :: lines =>
    match fenceMarker line with
    | some marker => sectionStarts (index + 1) (nextFence closesFence active marker line) lines
    | none =>
      if active = none ∧ isReleaseHeading line then index :: sectionStarts (index + 1) active lines
      else sectionStarts (index + 1) active lines

/-- The second scan: `end`. -/
def sectionEnd : ℕ → Option Str → List Str → ℕ
  | index, _, [] => index
  | index, active, line :: lines =>
    match fenceMarker line with
    | some marker => sectionEnd (index + 1) (nextFence closesFence active marker line) lines
    | none =>
      if active = none ∧ isTopLevelHeading line then index
      else sectionEnd (index + 1) active lines

/-- `start` and `end`, or the message of the `ReleaseNotesError`. -/
def sectionBounds (lines : List Str) : Except Str (ℕ × ℕ) :=
  match sectionStarts 0 none lines with
  | [] => .error (str "pull request body is missing a '## Release notes' section")
  | [heading] => .ok (heading + 1, sectionEnd (heading + 1) none (lines.drop (heading + 1)))
  | _ => .error (str "pull request body contains multiple '## Release notes' sections")

/-- `"\n".join(lines[start:end]).strip()`. -/
def sectionText (lines : List Str) (start stop : ℕ) : Str :=
  strip ([ch '\n'].intercalate ((lines.take stop).drop start))

/-- `re.sub(r"[^a-z0-9]+", " ", s)`; the flag says that the last character was replaced. -/
def collapsed : Bool → Str → Str
  | _, [] => []
  | afterGap, c :: s =>
    if isDigit c ∨ (0x61 ≤ c.val ∧ c.val ≤ 0x7A) then c :: collapsed false s
    else if afterGap then collapsed true s
    else ch ' ' :: collapsed true s

/-- `_EMPTY_RELEASE_NOTES`. -/
def emptyReleaseNotes : List Str :=
  [str "n a", str "na", str "no release notes", str "none", str "not applicable"]

/-- The notes are one of the placeholders; `casefold` is `str.casefold`. -/
def isPlaceholder (casefold : Str → Str) (notes : Str) : Bool :=
  strip (collapsed false (casefold notes)) ∈ emptyReleaseNotes

/-- `lines`. -/
def bodyLines (body : Str) : List Str := splitlines (withoutComments 0 body)

/-- `extract_release_notes`. -/
def extractReleaseNotes (casefold : Str → Str) (body : Str) : Except Str Str := do
  let (start, stop) ← sectionBounds (bodyLines body)
  let notes := sectionText (bodyLines body) start stop
  if notes = [] then .error (str "the '## Release notes' section is empty")
  else if isPlaceholder casefold notes then
    .error (str "the '## Release notes' section must describe what changed")
  else return notes

/-! ## Sections by either closing rule -/

/-- A marker closes the fence in CommonMark: only blanks follow it. -/
def closesCommonMark (active marker line : Str) : Bool :=
  closesFence active marker line && (behindMarker line marker).all isBlank

section

variable (closes : Str → Str → Str → Bool) (lines : List Str)

/-- The fence that is open after a line. -/
def fenceStep (active : Option Str) (line : Str) : Option Str :=
  match fenceMarker line with
  | some marker => nextFence closes active marker line
  | none => active

/-- The fence that is open before a line. -/
def fenceBefore (i : ℕ) : Option Str := (lines.take i).foldl (fenceStep closes) none

/-- A `## Release notes` heading outside fenced code. -/
def IsReleaseHeading (i : ℕ) : Prop :=
  ∃ line, lines[i]? = some line ∧ isReleaseHeading line = true ∧ fenceBefore closes lines i = none

/-- A level-1 or level-2 heading outside fenced code. -/
def IsSectionHeading (i : ℕ) : Prop :=
  ∃ line, lines[i]? = some line ∧ isTopLevelHeading line = true ∧
    fenceBefore closes lines i = none

/-- The section whose text starts at a line ends before another. -/
structure EndsAt (start stop : ℕ) : Prop where
  le : start ≤ stop
  le_length : stop ≤ lines.length
  inside : ∀ i, start ≤ i → i < stop → ¬IsSectionHeading closes lines i
  atEnd : stop = lines.length ∨ IsSectionHeading closes lines stop

end

/-- The notes are the text of the only section of release notes, by the rule of CommonMark, and the
lines they are made of are its lines. -/
def IsOneSection (lines : List Str) (notes : Str) : Prop :=
  ∃ heading stop, sectionBounds lines = .ok (heading + 1, stop) ∧
    (∀ i, IsReleaseHeading closesCommonMark lines i ↔ i = heading) ∧
    EndsAt closesCommonMark lines (heading + 1) stop ∧
    notes = sectionText lines (heading + 1) stop

/-- By the closing rule of the scans there is one section, and it has notes that say something. -/
def IsPublishable (casefold : Str → Str) (lines : List Str) : Prop :=
  ∃ heading stop, (∀ i, IsReleaseHeading closesFence lines i ↔ i = heading) ∧
    EndsAt closesFence lines (heading + 1) stop ∧
    sectionText lines (heading + 1) stop ≠ [] ∧
    isPlaceholder casefold (sectionText lines (heading + 1) stop) = false

/-- Both closing rules leave the same headings outside fences: every heading of release notes, and
behind it the level-1 and level-2 headings up to the first that ends the section. -/
structure FencesAgree (lines : List Str) : Prop where
  headings : ∀ i line, lines[i]? = some line → isReleaseHeading line = true →
    (fenceBefore closesFence lines i = none ↔ fenceBefore closesCommonMark lines i = none)
  sections : ∀ heading i line, IsReleaseHeading closesFence lines heading → heading < i →
    (∀ j, heading < j → j < i → ¬IsSectionHeading closesFence lines j) →
    lines[i]? = some line → isTopLevelHeading line = true →
    (fenceBefore closesFence lines i = none ↔ fenceBefore closesCommonMark lines i = none)

/-! ## Headings are no fences -/

theorem isSpace_of_isBlank {c : CodePoint} (h : isBlank c = true) : isSpace c = true := by
  rcases of_decide_eq_true h with rfl | rfl <;> decide

/-- White space at the ends is all that `strip` takes. -/
theorem head?_strip {line rest : Str} {c : CodePoint} (hc : isSpace c = false)
    (h : line.dropWhile isBlank = c :: rest) : (strip line).head? = some c := by
  have hleft : lstrip isSpace line = c :: rest := by
    have hblanks : ∀ d ∈ line.takeWhile isBlank, isSpace d = true := fun d hd =>
      isSpace_of_isBlank (List.mem_takeWhile_imp hd)
    have hline : line = line.takeWhile isBlank ++ c :: rest := by
      rw [← h, List.takeWhile_append_dropWhile]
    rw [lstrip, hline, List.dropWhile_append_of_pos hblanks,
      List.dropWhile_cons_of_neg (by rw [hc]; exact Bool.false_ne_true)]
  have hstart : strip line <+: c :: rest := hleft ▸ List.rdropWhile_prefix _ _
  cases hs : strip line with
  | nil =>
    have hall := List.rdropWhile_eq_nil_iff.mp hs
    rw [hleft] at hall
    exact absurd (hall c List.mem_cons_self) (by rw [hc]; exact Bool.false_ne_true)
  | cons d s =>
    rw [hs, List.cons_prefix_cons] at hstart
    rw [hstart.1]
    rfl

/-- A line with a fence marker starts with a character of the marker. -/
theorem head?_of_fenceMarker {line marker : Str} (h : fenceMarker line = some marker) :
    (strip line).head? = some (ch '\x60') ∨ (strip line).head? = some (ch '~') := by
  rw [fenceMarker] at h
  split at h
  · cases h
  · next c rest hline =>
    dsimp only at h
    split_ifs at h with hc
    rcases hc.1 with rfl | rfl
    · exact .inl (head?_strip (by decide) hline)
    · exact .inr (head?_strip (by decide) hline)

theorem fenceMarker_of_head? {line : Str} (h : (strip line).head? = some (ch '#')) :
    fenceMarker line = none := by
  rw [Option.eq_none_iff_forall_ne_some]
  intro marker hmarker
  rcases head?_of_fenceMarker hmarker with hc | hc
  · exact absurd (h.symm.trans hc) (by decide)
  · exact absurd (h.symm.trans hc) (by decide)

theorem fenceMarker_of_isReleaseHeading {line : Str} (h : isReleaseHeading line = true) :
    fenceMarker line = none := by
  apply fenceMarker_of_head?
  rw [isReleaseHeading] at h
  split at h
  · next a b c s hline =>
    simp only [Bool.and_eq_true, decide_eq_true_eq] at h
    rw [hline, h.1.1.1]
    rfl
  · cases h

theorem fenceMarker_of_isTopLevelHeading {line : Str} (h : isTopLevelHeading line = true) :
    fenceMarker line = none := by
  apply fenceMarker_of_head?
  rw [isTopLevelHeading] at h
  cases hline : strip line with
  | nil =>
    rw [hline] at h
    cases h
  | cons c s =>
    rw [hline] at h
    by_cases hc : c = ch '#'
    · rw [hc]
      rfl
    · rw [List.takeWhile_cons_of_neg (by simpa using hc)] at h
      cases h

/-! ## The two scans -/

/-- The fence that is open after some lines. -/
def fenceAfter (closes : Str → Str → Str → Bool) (active : Option Str) (lines : List Str) :
    Option Str :=
  lines.foldl (fenceStep closes) active

/-- A heading of a kind, when a scan starts in a given fence. -/
def HeadingFrom (isHeading : Str → Bool) (active : Option Str) (lines : List Str) (i : ℕ) : Prop :=
  ∃ line, lines[i]? = some line ∧ isHeading line = true ∧
    fenceAfter closesFence active (lines.take i) = none

section

variable {isHeading : Str → Bool} {active : Option Str} {line : Str} {lines : List Str}

theorem headingFrom_zero : HeadingFrom isHeading active (line :: lines) 0 ↔
    isHeading line = true ∧ active = none := by
  simp [HeadingFrom, fenceAfter]

/-- The first scan collects the headings of release notes, each once. -/
theorem mem_sectionStarts {index j : ℕ} :
    j ∈ sectionStarts index active lines ↔
      ∃ i, j = index + i ∧ HeadingFrom isReleaseHeading active lines i := by
  induction lines generalizing index active with
  | nil => simp [sectionStarts, HeadingFrom]
  | cons line lines ih =>
    -- the first line, or one behind it
    have hsplit : (∃ i, j = index + i ∧ HeadingFrom isReleaseHeading active (line :: lines) i) ↔
        (j = index ∧ isReleaseHeading line = true ∧ active = none) ∨
          j ∈ sectionStarts (index + 1) (fenceStep closesFence active line) lines := by
      rw [ih]
      constructor
      · rintro ⟨i, rfl, hi⟩
        cases i with
        | zero => exact .inl ⟨rfl, headingFrom_zero.mp hi⟩
        | succ i => exact .inr ⟨i, by omega, hi⟩
      · rintro (⟨rfl, hi⟩ | ⟨i, rfl, hi⟩)
        · exact ⟨0, rfl, headingFrom_zero.mpr hi⟩
        · exact ⟨i + 1, by omega, hi⟩
    rw [hsplit, sectionStarts]
    cases hmarker : fenceMarker line with
    | some marker =>
      have hstep : fenceStep closesFence active line = nextFence closesFence active marker line := by
        rw [fenceStep, hmarker]
      have hnot : isReleaseHeading line = false := by
        by_contra h
        rw [Bool.not_eq_false] at h
        exact absurd (hmarker.symm.trans (fenceMarker_of_isReleaseHeading h)) nofun
      simp [hstep, hnot]
    | none =>
      have hstep : fenceStep closesFence active line = active := by rw [fenceStep, hmarker]
      simp only [hstep]
      split_ifs with hheading
      · rw [List.mem_cons, and_iff_left hheading.symm]
      · rw [or_iff_right fun h => hheading h.2.symm]

/-- The headings come in order. -/
theorem pairwise_sectionStarts {index : ℕ} :
    (sectionStarts index active lines).Pairwise (· < ·) := by
  induction lines generalizing index active with
  | nil => exact List.Pairwise.nil
  | cons line lines ih =>
    rw [sectionStarts]
    split
    · exact ih
    · split_ifs
      · rw [List.pairwise_cons]
        refine ⟨fun j hj => ?_, ih⟩
        obtain ⟨i, rfl, -⟩ := mem_sectionStarts.mp hj
        omega
      · exact ih

/-- The second scan stops at the first level-1 or level-2 heading. -/
theorem sectionEnd_spec (index : ℕ) (active : Option Str) (lines : List Str) :
    ∃ n, sectionEnd index active lines = index + n ∧ n ≤ lines.length ∧
      (∀ i < n, ¬HeadingFrom isTopLevelHeading active lines i) ∧
      (n = lines.length ∨ HeadingFrom isTopLevelHeading active lines n) := by
  induction lines generalizing index active with
  | nil => exact ⟨0, rfl, le_rfl, fun i hi => absurd hi (Nat.not_lt_zero i), .inl rfl⟩
  | cons line lines ih =>
    -- a line that does not end the section
    have hskip : ¬(isTopLevelHeading line = true ∧ active = none) →
        ∃ n, sectionEnd (index + 1) (fenceStep closesFence active line) lines = index + n ∧
          n ≤ (line :: lines).length ∧
          (∀ i < n, ¬HeadingFrom isTopLevelHeading active (line :: lines) i) ∧
          (n = (line :: lines).length ∨
            HeadingFrom isTopLevelHeading active (line :: lines) n) := by
      intro hnot
      obtain ⟨n, hn, hle, hinside, hend⟩ := ih (index + 1) (fenceStep closesFence active line)
      refine ⟨n + 1, by omega, Nat.succ_le_succ hle, ?_, hend.imp (congrArg (· + 1)) id⟩
      intro i hi
      cases i with
      | zero => exact fun h => hnot (headingFrom_zero.mp h)
      | succ i => exact hinside i (by omega)
    rw [sectionEnd]
    cases hmarker : fenceMarker line with
    | some marker =>
      have hstep : fenceStep closesFence active line = nextFence closesFence active marker line := by
        rw [fenceStep, hmarker]
      simp only
      rw [← hstep]
      apply hskip
      rintro ⟨hheading, -⟩
      exact absurd (hmarker.symm.trans (fenceMarker_of_isTopLevelHeading hheading)) nofun
    | none =>
      have hstep : fenceStep closesFence active line = active := by rw [fenceStep, hmarker]
      simp only
      split_ifs with hheading
      · exact ⟨0, rfl, Nat.zero_le _, fun i hi => absurd hi (Nat.not_lt_zero i),
          .inr (headingFrom_zero.mpr hheading.symm)⟩
      · rw [hstep] at hskip
        exact hskip fun h => hheading h.symm

end

/-! ## The bounds -/

section

variable {closes : Str → Str → Str → Bool} {lines : List Str}

theorem EndsAt.unique {start stop stop' : ℕ} (h : EndsAt closes lines start stop)
    (h' : EndsAt closes lines start stop') : stop = stop' := by
  have hle : ∀ {a b : ℕ}, EndsAt closes lines start a → EndsAt closes lines start b → b ≤ a := by
    intro a b ha hb
    by_contra hlt
    rcases ha.atEnd with hlast | hheading
    · have := hb.le_length
      omega
    · exact hb.inside a ha.le (by omega) hheading
  exact Nat.le_antisymm (hle h' h) (hle h h')

/-- Behind a heading outside fences no fence is open. -/
theorem fenceBefore_succ_of_isReleaseHeading {heading : ℕ}
    (h : IsReleaseHeading closes lines heading) : fenceBefore closes lines (heading + 1) = none := by
  obtain ⟨line, hline, hheading, hfence⟩ := h
  rw [fenceBefore, List.take_add_one, hline, List.foldl_append]
  show fenceStep closes (fenceBefore closes lines heading) line = none
  rw [fenceStep, fenceMarker_of_isReleaseHeading hheading, hfence]

/-- Where no fence is open a scan may start. -/
theorem fenceBefore_add {start : ℕ} (h : fenceBefore closes lines start = none) (i : ℕ) :
    fenceBefore closes lines (start + i) = fenceAfter closes none ((lines.drop start).take i) := by
  rw [fenceBefore, List.take_add, List.foldl_append]
  show fenceAfter closes (fenceBefore closes lines start) _ = _
  rw [h]

theorem headingFrom_iff_isReleaseHeading {i : ℕ} :
    HeadingFrom isReleaseHeading none lines i ↔ IsReleaseHeading closesFence lines i := Iff.rfl

theorem headingFrom_drop_iff {start i : ℕ} (h : fenceBefore closesFence lines start = none) :
    HeadingFrom isTopLevelHeading none (lines.drop start) i ↔
      IsSectionHeading closesFence lines (start + i) := by
  rw [HeadingFrom, IsSectionHeading, fenceBefore_add h, List.getElem?_drop]

theorem endsAt_sectionEnd {start : ℕ} (h : fenceBefore closesFence lines start = none)
    (hle : start ≤ lines.length) :
    EndsAt closesFence lines start (sectionEnd start none (lines.drop start)) := by
  obtain ⟨n, hn, hlen, hinside, hend⟩ := sectionEnd_spec start none (lines.drop start)
  rw [List.length_drop] at hlen hend
  rw [hn]
  refine ⟨Nat.le_add_right _ _, by omega, ?_, ?_⟩
  · intro i hi hlt hheading
    obtain ⟨k, rfl⟩ := Nat.exists_eq_add_of_le hi
    exact hinside k (by omega) ((headingFrom_drop_iff h).mpr hheading)
  · rcases hend with hlast | hheading
    · exact .inl (by omega)
    · exact .inr ((headingFrom_drop_iff h).mp hheading)

/-- The bounds are those of the only section, by the closing rule of the scans. -/
theorem sectionBounds_eq_ok_iff {start stop : ℕ} :
    sectionBounds lines = .ok (start, stop) ↔ ∃ heading, start = heading + 1 ∧
      (∀ i, IsReleaseHeading closesFence lines i ↔ i = heading) ∧
      EndsAt closesFence lines (heading + 1) stop := by
  have hmem : ∀ i, i ∈ sectionStarts 0 none lines ↔ IsReleaseHeading closesFence lines i := by
    intro i
    rw [mem_sectionStarts]
    simp [headingFrom_iff_isReleaseHeading]
  have hends : ∀ heading, IsReleaseHeading closesFence lines heading →
      EndsAt closesFence lines (heading + 1)
        (sectionEnd (heading + 1) none (lines.drop (heading + 1))) := by
    intro heading hheading
    have hlt : heading < lines.length := by
      obtain ⟨line, hline, -⟩ := hheading
      exact (List.getElem?_eq_some_iff.mp hline).1
    exact endsAt_sectionEnd (fenceBefore_succ_of_isReleaseHeading hheading) hlt
  rw [sectionBounds]
  constructor
  · intro h
    split at h
    · cases h
    · next heading hstarts =>
      obtain ⟨rfl, rfl⟩ := Prod.mk.inj (Except.ok.inj h)
      rw [hstarts] at hmem
      have honly : ∀ i, IsReleaseHeading closesFence lines i ↔ i = heading := by
        intro i
        rw [← hmem, List.mem_singleton]
      exact ⟨heading, rfl, honly, hends heading ((honly heading).mpr rfl)⟩
    · cases h
  · rintro ⟨heading, rfl, honly, hend⟩
    have hall : ∀ i ∈ sectionStarts 0 none lines, i = heading := fun i hi =>
      (honly i).mp ((hmem i).mp hi)
    have hin : heading ∈ sectionStarts 0 none lines := (hmem heading).mpr ((honly heading).mpr rfl)
    have hsorted : (sectionStarts 0 none lines).Pairwise (· < ·) := pairwise_sectionStarts
    match hstarts : sectionStarts 0 none lines with
    | [] =>
      rw [hstarts] at hin
      exact absurd hin List.not_mem_nil
    | [a] =>
      rw [hstarts] at hall
      obtain rfl := hall a List.mem_cons_self
      rw [hend.unique (hends a ((honly a).mpr rfl))]
    | a :: b :: rest =>
      rw [hstarts] at hall hsorted
      have hlt : a < b := (List.pairwise_cons.mp hsorted).1 b List.mem_cons_self
      rw [hall a List.mem_cons_self, hall b (List.mem_cons_of_mem _ List.mem_cons_self)] at hlt
      exact absurd hlt (lt_irrefl heading)

end

/-! ## The result -/

section

variable {casefold : Str → Str} {body notes : Str}

/-- What is returned: the text between the bounds, if it says something. -/
theorem extractReleaseNotes_eq_ok_iff : extractReleaseNotes casefold body = .ok notes ↔
    ∃ start stop, sectionBounds (bodyLines body) = .ok (start, stop) ∧
      notes = sectionText (bodyLines body) start stop ∧ notes ≠ [] ∧
      isPlaceholder casefold notes = false := by
  rw [extractReleaseNotes]
  cases hbounds : sectionBounds (bodyLines body) with
  | error message =>
    refine iff_of_false nofun ?_
    rintro ⟨start, stop, h, -⟩
    cases h
  | ok bounds =>
    obtain ⟨start, stop⟩ := bounds
    show (if sectionText (bodyLines body) start stop = [] then _ else _) = Except.ok notes ↔ _
    constructor
    · intro h
      split_ifs at h with hnil hplaceholder
      obtain rfl := Except.ok.inj h
      rw [Bool.not_eq_true] at hplaceholder
      exact ⟨start, stop, rfl, rfl, hnil, hplaceholder⟩
    · rintro ⟨start', stop', hsame, rfl, hnil, hplaceholder⟩
      obtain ⟨rfl, rfl⟩ := Prod.mk.inj (Except.ok.inj hsame)
      rw [if_neg hnil, hplaceholder]
      rfl

/-- Where the fences agree the section is the same by either rule. -/
theorem FencesAgree.isOneSection {lines : List Str} (h : FencesAgree lines) {heading stop : ℕ}
    (honly : ∀ i, IsReleaseHeading closesFence lines i ↔ i = heading)
    (hend : EndsAt closesFence lines (heading + 1) stop) :
    (∀ i, IsReleaseHeading closesCommonMark lines i ↔ i = heading) ∧
      EndsAt closesCommonMark lines (heading + 1) stop := by
  have hheading := (honly heading).mpr rfl
  -- a heading of the section is one by either rule, up to its end
  have hsame : ∀ i, heading < i → i ≤ stop →
      (IsSectionHeading closesFence lines i ↔ IsSectionHeading closesCommonMark lines i) := by
    intro i hi hle
    apply exists_congr
    intro line
    apply and_congr_right
    intro hline
    apply and_congr_right
    intro htop
    exact h.sections heading i line hheading hi (fun j hj hlt => hend.inside j hj (by omega))
      hline htop
  constructor
  · intro i
    rw [← honly i]
    apply exists_congr
    intro line
    apply and_congr_right
    intro hline
    apply and_congr_right
    intro hrelease
    exact (h.headings i line hline hrelease).symm
  · refine ⟨hend.le, hend.le_length, ?_, ?_⟩
    · intro i hi hlt hcommon
      exact hend.inside i hi hlt ((hsame i hi hlt.le).mpr hcommon)
    · exact hend.atEnd.imp_right (hsame stop hend.le le_rfl).mp

/-- Of a body that is published the result is the one section just when both closing rules leave
the same headings outside fences. -/
theorem oneSection_iff (casefold : Str → Str) (body : Str) :
    (∀ notes, extractReleaseNotes casefold body = .ok notes →
        IsOneSection (bodyLines body) notes) ↔
      (IsPublishable casefold (bodyLines body) → FencesAgree (bodyLines body)) := by
  generalize hlines : bodyLines body = lines
  constructor
  · rintro h ⟨heading, stop, honly, hend, hnil, hplaceholder⟩
    have hbounds : sectionBounds lines = .ok (heading + 1, stop) :=
      sectionBounds_eq_ok_iff.mpr ⟨heading, rfl, honly, hend⟩
    obtain ⟨heading', stop', hbounds', honly', hend', -⟩ := h _ (extractReleaseNotes_eq_ok_iff.mpr
      ⟨heading + 1, stop, hlines ▸ hbounds, rfl, hlines ▸ hnil, hlines ▸ hplaceholder⟩)
    obtain ⟨hheading, rfl⟩ := Prod.mk.inj (Except.ok.inj (hbounds.symm.trans hbounds'))
    obtain rfl := Nat.succ_injective hheading
    refine ⟨?_, ?_⟩
    · intro i line hline hrelease
      have hiff : IsReleaseHeading closesFence lines i ↔ IsReleaseHeading closesCommonMark lines i :=
        (honly i).trans (honly' i).symm
      constructor
      · intro hfence
        obtain ⟨line', hline', -, hcommon⟩ := hiff.mp ⟨line, hline, hrelease, hfence⟩
        exact hcommon
      · intro hcommon
        obtain ⟨line', hline', -, hfence⟩ := hiff.mpr ⟨line, hline, hrelease, hcommon⟩
        exact hfence
    · intro other i line hother hi hbefore hline htop
      obtain rfl := (honly other).mp hother
      have hlt : i < lines.length := (List.getElem?_eq_some_iff.mp hline).1
      have hle : i ≤ stop := by
        by_contra hgt
        rcases hend.atEnd with hlast | hheading
        · omega
        · exact hbefore stop hend.le (by omega) hheading
      rcases Nat.lt_or_eq_of_le hle with hinside | rfl
      -- inside the section no heading is outside a fence, and its end is, by either rule
      · refine iff_of_false ?_ ?_
        · exact fun hfence => hend.inside i hi hinside ⟨line, hline, htop, hfence⟩
        · exact fun hfence => hend'.inside i hi hinside ⟨line, hline, htop, hfence⟩
      · obtain ⟨-, -, -, hfence⟩ := hend.atEnd.resolve_left hlt.ne
        obtain ⟨-, -, -, hcommon⟩ := hend'.atEnd.resolve_left hlt.ne
        exact iff_of_true hfence hcommon
  · intro h notes hnotes
    obtain ⟨start, stop, hbounds, rfl, hnil, hplaceholder⟩ :=
      extractReleaseNotes_eq_ok_iff.mp hnotes
    rw [hlines] at hbounds hnil hplaceholder
    obtain ⟨heading, rfl, honly, hend⟩ := sectionBounds_eq_ok_iff.mp hbounds
    obtain ⟨honly', hend'⟩ :=
      (h ⟨heading, stop, honly, hend, hnil, hplaceholder⟩).isOneSection honly hend
    exact ⟨heading, stop, hbounds, honly', hend', hlines ▸ rfl⟩

/-- The rules leave the same fences open, and so agree, where every line that closes a fence in the
scans has nothing but blanks behind its marker. -/
theorem fencesAgree_of_blank {lines : List Str}
    (h : ∀ i line marker fence, lines[i]? = some line → fenceMarker line = some marker →
      fenceBefore closesFence lines i = some fence → closesFence fence marker line = true →
      (behindMarker line marker).all isBlank = true) : FencesAgree lines := by
  have hsame : ∀ i, fenceBefore closesFence lines i = fenceBefore closesCommonMark lines i := by
    intro i
    induction i with
    | zero => rfl
    | succ i ih =>
      cases hline : lines[i]? with
      | none =>
        have hlen : lines.length ≤ i := List.getElem?_eq_none_iff.mp hline
        rw [fenceBefore, fenceBefore, List.take_of_length_le (by omega),
          ← List.take_of_length_le hlen]
        exact ih
      | some line =>
        have hstep : ∀ closes, fenceBefore closes lines (i + 1) =
            fenceStep closes (fenceBefore closes lines i) line := by
          intro closes
          rw [fenceBefore, List.take_add_one, hline, List.foldl_append]
          rfl
        rw [hstep, hstep, ← ih, fenceStep, fenceStep]
        cases hmarker : fenceMarker line with
        | none => rfl
        | some marker =>
          cases hfence : fenceBefore closesFence lines i with
          | none => rfl
          | some fence =>
            have hcloses : closesCommonMark fence marker line = closesFence fence marker line := by
              rw [closesCommonMark, Bool.and_eq_left_iff_imp]
              exact h i line marker fence hline hmarker hfence
            simp only [nextFence, hcloses]
  exact ⟨fun i _ _ _ => by rw [hsame i], fun _ i _ _ _ _ _ _ => by rw [hsame i]⟩

end

/-- A fenced line with an info string: the scans take it for the end of the fence. -/
def infoStringBody : Str :=
  str "## Release notes\n- x\n\x60\x60\x60\n\x60\x60\x60python\n## Other\n\x60\x60\x60\n"

/-- The section is cut at a heading inside fenced code. -/
theorem not_oneSection_infoString :
    ¬∀ notes, extractReleaseNotes (List.map asciiLower) infoStringBody = .ok notes →
      IsOneSection (bodyLines infoStringBody) notes := by
  intro h
  have hlines : bodyLines infoStringBody = [str "## Release notes", str "- x", str "\x60\x60\x60",
      str "\x60\x60\x60python", str "## Other", str "\x60\x60\x60"] := by decide +kernel
  obtain ⟨heading, stop, hbounds, -, hend, -⟩ :=
    h (str "- x\n\x60\x60\x60\n\x60\x60\x60python") (by decide +kernel)
  have hcode : sectionBounds (bodyLines infoStringBody) = .ok (1, 4) := by decide +kernel
  obtain ⟨hheading, rfl⟩ := Prod.mk.inj (Except.ok.inj (hcode.symm.trans hbounds))
  rcases hend.atEnd with hlast | ⟨line, -, -, hfence⟩
  · rw [hlines] at hlast
    exact absurd hlast (by decide)
  · rw [hlines] at hfence
    exact absurd hfence (by decide +kernel)

end EsphomeMcp.Release
