import EsphomeMcp.Vendor.Supported

/-!
# The runtime requirements

`runtime_requirements` over all lines of a wheel: it keeps what the selected extras need if each
line is one that its patterns handle. What it keeps is written to a file of lines, and the merge for
the component manifest reads them back.
-/

namespace EsphomeMcp.Vendor

open Py

/-! ## Lines -/

/-- A text that is read back from a file of lines as it is. -/
structure IsLine (s : Str) : Prop where
  strip : strip s = s
  breaks : ∀ c ∈ s, isLineBreak c = false

theorem flush_dropWhile (s : Str) : Flush (s.dropWhile isSpace) := by
  intro c hc
  have hhead := List.head?_dropWhile_not isSpace s
  rw [Option.mem_def.mp hc] at hhead
  simpa using hhead

theorem Flush.append {s t : Str} (hs : Flush s) (ht : s = [] → Flush t) : Flush (s ++ t) := by
  cases s with
  | nil => exact ht rfl
  | cons c s => exact hs

/-- A stripped text has no white space at its ends. -/
theorem strip_eq_self_iff {s : Str} : strip s = s ↔ Flush s ∧ Flush s.reverse := by
  constructor
  · intro h
    constructor
    · intro c hc
      have hstart : strip s <+: s.dropWhile isSpace := List.rdropWhile_prefix isSpace _
      rw [h] at hstart
      obtain ⟨rest, hrest⟩ := hstart
      apply flush_dropWhile s
      rw [← hrest, Option.mem_def, List.head?_append, Option.mem_def.mp hc]
      rfl
    · rw [← h, strip, rstrip, List.reverse_reverse]
      exact flush_dropWhile _
  · rintro ⟨hstart, hend⟩
    have hdrop {s : Str} (h : Flush s) : s.dropWhile isSpace = s :=
      dropWhile_blank (b := []) (by simp) h
    rw [strip, lstrip, hdrop hstart, rstrip, hdrop hend, List.reverse_reverse]

/-- Removing clauses adds no character. -/
theorem mem_of_mem_removeClauses {skip : ℕ} {w : Bool} {s : Str} {c : CodePoint}
    (h : c ∈ removeClauses skip w s) : c ∈ s := by
  induction s generalizing skip w with
  | nil =>
    rw [removeClauses] at h
    exact h
  | cons d s ih =>
    cases skip with
    | succ skip => exact List.mem_cons_of_mem _ (ih h)
    | zero =>
      rw [removeClauses] at h
      split at h
      · exact List.mem_cons_of_mem _ (ih h)
      · rcases List.mem_cons.mp h with rfl | h
        · exact List.mem_cons_self
        · exact List.mem_cons_of_mem _ (ih h)

/-- What is appended for a line is a line. -/
theorem isLine_of_keptRequirement {extras : List Str} {requirement kept : Str}
    (h : keptRequirement extras requirement = some kept) (hline : IsLine requirement) :
    IsLine kept := by
  cases hpartition : partition (ch ';') requirement with
  | none =>
    rw [keptRequirement, hpartition] at h
    exact Option.some.inj h ▸ hline
  | some parts =>
    obtain ⟨spec, text⟩ := parts
    rw [keptRequirement_marked hpartition] at h
    have hbreaks : ∀ c, c ∈ spec ∨ c ∈ text → isLineBreak c = false := by
      intro c hc
      apply hline.breaks c
      rw [(partition_eq_some_iff.mp hpartition).1, List.mem_append, List.mem_cons]
      exact hc.imp_right .inr
    have hstripped (s : Str) : Flush (strip s) ∧ Flush (strip s).reverse :=
      strip_eq_self_iff.mp (strip_strip s)
    have hspec : ∀ c ∈ strip spec, isLineBreak c = false :=
      fun c hc => hbreaks c (.inl (mem_of_mem_strip hc))
    split at h
    · exact Option.some.inj h ▸ hline
    · split_ifs at h with hextra
      obtain rfl := Option.some.inj h
      split_ifs with hrest
      · exact ⟨strip_strip _, hspec⟩
      · constructor
        · rw [strip_eq_self_iff, List.reverse_append, List.append_assoc]
          constructor
          · exact (hstripped _).1.append fun _ => flush_cons (by decide)
          · exact (hstripped _).2.append fun hnil => absurd (List.reverse_eq_nil_iff.mp hnil) hrest
        · intro c hc
          rcases List.mem_append.mp hc with hc | hc
          · rcases List.mem_append.mp hc with hc | hc
            · exact hspec c hc
            · rcases List.mem_pair.mp hc with rfl | rfl <;> decide
          · exact hbreaks c (.inr (mem_of_mem_removeClauses (mem_of_mem_strip hc)))

/-- The requirements of a wheel are lines. -/
theorem isLine_of_mem_requiresDist {metadata requirement : Str}
    (h : requirement ∈ requiresDist metadata) : IsLine requirement := by
  obtain ⟨line, hline, rfl⟩ := List.mem_map.mp h
  refine ⟨strip_strip _, fun c hc => ?_⟩
  exact not_isLineBreak_of_mem_splitlines (List.mem_filter.mp hline).1 c
    (List.mem_of_mem_drop (mem_of_mem_strip hc))

/-! ## All requirements -/

/-- Each requirement that is kept comes of one line. -/
theorem mem_runtimeRequirements {metadata kept : Str} {extras : List Str} :
    kept ∈ runtimeRequirements metadata extras ↔
      ∃ requirement ∈ requiresDist metadata, keptRequirement extras requirement = some kept := by
  simp [runtimeRequirements]

/-- What is kept is a line of its own in the file that lists it. -/
theorem isLine_of_mem {metadata kept : Str} {extras : List Str}
    (h : kept ∈ runtimeRequirements metadata extras) : IsLine kept := by
  obtain ⟨requirement, hrequirement, hresult⟩ := mem_runtimeRequirements.mp h
  exact isLine_of_keptRequirement hresult (isLine_of_mem_requiresDist hrequirement)

theorem ReadsAs.ne_nil {kept spec : Str} {m : Marker .disjunction}
    (h : ReadsAs kept spec (some m)) : kept ≠ [] := by
  obtain _ | @⟨_, text, _, hpartition, hm⟩ := h
  rintro rfl
  cases hpartition

/-- A kept line has one specification. -/
theorem ReadsAs.spec_eq {kept spec spec' : Str} {m m' : Option (Marker .disjunction)}
    (h : ReadsAs kept spec m) (h' : ReadsAs kept spec' m') : spec = spec' := by
  cases h with
  | bare hnone =>
    cases h' with
    | bare => rfl
    | marked h' => rw [partition_eq_none_iff.mpr hnone] at h'; cases h'
  | marked h =>
    cases h' with
    | bare hnone => rw [partition_eq_none_iff.mpr hnone] at h; cases h
    | marked h' => rw [(Prod.mk.inj (Option.some.inj (h.symm.trans h'))).1]

/-- A line that is kept keeps the brackets of its specification. -/
theorem bracket_of_mem {metadata kept spec : Str} {extras : List Str} {lines : List RequiresDist}
    {m : Marker .disjunction}
    (hlines : requiresDist metadata = lines.map RequiresDist.requirement)
    (hhandled : ∀ line ∈ lines, line.Handled extras)
    (h : kept ∈ runtimeRequirements metadata extras) (hreads : ReadsAs kept spec (some m)) :
    ch '[' ∈ spec → ch ']' ∈ spec := by
  obtain ⟨requirement, hrequirement, hresult⟩ := mem_runtimeRequirements.mp h
  rw [hlines] at hrequirement
  obtain ⟨line, hline, rfl⟩ := List.mem_map.mp hrequirement
  have hkept := (hhandled line hline).kept
  rw [hresult] at hkept
  obtain ⟨-, marker, hline', -⟩ := hkept
  rw [← hline'.spec_eq hreads]
  exact (hhandled line hline).bracket

/-- Where the first clause names an extra that is not selected, the condition is exact: a line alone
is dropped rightly just when every alternative of its marker asks for another extra. -/
theorem keepsNeeded_iff_of_dropped {metadata : Str} {extras : List Str} {line : RequiresDist}
    {m : Marker .disjunction} (hline : requiresDist metadata = [line.requirement])
    (hm : line.marker = some m) (hquiet : ∀ behind : Blank, m.QuietStart behind.val) {name : Str}
    (hname : m.names.head? = some name) (hother : name ∉ extras) :
    KeepsNeeded extras [line] (runtimeRequirements metadata extras) ↔
      m.AsksOther none ∧ ∀ extra ∈ extras, m.AsksOther (some extra) := by
  have hdropped : keptRequirement extras line.requirement = none := by
    refine (keptRequirement_eq_none_iff fun m' hm' => ?_).mpr ⟨m, hm, name, hname, hother⟩
    rw [← Option.some.inj (hm.symm.trans hm')]
    exact hquiet
  have hnil : runtimeRequirements metadata extras = [] := by
    rw [runtimeRequirements, hline, List.filterMap_cons_none hdropped]
    rfl
  have hneeded : line.Needed extras ↔
      ¬(m.AsksOther none ∧ ∀ extra ∈ extras, m.AsksOther (some extra)) := by
    rw [← needed_iff, RequiresDist.Needed]
    simp only [RequiresDist.neededIn, hm]
    rfl
  rw [hnil]
  constructor
  · intro h
    by_contra hsome
    obtain ⟨kept, hkept, -⟩ := h.needed line List.mem_cons_self (hneeded.mpr hsome)
    cases hkept
  · intro h
    refine ⟨fun l hl hl' => ?_, nofun, nofun, nofun⟩
    rw [List.mem_singleton.mp hl, hneeded] at hl'
    exact absurd h hl'

/-! ## A wheel -/

/-- `extra == '<name>'`, in single quotes. -/
def extraClause (name : Str) (hne : name ≠ []) (hname : name.all isNameChar = true) :
    ExtraClause where
  before := oneSpace
  after := oneSpace
  quote := ch '\''
  name := name
  hquote := by decide
  hne := hne
  hname := List.all_eq_true.mp hname

def clientClause : ExtraClause := extraClause "client" (by decide) (by decide)

def cliClause : ExtraClause := extraClause "cli" (by decide) (by decide)

/-- `python_version < '3.12'`. -/
def beforePython312 : MarkerComparison where
  left := .named .pythonVersion
  before := oneSpace
  operator := .lt
  after := oneSpace
  right := .quoted (ch '\'') "3.12" (by decide) (by decide)
  hleft := by simp [Apart]; decide
  hright := by simp [Apart]; decide

/-- `python_version < '3.12' and extra == 'client'`. -/
def clientMarker : Marker .disjunction :=
  .whole (.and (.comparison beforePython312) oneSpace oneSpace (.single (.clause clientClause)))

/-- `extra == 'cli' or extra == 'client'`. -/
def eitherMarker : Marker .disjunction :=
  .or (.single (.clause cliClause)) oneSpace oneSpace (.whole (.single (.clause clientClause)))

theorem clientMarker_spaced : clientMarker.Spaced := by
  refine ⟨trivial, trivial, ?_, ?_⟩ <;> rw [Apart] <;> decide

theorem eitherMarker_spaced : eitherMarker.Spaced := by
  refine ⟨trivial, trivial, ?_, ?_⟩ <;> rw [Apart] <;> decide

/-- A line whose marker asks for the platform and for the extra. -/
def clientLine : RequiresDist where
  requirement := "pyjwt; python_version < '3.12' and extra == 'client'"
  spec := "pyjwt"
  marker := some clientMarker
  reads := @ReadsAs.marked _ "pyjwt" " python_version < '3.12' and extra == 'client'" _ (by decide)
    ⟨clientMarker_spaced, oneSpace, ⟨[], by simp⟩, by decide⟩

/-- A line whose marker asks for one extra or another. -/
def eitherLine : RequiresDist where
  requirement := "rich; extra == 'cli' or extra == 'client'"
  spec := "rich"
  marker := some eitherMarker
  reads := @ReadsAs.marked _ "rich" " extra == 'cli' or extra == 'client'" _ (by decide)
    ⟨eitherMarker_spaced, oneSpace, ⟨[], by simp⟩, by decide⟩

/-- The pattern for a clause matches nowhere in `python_version < '3.12'`. -/
theorem clientMarker_quiet (b : Blank) : clientMarker.Quiet b.val := by
  refine ⟨fun s hne hs => ?_, trivial⟩
  have htails : ∀ t ∈ beforePython312.text.tails,
      t = [] ∨ t.head? ≠ some (ch 'e') ∨ startsWith t "er" = true := by decide
  rcases htails s ((List.mem_tails _ _).mpr hs) with hnil | hhead | hother
  · exact absurd hnil hne
  · exact matchExtra_eq_none (by rwa [List.head?_append_of_ne_nil _ hne])
  · obtain ⟨t, rfl⟩ := startsWith_iff.mp hother
    rw [List.append_assoc]
    rfl

theorem clientLine_handled : clientLine.Handled [str "client"] where
  bracket h := absurd h (by decide)
  quiet m hm b := by
    obtain rfl : clientMarker = m := Option.some.inj hm
    exact ⟨(clientMarker_quiet b).1, fun _ => trivial⟩
  marker m hm name hname := by
    obtain rfl : clientMarker = m := Option.some.inj hm
    obtain rfl : str "client" = name := Option.some.inj hname
    rw [if_pos (by decide)]
    refine ⟨clientMarker_quiet, .inr (.inr ⟨trivial, .inl rfl⟩), fun kept hkept => ?_, fun env => ?_⟩
    · obtain rfl := Option.some.inj hkept
      trivial
    · cases henv : env beforePython312 <;>
        simp [clientMarker, Marker.eval, contexts, henv, clientClause, extraClause]

end EsphomeMcp.Vendor
