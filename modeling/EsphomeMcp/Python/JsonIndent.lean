import EsphomeMcp.Python.JsonBytes

/-!
# JSON texts over several lines

`json.dumps(j, indent=width)`: every item and every member stands on a line of its own. The text
is ASCII without carriage returns, and `json.loads` reads it back as it reads the text on one line.
-/

namespace Py

/-! ## Writing -/

/-- A line break and the indent of a level. -/
def newlineIndent (width level : ℕ) : Str := ch '\n' :: List.replicate (width * level) (ch ' ')

mutual

/-- The text of a value that stands at a level. -/
def indentedText (width : ℕ) : ℕ → Json → Str
  | level, .arr (j :: js) =>
    ch '[' :: (newlineIndent width (level + 1) ++ (indentedText width (level + 1) j ++
      indentedItems width level js))
  | level, .obj ((k, j) :: fs) =>
    ch '{' :: (newlineIndent width (level + 1) ++ (dumpsStr k ++ ch ':' :: ch ' ' ::
      (indentedText width (level + 1) j ++ indentedFields width level fs)))
  | _, j => dumpsText .spaced j

/-- The items after the first, and the closing bracket. -/
def indentedItems (width : ℕ) : ℕ → List Json → Str
  | level, [] => newlineIndent width level ++ [ch ']']
  | level, j :: js =>
    ch ',' :: (newlineIndent width (level + 1) ++ (indentedText width (level + 1) j ++
      indentedItems width level js))

/-- The members after the first, and the closing brace. -/
def indentedFields (width : ℕ) : ℕ → List (Str × Json) → Str
  | level, [] => newlineIndent width level ++ [ch '}']
  | level, (k, j) :: fs =>
    ch ',' :: (newlineIndent width (level + 1) ++ (dumpsStr k ++ ch ':' :: ch ' ' ::
      (indentedText width (level + 1) j ++ indentedFields width level fs)))

end

/-- `json.dumps(j, indent=width)`, with the nesting at which it raises `RecursionError`. -/
def dumpsIndented (limit width : ℕ) (j : Json) : Except JsonError Str :=
  if j.depth ≤ limit then .ok (indentedText width 0 j) else .error .recursion

/-! ## White space between the values -/

theorem isJsonSpace_newlineIndent (width level : ℕ) :
    ∀ c ∈ newlineIndent width level, isJsonSpace c = true := by
  intro c hc
  rcases List.mem_cons.mp hc with rfl | hc
  · decide
  · rw [List.eq_of_mem_replicate hc]
    decide

section

variable (width level : ℕ)

theorem indentedItems_eq (js : List Json) :
    indentedItems width level js = itemTexts (newlineIndent width (level + 1))
      (js.map fun j => (indentedText width (level + 1) j, j.rejoin)) ++
        (newlineIndent width level ++ [ch ']']) := by
  induction js with
  | nil => simp [indentedItems, itemTexts]
  | cons j js ih =>
    rw [indentedItems, ih]
    simp [itemTexts]

theorem indentedFields_eq (fs : List (Str × Json)) :
    indentedFields width level fs = memberTexts [ch ' '] (newlineIndent width (level + 1))
      (fs.map fun f => (f.1, indentedText width (level + 1) f.2, f.2.rejoin)) ++
        (newlineIndent width level ++ [ch '}']) := by
  induction fs with
  | nil => simp [indentedFields, memberTexts]
  | cons f fs ih =>
    rw [indentedFields, ih]
    simp [memberTexts, memberText]

end

/-! ## Reading back -/

section

variable [Runtime] (width : ℕ)

theorem startsValue_indentedText {j : Json} (h : j.WellFormed) (level : ℕ) :
    StartsValue (indentedText width level j) := by
  match j with
  | .arr (_ :: _) => exact ⟨_, _, by rw [indentedText], by decide⟩
  | .obj ((_, _) :: _) => exact ⟨_, _, by rw [indentedText], by decide⟩
  | .arr [] | .obj [] | .null | .bool b | .int n | .float t | .str s =>
    rw [indentedText]
    · exact startsValue_dumpsText .spaced h
    all_goals nofun

/-- The text of a value reads back, in front of anything that cannot continue a number. -/
theorem scanValue_indentedText {j : Json} (hwf : j.WellFormed) {d : ℕ} (hd : j.depth ≤ d)
    (level : ℕ) {rest : Str} (hrest : StopsNumber rest) :
    scanValue false d (indentedText width level j ++ rest) = .ok (j.rejoin, rest) := by
  induction j using Json.induct generalizing d level rest with
  | null | bool | int | float | str =>
    rw [indentedText]
    · exact scanValue_dumpsText .spaced hwf hd hrest
    all_goals nofun
  | arr items ih =>
    cases hwf with | arr _ hall =>
    rw [Json.depth] at hd
    obtain ⟨d, rfl⟩ := Nat.exists_eq_succ_of_ne_zero (by omega : d ≠ 0)
    cases items with
    | nil => rfl
    | cons k items =>
      have hread : ∀ i ∈ (k :: items).map fun j => (indentedText width (level + 1) j, j.rejoin),
          ReadsAs (scanValue false d) i.1 i.2 := by
        refine List.forall_mem_map.mpr fun x hx => ?_
        refine ⟨startsValue_indentedText width (hall x hx) (level + 1), fun rest hr => ?_⟩
        exact ih x hx (hall x hx) ((Json.depth_le_depthItems hx).trans (by omega)) _ hr
      rw [List.map_cons] at hread
      have harray := scanArray_itemTexts (isJsonSpace_newlineIndent width (level + 1))
        (isJsonSpace_newlineIndent width (level + 1)) (isJsonSpace_newlineIndent width level) hread
        rest
      have htext : indentedText width level (.arr (k :: items)) ++ rest =
          ch '[' :: (newlineIndent width (level + 1) ++ (indentedText width (level + 1) k ++
            (itemTexts (newlineIndent width (level + 1))
              (items.map fun j => (indentedText width (level + 1) j, j.rejoin)) ++
                (newlineIndent width level ++ ch ']' :: rest)))) := by
        simp [indentedText, indentedItems_eq]
      rw [htext, Nat.succ_eq_add_one, scanValue, if_pos rfl, harray, Json.rejoin,
        Json.rejoinItems_eq_map]
      simp [List.map_map, Function.comp_def]
  | obj fields ih =>
    cases hwf with | obj _ hk hall =>
    rw [Json.depth] at hd
    obtain ⟨d, rfl⟩ := Nat.exists_eq_succ_of_ne_zero (by omega : d ≠ 0)
    cases fields with
    | nil => rfl
    | cons f fields =>
      have hread : ∀ m ∈ (f :: fields).map fun f =>
            (f.1, indentedText width (level + 1) f.2, f.2.rejoin),
          ReadsAs (scanValue false d) m.2.1 m.2.2 := by
        refine List.forall_mem_map.mpr fun x hx => ?_
        refine ⟨startsValue_indentedText width (hall x hx) (level + 1), fun rest hr => ?_⟩
        exact ih x hx (hall x hx) ((Json.depth_le_depthFields hx).trans (by omega)) _ hr
      rw [List.map_cons] at hread
      have hobject := scanObject_memberTexts (isJsonSpace_newlineIndent width (level + 1))
        (List.forall_mem_singleton.mpr (show isJsonSpace (ch ' ') = true by decide))
        (isJsonSpace_newlineIndent width (level + 1)) (isJsonSpace_newlineIndent width level) hread
        rest
      have htext : indentedText width level (.obj (f :: fields)) ++ rest =
          ch '{' :: (newlineIndent width (level + 1) ++
            (memberText [ch ' '] (f.1, indentedText width (level + 1) f.2, f.2.rejoin) ++
              (memberTexts [ch ' '] (newlineIndent width (level + 1))
                (fields.map fun f => (f.1, indentedText width (level + 1) f.2, f.2.rejoin)) ++
                  (newlineIndent width level ++ ch '}' :: rest)))) := by
        simp [indentedText, indentedFields_eq, memberText]
      rw [htext, Nat.succ_eq_add_one, scanValue, if_neg (by decide), if_pos rfl, hobject,
        Json.rejoin, Json.rejoinFields_eq_map]
      simp [List.map_map, Function.comp_def]

end

/-! ## Characters -/

/-- A character of an indented text. -/
def isLayout (c : CodePoint) : Bool := isPrintable c || c = ch '\n'

theorem isLayout_of_isPrintable {s : Str} (h : ∀ c ∈ s, isPrintable c = true) :
    ∀ c ∈ s, isLayout c = true := fun c hc => by rw [isLayout, h c hc, Bool.true_or]

theorem isLayout_dumpsStr (s : Str) : ∀ c ∈ dumpsStr s, isLayout c = true :=
  isLayout_of_isPrintable (isPrintable_dumpsStr s)

section

variable {width : ℕ}

theorem isLayout_newlineIndent (level : ℕ) : ∀ c ∈ newlineIndent width level, isLayout c = true := by
  intro c hc
  rcases List.mem_cons.mp hc with rfl | hc
  · decide
  · rw [List.eq_of_mem_replicate hc]
    decide

theorem isLayout_indentedItems {level : ℕ} {js : List Json}
    (h : ∀ j ∈ js, ∀ c ∈ indentedText width (level + 1) j, isLayout c = true) :
    ∀ c ∈ indentedItems width level js, isLayout c = true := by
  induction js with
  | nil =>
    rw [indentedItems, List.forall_mem_append]
    exact ⟨isLayout_newlineIndent level, List.all_eq_true.mp rfl⟩
  | cons j js ih =>
    rw [List.forall_mem_cons] at h
    simp only [indentedItems, List.forall_mem_cons, List.forall_mem_append]
    exact ⟨by decide, isLayout_newlineIndent _, h.1, ih h.2⟩

theorem isLayout_indentedFields {level : ℕ} {fs : List (Str × Json)}
    (h : ∀ f ∈ fs, ∀ c ∈ indentedText width (level + 1) f.2, isLayout c = true) :
    ∀ c ∈ indentedFields width level fs, isLayout c = true := by
  induction fs with
  | nil =>
    rw [indentedFields, List.forall_mem_append]
    exact ⟨isLayout_newlineIndent level, List.all_eq_true.mp rfl⟩
  | cons f fs ih =>
    rw [List.forall_mem_cons] at h
    simp only [indentedFields, List.forall_mem_cons, List.forall_mem_append]
    exact ⟨by decide, isLayout_newlineIndent _, isLayout_dumpsStr f.1, by decide, by decide, h.1,
      ih h.2⟩

variable [Runtime]

/-- Only printable ASCII and line breaks are written. -/
theorem isLayout_indentedText {j : Json} (hwf : j.WellFormed) (level : ℕ) :
    ∀ c ∈ indentedText width level j, isLayout c = true := by
  induction j using Json.induct generalizing level with
  | null | bool | int | float | str =>
    rw [indentedText]
    · exact isLayout_of_isPrintable (isPrintable_dumpsText .spaced hwf)
    all_goals nofun
  | arr items ih =>
    cases hwf with | arr _ hall =>
    cases items with
    | nil => exact List.all_eq_true.mp rfl
    | cons k items =>
      have hitems : ∀ x ∈ k :: items, ∀ c ∈ indentedText width (level + 1) x, isLayout c = true :=
        fun x hx => ih x hx (hall x hx) (level + 1)
      rw [List.forall_mem_cons] at hitems
      simp only [indentedText, List.forall_mem_cons, List.forall_mem_append]
      exact ⟨by decide, isLayout_newlineIndent _, hitems.1, isLayout_indentedItems hitems.2⟩
  | obj fields ih =>
    cases hwf with | obj _ _ hall =>
    cases fields with
    | nil => exact List.all_eq_true.mp rfl
    | cons f fields =>
      have hfields : ∀ x ∈ f :: fields, ∀ c ∈ indentedText width (level + 1) x.2,
          isLayout c = true := fun x hx => ih x hx (hall x hx) (level + 1)
      rw [List.forall_mem_cons] at hfields
      simp only [indentedText, List.forall_mem_cons, List.forall_mem_append]
      exact ⟨by decide, isLayout_newlineIndent _, isLayout_dumpsStr f.1, by decide, by decide,
        hfields.1, isLayout_indentedFields hfields.2⟩

/-- `json.loads(json.dumps(j, indent=width) + "\n")` is `j` with its split surrogate pairs joined. -/
theorem loads_indentedText {j : Json} (hwf : j.WellFormed) (hd : j.depth ≤ recursionLimit) :
    loads (indentedText width 0 j ++ [ch '\n']) = .ok j.rejoin := by
  have hstart := startsValue_indentedText width hwf 0
  have hnewline : StopsNumber [ch '\n'] := stopsNumber_cons (by decide)
  -- a text that starts with a byte order mark would be refused
  have hbom : (indentedText width 0 j ++ [ch '\n']).head? ≠ some (codePoint 0xFEFF) := by
    intro h
    have hmem := List.mem_of_mem_head? h
    rw [List.mem_append] at hmem
    rcases hmem with hmem | hmem
    · exact absurd (isLayout_indentedText hwf 0 _ hmem) (by decide)
    · exact absurd (List.mem_singleton.mp hmem) (by decide)
  rw [loads, loadsWith, if_neg hbom, decodeJson, (hstart.append _).skipSpace,
    scanValue_indentedText width hwf hd 0 hnewline]
  rfl

end

end Py
