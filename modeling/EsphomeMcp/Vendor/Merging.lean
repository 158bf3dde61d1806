import EsphomeMcp.Vendor.Requirements

/-!
# Merging the requirements

What `manifest_requirements` is for: one line for each name, with the extras of all its lines, that
admits a version exactly if all of them do; and the same lines whatever the order of the input.

`mergesExactly_iff` says when it is so. The numbers have to be short enough for `int`, and the
highest floor of a name has to be written in one way only: `1.0` and `01.0` have one key, and which
of the two is kept depends on the order in which a set is iterated.
-/

namespace EsphomeMcp.Vendor

open Py

/-! ## What a merge is for -/

/-- Releases are compared number by number, and the shorter one is padded with zeros. -/
def releaseLe : List ℕ → List ℕ → Prop
  | [], _ => True
  | a :: as, [] => a = 0 ∧ releaseLe as []
  | a :: as, b :: bs => a < b ∨ a = b ∧ releaseLe as bs

/-- The release of a clause `>=` with a release behind it. -/
def floorRelease (c : Str) : Option (List ℕ) :=
  if startsWith c ">=" then (releaseParts (c.drop 2)).map fun parts => parts.map digitsVal else none

/-- A version satisfies all the clauses; `other` says which versions satisfy a clause that is no
such floor. -/
def Satisfies (other : Str → List ℕ → Prop) (version : List ℕ) (clauses : List Str) : Prop :=
  ∀ c ∈ clauses,
    match floorRelease c with
    | some floor => releaseLe floor version
    | none => other c version

/-- One of the lines counts for a name: its marker holds, and the name is declared. -/
def Counts (lines : List Str) (name : Str) (r : Requirement) : Prop :=
  ∃ line ∈ lines, matchRequirement line = some r ∧ r.applies line = .ok true ∧
    canonical r.name = name ∧ name ∉ notDeclared

/-- The clause stands in a line that counts for the name. -/
def HasClause (lines : List Str) (name c : Str) : Prop :=
  ∃ r, Counts lines name r ∧ c ∈ r.clauses

/-- A version clause starts with an operator. -/
def IsVersionClause (c : Str) : Prop :=
  ∃ o s, c = o :: s ∧ o ∈ [ch '<', ch '>', ch '=', ch '!', ch '~']

/-- A marker of the table, or one that compares the Python version. -/
def IsSupported (marker : Str) : Prop :=
  (targetMarkers.lookup (bareMarker marker)).isSome = true ∨
    (matchPythonVersion (bareMarker marker)).isSome = true

/-- A name, perhaps extras, version clauses, and perhaps a supported marker. -/
def IsRequirementLine (line : Str) : Prop :=
  ∃ r, matchRequirement line = some r ∧ (∀ c ∈ r.clauses, IsVersionClause c) ∧
    (strip r.marker = [] ∨ IsSupported (strip r.marker))

/-- The lines of the result, read as requirements: one for each name that counts, with the union of
the extras, and satisfied by the versions that satisfy every line that counts. -/
structure IsMergeOf (lines out : List Str) (merged : List Requirement) : Prop where
  read : out.map matchRequirement = merged.map some
  names : (merged.map Requirement.name).Nodup
  mem_names : ∀ name, name ∈ merged.map Requirement.name ↔ ∃ r, Counts lines name r
  marker : ∀ m ∈ merged, m.marker = []
  extras : ∀ m ∈ merged, ∀ e, e ∈ m.extraNames ↔ ∃ r, Counts lines m.name r ∧ e ∈ r.extraNames
  versions : ∀ m ∈ merged, ∀ other version,
    Satisfies other version m.clauses ↔ ∀ r, Counts lines m.name r → Satisfies other version r.clauses

/-- The merge of these texts is exact, and it is the one of all texts with the same lines. -/
def MergesExactly (texts : List Str) : Prop :=
  ∀ order, ∃ out, manifestRequirements order texts = .ok out ∧
    (∃ merged, IsMergeOf (requirementLines texts) out merged) ∧
    ∀ order' texts', (∀ l, l ∈ requirementLines texts' ↔ l ∈ requirementLines texts) →
      manifestRequirements order' texts' = .ok out

/-- `int` reads the numbers of the marker. -/
def IsShortMarker (marker : Str) : Prop :=
  ∀ comparison major minor,
    matchPythonVersion (bareMarker marker) = some (comparison, major, minor) →
    major.length ≤ maxStrDigits ∧ minor.length ≤ maxStrDigits

/-- `int` reads the numbers of the clause, if it is a floor. -/
def IsShortFloor (c : Str) : Prop :=
  startsWith c ">=" = true → ∀ parts, releaseParts (c.drop 2) = some parts →
    ∀ part ∈ parts, part.length ≤ maxStrDigits

/-- A floor that no clause of the name exceeds. -/
def IsHighestFloor (lines : List Str) (name : Str) (floor : List ℕ) : Prop :=
  ∀ c key, HasClause lines name c → floorRelease c = some key → key ≤ floor

/-- The numbers are short, and the highest floor of each name is written in one way. -/
structure IsMergeable (lines : List Str) : Prop where
  markers : ∀ line ∈ lines, ∀ r, matchRequirement line = some r → IsShortMarker (strip r.marker)
  floors : ∀ name c, HasClause lines name c → IsShortFloor c
  highest : ∀ name floor, IsHighestFloor lines name floor →
    ∀ c d, HasClause lines name c → HasClause lines name d →
      floorRelease c = some floor → floorRelease d = some floor → c = d

/-! ## Versions -/

/-- A floor that is lower as a tuple is lower as a release. -/
theorem releaseLe_of_le {a b v : List ℕ} (hab : a ≤ b) (h : releaseLe b v) : releaseLe a v := by
  induction a generalizing b v with
  | nil => trivial
  | cons x a ih =>
    cases b with
    | nil => exact absurd hab (by simp)
    | cons y b =>
      -- the first numbers decide, or they are equal
      have hcases : x < y ∨ x = y ∧ a ≤ b := by
        rw [← not_lt, List.cons_lt_cons_iff] at hab
        rw [← not_lt]
        grind
      cases v with
      | nil =>
        obtain ⟨rfl, hb⟩ := h
        rcases hcases with hlt | ⟨rfl, hle⟩
        · omega
        · exact ⟨rfl, ih hle hb⟩
      | cons z v =>
        rcases hcases with hlt | ⟨rfl, hle⟩
        · rcases h with h | ⟨rfl, -⟩
          · exact .inl (hlt.trans h)
          · exact .inl hlt
        · exact h.imp_right fun ⟨he, hb⟩ => ⟨he, ih hle hb⟩

/-! ## Floors -/

theorem intOfDigits_eq_ok_iff {s : Str} {n : ℕ} :
    intOfDigits s = .ok n ↔ s.length ≤ maxStrDigits ∧ n = digitsVal s := by
  unfold intOfDigits
  split_ifs with h
  · simp [h, eq_comm]
  · simp [h]

/-- A list of results, each of which is returned under a condition. -/
theorem mapM_eq_ok_iff {α β ε : Type} {f : α → Except ε β} {P : α → Prop} {g : α → β}
    (hf : ∀ x y, f x = .ok y ↔ P x ∧ y = g x) {xs : List α} {ys : List β} :
    xs.mapM f = .ok ys ↔ (∀ x ∈ xs, P x) ∧ ys = xs.map g := by
  induction xs generalizing ys with
  | nil => simp [pure, Except.pure, eq_comm]
  | cons x xs ih =>
    rw [List.mapM_cons, List.forall_mem_cons, List.map_cons]
    cases hx : f x with
    | error e =>
      refine ⟨nofun, fun h => ?_⟩
      rw [(hf x _).mpr ⟨h.1.1, rfl⟩] at hx
      cases hx
    | ok y =>
      obtain ⟨hP, rfl⟩ := (hf x y).mp hx
      cases hxs : xs.mapM f with
      | error e =>
        refine ⟨nofun, fun h => ?_⟩
        rw [ih.mpr ⟨h.1.2, rfl⟩] at hxs
        cases hxs
      | ok zs =>
        obtain ⟨hall, rfl⟩ := ih.mp hxs
        show Except.ok (g x :: xs.map g) = Except.ok ys ↔ _
        rw [Except.ok.injEq, and_iff_right ⟨hP, hall⟩, eq_comm]

theorem mapM_intOfDigits_eq_ok_iff {parts : List Str} {ns : List ℕ} :
    parts.mapM intOfDigits = .ok ns ↔
      (∀ part ∈ parts, part.length ≤ maxStrDigits) ∧ ns = parts.map digitsVal :=
  mapM_eq_ok_iff fun _ _ => intOfDigits_eq_ok_iff

theorem versionKey_eq_ok_iff {version : Str} {key : Option (List ℕ)} :
    versionKey version = .ok key ↔
      (∀ parts, releaseParts version = some parts → ∀ part ∈ parts, part.length ≤ maxStrDigits) ∧
        key = (releaseParts version).map fun parts => parts.map digitsVal := by
  rw [versionKey]
  cases releaseParts version with
  | none =>
    show Except.ok none = Except.ok key ↔ _
    rw [Except.ok.injEq, eq_comm]
    exact ⟨fun h => ⟨nofun, h⟩, fun h => h.2⟩
  | some parts =>
    show (parts.mapM intOfDigits).map some = .ok key ↔ _
    cases hparts : parts.mapM intOfDigits with
    | error e =>
      -- one of the numbers is too long
      refine ⟨nofun, fun h => ?_⟩
      rw [mapM_intOfDigits_eq_ok_iff.mpr ⟨h.1 parts rfl, rfl⟩] at hparts
      cases hparts
    | ok ns =>
      obtain ⟨hshort, rfl⟩ := mapM_intOfDigits_eq_ok_iff.mp hparts
      show Except.ok (some (parts.map digitsVal)) = Except.ok key ↔ _
      rw [Except.ok.injEq, eq_comm]
      refine ⟨fun h => ⟨fun parts' h' => ?_, h⟩, fun h => h.2⟩
      cases h'
      exact hshort

theorem floorKey_eq_ok_iff {c : Str} {key : Option (List ℕ)} :
    floorKey c = .ok key ↔ IsShortFloor c ∧ key = floorRelease c := by
  unfold floorKey IsShortFloor floorRelease
  by_cases hc : startsWith c ">=" = true
  · rw [if_pos hc, if_pos hc, versionKey_eq_ok_iff]
    exact and_congr_left fun _ => ⟨fun h _ => h, fun h => h hc⟩
  · rw [if_neg hc, if_neg hc, Except.ok.injEq, eq_comm]
    exact ⟨fun h => ⟨fun h' => absurd h' hc, h⟩, fun h => h.2⟩

/-- The floors among some clauses, with their keys. -/
def floorsOf (cs : List Str) : List (Str × List ℕ) :=
  cs.filterMap fun c => (floorRelease c).map fun key => (c, key)

theorem floorsOf_cons_none {c : Str} (h : floorRelease c = none) (cs : List Str) :
    floorsOf (c :: cs) = floorsOf cs :=
  List.filterMap_cons_none (by rw [h, Option.map_none])

theorem floorsOf_cons_some {c : Str} {key : List ℕ} (h : floorRelease c = some key)
    (cs : List Str) : floorsOf (c :: cs) = (c, key) :: floorsOf cs :=
  List.filterMap_cons_some (by rw [h, Option.map_some])

@[simp] theorem mem_floorsOf {cs : List Str} {c : Str} {key : List ℕ} :
    (c, key) ∈ floorsOf cs ↔ c ∈ cs ∧ floorRelease c = some key := by
  simp only [floorsOf, List.mem_filterMap, Option.map_eq_some_iff, Prod.mk.injEq]
  constructor
  · intro ⟨d, hd, k, hk, hdc, hkey⟩
    exact ⟨hdc ▸ hd, hdc ▸ hkey ▸ hk⟩
  · intro ⟨hc, hkey⟩
    exact ⟨c, hc, key, hkey, rfl, rfl⟩

theorem mem_map_floorsOf {cs : List Str} {c : Str} :
    c ∈ (floorsOf cs).map Prod.fst ↔ c ∈ cs ∧ floorRelease c ≠ none := by
  rw [List.mem_map, Option.ne_none_iff_exists']
  constructor
  · intro ⟨⟨d, key⟩, hmem, hdc⟩
    obtain ⟨hd, hkey⟩ := mem_floorsOf.mp hmem
    exact ⟨hdc ▸ hd, key, hdc ▸ hkey⟩
  · intro ⟨hc, key, hkey⟩
    exact ⟨(c, key), mem_floorsOf.mpr ⟨hc, hkey⟩, rfl⟩

theorem numericFloors_eq_ok_iff {cs : List Str} {numeric : List (Str × List ℕ)} :
    numericFloors cs = .ok numeric ↔ (∀ c ∈ cs, IsShortFloor c) ∧
      numeric = floorsOf cs := by
  induction cs generalizing numeric with
  | nil => simp [numericFloors, floorsOf, eq_comm]
  | cons c cs ih =>
    rw [numericFloors, List.forall_mem_cons]
    cases hkey : floorKey c with
    | error e =>
      refine ⟨nofun, fun h => ?_⟩
      rw [floorKey_eq_ok_iff.mpr ⟨h.1.1, rfl⟩] at hkey
      cases hkey
    | ok key =>
      obtain ⟨hshort, rfl⟩ := floorKey_eq_ok_iff.mp hkey
      cases hrest : numericFloors cs with
      | error e =>
        refine ⟨nofun, fun h => ?_⟩
        rw [ih.mpr ⟨h.1.2, rfl⟩] at hrest
        cases hrest
      | ok rest =>
        obtain ⟨hrests, rfl⟩ := ih.mp hrest
        cases hrelease : floorRelease c with
        | none =>
          rw [floorsOf_cons_none hrelease]
          exact ⟨fun h => ⟨⟨hshort, hrests⟩, (Except.ok.inj h).symm⟩, fun h => h.2 ▸ rfl⟩
        | some key =>
          rw [floorsOf_cons_some hrelease]
          exact ⟨fun h => ⟨⟨hshort, hrests⟩, (Except.ok.inj h).symm⟩, fun h => h.2 ▸ rfl⟩

/-! ## Clauses -/

/-- What is left of some clauses: all but the floors, and one floor. -/
def keepFloor (clauses : List Str) (top : Str) : List Str :=
  sorted (clauses.filter fun c => floorRelease c = none ∨ c = top)

@[simp] theorem mem_keepFloor {clauses : List Str} {top c : Str} :
    c ∈ keepFloor clauses top ↔ c ∈ clauses ∧ (floorRelease c = none ∨ c = top) := by
  rw [keepFloor, mem_sorted, List.mem_filter, decide_eq_true_iff]

/-- A clause with the highest floor, or any clause if there is no floor. -/
def IsTop (clauses : List Str) (top : Str) : Prop :=
  (∀ c ∈ clauses, floorRelease c = none) ∨
    top ∈ clauses ∧ ∃ floor, floorRelease top = some floor ∧
      ∀ c ∈ clauses, ∀ key, floorRelease c = some key → key ≤ floor

/-- The floor that `max` finds. -/
def topFloor (order : SetOrder Str) (clauses : List Str) : Str :=
  match floorsOf (order.iter clauses) with
  | [] => []
  | first :: others => (maxFrom Prod.snd first others).1

theorem isTop_topFloor (order : SetOrder Str) (clauses : List Str) :
    IsTop clauses (topFloor order clauses) := by
  unfold topFloor
  cases hfloors : floorsOf (order.iter clauses) with
  | nil =>
    refine .inl fun c hc => ?_
    by_contra hne
    have hmem : c ∈ (floorsOf (order.iter clauses)).map Prod.fst :=
      mem_map_floorsOf.mpr ⟨order.mem_iter.mpr hc, hne⟩
    rw [hfloors] at hmem
    cases hmem
  | cons first others =>
    have hmax : maxFrom Prod.snd first others ∈ floorsOf (order.iter clauses) :=
      hfloors ▸ maxFrom_mem Prod.snd first others
    obtain ⟨hin, hkey⟩ := mem_floorsOf.mp hmax
    refine .inr ⟨order.mem_iter.mp hin, _, hkey, fun c hc key hfloor => ?_⟩
    have hmem : (c, key) ∈ first :: others :=
      hfloors ▸ mem_floorsOf.mpr ⟨order.mem_iter.mpr hc, hfloor⟩
    exact key_le_maxFrom Prod.snd hmem

theorem mergeClauses_eq_ok_iff {order : SetOrder Str} {clauses out : List Str} :
    mergeClauses order clauses = .ok out ↔
      (∀ c ∈ clauses, IsShortFloor c) ∧ out = keepFloor clauses (topFloor order clauses) := by
  unfold mergeClauses topFloor
  cases hnumeric : numericFloors (order.iter clauses) with
  | error e =>
    refine ⟨nofun, fun h => ?_⟩
    rw [numericFloors_eq_ok_iff.mpr ⟨fun c hc => h.1 c (order.mem_iter.mp hc), rfl⟩] at hnumeric
    cases hnumeric
  | ok numeric =>
    obtain ⟨hshort, rfl⟩ := numericFloors_eq_ok_iff.mp hnumeric
    have hshorts : ∀ c ∈ clauses, IsShortFloor c := fun c hc => hshort c (order.mem_iter.mpr hc)
    -- a clause outside the list is no floor
    have hnone : ∀ c ∈ clauses, c ∉ (floorsOf (order.iter clauses)).map Prod.fst ↔
        floorRelease c = none := by
      intro c hc
      rw [mem_map_floorsOf, order.mem_iter, and_iff_right hc, not_not]
    cases hfloors : floorsOf (order.iter clauses) with
    | nil =>
      rw [hfloors] at hnone
      have hkeep : keepFloor clauses [] = sorted clauses :=
        congrArg sorted (List.filter_eq_self.mpr fun c hc =>
          decide_eq_true (.inl ((hnone c hc).mp List.not_mem_nil)))
      show Except.ok (sorted clauses) = Except.ok out ↔ _
      rw [hkeep, Except.ok.injEq, and_iff_right hshorts, eq_comm]
    | cons first others =>
      rw [hfloors] at hnone
      cases others with
      | nil =>
        have hkeep : keepFloor clauses first.1 = sorted clauses := by
          refine congrArg sorted (List.filter_eq_self.mpr fun c hc => decide_eq_true ?_)
          rw [← hnone c hc, List.map_singleton, List.mem_singleton]
          exact (em (c = first.1)).symm
        show Except.ok (sorted clauses) = Except.ok out ↔ _ ∧ out = keepFloor clauses first.1
        rw [hkeep, Except.ok.injEq, and_iff_right hshorts, eq_comm]
      | cons second others =>
        have hkeep : sorted (clauses.filter fun c =>
              c ∉ (first :: second :: others).map Prod.fst ∨
                c = (maxFrom Prod.snd first (second :: others)).1) =
            keepFloor clauses (maxFrom Prod.snd first (second :: others)).1 :=
          congrArg sorted (List.filter_congr fun c hc =>
            decide_eq_decide.mpr (or_congr_left (hnone c hc)))
        show Except.ok (sorted _) = Except.ok out ↔ _
        rw [hkeep, Except.ok.injEq, and_iff_right hshorts, eq_comm]

/-- The highest floor that is met first is the one that is kept. -/
theorem topFloor_first {clauses : List Str} {top : Str} {floor : List ℕ} (hin : top ∈ clauses)
    (htop : floorRelease top = some floor)
    (hle : ∀ c ∈ clauses, ∀ key, floorRelease c = some key → key ≤ floor) :
    topFloor (SetOrder.first top) clauses = top := by
  obtain ⟨rest, hiter, hrest⟩ := SetOrder.iter_first hin
  unfold topFloor
  rw [hiter, floorsOf_cons_some htop]
  show (maxFrom Prod.snd (top, floor) _).1 = top
  rw [maxFrom_eq_of_le]
  intro ⟨c, key⟩ hc
  obtain ⟨hmem, hkey⟩ := mem_floorsOf.mp hc
  exact hle c (hrest c hmem) key hkey

/-- What is kept admits the versions that all the clauses admit. -/
theorem satisfies_keepFloor {clauses : List Str} {top : Str} (htop : IsTop clauses top)
    (other : Str → List ℕ → Prop) (version : List ℕ) :
    Satisfies other version (keepFloor clauses top) ↔ Satisfies other version clauses := by
  constructor
  · intro h c hc
    cases hkey : floorRelease c with
    | none =>
      have := h c (mem_keepFloor.mpr ⟨hc, .inl hkey⟩)
      rwa [hkey] at this
    | some key =>
      rcases htop with hnone | ⟨hin, floor, hfloor, hle⟩
      · rw [hnone c hc] at hkey
        cases hkey
      · -- the floor that is kept is at least as high
        have htops := h top (mem_keepFloor.mpr ⟨hin, .inr rfl⟩)
        rw [hfloor] at htops
        exact releaseLe_of_le (hle c hc key hkey) htops
  · intro h c hc
    exact h c (mem_keepFloor.mp hc).1

/-! ## Lines -/

/-- A supported marker is evaluated if its numbers are short. -/
theorem exists_applies_iff {r : Requirement} {line : Str}
    (h : strip r.marker = [] ∨ IsSupported (strip r.marker)) :
    (∃ holds, r.applies line = .ok holds) ↔ IsShortMarker (strip r.marker) := by
  rw [Requirement.applies, IsShortMarker]
  by_cases hnil : strip r.marker = []
  · have hno : matchPythonVersion (bareMarker []) = none := by decide
    rw [if_pos hnil, hnil, hno]
    exact ⟨fun _ => nofun, fun _ => ⟨true, rfl⟩⟩
  · rw [if_neg hnil, markerApplies]
    cases htable : targetMarkers.lookup (bareMarker (strip r.marker)) with
    | some holds =>
      -- the markers of the table do not compare the Python version
      have hno : matchPythonVersion (bareMarker (strip r.marker)) = none := by
        simp only [targetMarkers, List.lookup_cons, List.lookup_nil] at htable
        split at htable
        · rename_i heq
          rw [beq_iff_eq.mp heq]
          decide
        · split at htable
          · rename_i heq
            rw [beq_iff_eq.mp heq]
            decide
          · cases htable
      rw [hno]
      exact ⟨fun _ => nofun, fun _ => ⟨holds, rfl⟩⟩
    | none =>
      cases hmatch : matchPythonVersion (bareMarker (strip r.marker)) with
      | none =>
        rcases h with h | h | h
        · exact absurd h hnil
        · rw [htable] at h
          cases h
        · rw [hmatch] at h
          cases h
      | some groups =>
        obtain ⟨comparison, major, minor⟩ := groups
        constructor
        · intro ⟨holds, hok⟩ comparison' major' minor' heq
          cases heq
          cases hmajor : intOfDigits major with
          | error e => simp [hmajor, bind, Except.bind] at hok
          | ok a =>
            cases hminor : intOfDigits minor with
            | error e => simp [hmajor, hminor, bind, Except.bind] at hok
            | ok b =>
              exact ⟨(intOfDigits_eq_ok_iff.mp hmajor).1, (intOfDigits_eq_ok_iff.mp hminor).1⟩
        · intro hshort
          obtain ⟨hmajor, hminor⟩ := hshort comparison major minor rfl
          have ha := intOfDigits_eq_ok_iff.mpr ⟨hmajor, rfl⟩
          have hb := intOfDigits_eq_ok_iff.mpr ⟨hminor, rfl⟩
          simp only [ha, hb, bind, Except.bind, pure, Except.pure]
          exact ⟨_, rfl⟩

theorem mergeLine_eq_ok_iff {merged merged' : Merged} {line : Str} {r : Requirement}
    (hr : matchRequirement line = some r) :
    mergeLine merged line = .ok merged' ↔ ∃ holds, r.applies line = .ok holds ∧
      merged' = if holds = true ∧ canonical r.name ∉ notDeclared then
        dictSet (canonical r.name)
          (setUpdate (entryOf merged (canonical r.name)).1 r.extraNames,
            setUpdate (entryOf merged (canonical r.name)).2 r.clauses) merged
      else merged := by
  rw [mergeLine, hr]
  cases happlies : r.applies line with
  | error e => simp [happlies, bind, Except.bind]
  | ok holds =>
    simp only [happlies, bind, Except.bind, pure, Except.pure, Except.ok.injEq, exists_eq_left']
    cases holds with
    | false => simp [eq_comm]
    | true =>
      by_cases hname : canonical r.name ∈ notDeclared
      · simp [hname, eq_comm]
      · simp [hname, eq_comm]

/-- What `merged` holds when some lines have been read. -/
structure IsMergedFrom (lines : List Str) (merged : Merged) : Prop where
  nodup : (merged.map Prod.fst).Nodup
  isSome : ∀ name, (dictGet? merged name).isSome = true ↔ ∃ r, Counts lines name r
  nodup_extras : ∀ name, (entryOf merged name).1.Nodup
  extras : ∀ name e, e ∈ (entryOf merged name).1 ↔ ∃ r, Counts lines name r ∧ e ∈ r.extraNames
  nodup_clauses : ∀ name, (entryOf merged name).2.Nodup
  clauses : ∀ name c, c ∈ (entryOf merged name).2 ↔ HasClause lines name c

theorem isMergedFrom_nil : IsMergedFrom [] [] where
  nodup := List.nodup_nil
  isSome _ := ⟨nofun, fun ⟨_, _, h, _⟩ => nomatch h⟩
  nodup_extras _ := List.nodup_nil
  extras _ _ := ⟨nofun, fun ⟨_, ⟨_, h, _⟩, _⟩ => nomatch h⟩
  nodup_clauses _ := List.nodup_nil
  clauses _ _ := ⟨nofun, fun ⟨_, ⟨_, h, _⟩, _⟩ => nomatch h⟩

theorem counts_append_singleton {lines : List Str} {line name : Str} {r s : Requirement}
    {holds : Bool} (hr : matchRequirement line = some r) (happlies : r.applies line = .ok holds) :
    Counts (lines ++ [line]) name s ↔ Counts lines name s ∨
      s = r ∧ holds = true ∧ canonical r.name = name ∧ name ∉ notDeclared := by
  constructor
  · intro ⟨l, hl, hs, happ, hname⟩
    rcases List.mem_append.mp hl with hl | hl
    · exact .inl ⟨l, hl, hs, happ, hname⟩
    · rw [List.mem_singleton.mp hl, hr] at hs
      cases hs
      rw [List.mem_singleton.mp hl, happlies, Except.ok.injEq] at happ
      exact .inr ⟨rfl, happ, hname⟩
  · rintro (⟨l, hl, hs⟩ | ⟨rfl, rfl, hname⟩)
    · exact ⟨l, List.mem_append_left _ hl, hs⟩
    · exact ⟨line, List.mem_append_right _ (List.mem_singleton_self _), hr, happlies, hname⟩

theorem entryOf_dictSet (merged : Merged) (name other : Str) (entry : List Str × List Str) :
    entryOf (dictSet name entry merged) other =
      if other = name then entry else entryOf merged other := by
  rw [entryOf, dictGet?_dictSet]
  split_ifs
  · rfl
  · rfl

/-- One more line is read. -/
theorem IsMergedFrom.step {lines : List Str} {merged merged' : Merged} {line : Str}
    {r : Requirement} (h : IsMergedFrom lines merged) (hr : matchRequirement line = some r)
    (hline : mergeLine merged line = .ok merged') : IsMergedFrom (lines ++ [line]) merged' := by
  obtain ⟨holds, happlies, rfl⟩ := (mergeLine_eq_ok_iff hr).mp hline
  have hcounts (name : Str) (s : Requirement) :=
    @counts_append_singleton lines line name r s holds hr happlies
  split_ifs with hkeep
  · -- the line counts for its name, and for no other
    have hkept : ∀ name s, Counts (lines ++ [line]) name s ↔
        Counts lines name s ∨ s = r ∧ name = canonical r.name := by
      intro name s
      rw [hcounts]
      refine or_congr_right (and_congr_right fun _ => ⟨fun hs => hs.2.1.symm, fun hs => ?_⟩)
      exact ⟨hkeep.1, hs.symm, hs ▸ hkeep.2⟩
    have hfield : ∀ (field : Requirement → List Str) name x,
        (∃ s, Counts (lines ++ [line]) name s ∧ x ∈ field s) ↔
          (∃ s, Counts lines name s ∧ x ∈ field s) ∨ name = canonical r.name ∧ x ∈ field r := by
      intro field name x
      constructor
      · intro ⟨s, hs, hx⟩
        rcases (hkept name s).mp hs with hs | ⟨rfl, hname⟩
        · exact .inl ⟨s, hs, hx⟩
        · exact .inr ⟨hname, hx⟩
      · rintro (⟨s, hs, hx⟩ | ⟨hname, hx⟩)
        · exact ⟨s, (hkept name s).mpr (.inl hs), hx⟩
        · exact ⟨r, (hkept name r).mpr (.inr ⟨rfl, hname⟩), hx⟩
    refine ⟨nodup_keys_dictSet _ _ h.nodup, fun name => ?_, fun name => ?_, fun name e => ?_,
      fun name => ?_, fun name c => ?_⟩
    · rw [dictGet?_dictSet]
      split_ifs with hname
      · exact ⟨fun _ => ⟨r, (hkept name r).mpr (.inr ⟨rfl, hname⟩)⟩, fun _ => rfl⟩
      · rw [h.isSome]
        refine exists_congr fun s => ?_
        rw [hkept, or_iff_left fun hs => hname hs.2]
    · rw [entryOf_dictSet]
      split_ifs
      · exact nodup_setUpdate (h.nodup_extras _) _
      · exact h.nodup_extras name
    · rw [entryOf_dictSet, hfield Requirement.extraNames]
      split_ifs with hname
      · rw [mem_setUpdate, ← hname, h.extras, and_iff_right rfl]
      · rw [h.extras, or_iff_left fun hs => hname hs.1]
    · rw [entryOf_dictSet]
      split_ifs
      · exact nodup_setUpdate (h.nodup_clauses _) _
      · exact h.nodup_clauses name
    · rw [entryOf_dictSet, HasClause, hfield Requirement.clauses]
      split_ifs with hname
      · rw [mem_setUpdate, ← hname, h.clauses, HasClause, and_iff_right rfl]
      · rw [h.clauses, HasClause, or_iff_left fun hs => hname hs.1]
  · have hsame : ∀ name s, Counts (lines ++ [line]) name s ↔ Counts lines name s := by
      intro name s
      rw [hcounts]
      refine or_iff_left fun hs => hkeep ⟨hs.2.1, ?_⟩
      rw [hs.2.2.1]
      exact hs.2.2.2
    refine ⟨h.nodup, fun name => ?_, h.nodup_extras, fun name e => ?_, h.nodup_clauses,
      fun name c => ?_⟩
    · rw [h.isSome]
      exact exists_congr fun s => (hsame name s).symm
    · rw [h.extras]
      exact exists_congr fun s => and_congr_left' (hsame name s).symm
    · rw [h.clauses]
      exact exists_congr fun s => and_congr_left' (hsame name s).symm

/-- All the lines are read. -/
theorem IsMergedFrom.run {earlier lines : List Str} {merged merged' : Merged}
    (h : IsMergedFrom earlier merged) (hlines : ∀ line ∈ lines, IsRequirementLine line)
    (hrun : lines.foldlM mergeLine merged = .ok merged') :
    IsMergedFrom (earlier ++ lines) merged' ∧
      ∀ line ∈ lines, ∀ r, matchRequirement line = some r → IsShortMarker (strip r.marker) := by
  induction lines generalizing earlier merged with
  | nil =>
    obtain rfl := Except.ok.inj hrun
    exact ⟨by rwa [List.append_nil], fun _ h => nomatch h⟩
  | cons line lines ih =>
    rw [List.forall_mem_cons] at hlines
    obtain ⟨⟨r, hr, -, hmarker⟩, hlines⟩ := hlines
    rw [List.foldlM_cons] at hrun
    cases hstep : mergeLine merged line with
    | error e => rw [hstep] at hrun; cases hrun
    | ok next =>
      rw [hstep] at hrun
      obtain ⟨hmerged, hshort⟩ := ih (h.step hr hstep) hlines hrun
      rw [List.append_assoc] at hmerged
      refine ⟨hmerged, List.forall_mem_cons.mpr ⟨fun r' hr' => ?_, hshort⟩⟩
      rw [hr] at hr'
      cases hr'
      obtain ⟨holds, happlies, -⟩ := (mergeLine_eq_ok_iff hr).mp hstep
      exact (exists_applies_iff hmarker).mp ⟨holds, happlies⟩

theorem exists_foldlM_mergeLine {lines : List Str}
    (hlines : ∀ line ∈ lines, IsRequirementLine line)
    (hshort : ∀ line ∈ lines, ∀ r, matchRequirement line = some r → IsShortMarker (strip r.marker))
    (merged : Merged) : ∃ merged', lines.foldlM mergeLine merged = .ok merged' := by
  induction lines generalizing merged with
  | nil => exact ⟨merged, rfl⟩
  | cons line lines ih =>
    rw [List.forall_mem_cons] at hlines hshort
    obtain ⟨⟨r, hr, -, hmarker⟩, hlines⟩ := hlines
    obtain ⟨holds, happlies⟩ := (exists_applies_iff hmarker).mpr (hshort.1 r hr)
    rw [List.foldlM_cons, (mergeLine_eq_ok_iff hr).mpr ⟨holds, happlies, rfl⟩]
    exact ih hlines hshort.2 _

/-! ## Reading the result back -/

theorem mem_hyphenate {inside : Bool} {s : Str} {c : CodePoint} (h : c ∈ hyphenate inside s) :
    c = ch '-' ∨ c ∈ s := by
  induction s generalizing inside with
  | nil => cases h
  | cons d s ih =>
    rw [hyphenate] at h
    split_ifs at h
    · exact (ih h).imp_right (List.mem_cons_of_mem _)
    · rcases List.mem_cons.mp h with h | h
      · exact .inl h
      · exact (ih h).imp_right (List.mem_cons_of_mem _)
    · rcases List.mem_cons.mp h with h | h
      · exact .inr (h ▸ List.mem_cons_self)
      · exact (ih h).imp_right (List.mem_cons_of_mem _)

theorem isNameChar_asciiLower {c : CodePoint} (h : isNameChar c = true) :
    isNameChar (asciiLower c) = true := by
  unfold asciiLower
  split_ifs with hupper
  · have halpha : isAlpha ⟨c.val + 32, by omega⟩ = true := by
      simp only [isAlpha, decide_eq_true_eq]
      omega
    rw [isNameChar, halpha, Bool.true_or, Bool.true_or]
  · exact h

theorem isNameChar_of_mem_canonical {name : Str} (h : ∀ c ∈ name, isNameChar c = true) :
    ∀ c ∈ canonical name, isNameChar c = true := by
  intro c hc
  obtain ⟨d, hd, rfl⟩ := List.mem_map.mp hc
  apply isNameChar_asciiLower
  rcases mem_hyphenate hd with rfl | hd
  · decide
  · exact h d hd

theorem canonical_ne_nil {name : Str} (h : name ≠ []) : canonical name ≠ [] := by
  cases name with
  | nil => exact absurd rfl h
  | cons c s =>
    have hcons : ∃ d t, hyphenate false (c :: s) = d :: t := by
      rw [hyphenate]
      split_ifs with hsep hinside
      · exact hinside.elim
      · exact ⟨_, _, rfl⟩
      · exact ⟨_, _, rfl⟩
    obtain ⟨d, t, hdt⟩ := hcons
    rw [canonical, hdt]
    exact List.cons_ne_nil _ _

/-- Neither the extras nor the clauses continue a name. -/
theorem takeWhile_isNameChar_append {name rest : Str} (hname : ∀ c ∈ name, isNameChar c = true)
    (hrest : ∀ c ∈ rest.head?, isNameChar c = false) :
    (name ++ rest).takeWhile isNameChar = name ∧ (name ++ rest).dropWhile isNameChar = rest := by
  rw [List.takeWhile_append_of_pos hname, List.dropWhile_append_of_pos hname]
  cases rest with
  | nil => exact ⟨List.append_nil name, rfl⟩
  | cons c rest =>
    have hc : ¬ isNameChar c = true := by
      rw [hrest c rfl]
      exact Bool.false_ne_true
    rw [List.takeWhile_cons_of_neg hc, List.dropWhile_cons_of_neg hc, List.append_nil]
    exact ⟨rfl, rfl⟩

theorem head?_joinCommas {clauses : List Str} (h : ∀ c ∈ clauses, IsVersionClause c) :
    ∀ c ∈ (joinCommas clauses).head?, isNameChar c = false ∧ c ≠ ch '[' := by
  cases clauses with
  | nil => exact nofun
  | cons clause clauses =>
    obtain ⟨o, s, rfl, ho⟩ := h clause List.mem_cons_self
    have hhead : (joinCommas ((o :: s) :: clauses)).head? = some o := by
      cases clauses with
      | nil => rw [joinCommas, List.intercalate_singleton, List.head?_cons]
      | cons next clauses =>
        rw [joinCommas, List.intercalate_cons_cons]
        rfl
    intro c hc
    rw [hhead, Option.mem_some_iff] at hc
    subst hc
    simp only [List.mem_cons, List.not_mem_nil, or_false] at ho
    rcases ho with rfl | rfl | rfl | rfl | rfl <;> decide

theorem readExtras_of_head? {s : Str} (h : ∀ c ∈ s.head?, c ≠ ch '[') : readExtras s = ([], s) := by
  cases s with
  | nil => rfl
  | cons c s => rw [readExtras, if_neg (h c rfl)]

/-- A line of the result is a requirement with the parts it was put together from. -/
theorem matchRequirement_formatRequirement {name : Str} {extras clauses : List Str}
    (hname : ∀ c ∈ name, isNameChar c = true) (hne : name ≠ [])
    (hextras : ∀ e ∈ extras, ch ']' ∉ e) (hversions : ∀ c ∈ clauses, IsVersionClause c)
    (hclauses : ∀ c ∈ clauses, ch ';' ∉ c) :
    matchRequirement (formatRequirement name extras clauses) =
      some ⟨name, joinCommas extras, joinCommas clauses, []⟩ := by
  have hhead := head?_joinCommas hversions
  have hsemi : ch ';' ∉ joinCommas clauses := fun h => by
    rcases mem_joinCommas.1 h with h | ⟨c, hc, h⟩
    · exact absurd h (by decide)
    · exact hclauses c hc h
  have hrest : ∀ rest, (∀ c ∈ rest.head?, isNameChar c = false) →
      readExtras rest = (joinCommas extras, joinCommas clauses) →
      matchRequirement (name ++ rest) = some ⟨name, joinCommas extras, joinCommas clauses, []⟩ := by
    intro rest hstop hread
    obtain ⟨htake, hdrop⟩ := takeWhile_isNameChar_append hname hstop
    rw [matchRequirement, htake, hdrop, if_neg hne, hread]
    show some (Requirement.mk name _ (before (ch ';') (joinCommas clauses)) _) = _
    rw [before_of_not_mem hsemi, partition_eq_none_iff.mpr hsemi]
    rfl
  rw [formatRequirement, List.append_assoc]
  split_ifs with hnil
  · subst hnil
    apply hrest
    · exact fun c hc => (hhead c hc).1
    · exact readExtras_of_head? fun c hc => (hhead c hc).2
  · apply hrest
    · intro c hc
      obtain rfl : ch '[' = c := Option.some.inj hc
      decide
    · have hbracket : ch ']' ∉ joinCommas extras := fun h => by
        rcases mem_joinCommas.1 h with h | ⟨e, he, h⟩
        · exact absurd h (by decide)
        · exact hextras e he h
      show readExtras (ch '[' :: (joinCommas extras ++ [ch ']']) ++ joinCommas clauses) = _
      rw [List.cons_append, List.append_assoc, List.singleton_append, readExtras, if_pos rfl,
        partition_append_cons hbracket]
      rfl

theorem not_mem_before (c : CodePoint) (s : Str) : c ∉ before c s := by
  rw [before]
  cases hpart : partition c s with
  | none => exact partition_eq_none_iff.mp hpart
  | some parts => exact (partition_eq_some_iff.mp hpart).2

/-- The parts of a line that was matched. -/
theorem matchRequirement_eq_some {line : Str} {r : Requirement} (h : matchRequirement line = some r) :
    (∀ c ∈ r.name, isNameChar c = true) ∧ r.name ≠ [] ∧ ch ']' ∉ r.extras ∧ ch ';' ∉ r.spec := by
  unfold matchRequirement at h
  split_ifs at h with hne
  obtain rfl := Option.some.inj h
  refine ⟨fun c hc => List.mem_takeWhile_imp hc, hne, ?_, not_mem_before _ _⟩
  show ch ']' ∉ (readExtras (line.dropWhile isNameChar)).1
  cases line.dropWhile isNameChar with
  | nil => exact List.not_mem_nil
  | cons c s =>
    rw [readExtras]
    split_ifs
    · cases hpart : partition (ch ']') s with
      | none => exact List.not_mem_nil
      | some parts => exact (partition_eq_some_iff.mp hpart).2
    · exact List.not_mem_nil

/-! ## The result -/

/-- The line of a name. -/
def lineOf (order : SetOrder Str) (merged : Merged) (name : Str) : Str :=
  formatRequirement name (sorted (entryOf merged name).1)
    (keepFloor (entryOf merged name).2 (topFloor order (entryOf merged name).2))

theorem requirementLine_eq_ok_iff {order : SetOrder Str} {merged : Merged} {name line : Str} :
    requirementLine order merged name = .ok line ↔
      (∀ c ∈ (entryOf merged name).2, IsShortFloor c) ∧ line = lineOf order merged name := by
  unfold requirementLine
  cases hclauses : mergeClauses order (entryOf merged name).2 with
  | error e =>
    refine ⟨fun h => by simp [hclauses, bind, Except.bind] at h, fun h => ?_⟩
    rw [mergeClauses_eq_ok_iff.mpr ⟨h.1, rfl⟩] at hclauses
    cases hclauses
  | ok clauses =>
    obtain ⟨hshort, rfl⟩ := mergeClauses_eq_ok_iff.mp hclauses
    simp only [hclauses, bind, Except.bind, pure, Except.pure, Except.ok.injEq]
    rw [and_iff_right hshort, lineOf, eq_comm]

theorem IsMergedFrom.mem_keys {lines : List Str} {merged : Merged} (h : IsMergedFrom lines merged)
    (name : Str) : name ∈ sorted (merged.map Prod.fst) ↔ ∃ r, Counts lines name r := by
  rw [mem_sorted, ← h.isSome, dictGet?, List.lookup_isSome_iff, List.mem_map]
  exact exists_congr fun entry => and_congr_right fun _ => by rw [beq_iff_eq, eq_comm]

/-- What a merge returns, if it returns. -/
theorem manifestRequirements_eq_ok_iff {order : SetOrder Str} {texts out : List Str}
    (hlines : ∀ line ∈ requirementLines texts, IsRequirementLine line) :
    manifestRequirements order texts = .ok out ↔
      (∀ line ∈ requirementLines texts, ∀ r, matchRequirement line = some r →
        IsShortMarker (strip r.marker)) ∧
      (∀ name c, HasClause (requirementLines texts) name c → IsShortFloor c) ∧
      ∃ merged, (requirementLines texts).foldlM mergeLine [] = .ok merged ∧
        IsMergedFrom (requirementLines texts) merged ∧
        out = (sorted (merged.map Prod.fst)).map (lineOf order merged) := by
  rw [manifestRequirements]
  constructor
  · intro h
    cases hrun : (requirementLines texts).foldlM mergeLine [] with
    | error e => rw [hrun] at h; cases h
    | ok merged =>
      rw [hrun] at h
      obtain ⟨hmerged, hmarkers⟩ := isMergedFrom_nil.run hlines hrun
      rw [List.nil_append] at hmerged
      obtain ⟨hfloors, rfl⟩ := (mapM_eq_ok_iff fun _ _ => requirementLine_eq_ok_iff).mp h
      refine ⟨hmarkers, fun name c hc => ?_, merged, rfl, hmerged, rfl⟩
      obtain ⟨r, hr, -⟩ := id hc
      exact hfloors name ((hmerged.mem_keys name).mpr ⟨r, hr⟩) c ((hmerged.clauses name c).mpr hc)
  · intro ⟨_, hfloors, merged, hrun, hmerged, hout⟩
    rw [hrun]
    refine (mapM_eq_ok_iff fun _ _ => requirementLine_eq_ok_iff).mpr ⟨fun name _ c hc => ?_, hout⟩
    exact hfloors name c ((hmerged.clauses name c).mp hc)

/-! ## Exactness -/

section

variable {lines : List Str} {merged : Merged}

/-- A name that counts is canonical. -/
theorem Counts.name {name : Str} {r : Requirement} (h : Counts lines name r) :
    (∀ c ∈ name, isNameChar c = true) ∧ name ≠ [] := by
  obtain ⟨line, -, hr, -, rfl, -⟩ := h
  obtain ⟨hchars, hne, -, -⟩ := matchRequirement_eq_some hr
  exact ⟨isNameChar_of_mem_canonical hchars, canonical_ne_nil hne⟩

theorem HasClause.parts {name c : Str} (hlines : ∀ line ∈ lines, IsRequirementLine line)
    (h : HasClause lines name c) : IsField c ∧ IsVersionClause c ∧ ch ';' ∉ c := by
  obtain ⟨r, ⟨line, hline, hr, -⟩, hc⟩ := h
  obtain ⟨s, hs, hversions, -⟩ := hlines line hline
  obtain rfl := Option.some.inj (hs.symm.trans hr)
  obtain ⟨-, -, -, hspec⟩ := matchRequirement_eq_some hr
  exact ⟨isField_of_mem_commaFields hc, hversions c hc, fun h => hspec (mem_of_mem_commaFields hc h)⟩

theorem Counts.extras {name e : Str} {r : Requirement} (h : Counts lines name r)
    (he : e ∈ r.extraNames) : IsField e ∧ ch ']' ∉ e := by
  obtain ⟨line, -, hr, -⟩ := h
  obtain ⟨-, -, hextras, -⟩ := matchRequirement_eq_some hr
  exact ⟨isField_of_mem_commaFields he, fun h => hextras (mem_of_mem_commaFields he h)⟩

/-- A line of the result as it is read back. -/
def readOf (order : SetOrder Str) (merged : Merged) (name : Str) : Requirement where
  name
  extras := joinCommas (sorted (entryOf merged name).1)
  spec := joinCommas (keepFloor (entryOf merged name).2 (topFloor order (entryOf merged name).2))
  marker := []

theorem matchRequirement_lineOf (hlines : ∀ line ∈ lines, IsRequirementLine line)
    (h : IsMergedFrom lines merged) (order : SetOrder Str) {name : Str}
    (hname : ∃ r, Counts lines name r) :
    matchRequirement (lineOf order merged name) = some (readOf order merged name) ∧
      (readOf order merged name).extraNames = sorted (entryOf merged name).1 ∧
      (readOf order merged name).clauses =
        keepFloor (entryOf merged name).2 (topFloor order (entryOf merged name).2) := by
  have hextras : ∀ e ∈ sorted (entryOf merged name).1, IsField e ∧ ch ']' ∉ e := fun e he => by
    obtain ⟨r, hr, he⟩ := (h.extras name e).mp (mem_sorted.mp he)
    exact hr.extras he
  have hclauses : ∀ c ∈ keepFloor (entryOf merged name).2 (topFloor order (entryOf merged name).2),
      IsField c ∧ IsVersionClause c ∧ ch ';' ∉ c := fun c hc =>
    ((h.clauses name c).mp (mem_keepFloor.mp hc).1).parts hlines
  obtain ⟨r, hr⟩ := hname
  refine ⟨?_, ?_, ?_⟩
  · exact matchRequirement_formatRequirement hr.name.1 hr.name.2 (fun e he => (hextras e he).2)
      (fun c hc => (hclauses c hc).2.1) fun c hc => (hclauses c hc).2.2
  · exact commaFields_joinCommas fun e he => (hextras e he).1
  · exact commaFields_joinCommas fun c hc => (hclauses c hc).1

/-- A merge is exact. -/
theorem isMergeOf_readOf (hlines : ∀ line ∈ lines, IsRequirementLine line)
    (h : IsMergedFrom lines merged) (order : SetOrder Str) :
    IsMergeOf lines ((sorted (merged.map Prod.fst)).map (lineOf order merged))
      ((sorted (merged.map Prod.fst)).map (readOf order merged)) := by
  have hread : ∀ name ∈ sorted (merged.map Prod.fst), _ := fun name hname =>
    matchRequirement_lineOf hlines h order ((h.mem_keys name).mp hname)
  have hnames : ((sorted (merged.map Prod.fst)).map (readOf order merged)).map Requirement.name =
      sorted (merged.map Prod.fst) := by
    rw [List.map_map]
    exact List.map_id _
  refine ⟨?_, ?_, fun name => ?_, ?_, ?_, ?_⟩
  · rw [List.map_map, List.map_map]
    exact List.map_congr_left fun name hname => (hread name hname).1
  · rw [hnames]
    exact nodup_sorted h.nodup
  · rw [hnames]
    exact h.mem_keys name
  · intro m hm
    obtain ⟨name, -, rfl⟩ := List.mem_map.mp hm
    rfl
  · intro m hm e
    obtain ⟨name, hname, rfl⟩ := List.mem_map.mp hm
    rw [(hread name hname).2.1, mem_sorted]
    exact h.extras name e
  · intro m hm other version
    obtain ⟨name, hname, rfl⟩ := List.mem_map.mp hm
    rw [(hread name hname).2.2, satisfies_keepFloor (isTop_topFloor order _)]
    -- the clauses of an entry are those of all its lines
    constructor
    · intro hall r hr c hc
      exact hall c ((h.clauses name c).mpr ⟨r, hr, hc⟩)
    · intro hall c hc
      obtain ⟨r, hr, hc⟩ := (h.clauses name c).mp hc
      exact hall r hr c hc

/-! ## The order of the input -/

/-- The same clauses keep the same floor, if the highest one is written in one way. -/
theorem keepFloor_congr {cs ds : List Str} {top top' : Str} (hcs : cs.Nodup) (hds : ds.Nodup)
    (hsame : ∀ c, c ∈ ds ↔ c ∈ cs) (htop : IsTop cs top) (htop' : IsTop ds top')
    (hhighest : ∀ floor, (∀ c ∈ cs, ∀ key, floorRelease c = some key → key ≤ floor) →
      ∀ c ∈ cs, ∀ d ∈ cs, floorRelease c = some floor → floorRelease d = some floor → c = d) :
    keepFloor ds top' = keepFloor cs top := by
  apply sorted_congr (hds.filter _) (hcs.filter _)
  intro c
  simp only [List.mem_filter, decide_eq_true_iff, hsame]
  refine and_congr_right fun hc => ?_
  rcases htop with hnone | ⟨hin, floor, hfloor, hle⟩
  · simp [hnone c hc]
  · rcases htop' with hnone | ⟨hin', floor', hfloor', hle'⟩
    · simp [hnone c ((hsame c).mpr hc)]
    · have hge := hle' top ((hsame top).mpr hin) floor hfloor
      have heq : floor' = floor := le_antisymm (hle top' ((hsame top').mp hin') floor' hfloor') hge
      rw [hhighest floor hle top' ((hsame top').mp hin') top hin (heq ▸ hfloor') hfloor]

/-- The order of the lines leaves at most the spelling of the highest floors open. -/
theorem lineOf_congr {lines' : List Str} {merged' : Merged} (order order' : SetOrder Str)
    (h : IsMergedFrom lines merged) (h' : IsMergedFrom lines' merged')
    (hsame : ∀ l, l ∈ lines' ↔ l ∈ lines)
    (hhighest : ∀ name floor, IsHighestFloor lines name floor →
      ∀ c d, HasClause lines name c → HasClause lines name d →
        floorRelease c = some floor → floorRelease d = some floor → c = d) (name : Str) :
    lineOf order' merged' name = lineOf order merged name := by
  have hcounts : ∀ r, Counts lines' name r ↔ Counts lines name r := fun r =>
    exists_congr fun l => and_congr_left' (hsame l)
  have hextras : sorted (entryOf merged' name).1 = sorted (entryOf merged name).1 := by
    apply sorted_congr (h'.nodup_extras name) (h.nodup_extras name)
    intro e
    rw [h'.extras, h.extras]
    exact exists_congr fun r => and_congr_left' (hcounts r)
  have hclauses : ∀ c, c ∈ (entryOf merged' name).2 ↔ c ∈ (entryOf merged name).2 := fun c => by
    rw [h'.clauses, h.clauses]
    exact exists_congr fun r => and_congr_left' (hcounts r)
  rw [lineOf, lineOf, hextras, keepFloor_congr (h.nodup_clauses name) (h'.nodup_clauses name)
    hclauses (isTop_topFloor order _) (isTop_topFloor order' _)]
  intro floor hle c hc d hd
  refine hhighest name floor (fun e key he => ?_) c d ((h.clauses name c).mp hc)
    ((h.clauses name d).mp hd)
  exact hle e ((h.clauses name e).mpr he) key

end

/-! ## When a merge is what it is for -/

theorem hasClause_congr {lines lines' : List Str} (hsame : ∀ l, l ∈ lines' ↔ l ∈ lines)
    (name c : Str) : HasClause lines' name c ↔ HasClause lines name c :=
  exists_congr fun _ => and_congr_left' (exists_congr fun l => and_congr_left' (hsame l))

theorem IsMergeable.mergesExactly {texts : List Str}
    (hlines : ∀ line ∈ requirementLines texts, IsRequirementLine line)
    (h : IsMergeable (requirementLines texts)) : MergesExactly texts := by
  intro order
  obtain ⟨merged, hrun⟩ := exists_foldlM_mergeLine hlines h.markers []
  have hmerged := (isMergedFrom_nil.run hlines hrun).1
  refine ⟨_, (manifestRequirements_eq_ok_iff hlines).mpr
    ⟨h.markers, h.floors, merged, hrun, hmerged, rfl⟩, ⟨_, isMergeOf_readOf hlines hmerged order⟩,
    fun order' texts' hsame => ?_⟩
  -- the other texts have the same lines, so they can be merged as well
  have hlines' : ∀ line ∈ requirementLines texts', IsRequirementLine line := fun line hline =>
    hlines line ((hsame line).mp hline)
  have hmarkers' : ∀ line ∈ requirementLines texts', ∀ r, matchRequirement line = some r →
      IsShortMarker (strip r.marker) := fun line hline => h.markers line ((hsame line).mp hline)
  have hfloors' : ∀ name c, HasClause (requirementLines texts') name c → IsShortFloor c :=
    fun name c hc => h.floors name c ((hasClause_congr hsame name c).mp hc)
  obtain ⟨merged', hrun'⟩ := exists_foldlM_mergeLine hlines' hmarkers' []
  have hmerged' := (isMergedFrom_nil.run hlines' hrun').1
  refine (manifestRequirements_eq_ok_iff hlines').mpr
    ⟨hmarkers', hfloors', merged', hrun', hmerged', ?_⟩
  have hkeys : sorted (merged'.map Prod.fst) = sorted (merged.map Prod.fst) := by
    apply sorted_congr hmerged'.nodup hmerged.nodup
    intro name
    rw [← mem_sorted, hmerged'.mem_keys, ← mem_sorted, hmerged.mem_keys]
    exact exists_congr fun r => exists_congr fun l => and_congr_left' (hsame l)
  rw [hkeys]
  exact List.map_congr_left fun name _ =>
    (lineOf_congr order order' hmerged hmerged' hsame h.highest name).symm

/-- Of two spellings of the highest floor, the one that is met first is kept. -/
theorem mem_clauses_first {lines : List Str} {merged : Merged}
    (hlines : ∀ line ∈ lines, IsRequirementLine line) (h : IsMergedFrom lines merged)
    {name top c : Str} {floor : List ℕ} (hin : HasClause lines name top)
    (htop : floorRelease top = some floor) (hhighest : IsHighestFloor lines name floor)
    (hc : floorRelease c ≠ none) :
    c ∈ (readOf (SetOrder.first top) merged name).clauses ↔ c = top := by
  obtain ⟨r, hr, -⟩ := id hin
  have hmem : top ∈ (entryOf merged name).2 := (h.clauses name top).mpr hin
  have hfirst : topFloor (SetOrder.first top) (entryOf merged name).2 = top :=
    topFloor_first hmem htop fun d hd key => hhighest d key ((h.clauses name d).mp hd)
  rw [(matchRequirement_lineOf hlines h (SetOrder.first top) ⟨r, hr⟩).2.2, hfirst, mem_keepFloor,
    or_iff_right hc]
  exact ⟨fun h => h.2, fun h => ⟨h ▸ hmem, h⟩⟩

theorem MergesExactly.isMergeable {texts : List Str}
    (hlines : ∀ line ∈ requirementLines texts, IsRequirementLine line) (h : MergesExactly texts) :
    IsMergeable (requirementLines texts) := by
  obtain ⟨out, hout, -, -⟩ := h (SetOrder.insertion Str)
  obtain ⟨hmarkers, hfloors, merged, hrun, hmerged, -⟩ :=
    (manifestRequirements_eq_ok_iff hlines).mp hout
  refine ⟨hmarkers, hfloors, fun name floor hhighest c d hc hd hcfloor hdfloor => ?_⟩
  -- the two spellings come first in one order each
  obtain ⟨out, hout, -, hsame⟩ := h (SetOrder.first c)
  have hout' := hsame (SetOrder.first d) texts fun _ => Iff.rfl
  obtain ⟨-, -, merged₁, hrun₁, -, rfl⟩ := (manifestRequirements_eq_ok_iff hlines).mp hout
  obtain ⟨-, -, merged₂, hrun₂, -, heq⟩ := (manifestRequirements_eq_ok_iff hlines).mp hout'
  obtain rfl := Except.ok.inj (hrun.symm.trans hrun₁)
  obtain rfl := Except.ok.inj (hrun.symm.trans hrun₂)
  have hname : ∃ r, Counts (requirementLines texts) name r := hc.imp fun _ hr => hr.1
  have hline := List.map_inj_left.mp heq name ((hmerged.mem_keys name).mpr hname)
  have hread : readOf (SetOrder.first c) merged name = readOf (SetOrder.first d) merged name := by
    apply Option.some.inj
    rw [← (matchRequirement_lineOf hlines hmerged (SetOrder.first c) hname).1, hline,
      (matchRequirement_lineOf hlines hmerged (SetOrder.first d) hname).1]
  have hne : floorRelease c ≠ none := by
    rw [hcfloor]
    exact Option.some_ne_none floor
  have hmem := (mem_clauses_first hlines hmerged hc hcfloor hhighest hne).mpr rfl
  rw [hread] at hmem
  exact (mem_clauses_first hlines hmerged hd hdfloor hhighest hne).mp hmem

/-- The merge of requirement lines is exact and independent of their order exactly if their numbers
are short and the highest floor of each name is written in one way. -/
theorem mergesExactly_iff {texts : List Str}
    (hlines : ∀ line ∈ requirementLines texts, IsRequirementLine line) :
    MergesExactly texts ↔ IsMergeable (requirementLines texts) :=
  ⟨MergesExactly.isMergeable hlines, IsMergeable.mergesExactly hlines⟩

theorem mergesExactly_iff_pydantic :
    MergesExactly [str "pydantic>=2.12.0", str "pydantic[email]>=2.9,<3; python_version >= '3.14'"] ↔
      IsMergeable (requirementLines
        [str "pydantic>=2.12.0", str "pydantic[email]>=2.9,<3; python_version >= '3.14'"]) := by
  refine mergesExactly_iff fun line hline => ?_
  have hlines : requirementLines
      [str "pydantic>=2.12.0", str "pydantic[email]>=2.9,<3; python_version >= '3.14'"] =
      [str "pydantic>=2.12.0", str "pydantic[email]>=2.9,<3; python_version >= '3.14'"] := by
    decide +kernel
  rw [hlines] at hline
  rcases List.mem_cons.mp hline with rfl | hline
  · refine ⟨⟨"pydantic", [], ">=2.12.0", []⟩, by decide +kernel, ?_, .inl (by decide)⟩
    have hclauses : commaFields (str ">=2.12.0") = [str ">=2.12.0"] := by decide +kernel
    exact fun c hc => ⟨ch '>', str "=2.12.0", List.mem_singleton.mp (hclauses ▸ hc), by decide⟩
  · obtain rfl := List.mem_singleton.mp hline
    refine ⟨⟨"pydantic", "email", ">=2.9,<3", " python_version >= '3.14'"⟩, by decide +kernel, ?_,
      .inr (.inr (by decide +kernel))⟩
    have hclauses : commaFields (str ">=2.9,<3") = [str ">=2.9", str "<3"] := by decide +kernel
    intro c hc
    have hin : c ∈ [str ">=2.9", str "<3"] := hclauses ▸ hc
    rcases List.mem_pair.mp hin with rfl | rfl
    · exact ⟨ch '>', str "=2.9", rfl, by decide⟩
    · exact ⟨ch '<', str "3", rfl, by decide⟩

/-- The lines `foo>=1.0` and `foo>=01.0` are merged into the one that comes first. -/
theorem not_mergesExactly_zero : ¬ MergesExactly [str "foo>=1.0\nfoo>=01.0"] := by
  intro h
  obtain ⟨out, hout, -, hsame⟩ := h (SetOrder.insertion Str)
  have hlines : requirementLines [str "foo>=1.0\nfoo>=01.0"] = [str "foo>=1.0", str "foo>=01.0"] := by
    decide +kernel
  have hlines' : requirementLines [str "foo>=01.0\nfoo>=1.0"] =
      [str "foo>=01.0", str "foo>=1.0"] := by decide +kernel
  have hswapped := hsame (SetOrder.insertion Str) [str "foo>=01.0\nfoo>=1.0"] fun l => by
    rw [hlines, hlines', List.mem_pair, List.mem_pair, or_comm]
  have hfirst : manifestRequirements (SetOrder.insertion Str) [str "foo>=1.0\nfoo>=01.0"] =
      .ok [str "foo>=1.0"] := by decide +kernel
  have hother : manifestRequirements (SetOrder.insertion Str) [str "foo>=01.0\nfoo>=1.0"] =
      .ok [str "foo>=01.0"] := by decide +kernel
  rw [hfirst, Except.ok.injEq] at hout
  rw [hother, Except.ok.injEq, ← hout] at hswapped
  revert hswapped
  decide

end EsphomeMcp.Vendor
