import EsphomeMcp.Python.Json
import EsphomeMcp.Python.Lines
import EsphomeMcp.Python.Number
import EsphomeMcp.Python.Sets

/-!
# Requirement lines

The `REQUIRES.txt` of the vendored trees, read line by line, and `manifest_requirements`, which
merges them for the component manifest. Markers are evaluated for the Home Assistant the component
is deployed on, and not for the interpreter that runs the script.
-/

namespace EsphomeMcp.Vendor

open Py

/-- How the merge stops. -/
inductive MergeFailure where
  /-- `SystemExit`: `cannot parse vendored requirement`, with the line. -/
  | cannotParse (line : Str)
  /-- `SystemExit`: `unhandled marker in vendored requirement`, with the line. -/
  | unhandledMarker (requirement : Str)
  /-- The `ValueError` of `int` for a number that is too long. -/
  | tooLong
deriving DecidableEq

/-! ## Lines -/

/-- The lines with a requirement, of the texts of all trees. -/
def requirementLines (texts : List Str) : List Str :=
  texts.flatMap fun requires => ((splitlines requires).map strip).filter (· ≠ [])

/-! ## Names -/

/-- A character of `[A-Za-z0-9._-]`. -/
def isNameChar (c : CodePoint) : Bool :=
  isAlpha c || isDigit c || decide (c = ch '.' ∨ c = ch '_' ∨ c = ch '-')

/-- `re.sub(r"[-_.]+", "-", ..)`; `inside` a run, the `-` has been written. -/
def hyphenate (inside : Bool) : Str → Str
  | [] => []
  | c :: s =>
    if c = ch '-' ∨ c = ch '_' ∨ c = ch '.' then
      if inside then hyphenate true s else ch '-' :: hyphenate true s
    else c :: hyphenate false s

/-- `canonical`. Every name it is applied to is ASCII. -/
def canonical (name : Str) : Str := (hyphenate false name).map asciiLower

/-- `_NOT_DECLARED`. -/
def notDeclared : List Str :=
  ["fastmcp", "fastmcp-slim", "mcp", "mcp-types", "websockets", "certifi", "httpx2", "packaging",
    "pyjwt", "pyyaml", "typing-extensions"].map str

/-! ## The grammar of a line -/

/-- The groups of `_REQUIREMENT_RE`; a group that takes no part in the match is empty. -/
structure Requirement where
  name : Str
  extras : Str
  spec : Str
  marker : Str
deriving DecidableEq

/-- The group for the extras, and what is left behind it. -/
def readExtras : Str → Str × Str
  | [] => ([], [])
  | c :: s => if c = ch '[' then (partition (ch ']') s).getD ([], c :: s) else ([], c :: s)

/-- `_REQUIREMENT_RE.fullmatch` of a line, which holds no line break. -/
def matchRequirement (line : Str) : Option Requirement :=
  if line.takeWhile isNameChar = [] then none
  else
    let (extras, rest) := readExtras (line.dropWhile isNameChar)
    some
      { name := line.takeWhile isNameChar
        extras
        spec := before (ch ';') rest
        marker := ((partition (ch ';') rest).map Prod.snd).getD [] }

/-- The extras a line asks for. -/
def Requirement.extraNames (r : Requirement) : List Str := commaFields r.extras

/-- The version clauses of a line. -/
def Requirement.clauses (r : Requirement) : List Str := commaFields r.spec

/-! ## Markers -/

/-- `_TARGET_PYTHON_VERSION`. -/
def targetPythonVersion : List ℕ := [3, 14]

/-- `_TARGET_MARKERS`. -/
def targetMarkers : List (Str × Bool) :=
  [(str "sys_platform == 'win32'", false), (str "sys_platform != 'emscripten'", true)]

/-- The operators of `_PYTHON_VERSION_MARKER_RE`. -/
inductive Comparison where
  | ge | le | eq | ne | lt | gt
deriving DecidableEq

/-- A tuple of numbers compared with another one. -/
def Comparison.holds : Comparison → List ℕ → List ℕ → Bool
  | .ge, target, version => version ≤ target
  | .le, target, version => target ≤ version
  | .eq, target, version => target = version
  | .ne, target, version => target ≠ version
  | .lt, target, version => target < version
  | .gt, target, version => version < target

/-- What follows a text that a string starts with. -/
def dropStart (p s : Str) : Option Str := if startsWith s p then some (s.drop p.length) else none

theorem dropStart_append (p t : Str) : dropStart p (p ++ t) = some t := by
  have hstart : startsWith (p ++ t) p = true := startsWith_iff.mpr ⟨t, rfl⟩
  rw [dropStart, if_pos hstart, List.drop_left]

theorem eq_append_of_dropStart {p s t : Str} (h : dropStart p s = some t) : s = p ++ t := by
  rw [dropStart] at h
  split_ifs at h with hstart
  obtain ⟨u, rfl⟩ := startsWith_iff.mp hstart
  rw [List.drop_left] at h
  rw [Option.some.inj h]

/-- The operators in the order in which the pattern tries them. -/
def readComparison (s : Str) : Option (Comparison × Str) :=
  [(str ">=", Comparison.ge), (str "<=", .le), (str "==", .eq), (str "!=", .ne), (str "<", .lt),
    (str ">", .gt)].findSome? fun p => (dropStart p.1 s).map fun rest => (p.2, rest)

/-- `[0-9]+` at the start of a text. -/
def readDigits (s : Str) : Option (Str × Str) :=
  if s.takeWhile isDigit = [] then none else some (s.takeWhile isDigit, s.dropWhile isDigit)

/-- `_PYTHON_VERSION_MARKER_RE.fullmatch`: the operator and the two numbers. -/
def matchPythonVersion (marker : Str) : Option (Comparison × Str × Str) := do
  let rest ← dropStart "python_version" marker
  let (comparison, rest) ← readComparison (rest.dropWhile isSpace)
  let rest ← dropStart "'" (rest.dropWhile isSpace)
  let (major, rest) ← readDigits rest
  let rest ← dropStart "." rest
  let (minor, rest) ← readDigits rest
  if rest = str "'" then some (comparison, major, minor) else none

/-- `int(s)` of ASCII digits. -/
def intOfDigits (s : Str) : Except MergeFailure ℕ :=
  if s.length ≤ maxStrDigits then .ok (digitsVal s) else .error .tooLong

/-- A marker as it is looked up: in single quotes, and without one pair of parentheses. -/
def bareMarker (marker : Str) : Str :=
  let marker := (strip marker).map fun c => if c = ch '"' then ch '\'' else c
  if startsWith marker "(" ∧ endsWith marker ")" then strip (marker.drop 1).dropLast else marker

/-- `_marker_applies`. -/
def markerApplies (marker requirement : Str) : Except MergeFailure Bool :=
  match targetMarkers.lookup (bareMarker marker) with
  | some holds => .ok holds
  | none =>
    match matchPythonVersion (bareMarker marker) with
    | some (comparison, major, minor) => do
      let major ← intOfDigits major
      let minor ← intOfDigits minor
      return comparison.holds targetPythonVersion [major, minor]
    | none => .error (.unhandledMarker requirement)

/-- Whether a line counts: it has no marker, or one that holds. -/
def Requirement.applies (r : Requirement) (line : Str) : Except MergeFailure Bool :=
  if strip r.marker = [] then .ok true else markerApplies (strip r.marker) line

/-! ## Clauses -/

/-- The numbers of a release, if the text is one. -/
def releaseParts (version : Str) : Option (List Str) :=
  if (version.splitOn (ch '.')).all fun part => part ≠ [] ∧ part.all isDigit
  then some (version.splitOn (ch '.')) else none

/-- `_version_key`. -/
def versionKey (version : Str) : Except MergeFailure (Option (List ℕ)) :=
  match releaseParts version with
  | some parts => (parts.mapM intOfDigits).map some
  | none => .ok none

/-- The key of a clause that starts with `>=`, as it is entered into `floors`. -/
def floorKey (c : Str) : Except MergeFailure (Option (List ℕ)) :=
  if startsWith c ">=" then versionKey (c.drop 2) else .ok none

/-- `numeric`: the floors that have a key, with their keys. -/
def numericFloors : List Str → Except MergeFailure (List (Str × List ℕ))
  | [] => .ok []
  | c :: cs => do
    let key ← floorKey c
    let numeric ← numericFloors cs
    match key with
    | some key => .ok ((c, key) :: numeric)
    | none => .ok numeric

/-- `_merge_clauses`. -/
def mergeClauses (order : SetOrder Str) (clauses : List Str) : Except MergeFailure (List Str) := do
  match ← numericFloors (order.iter clauses) with
  | first :: second :: others =>
    let highest := maxFrom Prod.snd first (second :: others)
    let numeric := (first :: second :: others).map Prod.fst
    .ok (sorted (clauses.filter fun c => c ∉ numeric ∨ c = highest.1))
  | _ => .ok (sorted clauses)

/-! ## Merging -/

/-- `merged`: for each canonical name the extras and the clauses. -/
abbrev Merged := List (Str × (List Str × List Str))

/-- The entry of a name, empty if there is none. -/
def entryOf (merged : Merged) (name : Str) : List Str × List Str :=
  (dictGet? merged name).getD ([], [])

/-- What one line does to `merged`. -/
def mergeLine (merged : Merged) (line : Str) : Except MergeFailure Merged :=
  match matchRequirement line with
  | none => .error (.cannotParse line)
  | some r => do
    if !(← r.applies line) then return merged
    let name := canonical r.name
    if name ∈ notDeclared then return merged
    let (extras, clauses) := entryOf merged name
    return dictSet name (setUpdate extras r.extraNames, setUpdate clauses r.clauses) merged

/-- The text for a name, its extras and its clauses. -/
def formatRequirement (name : Str) (extras clauses : List Str) : Str :=
  name ++ (if extras = [] then [] else ch '[' :: joinCommas extras ++ [ch ']']) ++
    joinCommas clauses

/-- The line of a name in the result. -/
def requirementLine (order : SetOrder Str) (merged : Merged) (name : Str) :
    Except MergeFailure Str := do
  let (extras, clauses) := entryOf merged name
  let clauses ← mergeClauses order clauses
  return formatRequirement name (sorted extras) clauses

/-- `manifest_requirements`, for the texts of the trees. -/
def manifestRequirements (order : SetOrder Str) (texts : List Str) :
    Except MergeFailure (List Str) := do
  let merged ← (requirementLines texts).foldlM mergeLine []
  (sorted (merged.map Prod.fst)).mapM (requirementLine order merged)

end EsphomeMcp.Vendor
