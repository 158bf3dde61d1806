import EsphomeMcp.Python.Decimal
import EsphomeMcp.Python.JsonText
import Mathlib.Data.Prod.Lex
import Mathlib.Order.Lattice.Nat

/-!
# Release versions

`VERSION_RE`, the key by which two versions are compared, and the next patch of a version. The two
scripts hold their own copies of the key, which differ in the exception for a version the pattern
does not match.
-/

namespace EsphomeMcp.Release

open Py

/-- What a script raises. -/
inductive ScriptError where
  | runtime (message : Str)
  | value (message : Str)
  /-- The `ValueError` of `int()` and `str()` for too many digits. -/
  | digits
  | json (e : JsonError)
  | key (name : Str)
  | type
  /-- What `git`, the reading of a file, `tomllib` or `ast` raises. -/
  | outside (text : Str)
deriving DecidableEq

/-- `a`, `b` and `rc`. -/
inductive Prerelease where
  | a
  | b
  | rc
deriving DecidableEq

/-- The text of a pre-release mark. -/
def Prerelease.text : Prerelease → Str
  | a => str "a"
  | b => str "b"
  | rc => str "rc"

/-- `prerelease_rank`. -/
def prereleaseRank : Option Prerelease → ℕ
  | some .a => 0
  | some .b => 1
  | some .rc => 2
  | none => 3

section

variable [DecimalDigits]

/-- A text that `\d+` matches. -/
structure Numeral where
  text : Str
  ne_nil : text ≠ []
  decimal : ∀ c ∈ text, isDecimal c = true
deriving DecidableEq

/-- `\d+` at the start of a text. -/
def readNumeral (s : Str) : Option (Numeral × Str) :=
  if h : s.takeWhile isDecimal = [] then none
  else some (⟨s.takeWhile isDecimal, h, fun _ hc => List.mem_takeWhile_imp hc⟩,
    s.dropWhile isDecimal)

/-- `\.`. -/
def readDot : Str → Option Str
  | [] => none
  | c :: s => if c = ch '.' then some s else none

/-- The groups of `VERSION_RE`. -/
structure VersionGroups where
  major : Numeral
  minor : Numeral
  patch : Numeral
  prerelease : Option (Prerelease × Numeral)
deriving DecidableEq

/-- `(a|b|rc)(\d+)`, and nothing behind it. -/
def matchPrerelease (s : Str) : Option (Prerelease × Numeral) :=
  [Prerelease.a, .b, .rc].findSome? fun mark =>
    if startsWith s mark.text then
      match readNumeral (s.drop mark.text.length) with
      | some (number, []) => some (mark, number)
      | _ => none
    else none

/-- `VERSION_RE.fullmatch(s)`. -/
def matchVersion (s : Str) : Option VersionGroups := do
  let (major, s) ← readNumeral s
  let s ← readDot s
  let (minor, s) ← readNumeral s
  let s ← readDot s
  let (patch, s) ← readNumeral s
  if s = [] then return ⟨major, minor, patch, none⟩
  else do
    let prerelease ← matchPrerelease s
    return ⟨major, minor, patch, some prerelease⟩

/-- `int(s)`. -/
def toInt (s : Numeral) : Except ScriptError ℕ :=
  match intOfDecimals s.text with
  | some n => .ok n
  | none => .error .digits

/-- `int(prerelease_num or 0)`. -/
def prereleaseNumber : Option (Prerelease × Numeral) → Except ScriptError ℕ
  | some (_, number) => toInt number
  | none => .ok 0

/-- A key: major, minor, patch, rank and number of the pre-release, compared in this order. -/
abbrev VersionKey := ℕ ×ₗ ℕ ×ₗ ℕ ×ₗ ℕ ×ₗ ℕ

/-- The tuple of five numbers. -/
def versionTuple (major minor patch rank number : ℕ) : VersionKey :=
  toLex (major, toLex (minor, toLex (patch, toLex (rank, number))))

/-- `key[0]`. -/
def majorOf (key : VersionKey) : ℕ := (ofLex key).1

/-- `_version_key`, with the exception for an unsupported version. -/
def versionKey (unsupported : Str → ScriptError) (version : Str) :
    Except ScriptError VersionKey :=
  match matchVersion version with
  | none => .error (unsupported version)
  | some groups => do
    let major ← toInt groups.major
    let minor ← toInt groups.minor
    let patch ← toInt groups.patch
    let number ← prereleaseNumber groups.prerelease
    return versionTuple major minor patch (prereleaseRank (groups.prerelease.map Prod.fst)) number

variable [Runtime]

/-- The `RuntimeError` of the bump. -/
def unsupportedVersion (version : Str) : ScriptError :=
  .runtime (str "unsupported release version " ++ Runtime.repr (.str version))

/-- `_next_patch`. -/
def nextPatch (version : Str) : Except ScriptError Str :=
  match matchVersion version with
  | none => .error (unsupportedVersion version)
  | some groups => do
    let patch ← toInt groups.patch
    match strOfNat (patch + 1) with
    | some patch => return groups.major.text ++ ch '.' :: (groups.minor.text ++ ch '.' :: patch)
    | none => .error .digits

/-! ## The next patch -/

omit [Runtime] in
theorem readNumeral_append (n : Numeral) {rest : Str}
    (h : ∀ c ∈ rest.head?, isDecimal c = false) : readNumeral (n.text ++ rest) = some (n, rest) := by
  have hrest : rest.takeWhile isDecimal = [] ∧ rest.dropWhile isDecimal = rest := by
    cases rest with
    | nil => exact ⟨rfl, rfl⟩
    | cons c rest =>
      have hc : isDecimal c = false := h c rfl
      exact ⟨List.takeWhile_cons_of_neg (by simp [hc]), List.dropWhile_cons_of_neg (by simp [hc])⟩
  have htake : (n.text ++ rest).takeWhile isDecimal = n.text := by
    rw [List.takeWhile_append_of_pos n.decimal, hrest.1, List.append_nil]
  have hdrop : (n.text ++ rest).dropWhile isDecimal = rest := by
    rw [List.dropWhile_append_of_pos n.decimal, hrest.2]
  have hne : (n.text ++ rest).takeWhile isDecimal ≠ [] := by
    rw [htake]
    exact n.ne_nil
  rw [readNumeral, dif_neg hne, hdrop]
  simp only [htake]

omit [Runtime] in
/-- Three numbers with dots between them are a version without a pre-release. -/
theorem matchVersion_numerals (major minor patch : Numeral) :
    matchVersion (major.text ++ ch '.' :: (minor.text ++ ch '.' :: patch.text)) =
      some ⟨major, minor, patch, none⟩ := by
  have hdot : ∀ s : Str, ∀ c ∈ (ch '.' :: s).head?, isDecimal c = false := by
    intro s c hc
    obtain rfl := Option.some.inj hc
    exact not_isDecimal_of_isAscii (by decide) (by decide)
  have hpatch : readNumeral (patch.text ++ []) = some (patch, []) :=
    readNumeral_append patch nofun
  rw [List.append_nil] at hpatch
  simp only [matchVersion, readNumeral_append _ (hdot _), hpatch, readDot, if_true, Option.bind_eq_bind,
    Option.bind_some, Option.pure_def]

theorem nextPatch_eq_ok {version target : Str} (h : nextPatch version = .ok target) :
    ∃ groups n, matchVersion version = some groups ∧ toInt groups.patch = .ok n ∧
      strOfNat (n + 1) = some (natRepr (n + 1)) ∧
      target = groups.major.text ++ ch '.' :: (groups.minor.text ++ ch '.' :: natRepr (n + 1)) := by
  rw [nextPatch] at h
  cases hmatch : matchVersion version with
  | none =>
    rw [hmatch] at h
    cases h
  | some groups =>
    rw [hmatch] at h
    obtain ⟨n, hn, h⟩ := except_bind_eq_ok h
    refine ⟨groups, n, rfl, hn, ?_⟩
    cases hstr : strOfNat (n + 1) with
    | none =>
      rw [hstr] at h
      cases h
    | some patch =>
      rw [hstr] at h
      have hpatch : natRepr (n + 1) = patch := by
        rw [strOfNat] at hstr
        split_ifs at hstr
        exact Option.some.inj hstr
      rw [hpatch]
      exact ⟨rfl, (Except.ok.inj h).symm⟩

omit [Runtime] in
/-- The copies of the key differ in the exception only. -/
theorem versionKey_eq_ok {raised raised' : Str → ScriptError} {version : Str} {key : VersionKey}
    (h : versionKey raised version = .ok key) : versionKey raised' version = .ok key := by
  rw [versionKey] at h ⊢
  cases hmatch : matchVersion version with
  | none =>
    rw [hmatch] at h
    cases h
  | some groups =>
    rw [hmatch] at h
    exact h

/-- The next patch has the key of the version with its patch raised by one and no pre-release, for
either copy of the key. -/
theorem versionKey_nextPatch {raised : Str → ScriptError} (raised' : Str → ScriptError)
    {version target : Str} {key : VersionKey} (hkey : versionKey raised version = .ok key)
    (htarget : nextPatch version = .ok target) :
    ∃ major minor patch rank number, key = versionTuple major minor patch rank number ∧
      versionKey raised' target = .ok (versionTuple major minor (patch + 1) 3 0) := by
  obtain ⟨groups, n, hmatch, hn, hstr, rfl⟩ := nextPatch_eq_ok htarget
  rw [versionKey, hmatch] at hkey
  obtain ⟨major, hmajor, hkey⟩ := except_bind_eq_ok hkey
  obtain ⟨minor, hminor, hkey⟩ := except_bind_eq_ok hkey
  obtain ⟨patch, hpatch, hkey⟩ := except_bind_eq_ok hkey
  obtain ⟨number, -, hkey⟩ := except_bind_eq_ok hkey
  obtain rfl : patch = n := Except.ok.inj (hpatch.symm.trans hn)
  refine ⟨major, minor, patch, _, number, (Except.ok.inj hkey).symm, ?_⟩
  -- the text of the number above is the third numeral
  let next : Numeral := ⟨natRepr (patch + 1), natRepr_ne_nil _, fun _ => isDecimal_of_mem_natRepr⟩
  have hnext : toInt next = .ok (patch + 1) := by
    rw [toInt, intOfDecimals_of_strOfNat hstr]
  rw [versionKey, matchVersion_numerals groups.major groups.minor next]
  simp only [hmajor, hminor, hnext, bind, Except.bind, pure, Except.pure]
  rfl

omit [DecimalDigits] [Runtime] in
/-- A higher patch wins over any pre-release. -/
theorem versionTuple_lt_patch (major minor patch rank number rank' number' : ℕ) :
    versionTuple major minor patch rank number <
      versionTuple major minor (patch + 1) rank' number' := by
  simp [versionTuple, Prod.Lex.toLex_lt_toLex]

/-- The characters of a version. -/
theorem mem_nextPatch {version target : Str} (h : nextPatch version = .ok target) :
    ∀ c ∈ target, isDecimal c = true ∨ c = ch '.' := by
  obtain ⟨groups, n, -, -, -, rfl⟩ := nextPatch_eq_ok h
  intro c hc
  simp only [List.mem_append, List.mem_cons] at hc
  rcases hc with hc | rfl | hc | rfl | hc
  · exact .inl (groups.major.decimal c hc)
  · exact .inr rfl
  · exact .inl (groups.minor.decimal c hc)
  · exact .inr rfl
  · exact .inl (isDecimal_of_mem_natRepr hc)

end

end EsphomeMcp.Release
