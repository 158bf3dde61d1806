import EsphomeMcp.Python.JsonIndent
import EsphomeMcp.Python.SplitPairs
import EsphomeMcp.Release.Assignment

/-!
# Bump and check of the release version

`bump_component_version` raises the version in three files one patch above a base, and
`validate_version_bump` is the check of a pull request. Everything that can raise comes before the
first write. The version is read by `tomllib` and `ast`, and it is exchanged by a pattern that knows
neither: `bumpAgrees_iff` says that the two scripts agree when the one match in each text is the
literal that is read there, and, where the match stands by itself, only then.
-/

namespace EsphomeMcp.Release

open Py

/-! ## Files -/

/-- The files that hold the version. -/
inductive ReleaseFile where
  | pyproject
  | manifest
  | const
deriving DecidableEq

/-- The worktree: of each file the decoded text, or what reading it raises. -/
structure Worktree where
  pyproject : Except ScriptError Str
  manifest : Except ScriptError Str
  const : Except ScriptError Str
  /-- The files written so far. -/
  writes : List ReleaseFile
deriving DecidableEq

/-- `path.read_text()`. -/
def readText (content : Except ScriptError Str) : Except ScriptError Str :=
  content.map (universalNewlines false)

/-- `path.write_text(text)`, which succeeds. -/
def Worktree.write (w : Worktree) (file : ReleaseFile) (text : Str) : Worktree :=
  match file with
  | .pyproject => { w with pyproject := .ok text, writes := w.writes ++ [file] }
  | .manifest => { w with manifest := .ok text, writes := w.writes ++ [file] }
  | .const => { w with const := .ok text, writes := w.writes ++ [file] }

/-- A script, which keeps what it has written when it raises. -/
abbrev Script (α : Type) := ExceptT ScriptError (StateM Worktree) α

/-- How a script ends in a worktree, and what it leaves. -/
def Script.runIn {α : Type} (script : Script α) (w : Worktree) : Except ScriptError α × Worktree :=
  script w

/-- A part of a script that only reads. -/
def reading {α : Type} (f : Worktree → Except ScriptError α) : Script α := fun w => (f w, w)

def writeText (file : ReleaseFile) (text : Str) : Script Unit := fun w => (.ok (), w.write file text)

/-! ## What the scripts call -/

/-- A value of `tomllib`. What is neither a table nor a string, as a date is, has only the text
`str()` gives. -/
inductive TomlValue where
  | table (items : List (Str × TomlValue)) (printed : Str)
  | string (s : Str)
  | other (printed : Str)

/-- `str(value)`. -/
def TomlValue.print : TomlValue → Str
  | table _ printed => printed
  | string s => s
  | other printed => printed

/-- `items[name]`. -/
def tomlItem (items : List (Str × TomlValue)) (name : Str) : Except ScriptError TomlValue :=
  match dictGet? items name with
  | some value => .ok value
  | none => .error (.key name)

/-- `value[name]`. -/
def TomlValue.item (value : TomlValue) (name : Str) : Except ScriptError TomlValue :=
  match value with
  | table items _ => tomlItem items name
  | _ => .error .type

/-- A target of an assignment: an `ast.Name`, or anything else. -/
inductive Target where
  | name (id : Str)
  | other
deriving DecidableEq

/-- A statement of a module: an `ast.Assign` with its targets and its value, if that is a string
constant, or anything else. -/
inductive Statement where
  | assign (targets : List Target) (value : Option Str)
  | other

/-- What the scripts take from the standard library as it is. -/
structure Tools where
  /-- `tomllib.loads`. -/
  tomlLoads : Str → Except ScriptError (List (Str × TomlValue))
  /-- `ast.parse(source).body`. -/
  parse : Str → Except ScriptError (List Statement)
  /-- The deepest nesting `json.dumps(.., indent=2)` writes. -/
  dumpsLimit : ℕ

/-- What `git` says of the base reference. -/
structure Repository where
  baseRef : Str
  /-- `git show base:manifest.json`. -/
  baseManifest : Except ScriptError Str
  /-- `git diff --name-only base`. -/
  changedNames : Except ScriptError Str

/-- `COMPONENT_PREFIX`. -/
def componentPrefix : Str := str "custom_components/esphome_mcp/"

/-- `component_facing_changes`. -/
def componentFacingChanges (repo : Repository) : Except ScriptError (List Str) :=
  repo.changedNames.map fun changed => (splitlines changed).filter (startsWith · componentPrefix)

section

variable [Runtime]

/-! ## Versions in files -/

/-- `json.loads(text)`. -/
def loadJson (text : Str) : Except ScriptError Json := (loads text).mapError .json

/-- `value[name]`. -/
def jsonItem (value : Json) (name : Str) : Except ScriptError Json :=
  match value with
  | .obj d =>
    match dictGet? d name with
    | some v => .ok v
    | none => .error (.key name)
  | _ => .error .type

/-- `str(json.loads(text)["version"])`. -/
def manifestVersion (text : Str) : Except ScriptError Str := do
  let manifest ← loadJson text
  let version ← jsonItem manifest "version"
  return strOf version

/-- `_manifest_version_from_ref`, the same in both scripts. -/
def manifestVersionFromRef (repo : Repository) : Except ScriptError Str := do
  let raw ← repo.baseManifest
  manifestVersion (strip raw)

/-- The loop of `_const_version`. -/
def findVersion : List Statement → Option Str
  | [] => none
  | .assign targets value :: statements =>
    if .name "VERSION" ∈ targets then value <|> findVersion statements else findVersion statements
  | .other :: statements => findVersion statements

variable (tools : Tools)

/-- `_const_version`. -/
def constVersion (source : Str) : Except ScriptError (Option Str) :=
  (tools.parse source).map findVersion

/-- `_worktree_versions`. -/
def worktreeVersions (w : Worktree) : Except ScriptError (Str × Str × Str) := do
  let pyproject ← readText w.pyproject
  let project ← tools.tomlLoads pyproject
  let text ← readText w.manifest
  let manifest ← loadJson text
  let const ← readText w.const
  let constVersion ← constVersion tools const
  let project ← tomlItem project "project"
  let projectVersion ← project.item "version"
  let version ← jsonItem manifest "version"
  return (projectVersion.print, strOf version, constVersion.getD [])

/-! ## The bump -/

/-- The three texts that are written. -/
structure Rendered where
  pyproject : Str
  manifest : Str
  const : Str
deriving DecidableEq

/-- The manifest with another version. -/
def renderManifest (text target : Str) : Except ScriptError Str := do
  let manifest ← loadJson text
  match manifest with
  | .obj d => do
    let rendered ← (dumpsIndented tools.dumpsLimit 2
      (.obj (dictSet (str "version") (.str target) d))).mapError .json
    return rendered ++ [ch '\n']
  | _ => .error .type

/-- `_write_versions` up to the first write. -/
def renderVersions (current target : Str) (w : Worktree) : Except ScriptError Rendered := do
  let text ← readText w.pyproject
  let pyproject ← replaceAssignment text "version" current target
  let text ← readText w.manifest
  let manifest ← renderManifest tools text target
  let text ← readText w.const
  let const ← replaceAssignment text "VERSION" current target
  return ⟨pyproject, manifest, const⟩

/-- `_write_versions`. -/
def writeVersions (current target : Str) : Script Unit := do
  let rendered ← reading (renderVersions tools current target)
  writeText .pyproject rendered.pyproject
  writeText .manifest rendered.manifest
  writeText .const rendered.const

variable [DecimalDigits] (repo : Repository)

/-- `bump_component_version`, without what it prints. -/
def bumpComponentVersion : Script Str := do
  let baseVersion ← reading fun _ => manifestVersionFromRef repo
  let versions ← reading (worktreeVersions tools)
  let currentVersion := versions.1
  if ¬(versions.1 = versions.2.1 ∧ versions.2.1 = versions.2.2) then
    throw (.runtime (str "release version metadata is not aligned: pyproject=" ++
      Runtime.repr (.str versions.1) ++ str ", manifest=" ++ Runtime.repr (.str versions.2.1) ++
      str ", const=" ++ Runtime.repr (.str versions.2.2)))
  else do
    let changes ← reading fun _ => componentFacingChanges repo
    if changes = [] then return currentVersion
    else do
      let currentKey ← reading fun _ => versionKey unsupportedVersion currentVersion
      let baseKey ← reading fun _ => versionKey unsupportedVersion baseVersion
      if currentKey < baseKey then
        throw (.runtime (str "current release version " ++ Runtime.repr (.str currentVersion) ++
          str " is behind " ++ repo.baseRef ++ str " version " ++ Runtime.repr (.str baseVersion)))
      else if baseKey < currentKey then return currentVersion
      else do
        let targetVersion ← reading fun _ => nextPatch baseVersion
        writeVersions tools currentVersion targetVersion
        return targetVersion

/-! ## The check -/

/-- The `ValueError` of the check. -/
def notSupported (version : Str) : ScriptError :=
  .value (Runtime.repr (.str version) ++ str " is not a supported release version")

/-- `validate_version_bump`. -/
def validateVersionBump (w : Worktree) : Except ScriptError (List Str) := do
  let changedFiles ← componentFacingChanges repo
  if changedFiles = [] then return []
  else do
    let text ← readText w.manifest
    let currentVersion ← manifestVersion text
    let baseVersion ← manifestVersionFromRef repo
    let currentKey ← versionKey notSupported currentVersion
    let baseKey ← versionKey notSupported baseVersion
    if currentKey ≤ baseKey then
      return [str "custom_components/esphome_mcp changed but manifest version did not increase " ++
        str "over " ++ repo.baseRef ++ str ": " ++ Runtime.repr (.str currentVersion) ++ str " <= " ++
        Runtime.repr (.str baseVersion)]
    else if majorOf currentKey ≠ majorOf baseKey ∧
        currentKey ≠ versionTuple (majorOf baseKey + 1) 0 0 3 0 then
      return [str "a major release must be exactly the next major version: " ++
        Runtime.repr (.str baseVersion) ++ str " -> " ++ Runtime.repr (.str currentVersion)]
    else return []

/-! ## What is to hold -/

/-- The version `tomllib` finds in a text. -/
def pyprojectVersion (text : Str) : Except ScriptError Str := do
  let project ← tools.tomlLoads text
  let project ← tomlItem project "project"
  let version ← project.item "version"
  return version.print

/-- The version `ast` finds in a text, and `""` without one. -/
def constText (text : Str) : Except ScriptError Str := (constVersion tools text).map (·.getD [])

/-- The worktree after a bump: the files agree on a version above the base, the check has no
complaint and another bump writes nothing, whatever has changed by then. -/
structure IsBumped (w : Worktree) (version : Str) : Prop where
  aligned : worktreeVersions tools w = .ok (version, version, version)
  greater : ∃ base baseKey key, manifestVersionFromRef repo = .ok base ∧
    versionKey unsupportedVersion base = .ok baseKey ∧
    versionKey unsupportedVersion version = .ok key ∧ baseKey < key
  valid : ∀ changed, validateVersionBump { repo with changedNames := .ok changed } w = .ok []
  again : ∀ changed,
    ((bumpComponentVersion tools { repo with changedNames := changed }).runIn w).2 = w

/-- A bump that raises has written nothing, and one that has written is complete. -/
structure BumpAgrees (w : Worktree) : Prop where
  raises : ∀ e, ((bumpComponentVersion tools repo).runIn w).1 = .error e →
    ((bumpComponentVersion tools repo).runIn w).2 = w
  writes : ((bumpComponentVersion tools repo).runIn w).2 ≠ w →
    ∃ version, IsBumped tools repo ((bumpComponentVersion tools repo).runIn w).2 version

/-- The bump comes to its writes: of the worktree it reads an aligned version with the key of the
base, something of the component has changed, and the three texts are rendered. -/
structure ComesToWrite (w : Worktree) (base current target : Str) (rendered : Rendered) :
    Prop where
  fromRef : manifestVersionFromRef repo = .ok base
  aligned : worktreeVersions tools w = .ok (current, current, current)
  changed : ∃ paths, componentFacingChanges repo = .ok paths ∧ paths ≠ []
  sameKey : ∃ key, versionKey unsupportedVersion current = .ok key ∧
    versionKey unsupportedVersion base = .ok key
  next : nextPatch base = .ok target
  texts : renderVersions tools current target w = .ok rendered

/-- With the target in the place of the matched literals `tomllib` and `ast` read the target. -/
structure ReadsTarget (w : Worktree) (current target : Str) : Prop where
  pyproject : ∀ text before head literal after, readText w.pyproject = .ok text →
    IsOnlyMatch "version" current text before head literal after →
    pyprojectVersion tools (exchanged before head target after) = .ok target
  const : ∀ text before head literal after, readText w.const = .ok text →
    IsOnlyMatch "VERSION" current text before head literal after →
    constText tools (exchanged before head target after) = .ok target

end

/-- Where a text is cut around a literal. -/
structure Spot where
  front : Str
  literal : Str
  behind : Str
deriving DecidableEq

/-- The match stands by itself: its quotes are the same and no third one follows, so that what is
exchanged is a literal, or stands in one as a whole. -/
def StandsAlone (literal after : Str) : Prop :=
  literal.head? = literal.getLast? ∧ after.head? ≠ some (ch '"') ∧ after.head? ≠ some (ch '\'')

/-- What the scripts rely on of a parser that finds the version of a text in a string literal:
`spot` is where that literal stands. -/
structure ReadsLiteral [DecimalDigits] (name : Str) (read : Str → Except ScriptError Str)
    (spot : Str → Option Spot) : Prop where
  /-- With another version in this literal, that version is read. -/
  inside : ∀ {text front literal behind current target},
    spot text = some ⟨front, literal, behind⟩ → read text = .ok current →
    (∃ quote quote', literal = quote :: (current ++ [quote'])) →
    (∀ c ∈ target, isDecimal c = true ∨ c = ch '.') →
    read (front ++ (ch '"' :: (target ++ ch '"' :: behind))) = .ok target
  /-- With another version in another place the text is refused, or read as before. -/
  outside : ∀ {text before head literal after current target version},
    IsOnlyMatch name current text before head literal after → StandsAlone literal after →
    spot text ≠ some ⟨before ++ head, literal, after⟩ → read text = .ok current →
    (∀ c ∈ target, isDecimal c = true ∨ c = ch '.') →
    read (exchanged before head target after) = .ok version → version = current

/-- The one match in each of the two texts is the literal that is read there. -/
structure MatchesWhatIsRead (projectSpot constSpot : Str → Option Spot) (w : Worktree)
    (current : Str) : Prop where
  pyproject : ∀ text before head literal after, readText w.pyproject = .ok text →
    IsOnlyMatch "version" current text before head literal after →
    projectSpot text = some ⟨before ++ head, literal, after⟩
  const : ∀ text before head literal after, readText w.const = .ok text →
    IsOnlyMatch "VERSION" current text before head literal after →
    constSpot text = some ⟨before ++ head, literal, after⟩

/-- The one match in each of the two texts stands by itself. -/
structure MatchesStandAlone (w : Worktree) (current : Str) : Prop where
  pyproject : ∀ text before head literal after, readText w.pyproject = .ok text →
    IsOnlyMatch "version" current text before head literal after → StandsAlone literal after
  const : ∀ text before head literal after, readText w.const = .ok text →
    IsOnlyMatch "VERSION" current text before head literal after → StandsAlone literal after

/-! ## Scripts -/

section

variable {α β : Type} {w : Worktree}

theorem runIn_reading_bind (f : Worktree → Except ScriptError α) (k : α → Script β) :
    Script.runIn (reading f >>= k) w =
      match f w with
      | .ok a => (k a).runIn w
      | .error e => (.error e, w) := by
  have hbind : Script.runIn (reading f >>= k) w = ExceptT.bindCont k (f w) w := rfl
  rw [hbind]
  cases f w <;> rfl

/-- Reading leaves the worktree as it is: to show so of a script it may be taken to succeed. -/
theorem stays_or_of_reading {f : Worktree → Except ScriptError α} {k : α → Script β} {P : Prop}
    (h : ∀ a, f w = .ok a → (∃ result, (k a).runIn w = (result, w)) ∨ P) :
    (∃ result, Script.runIn (reading f >>= k) w = (result, w)) ∨ P := by
  rw [runIn_reading_bind]
  cases hf : f w with
  | error e => exact .inl ⟨_, rfl⟩
  | ok a => exact h a hf

end

/-- The worktree with the three texts written. -/
def Worktree.rewritten (w : Worktree) (rendered : Rendered) : Worktree :=
  ((w.write .pyproject rendered.pyproject).write .manifest rendered.manifest).write .const
    rendered.const

section

variable [Runtime] [DecimalDigits] {tools : Tools} {repo : Repository} {w : Worktree}

omit [DecimalDigits] in
/-- Everything that can raise is in front of the writes. -/
theorem runIn_writeVersions_bind {β : Type} (current target : Str) (k : Unit → Script β) :
    (writeVersions tools current target >>= k).runIn w =
      match renderVersions tools current target w with
      | .ok rendered => (k ()).runIn (w.rewritten rendered)
      | .error e => (.error e, w) := by
  rw [writeVersions, bind_assoc, runIn_reading_bind]
  cases renderVersions tools current target w <;> rfl

/-- A bump that comes to its writes does them all. -/
theorem ComesToWrite.runIn {base current target : Str} {rendered : Rendered}
    (h : ComesToWrite tools repo w base current target rendered) :
    (bumpComponentVersion tools repo).runIn w = (.ok target, w.rewritten rendered) := by
  obtain ⟨paths, hpaths, hne⟩ := h.changed
  obtain ⟨key, hcurrent, hbase⟩ := h.sameKey
  rw [bumpComponentVersion, runIn_reading_bind, h.fromRef]
  dsimp only
  rw [runIn_reading_bind, h.aligned]
  dsimp only
  rw [if_neg (not_not.mpr ⟨rfl, rfl⟩), runIn_reading_bind, hpaths]
  dsimp only
  rw [if_neg hne, runIn_reading_bind, hcurrent]
  dsimp only
  rw [runIn_reading_bind, hbase]
  dsimp only
  rw [if_neg (lt_irrefl key), if_neg (lt_irrefl key), runIn_reading_bind, h.next]
  dsimp only
  rw [runIn_writeVersions_bind, h.texts]
  rfl

/-- A bump leaves the worktree as it is, or it comes to its writes. -/
theorem bump_cases (tools : Tools) (repo : Repository) (w : Worktree) :
    (∃ result, (bumpComponentVersion tools repo).runIn w = (result, w)) ∨
      ∃ base current target rendered, ComesToWrite tools repo w base current target rendered := by
  rw [bumpComponentVersion]
  apply stays_or_of_reading
  intro base hbase
  apply stays_or_of_reading
  intro versions hversions
  split_ifs with haligned
  · apply stays_or_of_reading
    intro paths hpaths
    split_ifs with hnil
    · exact .inl ⟨_, rfl⟩
    · apply stays_or_of_reading
      intro key hcurrent
      apply stays_or_of_reading
      intro baseKey hkey
      split_ifs with hlt hgt
      · exact .inl ⟨_, rfl⟩
      · exact .inl ⟨_, rfl⟩
      · apply stays_or_of_reading
        intro target htarget
        rw [runIn_writeVersions_bind]
        cases hrendered : renderVersions tools versions.1 target w with
        | error e => exact .inl ⟨_, rfl⟩
        | ok rendered =>
          have hsame : versions = (versions.1, versions.1, versions.1) := by
            rw [Prod.ext_iff, Prod.ext_iff]
            exact ⟨rfl, haligned.1.symm, (haligned.1.trans haligned.2).symm⟩
          -- neither key is below the other
          have heq : baseKey = key := le_antisymm (not_lt.mp hlt) (not_lt.mp hgt)
          exact .inr ⟨base, versions.1, target, rendered, hbase, hsame ▸ hversions,
            ⟨paths, hpaths, hnil⟩, ⟨key, hcurrent, heq ▸ hkey⟩, htarget, hrendered⟩
  · exact .inl ⟨_, rfl⟩

/-! ## The manifest -/

omit [DecimalDigits] in
theorem loadJson_wellFormed {text : Str} {j : Json} (h : loadJson text = .ok j) :
    j.WellFormed ∧ j.depth ≤ recursionLimit := by
  rw [loadJson, loads, loadsWith] at h
  split_ifs at h
  · cases h
  · cases hj : decodeJson false text with
    | error e =>
      rw [hj] at h
      cases h
    | ok j' =>
      rw [hj] at h
      obtain rfl := Except.ok.inj h
      exact decodeJson_wellFormed hj

omit [DecimalDigits] in
/-- Setting a key to a string keeps a dict writable. -/
theorem wellFormed_dictSet {d : Dict} {n : ℕ} (hwf : (Json.obj d).WellFormed)
    (hdepth : (Json.obj d).depth ≤ n) (k v : Str) :
    (Json.obj (dictSet k (.str v) d)).WellFormed ∧ (Json.obj (dictSet k (.str v) d)).depth ≤ n := by
  cases hwf with | obj _ hkeys hall =>
  rw [Json.depth] at hdepth
  constructor
  · refine .obj _ (nodup_keys_dictSet _ _ hkeys) fun f hf => ?_
    rcases mem_dictSet hf with hf | rfl
    · exact hall f hf
    · exact .str v
  · have hfields : Json.depthFields (dictSet k (.str v) d) ≤ Json.depthFields d := by
      refine Json.depthFields_le fun f hf => ?_
      rcases mem_dictSet hf with hf | rfl
      · exact Json.depth_le_depthFields hf
      · exact Nat.zero_le _
    rw [Json.depth]
    omega

/-- A text in which no surrogates are. -/
def IsPlainText (s : Str) : Prop := ∀ c ∈ s, isSurrogate c = false

omit [DecimalDigits] [Runtime] in
theorem IsPlainText.rejoinStr_eq {s : Str} (h : IsPlainText s) : rejoinStr s = s := by
  refine rejoinStr_eq_self fun c hc => ?_
  by_contra hhigh
  rw [Bool.not_eq_false] at hhigh
  exact absurd (isHighSurrogate_isSurrogate hhigh) (by rw [h c hc]; exact Bool.false_ne_true)

omit [DecimalDigits] [Runtime] in
/-- The version that was set is read back. -/
theorem jsonItem_rejoin {d : Dict} {target : Str} (hd : (d.map Prod.fst).Nodup)
    (htarget : IsPlainText target) :
    jsonItem (Json.obj (dictSet (str "version") (.str target) d)).rejoin "version" =
      .ok (.str target) := by
  have hget : dictGet? (dictOf (Json.rejoinFields (dictSet (str "version") (.str target) d)))
      (str "version") = some (.str target) := by
    rw [Json.rejoinFields_eq_map]
    have hset : (str "version", Json.str target) ∈ dictSet (str "version") (.str target) d :=
      mem_of_dictGet? (by rw [dictGet?_dictSet, if_pos rfl])
    have htext : (rejoinStr (str "version"), (Json.str target).rejoin) =
        (str "version", Json.str target) := by
      rw [Json.rejoin, htarget.rejoinStr_eq]
      rfl
    apply dictGet?_dictOf_of_mem
    · exact List.mem_map.mpr ⟨_, hset, htext⟩
    · intro p hp hkey
      obtain ⟨f, hf, rfl⟩ := List.mem_map.mp hp
      -- no other key becomes this one when surrogates are joined
      have hname : f.1 = str "version" := eq_of_rejoinStr_eq hkey (List.all_eq_true.mp rfl)
      have hvalue : f.2 = .str target := by
        have hget := dictGet?_of_mem (nodup_keys_dictSet _ _ hd) hf
        rw [dictGet?_dictSet, if_pos hname] at hget
        exact (Option.some.inj hget).symm
      rw [hvalue]
      exact (Prod.mk.inj htext).2
  rw [Json.rejoin, jsonItem, hget]

omit [DecimalDigits] in
/-- A manifest that was written has the target for its version, and no carriage returns. -/
theorem manifestVersion_renderManifest {text target rendered : Str} (htarget : IsPlainText target)
    (h : renderManifest tools text target = .ok rendered) :
    manifestVersion rendered = .ok target ∧ ch '\r' ∉ rendered := by
  rw [renderManifest] at h
  obtain ⟨j, hj, h⟩ := except_bind_eq_ok h
  obtain ⟨hwf, hdepth⟩ := loadJson_wellFormed hj
  cases j with
  | obj d =>
    obtain ⟨hwf', hdepth'⟩ := wellFormed_dictSet hwf hdepth "version" target
    cases hwf with | obj _ hkeys _ =>
    dsimp only at h
    rw [dumpsIndented] at h
    split_ifs at h
    · obtain ⟨body, hbody, h⟩ := except_bind_eq_ok h
      obtain rfl := Except.ok.inj hbody
      obtain rfl := Except.ok.inj h
      constructor
      · rw [manifestVersion, loadJson, loads_indentedText hwf' hdepth']
        show (do
          let version ← jsonItem _ "version"
          return strOf version) = _
        rw [jsonItem_rejoin hkeys htarget]
        rfl
      · rw [List.mem_append, not_or]
        refine ⟨fun hr => ?_, by decide⟩
        exact absurd (isLayout_indentedText hwf' 0 _ hr) (by decide)
    · cases h
  | null | bool | int | float | str | arr => cases h

/-! ## The files read back -/

omit [DecimalDigits] [Runtime] in
theorem not_mem_of_readText {content : Except ScriptError Str} {text : Str}
    (h : readText content = .ok text) : ch '\r' ∉ text := by
  obtain ⟨t, -, ht⟩ := except_map_eq_ok h
  exact ht ▸ not_mem_universalNewlines false t

omit [DecimalDigits] [Runtime] in
/-- What was written without carriage returns is read as it is. -/
theorem readText_ok {text : Str} (h : ch '\r' ∉ text) : readText (.ok text) = .ok text :=
  congrArg Except.ok (universalNewlines_eq_self h)

omit [DecimalDigits] in
theorem not_mem_of_replaceAssignment {source name current target rendered : Str}
    (h : replaceAssignment source name current target = .ok rendered) (hsource : ch '\r' ∉ source)
    (htarget : ch '\r' ∉ target) : ch '\r' ∉ rendered := by
  obtain ⟨before, head, literal, after, hmatch, rfl⟩ := replaceAssignment_eq_ok_iff.mp h
  rw [hmatch.source_eq] at hsource
  simp only [exchanged, List.mem_append, List.mem_cons, not_or] at hsource ⊢
  exact ⟨hsource.1, hsource.2.1, by decide, htarget, by decide, hsource.2.2.2⟩

omit [DecimalDigits] in
/-- A reader finds the target in the result just when it does so whichever way the source is
taken apart around its one match. -/
theorem reads_replaceAssignment_iff {source name current target rendered : Str}
    (h : replaceAssignment source name current target = .ok rendered)
    (read : Str → Except ScriptError Str) :
    (∀ before head literal after, IsOnlyMatch name current source before head literal after →
        read (exchanged before head target after) = .ok target) ↔
      read rendered = .ok target := by
  constructor
  · intro hreads
    obtain ⟨before, head, literal, after, hmatch, rfl⟩ := replaceAssignment_eq_ok_iff.mp h
    exact hreads before head literal after hmatch
  · intro hread before head literal after hmatch
    have hsame : replaceAssignment source name current target =
        .ok (exchanged before head target after) :=
      replaceAssignment_eq_ok_iff.mpr ⟨before, head, literal, after, hmatch, rfl⟩
    rwa [← Except.ok.inj (h.symm.trans hsame)]

omit [DecimalDigits] in
/-- The three versions of a worktree, file by file. -/
theorem worktreeVersions_eq_ok_iff {a b c : Str} :
    worktreeVersions tools w = .ok (a, b, c) ↔
      (∃ text, readText w.pyproject = .ok text ∧ pyprojectVersion tools text = .ok a) ∧
      (∃ text, readText w.manifest = .ok text ∧ manifestVersion text = .ok b) ∧
      ∃ text, readText w.const = .ok text ∧ constText tools text = .ok c := by
  rw [worktreeVersions]
  constructor
  · intro h
    obtain ⟨pyproject, hpyproject, h⟩ := except_bind_eq_ok h
    obtain ⟨document, hdocument, h⟩ := except_bind_eq_ok h
    obtain ⟨text, htext, h⟩ := except_bind_eq_ok h
    obtain ⟨manifest, hmanifest, h⟩ := except_bind_eq_ok h
    obtain ⟨const, hconst, h⟩ := except_bind_eq_ok h
    obtain ⟨found, hfound, h⟩ := except_bind_eq_ok h
    obtain ⟨project, hproject, h⟩ := except_bind_eq_ok h
    obtain ⟨projectVersion, hprojectVersion, h⟩ := except_bind_eq_ok h
    obtain ⟨version, hversion, h⟩ := except_bind_eq_ok h
    obtain ⟨rfl, rfl, rfl⟩ : projectVersion.print = a ∧ strOf version = b ∧ found.getD [] = c := by
      simpa [pure, Except.pure] using h
    refine ⟨⟨pyproject, hpyproject, ?_⟩, ⟨text, htext, ?_⟩, const, hconst, ?_⟩
    · simp only [pyprojectVersion, hdocument, hproject, hprojectVersion, bind, Except.bind, pure,
        Except.pure]
    · simp only [manifestVersion, hmanifest, hversion, bind, Except.bind, pure, Except.pure]
    · rw [constText, hfound]
      rfl
  · intro ⟨⟨pyproject, hpyproject, ha⟩, ⟨text, htext, hb⟩, const, hconst, hc⟩
    obtain ⟨document, hdocument, ha⟩ := except_bind_eq_ok ha
    obtain ⟨project, hproject, ha⟩ := except_bind_eq_ok ha
    obtain ⟨projectVersion, hprojectVersion, ha⟩ := except_bind_eq_ok ha
    obtain ⟨manifest, hmanifest, hb⟩ := except_bind_eq_ok hb
    obtain ⟨version, hversion, hb⟩ := except_bind_eq_ok hb
    obtain ⟨found, hfound, hc⟩ := except_map_eq_ok hc
    rw [← Except.ok.inj ha, ← Except.ok.inj hb, ← hc]
    simp only [hpyproject, hdocument, htext, hmanifest, hconst, hfound, hproject, hprojectVersion,
      hversion, bind, Except.bind, pure, Except.pure]

omit [DecimalDigits] in
theorem renderVersions_eq_ok {current target : Str} {rendered : Rendered}
    (h : renderVersions tools current target w = .ok rendered) :
    (∃ text, readText w.pyproject = .ok text ∧
      replaceAssignment text "version" current target = .ok rendered.pyproject) ∧
    (∃ text, renderManifest tools text target = .ok rendered.manifest) ∧
    ∃ text, readText w.const = .ok text ∧
      replaceAssignment text "VERSION" current target = .ok rendered.const := by
  rw [renderVersions] at h
  obtain ⟨text, htext, h⟩ := except_bind_eq_ok h
  obtain ⟨pyproject, hpyproject, h⟩ := except_bind_eq_ok h
  obtain ⟨text', -, h⟩ := except_bind_eq_ok h
  obtain ⟨manifest, hmanifest, h⟩ := except_bind_eq_ok h
  obtain ⟨text'', htext'', h⟩ := except_bind_eq_ok h
  obtain ⟨const, hconst, h⟩ := except_bind_eq_ok h
  obtain rfl := Except.ok.inj h
  exact ⟨⟨text, htext, hpyproject⟩, ⟨text', hmanifest⟩, text'', htext'', hconst⟩

/-! ## Behind the writes -/

theorem isPlainText_nextPatch {version target : Str} (h : nextPatch version = .ok target) :
    IsPlainText target ∧ ch '\r' ∉ target := by
  constructor
  · intro c hc
    rcases mem_nextPatch h c hc with hdecimal | rfl
    · exact not_isSurrogate_of_isDecimal hdecimal
    · decide
  · intro hr
    rcases mem_nextPatch h _ hr with hdecimal | hdot
    · rw [not_isDecimal_of_isAscii (by decide) (by decide)] at hdecimal
      cases hdecimal
    · exact absurd hdot (by decide)

namespace ComesToWrite

variable {base current target : Str} {rendered : Rendered}
  (h : ComesToWrite tools repo w base current target rendered)

include h

theorem readManifest : readText (w.rewritten rendered).manifest = .ok rendered.manifest ∧
    manifestVersion rendered.manifest = .ok target := by
  obtain ⟨-, ⟨text, hmanifest⟩, -⟩ := renderVersions_eq_ok h.texts
  obtain ⟨hversion, hcr⟩ :=
    manifestVersion_renderManifest (isPlainText_nextPatch h.next).1 hmanifest
  exact ⟨readText_ok hcr, hversion⟩

/-- The keys of the base and of the target, in either script. -/
theorem keys (raised : Str → ScriptError) : ∃ baseKey key,
    versionKey raised base = .ok baseKey ∧ versionKey raised target = .ok key ∧ baseKey < key ∧
      majorOf key = majorOf baseKey := by
  obtain ⟨baseKey, -, hbase⟩ := h.sameKey
  obtain ⟨major, minor, patch, rank, number, hkey, htarget⟩ :=
    versionKey_nextPatch raised hbase h.next
  refine ⟨baseKey, _, versionKey_eq_ok hbase, htarget, ?_, ?_⟩
  · rw [hkey]
    exact versionTuple_lt_patch major minor patch rank number 3 0
  · rw [hkey]
    rfl

/-- The three files agree just when the readers find what the pattern matched. -/
theorem aligned_iff {version : Str} :
    worktreeVersions tools (w.rewritten rendered) = .ok (version, version, version) ↔
      version = target ∧ ReadsTarget tools w current target := by
  obtain ⟨⟨pyproject, hpyproject, hreplaced⟩, -, const, hconst, hreplaced'⟩ :=
    renderVersions_eq_ok h.texts
  obtain ⟨-, htarget⟩ := isPlainText_nextPatch h.next
  obtain ⟨hmanifest, hversion⟩ := h.readManifest
  have hread : readText (w.rewritten rendered).pyproject = .ok rendered.pyproject :=
    readText_ok (not_mem_of_replaceAssignment hreplaced (not_mem_of_readText hpyproject) htarget)
  have hread' : readText (w.rewritten rendered).const = .ok rendered.const :=
    readText_ok (not_mem_of_replaceAssignment hreplaced' (not_mem_of_readText hconst) htarget)
  have hiff := reads_replaceAssignment_iff hreplaced (pyprojectVersion tools)
  have hiff' := reads_replaceAssignment_iff hreplaced' (constText tools)
  rw [worktreeVersions_eq_ok_iff, hread, hmanifest, hread']
  constructor
  · rintro ⟨⟨text, htext, ha⟩, ⟨text', htext', hb⟩, text'', htext'', hc⟩
    obtain rfl := Except.ok.inj htext
    obtain rfl := Except.ok.inj htext'
    obtain rfl := Except.ok.inj htext''
    obtain rfl := Except.ok.inj (hversion.symm.trans hb)
    refine ⟨rfl, ?_, ?_⟩
    · intro text before head literal after htext
      obtain rfl := Except.ok.inj (hpyproject.symm.trans htext)
      exact hiff.mpr ha before head literal after
    · intro text before head literal after htext
      obtain rfl := Except.ok.inj (hconst.symm.trans htext)
      exact hiff'.mpr hc before head literal after
  · rintro ⟨rfl, hreads⟩
    refine ⟨⟨_, rfl, hiff.mp ?_⟩, ⟨_, rfl, hversion⟩, _, rfl, hiff'.mp ?_⟩
    · intro before head literal after
      exact hreads.pyproject pyproject before head literal after hpyproject
    · intro before head literal after
      exact hreads.const const before head literal after hconst

/-- The check has no complaint, whatever has changed by then. -/
theorem validateVersionBump_eq (changed : Str) :
    validateVersionBump { repo with changedNames := .ok changed } (w.rewritten rendered) =
      .ok [] := by
  obtain ⟨hread, hversion⟩ := h.readManifest
  obtain ⟨baseKey, key, hbase, htarget, hlt, hmajor⟩ := h.keys notSupported
  have hfromRef : manifestVersionFromRef { repo with changedNames := .ok changed } = .ok base :=
    h.fromRef
  rw [validateVersionBump, componentFacingChanges]
  show (if (splitlines changed).filter (startsWith · componentPrefix) = [] then _ else _) = _
  split_ifs with hnil
  · rfl
  · rw [hread]
    simp only [hversion, hfromRef, hbase, htarget, bind, Except.bind]
    rw [if_neg (not_le.mpr hlt), if_neg (fun hne => hne.1 hmajor)]
    rfl

/-- Another bump finds the version above the base and writes nothing. -/
theorem bump_again (changed : Except ScriptError Str) :
    ((bumpComponentVersion tools { repo with changedNames := changed }).runIn
      (w.rewritten rendered)).2 = w.rewritten rendered := by
  rcases bump_cases tools { repo with changedNames := changed } (w.rewritten rendered) with
    ⟨result, hrun⟩ | ⟨base', current', target', rendered', h'⟩
  · rw [hrun]
  · exfalso
    obtain ⟨hread, hversion⟩ := h.readManifest
    obtain ⟨baseKey, key, hbase, htarget, hlt, -⟩ := h.keys unsupportedVersion
    -- it would have to find the target with the key of the base
    obtain ⟨-, ⟨text, htext, hcurrent⟩, -⟩ := worktreeVersions_eq_ok_iff.mp h'.aligned
    obtain rfl := Except.ok.inj (hread.symm.trans htext)
    obtain rfl := Except.ok.inj (hversion.symm.trans hcurrent)
    obtain rfl := Except.ok.inj (h.fromRef.symm.trans h'.fromRef)
    obtain ⟨same, hsame, hsame'⟩ := h'.sameKey
    obtain rfl := Except.ok.inj (htarget.symm.trans hsame)
    obtain rfl := Except.ok.inj (hbase.symm.trans hsame')
    exact lt_irrefl _ hlt

/-- The texts that the current version was read from. -/
theorem readCurrent : (∀ text, readText w.pyproject = .ok text →
      pyprojectVersion tools text = .ok current) ∧
    ∀ text, readText w.const = .ok text → constText tools text = .ok current := by
  obtain ⟨⟨project, hproject, hread⟩, -, const, hconst, hread'⟩ :=
    worktreeVersions_eq_ok_iff.mp h.aligned
  refine ⟨fun text htext => ?_, fun text htext => ?_⟩
  · rwa [Except.ok.inj (htext.symm.trans hproject)]
  · rwa [Except.ok.inj (htext.symm.trans hconst)]

theorem target_ne : target ≠ current := by
  rintro rfl
  obtain ⟨baseKey, key, hbase, htarget, hlt, -⟩ := h.keys unsupportedVersion
  obtain ⟨same, hsame, hsame'⟩ := h.sameKey
  obtain rfl := Except.ok.inj (htarget.symm.trans hsame)
  obtain rfl := Except.ok.inj (hbase.symm.trans hsame')
  exact lt_irrefl _ hlt

variable {projectSpot constSpot : Str → Option Spot}
  (hproject : ReadsLiteral "version" (pyprojectVersion tools) projectSpot)
  (hconst : ReadsLiteral "VERSION" (constText tools) constSpot)

include hproject hconst

/-- A match at the literal that is read is exchanged for the target. -/
theorem readsTarget (hmatches : MatchesWhatIsRead projectSpot constSpot w current) :
    ReadsTarget tools w current target := by
  have hversion := mem_nextPatch h.next
  have hread := h.readCurrent
  constructor
  · intro text before head literal after htext hmatch
    have hspot := hmatches.pyproject text before head literal after htext hmatch
    have htarget := hproject.inside hspot (hread.1 text htext) hmatch.literal_eq hversion
    rwa [List.append_assoc] at htarget
  · intro text before head literal after htext hmatch
    have hspot := hmatches.const text before head literal after htext hmatch
    have htarget := hconst.inside hspot (hread.2 text htext) hmatch.literal_eq hversion
    rwa [List.append_assoc] at htarget

/-- A match elsewhere leaves the current version to be read. -/
theorem matchesWhatIsRead (halone : MatchesStandAlone w current)
    (hreads : ReadsTarget tools w current target) :
    MatchesWhatIsRead projectSpot constSpot w current := by
  have hversion := mem_nextPatch h.next
  have hread := h.readCurrent
  constructor
  · intro text before head literal after htext hmatch
    by_contra hspot
    refine h.target_ne (hproject.outside hmatch ?_ hspot (hread.1 text htext) hversion
      (hreads.pyproject text before head literal after htext hmatch))
    exact halone.pyproject text before head literal after htext hmatch
  · intro text before head literal after htext hmatch
    by_contra hspot
    refine h.target_ne (hconst.outside hmatch ?_ hspot (hread.2 text htext) hversion
      (hreads.const text before head literal after htext hmatch))
    exact halone.const text before head literal after htext hmatch

end ComesToWrite

/-- The two scripts agree just when both parsers read the target from the texts as they are
written. -/
theorem bumpAgrees_iff_readsTarget :
    BumpAgrees tools repo w ↔
      ∀ base current target rendered, ComesToWrite tools repo w base current target rendered →
        ReadsTarget tools w current target := by
  constructor
  · intro hagrees base current target rendered h
    have hchanged : ((bumpComponentVersion tools repo).runIn w).2 ≠ w := by
      rw [h.runIn]
      intro heq
      have hlen := congrArg (fun w => w.writes.length) heq
      simp [Worktree.rewritten, Worktree.write] at hlen
    obtain ⟨version, hbumped⟩ := hagrees.writes hchanged
    have haligned := hbumped.aligned
    rw [h.runIn] at haligned
    exact (h.aligned_iff.mp haligned).2
  · intro hreads
    rcases bump_cases tools repo w with ⟨result, hrun⟩ | ⟨base, current, target, rendered, h⟩
    · refine ⟨fun e _ => ?_, fun hne => absurd ?_ hne⟩
      all_goals rw [hrun]
    · constructor
      · intro e he
        rw [h.runIn] at he
        cases he
      · intro _
        rw [h.runIn]
        obtain ⟨baseKey, key, hbase, htarget, hlt, -⟩ := h.keys unsupportedVersion
        exact ⟨target, h.aligned_iff.mpr ⟨rfl, hreads base current target rendered h⟩,
          ⟨base, baseKey, key, h.fromRef, hbase, htarget, hlt⟩, h.validateVersionBump_eq,
          h.bump_again⟩

end

/-! ## A version that is read where it matches -/

/-- A text that is `front` and a quoted version, which is what is read of it. -/
def readQuoted (front text : Str) : Except ScriptError Str :=
  match dropText (front ++ [ch '"']) text with
  | some rest =>
    if rest = rest.takeWhile (· ≠ ch '"') ++ [ch '"', ch '\n'] then
      .ok (rest.takeWhile (· ≠ ch '"'))
    else .error .type
  | none => .error .type

/-- Where the version of such a text stands. -/
def quotedSpot (front text : Str) : Option Spot :=
  match readQuoted front text with
  | .ok version => some ⟨front, ch '"' :: (version ++ [ch '"']), [ch '\n']⟩
  | .error _ => none

theorem dropText_append (p s : Str) : dropText p (p ++ s) = some s := by
  rw [dropText, if_pos (startsWith_iff.mpr ⟨s, rfl⟩), List.drop_left]

theorem readQuoted_eq_ok_iff {front text version : Str} : readQuoted front text = .ok version ↔
    text = front ++ (ch '"' :: (version ++ [ch '"', ch '\n'])) ∧ ch '"' ∉ version := by
  have hfront (rest : Str) : front ++ (ch '"' :: rest) = (front ++ [ch '"']) ++ rest :=
    (List.append_assoc front [ch '"'] rest).symm
  rw [hfront, readQuoted]
  constructor
  · intro h
    split at h
    · rename_i rest hrest
      split_ifs at h with heq
      obtain rfl := Except.ok.inj h
      refine ⟨?_, fun hmem => ?_⟩
      · rw [← heq]
        exact eq_append_of_dropText hrest
      · simpa using List.mem_takeWhile_imp hmem
    · cases h
  · rintro ⟨rfl, hquote⟩
    have htake : (version ++ [ch '"', ch '\n']).takeWhile (· ≠ ch '"') = version := by
      rw [List.takeWhile_append_of_pos]
      · simp
      · intro c hc
        exact decide_eq_true (ne_of_mem_of_not_mem hc hquote)
    rw [dropText_append]
    dsimp only
    rw [htake, if_pos rfl]

/-- The characters of a match belong to it, and the scan goes on behind them. -/
theorem exists_pieces_drop (name current s after : Str) (lineStart : Bool) :
    ∃ next, pieces name current s.length lineStart (s ++ after) =
      pieces name current 0 next after := by
  induction s generalizing lineStart with
  | nil => exact ⟨lineStart, rfl⟩
  | cons c s ih => exact ih _

/-- The assignment of a quoted version ends a text in one match. -/
theorem isOnlyMatch_quoted {name current before head : Str}
    (hmatch : matchAssignment name current (head ++ (ch '"' :: (current ++ [ch '"', ch '\n']))) =
      some (head, ch '"' :: (current ++ [ch '"'])))
    (hlead : pieces name current 0 true
        (before ++ (head ++ (ch '"' :: (current ++ [ch '"', ch '\n'])))) =
      before.map .char ++
        pieces name current 0 true (head ++ (ch '"' :: (current ++ [ch '"', ch '\n']))))
    (hend : matchAssignment name current [ch '\n'] = none) :
    IsOnlyMatch name current (before ++ (head ++ (ch '"' :: (current ++ [ch '"', ch '\n'])))) before
      head (ch '"' :: (current ++ [ch '"'])) [ch '\n'] := by
  rw [IsOnlyMatch, hlead, List.append_cancel_left_eq]
  obtain ⟨c, s, hs⟩ : ∃ c s, head ++ (ch '"' :: (current ++ [ch '"'])) = c :: s :=
    List.exists_cons_of_ne_nil (by simp)
  have hsource : head ++ (ch '"' :: (current ++ [ch '"', ch '\n'])) = c :: (s ++ [ch '\n']) := by
    have happ := congrArg (· ++ [ch '\n']) hs
    simpa using happ
  have hlen : head.length + (ch '"' :: (current ++ [ch '"'])).length - 1 = s.length := by
    have := congrArg List.length hs
    simp only [List.length_append, List.length_cons] at this ⊢
    omega
  rw [hsource] at hmatch ⊢
  rw [pieces, if_pos rfl, hmatch]
  dsimp only
  rw [hlen]
  obtain ⟨next, hnext⟩ := exists_pieces_drop name current s [ch '\n'] (c = ch '\n')
  rw [hnext, pieces]
  cases next with
  | true => rw [if_pos rfl, hend]; rfl
  | false => rfl

theorem matchAssignment_quoted {name current : Str} {head : Str}
    (h : ∀ s, matchAssignment name current (head ++ (ch '"' :: s)) =
      (dropText current s).bind fun s₄ => (readQuote s₄).bind fun p =>
        some (head, ch '"' :: (current ++ [p.1]))) :
    matchAssignment name current (head ++ (ch '"' :: (current ++ [ch '"', ch '\n']))) =
      some (head, ch '"' :: (current ++ [ch '"'])) := by
  rw [h, dropText_append]
  rfl

theorem isOnlyMatch_project (current : Str) : IsOnlyMatch "version" current
    (str "[project]\n" ++ (str "version = " ++ (ch '"' :: (current ++ [ch '"', ch '\n']))))
    (str "[project]\n") (str "version = ") (ch '"' :: (current ++ [ch '"'])) [ch '\n'] :=
  isOnlyMatch_quoted (matchAssignment_quoted fun _ => rfl) rfl rfl

theorem isOnlyMatch_const (current : Str) : IsOnlyMatch "VERSION" current
    (str "VERSION = " ++ (ch '"' :: (current ++ [ch '"', ch '\n'])))
    [] (str "VERSION = ") (ch '"' :: (current ++ [ch '"'])) [ch '\n'] :=
  @isOnlyMatch_quoted "VERSION" current [] (str "VERSION = ")
    (matchAssignment_quoted fun _ => rfl) rfl rfl

section

variable [DecimalDigits] {name front : Str}

/-- Such a text reads what stands in its one match. -/
theorem readsLiteral_quoted
    (h : ∀ current, ∃ before head, before ++ head = front ∧ IsOnlyMatch name current
      (before ++ (head ++ (ch '"' :: (current ++ [ch '"', ch '\n'])))) before head
      (ch '"' :: (current ++ [ch '"'])) [ch '\n']) :
    ReadsLiteral name (readQuoted front) (quotedSpot front) where
  inside := by
    intro text front' literal behind current target hspot hread _ htarget
    rw [quotedSpot, hread] at hspot
    obtain ⟨rfl, rfl, rfl⟩ := Spot.mk.inj (Option.some.inj hspot)
    refine readQuoted_eq_ok_iff.mpr ⟨rfl, fun hmem => ?_⟩
    rcases htarget _ hmem with hdecimal | hdot
    · rw [not_isDecimal_of_isAscii (by decide) (by decide)] at hdecimal
      cases hdecimal
    · exact absurd hdot (by decide)
  outside := by
    intro text before head literal after current target version hmatch _ hspot hread _ _
    obtain ⟨before', head', hfront, hmatch'⟩ := h current
    have htext := (readQuoted_eq_ok_iff.mp hread).1
    rw [← hfront, List.append_assoc] at htext
    subst htext
    obtain ⟨rfl, rfl, rfl, rfl⟩ := hmatch'.unique hmatch
    rw [quotedSpot, hread, hfront] at hspot
    exact absurd rfl hspot

end

/-- `tomllib` and `ast` on such texts. -/
def quotedTools : Tools where
  tomlLoads text := (readQuoted (str "[project]\nversion = ") text).map fun version =>
    [("project", .table [("version", .string version)] [])]
  parse source := (readQuoted (str "VERSION = ") source).map fun version =>
    [.assign [.name "VERSION"] (some version)]
  dumpsLimit := 1000

theorem pyprojectVersion_quotedTools :
    pyprojectVersion quotedTools = readQuoted (str "[project]\nversion = ") := by
  funext text
  rw [pyprojectVersion]
  show ((readQuoted _ text).map _ >>= _) = _
  cases readQuoted (str "[project]\nversion = ") text with
  | error e => rfl
  | ok version => rfl

theorem constText_quotedTools : constText quotedTools = readQuoted (str "VERSION = ") := by
  funext source
  show (((readQuoted _ source).map _).map _).map _ = _
  cases readQuoted (str "VERSION = ") source with
  | error e => rfl
  | ok version => rfl

theorem readsLiteral_project [DecimalDigits] :
    ReadsLiteral "version" (pyprojectVersion quotedTools)
      (quotedSpot (str "[project]\nversion = ")) := by
  rw [pyprojectVersion_quotedTools]
  exact readsLiteral_quoted fun current => ⟨_, _, rfl, isOnlyMatch_project current⟩

theorem readsLiteral_const [DecimalDigits] :
    ReadsLiteral "VERSION" (constText quotedTools) (quotedSpot (str "VERSION = ")) := by
  rw [constText_quotedTools]
  exact readsLiteral_quoted fun current => ⟨[], _, rfl, isOnlyMatch_const current⟩

/-- A base with the version 1.2.3, and a change of the component. -/
def constChanged : Repository where
  baseRef := "origin/master"
  baseManifest := .ok (str "\x7b\"version\": \"1.2.3\"\x7d")
  changedNames := .ok (str "custom_components/esphome_mcp/const.py\n")

/-- The version of the base in all three files. -/
def quotedVersion : Worktree where
  pyproject := .ok (str "[project]\nversion = \"1.2.3\"\n")
  manifest := .ok (str "\x7b\"version\": \"1.2.3\"\x7d\n")
  const := .ok (str "VERSION = \"1.2.3\"\n")
  writes := []

/-- One line of a document whose tables hold plain strings; the open table is the first one. -/
def tomlLine (tables : List (Str × List (Str × TomlValue))) (line : Str) :
    List (Str × List (Str × TomlValue)) :=
  if startsWith (strip line) "[" then (((strip line).drop 1).dropLast, []) :: tables
  else match partition (ch '=') line, tables with
    | some (key, value), (name, items) :: tables =>
      (name, (strip key, .string ((strip value).drop 1).dropLast) :: items) :: tables
    | _, _ => tables

/-- One line of a module of plain assignments. -/
def astLine (line : Str) : Statement :=
  match partition (ch '=') line with
  | some (name, value) => .assign [.name (strip name)] (some ((strip value).drop 1).dropLast)
  | none => .other

/-- `tomllib` and `ast` on texts with nothing but such lines. -/
def lineTools : Tools where
  tomlLoads text := .ok (((splitlines text).foldl tomlLine []).map fun t => (t.1, .table t.2 []))
  parse source := .ok ((splitlines source).map astLine)
  dumpsLimit := 1000

/-- The version of the project is indented, and another table has a key of the same name. -/
def indentedVersion : Worktree where
  pyproject := .ok (str "[project]\n  version = \"1.2.3\"\n[release]\nversion = \"1.2.3\"\n")
  manifest := .ok (str "\x7b\"version\": \"1.2.3\"\x7d\n")
  const := .ok (str "VERSION = \"1.2.3\"\n")
  writes := []

/-- What the bump leaves: the version of the project is still the old one. -/
def bumpedRelease : Worktree where
  pyproject := .ok (str "[project]\n  version = \"1.2.3\"\n[release]\nversion = \"1.2.4\"\n")
  manifest := .ok (str "\x7b\n  \"version\": \"1.2.4\"\n\x7d\n")
  const := .ok (str "VERSION = \"1.2.4\"\n")
  writes := [.pyproject, .manifest, .const]

end EsphomeMcp.Release
