import EsphomeMcp.Python.Files
import EsphomeMcp.Python.Runtime

/-!
# Creating configuration files

`_create` of `filesystem_tools`: a walk along directory descriptors that follows no symlink, then
one entry at its end. `create_confined` is what it does to a tree that other processes change
between any two of its calls: it only adds entries, to directories inside the one the root was
opened as, at prefixes of the path it was given, and what it takes away again is the file it has
made at the end of the path.
-/

namespace EsphomeMcp.Files

open Py Py.Prog

/-! ## Definitions -/

section

variable [Runtime]

/-- `_failure`, without the warning it logs. -/
def failure (path code message : Str) : Dict :=
  [(str "success", .bool false), (str "error_code", .str code), (str "error", .str message),
    (str "path", .str path)]

/-- What `_create` returns when the entry is there. -/
def success (path : Str) (created : Bool) : Dict :=
  [(str "success", .bool true), (str "path", .str path), (str "created", .bool created)]

/-- A call of the operating system. -/
def sys (c : FileCmd) : FileProg c.Ans := perform (S := fileSignature) c

/-- A `stat` of what is in the way, and what to return: for an entry that is gone by now, for a
symlink and for anything else. -/
def classify (descriptor : Ino) (name : Str) (gone link other : Dict) : FileProg Dict := do
  match ← attempt (sys (.stat name descriptor)) with
  | .error (.os .enoent _) => return gone
  | .error e => raise e
  | .ok info => if info.isLink then return link else return other

/-- `_component_error`. -/
def componentError (descriptor : Ino) (name path : Str) : FileProg Dict :=
  classify descriptor name
    (failure path (str "parent_not_found")
      (str "Parent folder " ++ Runtime.repr (.str name) ++ str " does not exist."))
    (failure path (str "symlink_refused")
      (str "Symlink component " ++ Runtime.repr (.str name) ++ str " is not allowed."))
    (failure path (str "not_a_directory")
      (str "Parent component " ++ Runtime.repr (.str name) ++ str " is not a folder."))

/-- `os.mkdir` of a parent, if parents are to be made. -/
def mkdirParent (parents : Bool) (descriptor : Ino) (part : Str) : FileProg Unit :=
  if parents then do
    match ← attempt (sys (.mkdir part descriptor)) with
    | .error (.os .eexist _) => return ()
    | r => ofExcept r
  else return ()

/-- One turn of the walk: the failure it returns, or the next descriptor. -/
def enterPart (parents : Bool) (path : Str) (descriptor : Ino) (part : Str) :
    FileProg (Dict ⊕ Ino) := do
  mkdirParent parents descriptor part
  match ← attempt (sys (.openDir part descriptor)) with
  | .error (.os errno text) =>
    if errno = .eloop ∨ errno = .enotdir ∨ errno = .enoent then
      return .inl (← componentError descriptor part path)
    else raise (.os errno text)
  | .error e => raise e
  | .ok child =>
    sys (.close descriptor)
    return .inr child

/-- The leaf, when it is a folder. -/
def createFolder (path : Str) (descriptor : Ino) (leaf : Str) : FileProg Dict := do
  match ← attempt (sys (.mkdir leaf descriptor)) with
  | .error (.os .eexist _) =>
    match ← attempt (sys (.openDir leaf descriptor)) with
    | .error (.os errno text) =>
      if errno = .eloop ∨ errno = .enotdir then
        classify descriptor leaf
          (failure path (str "filesystem_error") (str "The path changed during creation."))
          (failure path (str "symlink_refused")
            (str "Path " ++ Runtime.repr (.str path) ++ str " is a symlink and was not followed."))
          (failure path (str "already_exists")
            (str "Path " ++ Runtime.repr (.str path) ++
              str " already exists and is not a folder."))
      else raise (.os errno text)
    | .error e => raise e
    | .ok child =>
      sys (.close child)
      return success path false
  | .error e => raise e
  | .ok _ => return success path true

/-- The `with` statement around `file.write`. -/
def writeText (fd : Ino) (content : Str) : FileProg Unit := do
  let written ← attempt (sys (.write fd content))
  sys (.closeFile fd)
  ofExcept written

/-- Take the leaf away again, if it is still the file that was created. -/
def removeCreated (created descriptor : Ino) (leaf : Str) : FileProg Unit := do
  let unlinked ← attempt (do
    let current ← sys (.stat leaf descriptor)
    if current.ino = created then sys (.unlink leaf descriptor))
  match unlinked with
  | .error (.os .enoent _) => return ()
  | r => ofExcept r

/-- The leaf, when it is a file. -/
def createSupportingFile (path : Str) (descriptor : Ino) (leaf content : Str) : FileProg Dict := do
  match ← attempt (sys (.createFile leaf descriptor)) with
  | .error (.os .eexist _) =>
    classify descriptor leaf
      (failure path (str "filesystem_error") (str "The path changed during creation."))
      (failure path (str "symlink_refused")
        (str "The target is a symlink and was not followed."))
      (failure path (str "already_exists")
        (str "The path already exists and was left unchanged. Use esp_update_yaml for " ++
          str "existing device configurations; supporting files cannot be overwritten."))
  | .error e => raise e
  | .ok fileFd =>
    let createdInfo ← sys (.fstat fileFd)
    match ← attempt (sys (.fdopen fileFd)) with
    | .error e =>
      sys (.close fileFd)
      removeCreated createdInfo.ino descriptor leaf
      raise e
    | .ok _ =>
      match ← attempt (writeText fileFd content) with
      | .error e =>
        removeCreated createdInfo.ino descriptor leaf
        raise e
      | .ok _ => return success path true

/-- The leaf. -/
def createLeaf (path : Str) (descriptor : Ino) (leaf : Str) : Option Str → FileProg Dict
  | none => createFolder path descriptor leaf
  | some content => createSupportingFile path descriptor leaf content

/-- The outer `except OSError`. -/
def caught (path : Str) : Except FileError Dict → Except FileError Dict
  | .error (.os errno text) =>
    .ok (if errno = .eloop then
        failure path (str "symlink_refused") (str "Symlink paths are not allowed.")
      else failure path (str "filesystem_error") text)
  | r => r

/-- The `finally` clause: the descriptor is closed however the walk ended. -/
def finish (path : Str) (descriptor : Ino) (r : Except FileError Dict) : FileProg Dict := do
  sys (.close descriptor)
  ofExcept (caught path r)

/-- The walk along `parts[:-1]`, and the leaf at its end. -/
def walk (parents : Bool) (path : Str) (content : Option Str) (leaf : Str) :
    Ino → List Str → FileProg Dict
  | descriptor, [] => do
    let r ← attempt (createLeaf path descriptor leaf content)
    finish path descriptor r
  | descriptor, part :: parts => do
    match ← attempt (enterPart parents path descriptor part) with
    | .ok (.inr child) => walk parents path content leaf child parts
    | .ok (.inl returned) => finish path descriptor (.ok returned)
    | .error e => finish path descriptor (.error e)

/-- Whether a part of the path is refused. -/
def isRefusedPart (part : Str) : Bool :=
  part = [] || part = str "." || part = str ".." || startsWith part (str ".")

/-- Whether the path is refused. -/
def isRefusedPath (path : Str) : Bool :=
  path = [] || (path.splitOn (ch '/')).any isRefusedPart || path.contains (ch '\\') ||
    path.contains (codePoint 0)

/-- Whether a file of the name would be a device configuration. -/
def isYaml (part : Str) : Bool :=
  endsWith (lower part) (str ".yaml") || endsWith (lower part) (str ".yml")

/-- `_create`. -/
def create (root path : Str) (parents : Bool) (content : Option Str) : FileProg Dict :=
  let parts := path.splitOn (ch '/')
  if isRefusedPath path then
    return failure path (str "invalid_path")
      (str "Use a relative path without hidden names, empty parts, or traversal.")
  else if content.isSome && parts.length = 1 && parts.head?.any isYaml then
    return failure path (str "device_yaml_not_allowed")
      (str "Create supporting files in a subfolder; use Device Builder and esp_update_yaml " ++
        str "for device YAML configurations.")
  else do
    match ← attempt (sys (.openPath root)) with
    | .error (.os .enoent _) =>
      return failure path (str "esphome_dir_missing")
        (str "Home Assistant's ESPHome config directory is missing; ensure it is the " ++
          str "existing folder shared with Device Builder.")
    | .error (.os errno text) =>
      if errno = .eloop ∨ errno = .enotdir then
        return failure path (str "symlink_refused")
          (str "The ESPHome config root must be a real folder.")
      else ofExcept (caught path (.error (.os errno text)))
    | .error e => raise e
    | .ok descriptor =>
      walk parents path content (parts.getLastD []) descriptor parts.dropLast

end

/-! ## What `_create` promises -/

/-- The walk from `r` along some names ends at `d`: each was an entry of the directory before it
when that directory was open, and a directory itself. -/
inductive Reached (calls : List FileCall) (r : Ino) : List Str → Ino → Prop
  | root : Reached calls r [] r
  | enter {names : List Str} {d i : Ino} {part : Str} {raw : Bytes} {call : FileCall} :
    Reached calls r names d → call ∈ calls → fsencode part = some raw →
      call.before.lookup d raw = some i → call.before.isDir i = true →
      Reached calls r (names ++ [part]) i

/-- ASCII lower case of one byte. -/
def lowerByte (b : Byte) : Byte := if 0x41 ≤ b.val ∧ b.val ≤ 0x5A then byte (b.val + 32) else b

/-- The name of a device configuration, in whatever case. -/
def IsYamlName (raw : Bytes) : Prop :=
  asciiBytes (str ".yaml") <:+ raw.map lowerByte ∨ asciiBytes (str ".yml") <:+ raw.map lowerByte

/-- The call leaves an entry that was not there. -/
def Adds (call : FileCall) (d : Ino) (raw : Bytes) (i : Ino) : Prop :=
  call.after.lookup d raw = some i ∧ call.before.lookup d raw ≠ some i

/-- The call takes away or replaces an entry that was there. -/
def Removes (call : FileCall) (d : Ino) (raw : Bytes) : Prop :=
  ∃ i, call.before.lookup d raw = some i ∧ call.after.lookup d raw ≠ some i

/-- The file was made in the directory at the end of the path, under the name of the leaf. -/
structure Made (parts : List Str) (root : Option Ino) (calls : List FileCall) (d : Ino)
    (raw : Bytes) (i : Ino) : Prop where
  added : ∃ call ∈ calls, Adds call d raw i
  place : ∃ r ∈ root, ∃ names leaf, parts = names ++ [leaf] ∧ fsencode leaf = some raw ∧
    Reached calls r names d

/-- What one call may do, if the root was opened as the given directory. -/
structure Confined (parts : List Str) (root : Option Ino) (calls : List FileCall)
    (call : FileCall) : Prop where
  /-- An entry is added where there was none, inside the root, at a prefix of the path. -/
  adds : ∀ d raw i, Adds call d raw i → ∃ r ∈ root, call.before.Inside r d ∧
    call.before.lookup d raw = none ∧ ∃ names part rest, parts = names ++ part :: rest ∧
      fsencode part = some raw ∧ Reached calls r names d
  /-- An entry goes only after `_create` has made a file under its name and found the name to be
  that file's, and nothing is put in its place. -/
  removes : ∀ d raw, Removes call d raw → call.after.lookup d raw = none ∧
    ∃ i, call.own = some i ∧ Made parts root calls d raw i ∧
      ∃ seen ∈ calls, seen.own = some i ∧ seen.before.lookup d raw = some i
  /-- The files that are there stay as they are, but for the one `_create` has made. -/
  files : ∀ i content, call.before.node i = some (.file content) → call.own ≠ some i →
    call.after.node i = some (.file content)
  noYaml : ∀ d raw i content, Adds call d raw i → call.after.node i = some (.file content) →
    d ∈ root → ¬IsYamlName raw

/-- The entry that was created for the leaf is a directory, or a file with the text. -/
def Created (leaf : Str) (content : Option Str) (w : FileWorld) : Prop :=
  ∃ call ∈ w.calls, ∃ d raw i, fsencode leaf = some raw ∧ Adds call d raw i ∧
    match content with
    | none => call.after.isDir i = true
    | some text => w.own = some i ∧
      ∃ bytes, encodeUtf8 text = some bytes ∧ w.tree.node i = some (.file bytes)

/-! ## The invariant of the walk -/

/-- Between two calls. -/
structure Inv (root : Str) (parts : List Str) (w : FileWorld) : Prop where
  named : ∀ r ∈ w.root, ∃ call ∈ w.calls,
    call.before.paths root = some r ∧ call.before.isDir r = true
  confined : ∀ call ∈ w.calls, Confined parts w.root w.calls call

/-- The walk has come along some names to `d`, and has made no file. -/
structure At (names : List Str) (r d : Ino) (w : FileWorld) : Prop where
  opened : d ∈ w.dirs
  root : w.root = some r
  reached : Reached w.calls r names d
  below : names ≠ [] → d ≠ r
  inside : w.tree.node d = some .removed ∨ w.tree.isDir d = true ∧ w.tree.Inside r d
  own : w.own = none
  buffer : w.buffer = []

theorem Reached.mono {calls calls' : List FileCall} (hsub : ∀ call ∈ calls, call ∈ calls') {r d : Ino}
    {names : List Str} (h : Reached calls r names d) : Reached calls' r names d := by
  induction h with
  | root => exact .root
  | enter _ hcall hraw hlookup hdir ih => exact .enter ih (hsub _ hcall) hraw hlookup hdir

theorem Made.mono {parts : List Str} {root : Option Ino} {calls calls' : List FileCall} {d i : Ino}
    {raw : Bytes} (hsub : ∀ call ∈ calls, call ∈ calls') (h : Made parts root calls d raw i) :
    Made parts root calls' d raw i where
  added := by
    obtain ⟨call, hcall, hadds⟩ := h.added
    exact ⟨call, hsub call hcall, hadds⟩
  place := by
    obtain ⟨r, hr, names, leaf, hparts, hraw, hreached⟩ := h.place
    exact ⟨r, hr, names, leaf, hparts, hraw, hreached.mono hsub⟩

theorem Confined.mono {parts : List Str} {root : Option Ino} {calls calls' : List FileCall}
    (hsub : ∀ call ∈ calls, call ∈ calls') {call : FileCall}
    (h : Confined parts root calls call) : Confined parts root calls' call where
  adds d raw i hadds := by
    obtain ⟨r, hr, hinside, hnone, names, part, rest, hparts, hraw, hreached⟩ := h.adds d raw i hadds
    exact ⟨r, hr, hinside, hnone, names, part, rest, hparts, hraw, hreached.mono hsub⟩
  removes d raw hremoves := by
    obtain ⟨hgone, i, hown, hmade, seen, hseen, hlooked⟩ := h.removes d raw hremoves
    exact ⟨hgone, i, hown, hmade.mono hsub, seen, hsub seen hseen, hlooked⟩
  files := h.files
  noYaml := h.noYaml

/-- A call that leaves every entry and writes to no file but its own. -/
structure Quiet (w w' : FileWorld) : Prop where
  root : w'.root = w.root
  own : w'.own = w.own
  calls : w'.calls = w.calls
  lookup : ∀ d raw, w'.tree.lookup d raw = w.tree.lookup d raw
  files : ∀ i content, w.tree.node i = some (.file content) → w.own ≠ some i →
    w'.tree.node i = some (.file content)

theorem Quiet.refl (w : FileWorld) : Quiet w w :=
  ⟨rfl, rfl, rfl, fun _ _ => rfl, fun _ _ h _ => h⟩

/-- Writing to a file leaves every entry and every other file. -/
theorem quiet_setNode {w : FileWorld} {fd : Ino} {old new : Bytes} {buffer : Bytes}
    (hfd : w.tree.node fd = some (.file old)) (hown : w.own = some fd) :
    Quiet w { w with tree := w.tree.setNode fd (.file new), buffer := buffer } where
  root := rfl
  own := rfl
  calls := rfl
  lookup d raw := by
    show (w.tree.setNode fd (.file new)).lookup d raw = _
    rw [Tree.lookup_setNode]
    split_ifs with hd
    · rw [hd, Tree.lookup, hfd]
      rfl
    · rfl
  files i content h hi := by
    rw [Tree.node_setNode, if_neg, h]
    rintro rfl
    exact hi hown

/-- The calls that leave every entry, and write only to the file that was made. -/
def IsQuiet (own : Option Ino) : FileCmd → Prop
  | .openPath _ | .mkdir _ _ | .createFile _ _ | .unlink _ _ => False
  | .write fd _ | .closeFile fd => own = some fd
  | _ => True

theorem Does.quiet {w w' : FileWorld} {c : FileCmd} {r : Except FileError c.Ans}
    (h : Does w c r w') (hc : IsQuiet w.own c) : Quiet w w' := by
  cases c with
  | openPath | mkdir | createFile | unlink => cases hc
  | openDir name descriptor =>
    cases r with
    | error e => exact h ▸ .refl w
    | ok i =>
      obtain ⟨raw, -, -, -, rfl⟩ := h
      exact ⟨rfl, rfl, rfl, fun _ _ => rfl, fun _ _ h _ => h⟩
  | stat =>
    cases r with
    | error e => exact h ▸ .refl w
    | ok info => exact h.2.2 ▸ .refl w
  | fstat =>
    cases r with
    | error e => exact h ▸ .refl w
    | ok info => exact h.2.2 ▸ .refl w
  | fdopen =>
    cases r with
    | error e => exact h ▸ .refl w
    | ok u => exact h ▸ .refl w
  | write fd text =>
    cases r with
    | error e =>
      obtain ⟨content, flushed, kept, hfd, -, rfl⟩ := h
      exact quiet_setNode hfd hc
    | ok u =>
      obtain ⟨content, raw, flushed, kept, hfd, -, -, rfl⟩ := h
      exact quiet_setNode hfd hc
  | closeFile fd =>
    cases r with
    | error e =>
      obtain ⟨content, flushed, kept, hfd, -, rfl⟩ := h
      exact quiet_setNode hfd hc
    | ok u =>
      obtain ⟨content, hfd, rfl⟩ := h
      exact quiet_setNode hfd hc
  | close fd =>
    cases r with
    | error e => exact h ▸ .refl w
    | ok u =>
      obtain rfl : w' = _ := h
      exact ⟨rfl, rfl, rfl, fun _ _ => rfl, fun _ _ h _ => h⟩

/-- A call that leaves every entry is confined. -/
theorem confined_of_quiet {parts : List Str} {root : Option Ino} {calls : List FileCall}
    {w w' : FileWorld} (h : Quiet w w') :
    Confined parts root calls ⟨w.tree, w'.tree, w.own⟩ where
  adds d raw i hadds := absurd ((h.lookup d raw).symm.trans hadds.1) hadds.2
  removes d raw hremoves := by
    obtain ⟨i, hbefore, hafter⟩ := hremoves
    exact absurd ((h.lookup d raw).trans hbefore) hafter
  files i content hi hown := h.files i content hi hown
  noYaml d raw i _ hadds := absurd ((h.lookup d raw).symm.trans hadds.1) hadds.2

/-! ## Calls keep the invariant -/

section

variable {root : Str} {parts names : List Str} {r d : Ino} {w w' : FileWorld}

/-- A confined call is one more. -/
theorem Inv.log (hinv : Inv root parts w) {w₁ : FileWorld} {call : FileCall}
    (hroot : w₁.root = w.root) (hcalls : w₁.calls = w.calls)
    (hcall : Confined parts w.root (w.calls ++ [call]) call) :
    Inv root parts { w₁ with calls := w₁.calls ++ [call] } where
  named r hr := by
    rw [hroot] at hr
    obtain ⟨c, hc, hnamed⟩ := hinv.named r hr
    exact ⟨c, by rw [hcalls]; exact List.mem_append_left _ hc, hnamed⟩
  confined c hc := by
    simp only [hroot, hcalls] at hc ⊢
    rcases List.mem_append.mp hc with hc | hc
    · exact (hinv.confined c hc).mono fun _ h => List.mem_append_left _ h
    · rw [List.mem_singleton.mp hc]
      exact hcall

theorem Inv.quiet (hinv : Inv root parts w) {c : FileCmd} {r : Except FileError c.Ans}
    (h : fileHandle w c r w') (hc : IsQuiet w.own c) : Inv root parts w' := by
  obtain ⟨t, w₁, -, hdoes, rfl⟩ := h
  have hquiet := Does.quiet (w := { w with tree := t }) (c := c) hdoes hc
  exact hinv.log hquiet.root hquiet.calls (confined_of_quiet hquiet)

/-- Others leave the walk where it is. -/
theorem At.interferes (hat : At names r d w) {t : Tree} (h : Interferes w t) :
    At names r d { w with tree := t } where
  opened := hat.opened
  root := hat.root
  reached := hat.reached
  below := hat.below
  inside := by
    rcases h.dirs d hat.opened with hremoved | ⟨hold, hdir, hinside⟩
    · exact .inl hremoved
    · rcases hat.inside with hremoved | ⟨-, hbefore⟩
      · simp [Tree.isDir, hremoved, Node.isDir] at hold
      · exact .inr ⟨hdir, hinside r hat.root hbefore⟩
  own := hat.own
  buffer := hat.buffer

theorem At.log (hat : At names r d w) (call : FileCall) :
    At names r d { w with calls := w.calls ++ [call] } where
  opened := hat.opened
  root := hat.root
  reached := hat.reached.mono fun _ h => List.mem_append_left _ h
  below := hat.below
  inside := hat.inside
  own := hat.own
  buffer := hat.buffer

/-- An open directory with entries is inside the root. -/
theorem At.inside_of_isDir (hat : At names r d w) (hdir : w.tree.isDir d = true) :
    w.tree.Inside r d := by
  rcases hat.inside with hremoved | ⟨-, hinside⟩
  · simp [Tree.isDir, hremoved, Node.isDir] at hdir
  · exact hinside

theorem isDir_of_lookup {t : Tree} {d i : Ino} {raw : Bytes} (h : t.lookup d raw = some i) :
    t.isDir d = true := by
  rw [Tree.lookup, Option.bind_eq_some_iff] at h
  obtain ⟨n, hn, hentry⟩ := h
  cases n with
  | dir => rw [Tree.isDir, hn]; rfl
  | removed | file | symlink | special => cases hentry

/-! ## Opening a part -/

/-- The walk can go on in a directory it has opened. -/
theorem At.openDir (hat : At names r d w) {part : Str} {out : Except FileError Ino}
    (h : fileHandle w (.openDir part d) out w') :
    At names r d w' ∧ ∀ i, out = .ok i → At (names ++ [part]) r i w' ∧ i ∈ w'.dirs.erase d := by
  obtain ⟨t, w₁, hinterferes, hdoes, rfl⟩ := h
  have hnow := hat.interferes hinterferes
  cases out with
  | error e =>
    obtain rfl : w₁ = _ := hdoes
    exact ⟨hnow.log _, fun i hi => by cases hi⟩
  | ok i =>
    obtain ⟨raw, hraw, hlookup, hdir, rfl⟩ := hdoes
    have hinside := hnow.inside_of_isDir (isDir_of_lookup hlookup)
    have hedge : t.Edge d i := ⟨raw, hlookup, hdir⟩
    have hne : i ≠ r := by
      rintro rfl
      exact hinterferes.acyclic i (.tail' hinside hedge)
    refine ⟨{ (hnow.log _) with opened := List.mem_cons_of_mem _ hat.opened }, fun j hj => ?_⟩
    cases hj
    refine ⟨⟨List.mem_cons_self, hat.root, ?_, fun _ => hne, .inr ⟨hdir, hinside.tail hedge⟩,
      hat.own, hat.buffer⟩, ?_⟩
    · exact .enter (hat.reached.mono fun _ h => List.mem_append_left _ h)
        (List.mem_append_right _ List.mem_cons_self) hraw hlookup hdir
    · by_cases he : i = d
      · subst he
        simpa using hat.opened
      · exact (List.mem_erase_of_ne he).mpr List.mem_cons_self

/-- Closing the directory the walk came from leaves the one it has gone on to. -/
theorem At.close (hat : At names r d w) {fd : Ino} (hfd : d ∈ w.dirs.erase fd)
    {out : Except FileError Unit} (h : fileHandle w (.close fd) out w') : At names r d w' := by
  obtain ⟨t, w₁, hinterferes, hdoes, rfl⟩ := h
  have hnow := hat.interferes hinterferes
  cases out with
  | error e =>
    obtain rfl : w₁ = _ := hdoes
    exact hnow.log _
  | ok u =>
    obtain rfl : w₁ = _ := hdoes
    exact { (hnow.log _) with opened := hfd }

/-! ## Making an entry -/

/-- A new file under a name that comes next on the path. -/
theorem confined_create (hat : At names r d w) {part : Str} {rest : List Str}
    (hparts : parts = names ++ part :: rest) {raw : Bytes} (hraw : fsencode part = some raw)
    (hdir : w.tree.isDir d = true) (hnone : w.tree.lookup d raw = none) {i : Ino}
    (hi : w.tree.node i = none) {n : Node} (hn : ∀ name, n.entry name = none)
    (hyaml : ∀ content, n = .file content → names = [] → ¬IsYamlName raw) :
    let call : FileCall := ⟨w.tree, w.tree.create d raw i n, w.own⟩
    Confined parts w.root (w.calls ++ [call]) call ∧ Adds call d raw i := by
  intro call
  have hlookup : ∀ x name, (w.tree.create d raw i n).lookup x name =
      if x = d ∧ name = raw then some i else w.tree.lookup x name :=
    Tree.lookup_create hdir hi hn
  have honly : ∀ d' raw' i', Adds call d' raw' i' → d' = d ∧ raw' = raw ∧ i' = i := by
    intro d' raw' i' hadds
    have hafter : (w.tree.create d raw i n).lookup d' raw' = some i' := hadds.1
    rw [hlookup] at hafter
    split_ifs at hafter with hsame
    · exact ⟨hsame.1, hsame.2, (Option.some.inj hafter).symm⟩
    · exact absurd hafter hadds.2
  refine ⟨⟨?_, ?_, ?_, ?_⟩, ?_, ?_⟩
  · intro d' raw' i' hadds
    obtain ⟨rfl, rfl, rfl⟩ := honly d' raw' i' hadds
    exact ⟨r, hat.root, hat.inside_of_isDir hdir, hnone, names, part, rest, hparts, hraw,
      hat.reached.mono fun _ h => List.mem_append_left _ h⟩
  · rintro d' raw' ⟨i', hbefore, hafter⟩
    -- the one name that changes was free before
    refine absurd ?_ hafter
    show (w.tree.create d raw i n).lookup d' raw' = some i'
    rw [hlookup, if_neg, hbefore]
    rintro ⟨rfl, rfl⟩
    rw [hnone] at hbefore
    cases hbefore
  · intro x content hx _
    exact Tree.node_create_file hi hx
  · intro d' raw' i' content hadds hfile hroot
    obtain ⟨rfl, rfl, rfl⟩ := honly d' raw' i' hadds
    have hfile' : n = .file content := Option.some.inj (Tree.node_create.symm.trans hfile)
    refine hyaml content hfile' ?_
    by_contra hnames
    rw [hat.root] at hroot
    exact hat.below hnames (Option.some.inj hroot).symm
  · show (w.tree.create d raw i n).lookup d raw = some i
    rw [hlookup, if_pos ⟨rfl, rfl⟩]
  · show w.tree.lookup d raw ≠ some i
    simp [hnone]

/-- A directory stays where it is when a file is made in one. -/
theorem At.create (hat : At names r d w) {d' i : Ino} {raw : Bytes} {n : Node}
    (hdir : w.tree.isDir d' = true) (hnone : w.tree.lookup d' raw = none)
    (hi : w.tree.node i = none) (hn : ∀ name, n.entry name = none) (hd : w.tree.isDir d = true) :
    At names r d { w with tree := w.tree.create d' raw i n } where
  opened := hat.opened
  root := hat.root
  reached := hat.reached
  below := hat.below
  inside := .inr ⟨Tree.isDir_create_of_isDir hi hd,
    (hat.inside_of_isDir hd).create hdir hi hn hnone⟩
  own := hat.own
  buffer := hat.buffer

theorem fileHandle_mkdir (hinv : Inv root parts w) (hat : At names r d w) {part : Str}
    {rest : List Str} (hparts : parts = names ++ part :: rest) {out : Except FileError Unit}
    (h : fileHandle w (.mkdir part d) out w') :
    Inv root parts w' ∧ At names r d w' ∧ (out = .ok () → Created part none w') := by
  obtain ⟨t, w₁, hinterferes, hdoes, rfl⟩ := h
  have hnow := hat.interferes hinterferes
  cases out with
  | error e =>
    obtain rfl : w₁ = _ := hdoes
    exact ⟨hinv.log rfl rfl (confined_of_quiet (.refl { w with tree := t })), hnow.log _, nofun⟩
  | ok u =>
    obtain ⟨raw, i, hraw, hdir, hnone, hi, rfl⟩ := hdoes
    obtain ⟨hconfined, hadds⟩ := confined_create hnow hparts hraw hdir hnone hi
      (n := .dir fun _ => none) (fun _ => rfl) (fun _ h => by cases h)
    refine ⟨hinv.log rfl rfl hconfined, (hnow.create hdir hnone hi (fun _ => rfl) hdir).log _,
      fun _ => ?_⟩
    refine ⟨_, List.mem_append_right _ List.mem_cons_self, d, raw, i, hraw, hadds, ?_⟩
    show (t.create d raw i (.dir fun _ => none)).isDir i = true
    rw [Tree.isDir, Tree.node_create]
    rfl

/-- The file that was made for the leaf is the program's own. -/
structure Owned (parts : List Str) (leaf : Str) (d i : Ino) (w : FileWorld) : Prop where
  own : w.own = some i
  made : ∃ raw, fsencode leaf = some raw ∧ Made parts w.root w.calls d raw i

/-- What the bytes of the file will be once they are flushed. -/
structure Writing (parts : List Str) (leaf : Str) (d i : Ino) (bytes : Bytes) (w : FileWorld) : Prop
    extends Owned parts leaf d i w where
  content : ∃ written, w.tree.node i = some (.file written) ∧ written ++ w.buffer = bytes

theorem fileHandle_createFile (hinv : Inv root parts w) (hat : At names r d w) {leaf : Str}
    (hparts : parts = names ++ [leaf])
    (hyaml : names = [] → ∀ raw, fsencode leaf = some raw → ¬IsYamlName raw)
    {out : Except FileError Ino} (h : fileHandle w (.createFile leaf d) out w') :
    Inv root parts w' ∧ ∀ i, out = .ok i → Writing parts leaf d i [] w' := by
  obtain ⟨t, w₁, hinterferes, hdoes, rfl⟩ := h
  have hnow := hat.interferes hinterferes
  cases out with
  | error e =>
    obtain rfl : w₁ = _ := hdoes
    exact ⟨hinv.log rfl rfl (confined_of_quiet (.refl { w with tree := t })), nofun⟩
  | ok i =>
    obtain ⟨raw, hraw, hdir, hnone, hi, rfl⟩ := hdoes
    obtain ⟨hconfined, hadds⟩ := confined_create hnow hparts hraw hdir hnone hi
      (n := .file []) (fun _ => rfl) (fun _ _ h => hyaml h raw hraw)
    refine ⟨hinv.log rfl rfl hconfined, fun j hj => ?_⟩
    cases hj
    refine ⟨⟨rfl, raw, hraw, ⟨_, List.mem_append_right _ List.mem_cons_self, hadds⟩, r, hat.root,
      names, leaf, hparts, hraw, ?_⟩, [], Tree.node_create, hat.buffer⟩
    exact hat.reached.mono fun _ h => List.mem_append_left _ h

/-! ## Writing the text -/

variable {leaf : Str} {i : Ino} {bytes : Bytes}

theorem Owned.log (howned : Owned parts leaf d i w) (call : FileCall) :
    Owned parts leaf d i { w with calls := w.calls ++ [call] } where
  own := howned.own
  made := by
    obtain ⟨raw, hraw, hmade⟩ := howned.made
    exact ⟨raw, hraw, hmade.mono fun _ h => List.mem_append_left _ h⟩

/-- The file stays the program's own. -/
theorem Owned.quiet (howned : Owned parts leaf d i w) {c : FileCmd} {out : Except FileError c.Ans}
    (h : fileHandle w c out w') (hc : IsQuiet w.own c) : Owned parts leaf d i w' := by
  obtain ⟨t, w₁, -, hdoes, rfl⟩ := h
  have hquiet := Does.quiet (w := { w with tree := t }) (c := c) hdoes hc
  refine Owned.log ⟨hquiet.own.trans howned.own, ?_⟩ _
  rw [hquiet.root, hquiet.calls]
  exact howned.made

/-- Others do not write to the file. -/
theorem Writing.interferes (hwriting : Writing parts leaf d i bytes w) {t : Tree}
    (h : Interferes w t) : Writing parts leaf d i bytes { w with tree := t } where
  own := hwriting.own
  made := hwriting.made
  content := by
    obtain ⟨written, hnode, hbytes⟩ := hwriting.content
    exact ⟨written, (h.own i hwriting.own).trans hnode, hbytes⟩

theorem Writing.log (hwriting : Writing parts leaf d i bytes w) (call : FileCall) :
    Writing parts leaf d i bytes { w with calls := w.calls ++ [call] } where
  toOwned := hwriting.toOwned.log call
  content := hwriting.content

theorem Writing.fstat (hwriting : Writing parts leaf d i bytes w) {fd : Ino}
    {out : Except FileError StatResult} (h : fileHandle w (.fstat fd) out w') :
    Writing parts leaf d i bytes w' ∧ ∀ info, out = .ok info → info.ino = fd := by
  obtain ⟨t, w₁, hinterferes, hdoes, rfl⟩ := h
  have hnow := hwriting.interferes hinterferes
  cases out with
  | error e =>
    obtain rfl : w₁ = _ := hdoes
    exact ⟨hnow.log _, nofun⟩
  | ok info =>
    obtain ⟨hino, -, rfl⟩ := hdoes
    refine ⟨hnow.log _, fun info' hinfo => ?_⟩
    rw [← Except.ok.inj hinfo, hino]

theorem Writing.fdopen (hwriting : Writing parts leaf d i bytes w) {fd : Ino}
    {out : Except FileError Unit} (h : fileHandle w (.fdopen fd) out w') :
    Writing parts leaf d i bytes w' := by
  obtain ⟨t, w₁, hinterferes, hdoes, rfl⟩ := h
  have hnow := hwriting.interferes hinterferes
  cases out with
  | error e | ok u =>
    obtain rfl : w₁ = _ := hdoes
    exact hnow.log _

theorem Writing.write (hwriting : Writing parts leaf d i [] w) {text : Str}
    (h : fileHandle w (.write i text) (.ok ()) w') :
    ∃ raw, encodeUtf8 text = some raw ∧ Writing parts leaf d i raw w' := by
  obtain ⟨t, w₁, hinterferes, hdoes, rfl⟩ := h
  have hnow := hwriting.interferes hinterferes
  obtain ⟨content, raw, flushed, kept, hnode, hraw, hsplit, rfl⟩ := hdoes
  obtain ⟨written, hwritten, hbytes⟩ := hnow.content
  obtain ⟨rfl, hbuffer⟩ := List.append_eq_nil_iff.mp hbytes
  obtain rfl : content = [] := Node.file.inj (Option.some.inj (hnode.symm.trans hwritten))
  refine ⟨raw, hraw, Writing.log ?_ _⟩
  refine ⟨⟨hwriting.own, hwriting.made⟩, flushed, ?_, ?_⟩
  · rw [Tree.node_setNode, if_pos rfl, List.nil_append]
  · rw [← hsplit, hbuffer, List.nil_append]

/-- Closing the file flushes what is left. -/
theorem Writing.closeFile (hwriting : Writing parts leaf d i bytes w) {text : Str}
    (htext : encodeUtf8 text = some bytes) (h : fileHandle w (.closeFile i) (.ok ()) w') :
    Created leaf (some text) w' := by
  obtain ⟨t, w₁, hinterferes, hdoes, rfl⟩ := h
  have hnow := hwriting.interferes hinterferes
  obtain ⟨content, hnode, rfl⟩ := hdoes
  obtain ⟨written, hwritten, rfl⟩ := hnow.content
  obtain rfl : content = written := Node.file.inj (Option.some.inj (hnode.symm.trans hwritten))
  obtain ⟨raw, hraw, ⟨call, hcall, hadds⟩, -⟩ := hwriting.made
  refine ⟨call, List.mem_append_left _ hcall, d, raw, i, hraw, hadds, hwriting.own, _, htext, ?_⟩
  rw [Tree.node_setNode, if_pos rfl]

/-! ## Taking the file away -/

/-- A `stat` has found the file under the leaf's name. -/
def Seen (leaf : Str) (d i : Ino) (w : FileWorld) : Prop :=
  ∃ seen ∈ w.calls, seen.own = some i ∧
    ∃ raw, fsencode leaf = some raw ∧ seen.before.lookup d raw = some i

theorem Owned.stat (howned : Owned parts leaf d i w) {info : StatResult}
    (h : fileHandle w (.stat leaf d) (.ok info) w') (hsame : info.ino = i) : Seen leaf d i w' := by
  obtain ⟨t, w₁, -, hdoes, rfl⟩ := h
  obtain ⟨⟨raw, hraw, hlookup⟩, -, rfl⟩ := hdoes
  rw [hsame] at hlookup
  exact ⟨_, List.mem_append_right _ List.mem_cons_self, howned.own, raw, hraw, hlookup⟩

/-- What `unlink` takes away is the entry it names. -/
theorem confined_unlink (howned : Owned parts leaf d i w) (hseen : Seen leaf d i w) {raw : Bytes}
    (hraw : fsencode leaf = some raw) :
    let call : FileCall := ⟨w.tree, w.tree.setEntry d raw none, w.own⟩
    Confined parts w.root (w.calls ++ [call]) call := by
  intro call
  have hkept : ∀ d' raw' i', call.after.lookup d' raw' = some i' →
      call.before.lookup d' raw' = some i' :=
    fun _ _ _ h => Tree.lookup_of_lookup_setEntry_none h
  have hsub : ∀ c ∈ w.calls, c ∈ w.calls ++ [call] := fun _ h => List.mem_append_left _ h
  refine ⟨fun d' raw' i' hadds => ?_, fun d' raw' hremoves => ?_,
    fun _ _ hfile _ => Tree.node_setEntry_file hfile, fun d' raw' i' _ hadds => ?_⟩
  · exact absurd (hkept d' raw' i' hadds.1) hadds.2
  · obtain ⟨i', hbefore, hafter⟩ := hremoves
    have hdir : w.tree.isDir d = true := by
      by_contra hnot
      -- nothing but a directory has entries to take away
      refine hafter ?_
      show (w.tree.setEntry d raw none).lookup d' raw' = some i'
      rw [Tree.setEntry_of_not_isDir hnot]
      exact hbefore
    have hsame : d' = d ∧ raw' = raw := by
      by_contra hne
      refine hafter ?_
      show (w.tree.setEntry d raw none).lookup d' raw' = some i'
      rw [Tree.lookup_setEntry hdir, if_neg hne]
      exact hbefore
    obtain ⟨rfl, rfl⟩ := hsame
    obtain ⟨raw, hraw', hmade⟩ := howned.made
    obtain ⟨seen, hmem, hown, raw₁, hraw₁, hlookup⟩ := hseen
    obtain rfl := Option.some.inj (hraw'.symm.trans hraw)
    obtain rfl := Option.some.inj (hraw₁.symm.trans hraw)
    refine ⟨?_, i, howned.own, hmade.mono hsub, seen, hsub seen hmem, hown, hlookup⟩
    show (w.tree.setEntry d' raw₁ none).lookup d' raw₁ = none
    rw [Tree.lookup_setEntry hdir, if_pos ⟨rfl, rfl⟩]
  · exact absurd (hkept d' raw' i' hadds.1) hadds.2

theorem fileHandle_unlink (hinv : Inv root parts w) (howned : Owned parts leaf d i w)
    (hseen : Seen leaf d i w) {out : Except FileError Unit}
    (h : fileHandle w (.unlink leaf d) out w') : Inv root parts w' := by
  obtain ⟨t, w₁, -, hdoes, rfl⟩ := h
  cases out with
  | error e =>
    obtain rfl : w₁ = _ := hdoes
    exact hinv.log rfl rfl (confined_of_quiet (.refl { w with tree := t }))
  | ok u =>
    obtain ⟨raw, hraw, rfl⟩ := hdoes
    have hnow : Owned parts leaf d i { w with tree := t } := ⟨howned.own, howned.made⟩
    exact hinv.log rfl rfl (confined_unlink hnow hseen hraw)

/-- Closing a directory does not touch what was created. -/
theorem Created.close {content : Option Str} (hcreated : Created leaf content w) {fd : Ino}
    {out : Except FileError Unit} (h : fileHandle w (.close fd) out w') :
    Created leaf content w' := by
  obtain ⟨t, w₁, hinterferes, hdoes, rfl⟩ := h
  have hsame : w₁.own = w.own ∧ w₁.calls = w.calls ∧ w₁.tree = t := by
    cases out with
    | error e | ok u =>
      obtain rfl : w₁ = _ := hdoes
      exact ⟨rfl, rfl, rfl⟩
  obtain ⟨call, hcall, d, raw, i, hraw, hadds, hcontent⟩ := hcreated
  refine ⟨call, ?_, d, raw, i, hraw, hadds, ?_⟩
  · rw [hsame.2.1]
    exact List.mem_append_left _ hcall
  · cases content with
    | none => exact hcontent
    | some text =>
      obtain ⟨hown, bytes, htext, hnode⟩ := hcontent
      refine ⟨hsame.1.trans hown, bytes, htext, ?_⟩
      rw [← hnode, ← hinterferes.own i hown, ← hsame.2.2]

end

/-! ## The programs -/

section

variable {root path leaf : Str} {parts names : List Str} {r d : Ino} {content : Option Str}

theorem failure_ne_success {path code message path' : Str} {created : Bool} :
    failure path code message ≠ success path' created := by
  simp [failure, success]

/-- A call that adds nothing leads from the invariant, and whatever else held, to it. -/
theorem triple_quiet {P : FileWorld → Prop} {c : FileCmd} (hc : ∀ own, IsQuiet own c)
    (hP : ∀ w, P w → Inv root parts w) :
    Triple fileHandle P (sys c) fun _ => Inv root parts :=
  triple_perform fun _ _ _ hw h => (hP _ hw).quiet h (hc _)

/-- How the leaf, and with it `_create`, may end. -/
def Post (root path : Str) (parts : List Str) (leaf : Str) (content : Option Str)
    (out : Except FileError Dict) (w : FileWorld) : Prop :=
  Inv root parts w ∧ (out = .ok (success path true) → Created leaf content w)

theorem post_of_ne {out : Except FileError Dict} {w : FileWorld} (hinv : Inv root parts w)
    (h : out ≠ .ok (success path true)) : Post root path parts leaf content out w :=
  ⟨hinv, fun he => absurd he h⟩

/-- What is in the way is reported, whatever it is. -/
theorem triple_classify {P : FileWorld → Prop} (hP : ∀ w, P w → Inv root parts w)
    (path : Str) (descriptor : Ino) (name : Str) {gone link other : Dict}
    (hgone : gone ≠ success path true)
    (hlink : link ≠ success path true) (hother : other ≠ success path true) :
    Triple fileHandle P (classify descriptor name gone link other) fun out w =>
      Inv root parts w ∧ out ≠ .ok (success path true) := by
  have hne : ∀ {dict : Dict}, dict ≠ success path true →
      (.ok dict : Except FileError Dict) ≠ .ok (success path true) :=
    fun hdict h => hdict (Except.ok.inj h)
  refine (triple_quiet (c := .stat name descriptor) (fun _ => trivial) hP).bind_attempt
    fun out => ?_
  split
  · exact triple_ret fun w hinv => ⟨hinv, hne hgone⟩
  · exact triple_raise fun w hinv => ⟨hinv, nofun⟩
  · split_ifs
    · exact triple_ret fun w hinv => ⟨hinv, hne hlink⟩
    · exact triple_ret fun w hinv => ⟨hinv, hne hother⟩

theorem triple_mkdir {part : Str} {rest : List Str} (hparts : parts = names ++ part :: rest) :
    Triple fileHandle (fun w => Inv root parts w ∧ At names r d w) (sys (.mkdir part d))
      fun out w => Inv root parts w ∧ At names r d w ∧ (out = .ok () → Created part none w) :=
  triple_perform fun _ _ _ hw h => fileHandle_mkdir hw.1 hw.2 hparts h

theorem triple_openDir (part : Str) :
    Triple fileHandle (fun w => Inv root parts w ∧ At names r d w) (sys (.openDir part d))
      fun out w => Inv root parts w ∧
        ∀ i, out = .ok i → At (names ++ [part]) r i w ∧ i ∈ w.dirs.erase d :=
  triple_perform fun _ _ _ hw h => ⟨hw.1.quiet h trivial, (hw.2.openDir h).2⟩

/-- The parents that are asked for are made, or there already. -/
theorem triple_mkdirParent (parents : Bool) {part : Str} {rest : List Str}
    (hparts : parts = names ++ part :: rest) :
    Triple fileHandle (fun w => Inv root parts w ∧ At names r d w) (mkdirParent parents d part)
      fun out w => Inv root parts w ∧ (out = .ok () → At names r d w) := by
  rw [mkdirParent]
  split_ifs
  · refine (triple_mkdir hparts).bind_attempt fun out => ?_
    split
    · exact triple_ret fun w hw => ⟨hw.1, fun _ => hw.2.1⟩
    · exact triple_ofExcept fun w hw => ⟨hw.1, fun _ => hw.2.1⟩
  · exact triple_ret fun w hw => ⟨hw.1, fun _ => hw.2⟩

variable [Runtime]

/-- The walk goes on in a directory one part further, or it returns a failure. -/
theorem triple_enterPart (parents : Bool) {part : Str} {rest : List Str}
    (hparts : parts = names ++ part :: rest) :
    Triple fileHandle (fun w => Inv root parts w ∧ At names r d w)
      (enterPart parents path d part) fun out w => Inv root parts w ∧
        match out with
        | .ok (.inr child) => At (names ++ [part]) r child w
        | .ok (.inl returned) => returned ≠ success path true
        | .error _ => True := by
  refine (triple_mkdirParent parents hparts).bind (fun u => ?_) fun e w hw => ⟨hw.1, trivial⟩
  refine ((triple_openDir part).mono (fun w hw => ⟨hw.1, hw.2 rfl⟩) fun _ _ h => h).bind_attempt
    fun out => ?_
  split
  · split_ifs
    · refine (triple_classify (fun _ hw => hw.1) path d part failure_ne_success
        failure_ne_success failure_ne_success).bind (fun returned => ?_)
        fun e w hw => ⟨hw.1, trivial⟩
      exact triple_ret fun w hw => ⟨hw.1, fun h => hw.2 (by rw [h])⟩
    · exact triple_raise fun w hw => ⟨hw.1, trivial⟩
  · exact triple_raise fun w hw => ⟨hw.1, trivial⟩
  · rename_i child
    refine Triple.bind (p := sys (.close d)) (Q := fun _ w => Inv root parts w ∧
      At (names ++ [part]) r child w) ?_ (fun u => ?_) fun e w hw => ⟨hw.1, trivial⟩
    · refine triple_perform fun w _ _ hw h => ⟨hw.1.quiet h trivial, ?_⟩
      exact (hw.2 child rfl).1.close (hw.2 child rfl).2 h
    · exact triple_ret fun w hw => hw

theorem triple_createFolder (hparts : parts = names ++ [leaf]) :
    Triple fileHandle (fun w => Inv root parts w ∧ At names r d w)
      (createFolder path d leaf) (Post root path parts leaf none) := by
  refine (triple_mkdir hparts).bind_attempt fun out => ?_
  split
  · refine (triple_quiet (c := .openDir leaf d) (fun _ => trivial)
      fun _ hw => hw.1).bind_attempt fun out => ?_
    split
    · split_ifs
      · exact (triple_classify (fun _ hinv => hinv) path d leaf failure_ne_success
          failure_ne_success failure_ne_success).mono (fun _ h => h)
          fun _ _ hw => post_of_ne hw.1 hw.2
      · exact triple_raise fun w hinv => post_of_ne hinv nofun
    · exact triple_raise fun w hinv => post_of_ne hinv nofun
    · rename_i child
      refine (triple_quiet (c := .close child) (fun _ => trivial) fun w hinv => hinv).bind
        (fun u => ?_) fun e w hinv => post_of_ne hinv nofun
      exact triple_ret fun w hinv => post_of_ne hinv (by simp [success])
  · exact triple_raise fun w hw => post_of_ne hw.1 nofun
  · exact triple_ret fun w hw => ⟨hw.1, fun _ => hw.2.2 rfl⟩

omit [Runtime] in
/-- The file that was made is taken away again or left. -/
theorem triple_removeCreated (i d : Ino) (leaf : Str) :
    Triple fileHandle (fun w => Inv root parts w ∧ Owned parts leaf d i w)
      (removeCreated i d leaf) fun _ => Inv root parts := by
  refine Triple.bind_attempt (Q := fun _ => Inv root parts) ?_ fun out => ?_
  · refine Triple.bind (p := sys (.stat leaf d)) (Q := fun out w => Inv root parts w ∧
      Owned parts leaf d i w ∧ ∀ info, out = .ok info → info.ino = i → Seen leaf d i w) ?_
      (fun (current : StatResult) => ?_) fun _ _ hw => hw.1
    · refine triple_perform fun w out w' hw h =>
        ⟨hw.1.quiet h trivial, hw.2.quiet h trivial, fun info hinfo => ?_⟩
      subst hinfo
      exact hw.2.stat h
    by_cases hsame : current.ino = i
    · rw [if_pos hsame]
      exact triple_perform fun _ _ _ hw h =>
        fileHandle_unlink hw.1 hw.2.1 (hw.2.2 current rfl hsame) h
    · rw [if_neg hsame]
      exact triple_ret fun _ hw => hw.1
  · split
    · exact triple_ret fun _ hinv => hinv
    · exact triple_ofExcept fun _ hinv => hinv

omit [Runtime] in
/-- The error that made `_create` take the file away is raised again. -/
theorem triple_raiseRemoved {P : FileWorld → Prop} {i : Ino}
    (hP : ∀ w, P w → Inv root parts w ∧ Owned parts leaf d i w) (e : FileError)
    {content : Option Str} :
    Triple fileHandle P
      (Prog.bind (removeCreated i d leaf) fun _ => (raise e : FileProg Dict))
      (Post root path parts leaf content) := by
  refine ((triple_removeCreated i d leaf).mono hP fun _ _ h => h).bind
    (fun u => ?_) fun _ _ hinv => post_of_ne hinv nofun
  exact triple_raise fun _ hinv => post_of_ne hinv nofun

omit [Runtime] in
theorem triple_writeText (i : Ino) (text : Str) :
    Triple fileHandle (fun w => Inv root parts w ∧ Writing parts leaf d i [] w) (writeText i text)
      fun out w => (Inv root parts w ∧ Owned parts leaf d i w) ∧
        (out = .ok () → Created leaf (some text) w) := by
  refine Triple.bind_attempt (p := sys (.write i text)) (Q := fun out w =>
    (Inv root parts w ∧ Owned parts leaf d i w) ∧
      (out = .ok () → ∃ raw, encodeUtf8 text = some raw ∧ Writing parts leaf d i raw w)) ?_
    fun out => ?_
  · refine triple_perform fun w out w' hw h =>
      ⟨⟨hw.1.quiet h hw.2.own, hw.2.toOwned.quiet h hw.2.own⟩, fun hout => ?_⟩
    subst hout
    exact hw.2.write h
  refine Triple.bind (p := sys (.closeFile i)) (Q := fun closed w =>
    (Inv root parts w ∧ Owned parts leaf d i w) ∧
      (out = .ok () → closed = .ok () → Created leaf (some text) w)) ?_ (fun u => ?_)
    fun e w hw => ⟨hw.1, nofun⟩
  · refine triple_perform fun w closed w' hw h =>
      ⟨⟨hw.1.1.quiet h hw.1.2.own, hw.1.2.quiet h hw.1.2.own⟩, ?_⟩
    rintro hout rfl
    obtain ⟨raw, hraw, hwriting⟩ := hw.2 hout
    exact hwriting.closeFile hraw h
  · exact triple_ofExcept fun w hw => ⟨hw.1, fun hout => hw.2 hout rfl⟩

omit [Runtime] in
/-- The number that `fstat` reports is the file's. -/
theorem triple_fstat_ino (i : Ino) :
    Triple fileHandle (fun w => Inv root parts w ∧ Writing parts leaf d i [] w) (sys (.fstat i))
      fun out w => (Inv root parts w ∧ Writing parts leaf d i [] w) ∧
        ∀ info, out = .ok info → info.ino = i := by
  refine triple_perform fun w out w' hw h => ?_
  obtain ⟨hwriting, hino⟩ := hw.2.fstat h
  exact ⟨⟨hw.1.quiet h trivial, hwriting⟩, hino⟩

omit [Runtime] in
theorem triple_createSupportingFile {text : Str} (hparts : parts = names ++ [leaf])
    (hyaml : names = [] → ∀ raw, fsencode leaf = some raw → ¬IsYamlName raw) :
    Triple fileHandle (fun w => Inv root parts w ∧ At names r d w)
      (createSupportingFile path d leaf text) (Post root path parts leaf (some text)) := by
  refine Triple.bind_attempt (p := sys (.createFile leaf d)) (Q := fun out w =>
    Inv root parts w ∧ ∀ i, out = .ok i → Writing parts leaf d i [] w) ?_ fun out => ?_
  · exact triple_perform fun _ _ _ hw h => fileHandle_createFile hw.1 hw.2 hparts hyaml h
  split
  · exact (triple_classify (fun _ hw => hw.1) path d leaf failure_ne_success
      failure_ne_success failure_ne_success).mono (fun _ h => h)
      fun out w hw => post_of_ne hw.1 hw.2
  · exact triple_raise fun w hw => post_of_ne hw.1 nofun
  · rename_i fileFd
    refine ((triple_fstat_ino fileFd).mono (fun w hw => ⟨hw.1, hw.2 fileFd rfl⟩) fun _ _ h => h).bind
      (fun (info : StatResult) => ?_) fun e w hw => post_of_ne hw.1.1 nofun
    by_cases hino : info.ino = fileFd
    swap
    · exact fun w out w' hw _ => absurd (hw.2 info rfl) hino
    rw [hino]
    refine Triple.bind_attempt (p := sys (.fdopen fileFd)) (Q := fun _ w => Inv root parts w ∧
      Writing parts leaf d fileFd [] w) ?_ fun out => ?_
    · exact triple_perform fun _ _ _ hw h => ⟨hw.1.1.quiet h trivial, hw.1.2.fdopen h⟩
    split
    · refine Triple.bind (p := sys (.close fileFd)) (Q := fun _ w => Inv root parts w ∧
        Owned parts leaf d fileFd w) ?_ (fun u => ?_) fun e w hw => post_of_ne hw.1 nofun
      · exact triple_perform fun _ _ _ hw h =>
          ⟨hw.1.quiet h trivial, hw.2.toOwned.quiet h trivial⟩
      exact triple_raiseRemoved (fun _ hw => hw) _
    · refine (triple_writeText fileFd text).bind_attempt fun out => ?_
      split
      · exact triple_raiseRemoved (fun _ hw => hw.1) _
      · exact triple_ret fun w hw => ⟨hw.1.1, fun _ => hw.2 rfl⟩

theorem triple_createLeaf (content : Option Str) (hparts : parts = names ++ [leaf])
    (hyaml : content.isSome = true → names = [] →
      ∀ raw, fsencode leaf = some raw → ¬IsYamlName raw) :
    Triple fileHandle (fun w => Inv root parts w ∧ At names r d w)
      (createLeaf path d leaf content) (Post root path parts leaf content) := by
  cases content with
  | none => exact triple_createFolder hparts
  | some text => exact triple_createSupportingFile hparts (hyaml rfl)

omit [Runtime] in
/-- What is caught is reported as a failure. -/
theorem caught_eq_success {out : Except FileError Dict}
    (h : caught path out = .ok (success path true)) : out = .ok (success path true) := by
  cases out with
  | ok dict => exact h
  | error e =>
    cases e with
    | unicodeEncode => cases h
    | os errno text =>
      rw [caught] at h
      split_ifs at h <;> exact absurd (Except.ok.inj h) failure_ne_success

omit [Runtime] in
theorem triple_finish (descriptor : Ino) (out : Except FileError Dict) :
    Triple fileHandle (Post root path parts leaf content out) (finish path descriptor out)
      (Post root path parts leaf content) := by
  refine Triple.bind (p := sys (.close descriptor)) (Q := fun _ =>
    Post root path parts leaf content out) ?_ (fun u => ?_) fun e w hw => post_of_ne hw.1 nofun
  · exact triple_perform fun _ _ _ hw h => ⟨hw.1.quiet h trivial, fun he => (hw.2 he).close h⟩
  · exact triple_ofExcept fun w hw => ⟨hw.1, fun he => hw.2 (caught_eq_success he)⟩

/-- The walk over any number of parts. -/
theorem triple_walk (parents : Bool) (content : Option Str) {rest : List Str}
    (hparts : parts = names ++ rest ++ [leaf])
    (hyaml : content.isSome = true → parts = [leaf] →
      ∀ raw, fsencode leaf = some raw → ¬IsYamlName raw) :
    Triple fileHandle (fun w => Inv root parts w ∧ At names r d w)
      (walk parents path content leaf d rest) (Post root path parts leaf content) := by
  induction rest generalizing names d with
  | nil =>
    rw [List.append_nil] at hparts
    refine (triple_createLeaf content hparts fun hsome hnames => ?_).bind_attempt fun out => ?_
    · exact hyaml hsome (by rw [hparts, hnames, List.nil_append])
    · exact triple_finish d out
  | cons part rest ih =>
    have hpart : parts = names ++ part :: (rest ++ [leaf]) := by simp [hparts]
    refine (triple_enterPart parents hpart).bind_attempt fun out => ?_
    split
    · exact ih (by simp [hparts])
    · rename_i returned
      refine (triple_finish d (.ok returned)).mono (fun w hw => ?_) fun _ _ h => h
      exact post_of_ne hw.1 fun h => hw.2 (Except.ok.inj h)
    · exact (triple_finish d _).mono (fun w hw => post_of_ne hw.1 nofun) fun _ _ h => h

end

/-! ## Names of device configurations -/

theorem fsChar_ne_nil (c : CodePoint) : fsChar c ≠ [] := by
  rw [fsChar, utf8Char]
  split_ifs <;> exact List.cons_ne_nil _ _

/-- A character whose bytes end in an ASCII one is that one. -/
theorem fsChar_eq_append {c : CodePoint} {before : Bytes} {x : Byte} (hc : isFsChar c = true)
    (h : fsChar c = before ++ [x]) (hx : x.val < 0x80) :
    isAscii c = true ∧ before = [] ∧ x = byte c.val := by
  have hlast : (fsChar c).getLast? = some x := by rw [h, List.getLast?_concat]
  by_cases hascii : c.val < 0x80
  · have hone : fsChar c = [byte c.val] := by
      rw [fsChar, if_neg (by simp [isSurrogate]; omega), utf8Char, if_pos hascii]
    rw [hone, ← List.nil_append [byte c.val]] at h
    obtain ⟨rfl, hbyte⟩ := List.append_inj' h rfl
    exact ⟨by simpa [isAscii] using hascii, rfl, (List.cons.inj hbyte).1.symm⟩
  · -- the last byte of anything longer, and an escaped byte, is 0x80 or above
    have hval : ∀ n, (byte n).val = n % 256 := fun _ => rfl
    have hlarge : 0x80 ≤ x.val := by
      rw [fsChar] at hlast
      split_ifs at hlast with hsurrogate
      · simp only [isFsChar, hsurrogate, Bool.not_true, Bool.false_or, Bool.and_eq_true,
          decide_eq_true_eq] at hc
        have hx' : byte (c.val - 0xDC00) = x := Option.some.inj hlast
        rw [← hx', hval]
        omega
      · have hx' : byte (0x80 + c.val % 0x40) = x := by
          rw [utf8Char, if_neg hascii] at hlast
          split_ifs at hlast <;> exact Option.some.inj hlast
        rw [← hx', hval]
        omega
    omega

/-- An ASCII end of an encoded name is the end of the name. -/
theorem exists_append_of_flatMap_fsChar {s : Str} {before after : Bytes}
    (hs : ∀ c ∈ s, isFsChar c = true) (h : s.flatMap fsChar = before ++ after)
    (hafter : ∀ x ∈ after, x.val < 0x80) :
    ∃ s₀ t, s = s₀ ++ t ∧ (∀ c ∈ t, isAscii c = true) ∧ asciiBytes t = after := by
  induction after using List.reverseRecOn generalizing s with
  | nil => exact ⟨s, [], by simp, by simp, rfl⟩
  | append_singleton after x ih =>
    rw [← List.append_assoc] at h
    have hx : x.val < 0x80 := hafter x (by simp)
    rcases List.eq_nil_or_concat s with rfl | ⟨s', c, rfl⟩
    · simp at h
    rw [List.concat_eq_append] at h hs ⊢
    rw [List.flatMap_append, List.flatMap_singleton] at h
    obtain ⟨l, y, hl⟩ : ∃ l y, fsChar c = l ++ [y] := by
      rcases List.eq_nil_or_concat (fsChar c) with hnil | ⟨l, y, hl⟩
      · exact absurd hnil (fsChar_ne_nil c)
      · exact ⟨l, y, by rw [hl, List.concat_eq_append]⟩
    rw [hl, ← List.append_assoc] at h
    obtain ⟨hinit, hlast⟩ := List.append_inj' h rfl
    obtain rfl := (List.cons.inj hlast).1
    obtain ⟨hascii, rfl, hbyte⟩ := fsChar_eq_append (hs c (by simp)) hl hx
    rw [List.append_nil] at hinit
    obtain ⟨s₀, t, rfl, ht, hbytes⟩ :=
      ih (fun c hc => hs c (List.mem_append_left _ hc)) hinit fun x hx =>
        hafter x (List.mem_append_left _ hx)
    refine ⟨s₀, t ++ [c], by rw [List.append_assoc], fun c' hc' => ?_, ?_⟩
    · rcases List.mem_append.mp hc' with hc' | hc'
      · exact ht c' hc'
      · rw [List.mem_singleton.mp hc']
        exact hascii
    · rw [asciiBytes, List.map_append, ← asciiBytes, hbytes, hbyte]
      rfl

section

variable [Runtime]

/-- `str.lower` maps one character at a time, so that an ASCII end of a string is lowered by
itself. -/
def LowersAsciiEnd : Prop :=
  ∀ s t : Str, (∀ c ∈ t, isAscii c = true) → ∃ s', lower (s ++ t) = s' ++ t.map asciiLower

omit [Runtime] in
theorem asciiBytes_map_asciiLower {t : Str} (ht : ∀ c ∈ t, isAscii c = true) :
    asciiBytes (t.map asciiLower) = (asciiBytes t).map lowerByte := by
  rw [asciiBytes, asciiBytes, List.map_map, List.map_map]
  refine List.map_congr_left fun c hc => Fin.ext ?_
  have hc' : c.val < 0x80 := by simpa [isAscii] using ht c hc
  have hval : (byte c.val).val = c.val := byte_val (by omega)
  simp only [Function.comp_apply, asciiLower_val, lowerByte, hval]
  split_ifs
  · rfl
  · rfl

omit [Runtime] in
/-- Lower-casing leaves no byte in the ASCII range that was not there. -/
theorem lt_of_lowerByte_lt {x : Byte} (h : (lowerByte x).val < 0x80) : x.val < 0x80 := by
  rw [lowerByte] at h
  split_ifs at h with hupper
  · omega
  · exact h

/-- A name whose bytes end like a device configuration is refused. -/
theorem endsWith_lower_of_suffix (hlower : LowersAsciiEnd) {part suffix : Str} {raw : Bytes}
    (hsuffix : ∀ c ∈ suffix, isAscii c = true) (hraw : fsencode part = some raw)
    (h : asciiBytes suffix <:+ raw.map lowerByte) : endsWith (lower part) suffix = true := by
  rw [fsencode] at hraw
  split_ifs at hraw with hchars
  obtain ⟨before, hbefore⟩ := h
  obtain ⟨b, u, hsplit, -, hu⟩ := List.map_eq_append_iff.mp hbefore.symm
  have hascii : ∀ x ∈ u, x.val < 0x80 := by
    intro x hx
    have hmem : lowerByte x ∈ asciiBytes suffix := hu ▸ List.mem_map_of_mem hx
    obtain ⟨c, hc, hbyte⟩ := List.mem_map.mp hmem
    have hc' : c.val < 0x80 := by simpa [isAscii] using hsuffix c hc
    refine lt_of_lowerByte_lt ?_
    rw [← hbyte, byte_val (by omega)]
    exact hc'
  obtain ⟨s₀, t, rfl, ht, hbytes⟩ := exists_append_of_flatMap_fsChar
    (List.all_eq_true.mp hchars) ((Option.some.inj hraw).trans hsplit) hascii
  obtain ⟨s', hs'⟩ := hlower s₀ t ht
  have htail : t.map asciiLower = suffix := by
    have hlow : ∀ c ∈ t.map asciiLower, isAscii c = true := by
      intro c hc
      obtain ⟨c', hc', rfl⟩ := List.mem_map.mp hc
      rw [isAscii_asciiLower]
      exact ht c' hc'
    refine encodeAscii_injective (encodeAscii_eq_some hlow) ?_
    rw [encodeAscii_eq_some hsuffix]
    exact congrArg some ((asciiBytes_map_asciiLower ht).trans (hbytes ▸ hu)).symm
  rw [endsWith, List.isSuffixOf_iff_suffix, hs', htail]
  exact List.suffix_append s' suffix

theorem not_isYamlName (hlower : LowersAsciiEnd) {part : Str} {raw : Bytes}
    (hraw : fsencode part = some raw) (h : isYaml part = false) : ¬IsYamlName raw := by
  rw [isYaml, Bool.or_eq_false_iff] at h
  rintro (hyaml | hyml)
  · rw [endsWith_lower_of_suffix hlower (List.all_eq_true.mp rfl) hraw hyaml] at h
    cases h.1
  · rw [endsWith_lower_of_suffix hlower (List.all_eq_true.mp rfl) hraw hyml] at h
    cases h.2

/-! ## Confinement -/

omit [Runtime] in
theorem inv_start (root : Str) (parts : List Str) (tree : Tree) :
    Inv root parts (.start tree) :=
  ⟨nofun, nofun⟩

omit [Runtime] in
/-- The walk starts at the root, which is the directory that was opened. -/
theorem triple_openPath (root : Str) (parts : List Str) :
    Triple fileHandle (fun w => ∃ tree, w = .start tree) (sys (.openPath root)) fun out w =>
      Inv root parts w ∧ ∀ d, out = .ok d → At [] d d w := by
  refine triple_perform fun w out w' hw h => ?_
  obtain ⟨tree, rfl⟩ := hw
  obtain ⟨t, w₁, hinterferes, hdoes, rfl⟩ := h
  cases out with
  | error e =>
    obtain rfl : w₁ = _ := hdoes
    exact ⟨(inv_start root parts tree).log rfl rfl (confined_of_quiet (.refl (.start t))), nofun⟩
  | ok d =>
    obtain ⟨hpath, hdir, rfl⟩ := hdoes
    have hquiet : Quiet (.start t) (.start t) := .refl _
    refine ⟨⟨fun r hr => ?_, fun call hcall => ?_⟩, fun d' hd' => ?_⟩
    · obtain rfl : d = r := Option.some.inj hr
      exact ⟨_, List.mem_append_right _ List.mem_cons_self, hpath, hdir⟩
    · obtain rfl := List.mem_singleton.mp hcall
      exact confined_of_quiet hquiet
    · cases hd'
      exact ⟨List.mem_cons_self, rfl, .root, fun h => absurd rfl h, .inr ⟨hdir, .refl⟩, rfl, rfl⟩

theorem triple_create (hlower : LowersAsciiEnd) (root path : Str) (parents : Bool)
    (content : Option Str) :
    let parts := path.splitOn (ch '/')
    Triple fileHandle (fun w => ∃ tree, w = .start tree) (create root path parents content)
      (Post root path parts (parts.getLastD []) content) := by
  intro parts
  have hstart : ∀ w, (∃ tree, w = FileWorld.start tree) → Inv root parts w := by
    rintro _ ⟨tree, rfl⟩
    exact inv_start root parts tree
  have hne : parts ≠ [] := List.splitOn_ne_nil _ _
  have hparts : parts = [] ++ parts.dropLast ++ [parts.getLastD []] := by
    rw [List.nil_append, List.getLastD_eq_getLast?, List.getLast?_eq_some_getLast hne]
    exact (List.dropLast_append_getLast hne).symm
  rw [create]
  split_ifs with hrefused hyaml
  · exact triple_ret fun w hw => post_of_ne (hstart w hw) fun h =>
      failure_ne_success (Except.ok.inj h)
  · exact triple_ret fun w hw => post_of_ne (hstart w hw) fun h =>
      failure_ne_success (Except.ok.inj h)
  · refine (triple_openPath root parts).bind_attempt fun out => ?_
    split
    · exact triple_ret fun w hw => post_of_ne hw.1 fun h => failure_ne_success (Except.ok.inj h)
    · split_ifs
      · exact triple_ret fun w hw => post_of_ne hw.1 fun h =>
          failure_ne_success (Except.ok.inj h)
      · exact triple_ofExcept fun w hw => post_of_ne hw.1 fun h => by
          cases caught_eq_success h
    · exact triple_raise fun w hw => post_of_ne hw.1 nofun
    · rename_i descriptor
      refine (triple_walk (r := descriptor) parents content hparts
        fun hsome hsingle raw hraw => ?_).mono (fun w hw => ⟨hw.1, hw.2 descriptor rfl⟩)
        fun _ _ h => h
      refine not_isYamlName hlower hraw ?_
      have hleaf : ∀ leaf, parts = [leaf] → isYaml leaf = false := by
        intro leaf hone
        simpa [parts, hone, hsome] using hyaml
      exact hleaf _ hsingle

/-- Whatever other processes do between its calls, `_create` opens the root as the directory it
is, adds entries inside it only, at prefixes of the path and through directories, takes away none
but the file it has made at the end of the path, leaves every file as it was, makes no device
configuration, and returns that it has created what it was asked for only if it has. -/
theorem create_confined (hlower : LowersAsciiEnd) (root path : Str) (parents : Bool)
    (content : Option Str) {tree : Tree} {w : FileWorld} {out : Except FileError Dict}
    (h : Ends fileHandle (.start tree) (create root path parents content) out w) :
    (∀ r ∈ w.root, ∃ call ∈ w.calls,
      call.before.paths root = some r ∧ call.before.isDir r = true) ∧
    (∀ call ∈ w.calls, Confined (path.splitOn (ch '/')) w.root w.calls call) ∧
    (out = .ok (success path true) →
      Created ((path.splitOn (ch '/')).getLastD []) content w) := by
  obtain ⟨hinv, hcreated⟩ := triple_create hlower root path parents content _ _ _ ⟨tree, rfl⟩ h
  exact ⟨hinv.named, hinv.confined, hcreated⟩

end

/-- An empty configuration directory. -/
def emptyRoot : Tree where
  node i := if i = 1 then some (.dir fun _ => none) else none
  paths path := if path = str "/config/esphome" then some 1 else none

theorem acyclic_of_edge_lt {t : Tree} (hlt : ∀ a b, t.Edge a b → a < b) : t.Acyclic := by
  intro d hcycle
  have hmono : ∀ x, Relation.TransGen t.Edge d x → d < x := by
    intro x hx
    induction hx with
    | single h => exact hlt _ _ h
    | tail _ h ih => exact ih.trans (hlt _ _ h)
  exact lt_irrefl d (hmono d hcycle)

theorem interferes_self {w : FileWorld} (hlt : ∀ a b, w.tree.Edge a b → a < b)
    (hdirs : ∀ d ∈ w.dirs, w.tree.isDir d = true) : Interferes w w.tree where
  acyclic := acyclic_of_edge_lt hlt
  dirs d hd := .inr ⟨hdirs d hd, hdirs d hd, fun _ _ h => h⟩
  own _ _ := rfl

/-- Entries have larger numbers than the directories they are in. -/
def Rising (t : Tree) : Prop := ∀ a name b, t.lookup a name = some b → a < b

theorem Rising.edge {t : Tree} (h : Rising t) (a b : Ino) (hedge : t.Edge a b) : a < b := by
  obtain ⟨name, hlookup, -⟩ := hedge
  exact h a name b hlookup

theorem Rising.setEntry {t : Tree} (h : Rising t) {d i : Ino} (hd : t.isDir d = true) (hlt : d < i)
    (raw : Bytes) : Rising (t.setEntry d raw (some i)) := by
  intro a name b hlookup
  rw [Tree.lookup_setEntry hd] at hlookup
  split_ifs at hlookup with hsame
  · rw [hsame.1, ← Option.some.inj hlookup]
    exact hlt
  · exact h a name b hlookup

theorem Rising.setNode {t : Tree} (h : Rising t) (i : Ino) {n : Node}
    (hn : ∀ name, n.entry name = none) : Rising (t.setNode i n) := by
  intro a name b hlookup
  rw [Tree.lookup_setNode, hn] at hlookup
  split_ifs at hlookup
  exact h a name b hlookup

theorem Rising.create {t : Tree} (h : Rising t) {d i : Ino} (hd : t.isDir d = true) (hlt : d < i)
    (raw : Bytes) {n : Node} (hn : ∀ name, n.entry name = none) : Rising (t.create d raw i n) :=
  (h.setEntry hd hlt raw).setNode i hn

/-- One call of a run, after others have made `t` of the tree. -/
theorem ends_after {α : Type} {w v : FileWorld} {t : Tree} {c : FileCmd} {r : Except FileError c.Ans}
    {k : Except FileError c.Ans → FileProg α} {out : Except FileError α} {P : FileWorld → Prop}
    (hinterferes : Interferes w t) (hdoes : Does { w with tree := t } c r v)
    (hk : ∀ calls, ∃ w', Ends fileHandle { v with calls := calls } (k r) out w' ∧ P w') :
    ∃ w', Ends fileHandle w (.call c k) out w' ∧ P w' := by
  obtain ⟨w', hends, hP⟩ := hk (v.calls ++ [⟨t, v.tree, w.own⟩])
  exact ⟨w', .call ⟨t, v, hinterferes, hdoes, rfl⟩ hends, hP⟩

theorem interferes_rising {t : Tree} {dirs : List Ino} {root own : Option Ino} {buffer : Bytes}
    {calls : List FileCall} (hrising : Rising t) (hdirs : ∀ d ∈ dirs, t.isDir d = true) :
    Interferes ⟨t, dirs, root, own, buffer, calls⟩ t :=
  interferes_self hrising.edge hdirs

/-- At the end of the walk a file is made where there is none, and written to the end. -/
theorem ends_walk_file [Runtime] (parents : Bool) (path : Str) (root : Option Ino)
    (calls : List FileCall) {leaf text : Str} {name raw : Bytes} {t : Tree} {d i : Ino}
    (hname : fsencode leaf = some name) (htext : encodeUtf8 text = some raw) (hrising : Rising t)
    (hdir : t.isDir d = true) (hfree : t.lookup d name = none) (hnew : t.node i = none)
    (hlt : d < i) : ∃ w, Ends fileHandle ⟨t, [d], root, none, [], calls⟩
      (walk parents path (some text) leaf d []) (.ok (success path true)) w ∧
        ∀ x ≠ d, ∀ n, w.tree.lookup x n = t.lookup x n := by
  -- the text stays in the buffer until the file is closed
  set t₁ := t.create d name i (.file []) with ht₁
  set t₂ := t₁.setNode i (.file []) with ht₂
  set t₃ := t₂.setNode i (.file raw) with ht₃
  have hfile : t₁.node i = some (.file []) := Tree.node_create
  have hwritten : t₂.node i = some (.file []) := by rw [ht₂, Tree.node_setNode, if_pos rfl]
  have hone : ∀ {s : Tree}, s.isDir d = true → ∀ x ∈ [d], s.isDir x = true :=
    fun hd => List.forall_mem_singleton.mpr hd
  have hdir₁ : t₁.isDir d = true := Tree.isDir_create_of_isDir hnew hdir
  have hdir₂ : t₂.isDir d = true := by rw [ht₂, Tree.isDir_setNode, if_neg hlt.ne, hdir₁]
  have hdir₃ : t₃.isDir d = true := by rw [ht₃, Tree.isDir_setNode, if_neg hlt.ne, hdir₂]
  have hrising₁ : Rising t₁ := hrising.create hdir hlt name fun _ => rfl
  have hrising₂ : Rising t₂ := hrising₁.setNode i fun _ => rfl
  have hrising₃ : Rising t₃ := hrising₂.setNode i fun _ => rfl
  refine ends_after (c := .createFile leaf d) (r := .ok (i : Ino))
    (v := ⟨t₁, [d], root, some i, [], calls⟩) (interferes_rising hrising (hone hdir))
    ⟨name, hname, hdir, hfree, hnew, rfl⟩ fun calls => ?_
  refine ends_after (c := .fstat i) (r := .ok (⟨false, i⟩ : StatResult))
    (v := ⟨t₁, [d], root, some i, [], calls⟩) (interferes_rising hrising₁ (hone hdir₁))
    ⟨rfl, rfl, rfl⟩ fun calls => ?_
  refine ends_after (c := .fdopen i) (r := .ok ()) (v := ⟨t₁, [d], root, some i, [], calls⟩)
    (interferes_rising hrising₁ (hone hdir₁)) rfl fun calls => ?_
  refine ends_after (c := .write i text) (r := .ok ()) (v := ⟨t₂, [d], root, some i, raw, calls⟩)
    (interferes_rising hrising₁ (hone hdir₁)) ⟨[], raw, [], raw, hfile, htext, rfl, rfl⟩
    fun calls => ?_
  refine ends_after (c := .closeFile i) (r := .ok ()) (v := ⟨t₃, [d], root, some i, [], calls⟩)
    (interferes_rising hrising₂ (hone hdir₂)) ⟨[], hwritten, rfl⟩ fun calls => ?_
  refine ends_after (c := .close d) (r := .ok ()) (v := ⟨t₃, [], root, some i, [], calls⟩)
    (interferes_rising hrising₃ (hone hdir₃)) (by simp [Does]) fun calls => ⟨_, .ret _ _, ?_⟩
  intro x hx n
  show t₃.lookup x n = t.lookup x n
  rw [ht₃, ht₂, Tree.lookup_setNode, Tree.lookup_setNode, ht₁,
    Tree.lookup_create hdir hnew fun _ => rfl]
  split_ifs with hxi hxd
  · -- there was nothing under the number of the new file
    rw [hxi, Tree.lookup, hnew]
    rfl
  · exact absurd hxd.1 hx
  · rfl

/-- The configuration directory with a folder, and a file in it. -/
def sharedRoot : Tree where
  node i :=
    if i = 1 then some (.dir fun name => if some name = fsencode (str "packages") then some 2 else none)
    else if i = 2 then
      some (.dir fun name => if some name = fsencode (str "base.txt") then some 3 else none)
    else if i = 3 then some (.file [])
    else if i = 4 then some .symlink
    else none
  paths path := if path = str "/config/esphome" then some 1 else none

theorem rising_sharedRoot : Rising sharedRoot := by
  intro a name b hlookup
  by_cases h1 : a = 1
  · subst h1
    simp only [Tree.lookup, sharedRoot, if_true, Option.bind_some, Node.entry] at hlookup
    split_ifs at hlookup
    rw [← Option.some.inj hlookup]
    exact Nat.one_lt_two
  by_cases h2 : a = 2
  · subst h2
    simp [Tree.lookup, sharedRoot, Node.entry] at hlookup
    rw [← hlookup.2]
    exact Nat.lt_succ_self 2
  · by_cases h3 : a = 3 <;> by_cases h4 : a = 4 <;>
      simp [Tree.lookup, sharedRoot, Node.entry, h1, h2, h3, h4] at hlookup

theorem splitOn_nested : (str "packages/deep/notes.txt").splitOn (ch '/') =
    [str "packages", str "deep", str "notes.txt"] := by
  decide +kernel

/-- A file is made two folders down, the second of them new, while another process puts a symlink
in the place of the file next to that one. -/
theorem ends_create_nested [Runtime] {base : Bytes} (hbase : fsencode (str "base.txt") = some base) :
    ∃ w, Ends fileHandle (.start sharedRoot)
      (create (str "/config/esphome") (str "packages/deep/notes.txt") true (some (str "hi")))
      (.ok (success (str "packages/deep/notes.txt") true)) w ∧ w.tree.lookup 2 base = some 4 := by
  obtain ⟨packages, hpackages⟩ : ∃ raw, fsencode (str "packages") = some raw := ⟨_, rfl⟩
  obtain ⟨deep, hdeep⟩ : ∃ raw, fsencode (str "deep") = some raw := ⟨_, rfl⟩
  obtain ⟨notes, hnotes⟩ : ∃ raw, fsencode (str "notes.txt") = some raw := ⟨_, rfl⟩
  obtain ⟨hi, hutf8⟩ : ∃ raw, encodeUtf8 (str "hi") = some raw := ⟨_, rfl⟩
  have hne : base ≠ deep := by
    rintro rfl
    exact absurd (hbase.trans hdeep.symm) (by decide +kernel)
  -- what the walk, and the other process, make of the tree
  set t₁ := sharedRoot.create 2 deep 5 (.dir fun _ => none) with ht₁
  set t₂ := t₁.setEntry 2 base (some 4) with ht₂
  have hdir₁ : ∀ d ∈ [1, 2, 5], t₁.isDir d = true := by
    rw [List.forall_mem_cons, List.forall_mem_cons, List.forall_mem_singleton]
    refine ⟨Tree.isDir_create_of_isDir rfl rfl, Tree.isDir_create_of_isDir rfl rfl, ?_⟩
    rw [ht₁, Tree.isDir, Tree.node_create]
    rfl
  have hdir₂ : ∀ d ∈ [1, 2, 5], t₂.isDir d = true := by
    intro d hd
    rw [ht₂, Tree.isDir_setEntry, hdir₁ d hd]
  have hlookup₁ : ∀ d name, t₁.lookup d name =
      if d = 2 ∧ name = deep then some 5 else sharedRoot.lookup d name :=
    Tree.lookup_create rfl rfl fun _ => rfl
  have hlookup₂ : ∀ d name, t₂.lookup d name =
      if d = 2 ∧ name = base then some 4 else t₁.lookup d name :=
    fun d name => Tree.lookup_setEntry (hdir₁ 2 (by simp)) d name base (some 4)
  have hpart : sharedRoot.lookup 1 packages = some 2 := by
    show (if some packages = fsencode (str "packages") then some 2 else none) = some 2
    rw [hpackages, if_pos rfl]
  have hfree : sharedRoot.lookup 2 deep = none := by
    show (if some deep = fsencode (str "base.txt") then some 3 else none) = none
    rw [hbase, if_neg fun h => hne (Option.some.inj h).symm]
  have hrising₁ : Rising t₁ := rising_sharedRoot.create rfl (by decide) deep fun _ => rfl
  have hrising₂ : Rising t₂ := hrising₁.setEntry (hdir₁ 2 (by simp)) (by decide) base
  have hplace : t₂.lookup 5 notes = none := by
    rw [hlookup₂, if_neg (by simp), hlookup₁, if_neg (by simp)]
    rfl
  have hnew : t₂.node 6 = none := by
    rw [ht₂, Tree.node_setEntry_of_ne (by decide), ht₁, Tree.create, Tree.node_setNode,
      if_neg (by decide), Tree.node_setEntry_of_ne (by decide)]
    rfl
  have hone : ∀ {t : Tree} {d : Ino}, t.isDir d = true → ∀ x ∈ [d], t.isDir x = true :=
    fun hd => List.forall_mem_singleton.mpr hd
  rw [create, splitOn_nested, if_neg (by decide +kernel), if_neg (by simp)]
  refine ends_after (r := .ok (1 : Ino)) (v := ⟨sharedRoot, [1], some 1, none, [], []⟩)
    (interferes_self rising_sharedRoot.edge (by simp [FileWorld.start])) ⟨rfl, rfl, rfl⟩ fun calls => ?_
  -- the first folder is there
  refine ends_after (c := .mkdir (str "packages") 1) (r := .error (.os .eexist []))
    (v := ⟨sharedRoot, [1], some 1, none, [], calls⟩)
    (interferes_rising rising_sharedRoot (hone rfl)) rfl fun calls => ?_
  refine ends_after (c := .openDir (str "packages") 1) (r := .ok (2 : Ino))
    (v := ⟨sharedRoot, [2, 1], some 1, none, [], calls⟩)
    (interferes_rising rising_sharedRoot (hone rfl)) ⟨packages, hpackages, hpart, rfl, rfl⟩
    fun calls => ?_
  refine ends_after (c := .close 1) (r := .ok ())
    (v := ⟨sharedRoot, [2], some 1, none, [], calls⟩)
    (interferes_rising rising_sharedRoot (List.forall_mem_cons.mpr ⟨rfl, hone rfl⟩)) rfl
    fun calls => ?_
  refine ends_after (c := .mkdir (str "deep") 2) (r := .ok ())
    (v := ⟨t₁, [2], some 1, none, [], calls⟩) (interferes_rising rising_sharedRoot (hone rfl))
    ⟨deep, 5, hdeep, rfl, hfree, rfl, rfl⟩ fun calls => ?_
  -- the other process has had its turn
  have hturn : Interferes ⟨t₁, [2], some 1, none, [], calls⟩ t₂ := by
    refine ⟨acyclic_of_edge_lt hrising₂.edge, List.forall_mem_singleton.mpr (.inr ?_), by simp⟩
    refine ⟨hdir₁ 2 (by simp), hdir₂ 2 (by simp), fun r hr _ => ?_⟩
    obtain rfl := Option.some.inj hr
    refine .single ⟨packages, ?_, hdir₂ 2 (by simp)⟩
    rw [hlookup₂, if_neg (by simp), hlookup₁, if_neg (by simp), hpart]
  refine ends_after (t := t₂) (c := .openDir (str "deep") 2) (r := .ok (5 : Ino))
    (v := ⟨t₂, [5, 2], some 1, none, [], calls⟩) hturn
    ⟨deep, hdeep, ?_, hdir₂ 5 (by simp), rfl⟩ fun calls => ?_
  · show t₂.lookup 2 deep = some 5
    rw [hlookup₂, if_neg fun h => hne h.2.symm, hlookup₁, if_pos ⟨rfl, rfl⟩]
  refine ends_after (c := .close 2) (r := .ok ())
    (v := ⟨t₂, [5], some 1, none, [], calls⟩)
    (interferes_rising hrising₂
      (List.forall_mem_cons.mpr ⟨hdir₂ 5 (by simp), hone (hdir₂ 2 (by simp))⟩)) rfl
    fun calls => ?_
  obtain ⟨w, hends, hlookup⟩ := ends_walk_file true (str "packages/deep/notes.txt") (some 1) calls
    hnotes hutf8 hrising₂ (hdir₂ 5 (by simp)) hplace hnew (by decide)
  refine ⟨w, hends, ?_⟩
  rw [hlookup 2 (by decide), hlookup₂, if_pos ⟨rfl, rfl⟩]

theorem create_confined_nested :
    letI := asciiRuntime
    ∃ w, Ends fileHandle (.start sharedRoot)
        (create (str "/config/esphome") (str "packages/deep/notes.txt") true (some (str "hi")))
        (.ok (success (str "packages/deep/notes.txt") true)) w ∧
      (∃ raw, fsencode (str "base.txt") = some raw ∧ sharedRoot.lookup 2 raw = some 3 ∧
        w.tree.lookup 2 raw = some 4) ∧
      (∀ call ∈ w.calls,
        Confined [str "packages", str "deep", str "notes.txt"] w.root w.calls call) ∧
      Created (str "notes.txt") (some (str "hi")) w := by
  let := asciiRuntime
  have hlower : LowersAsciiEnd := fun s t _ => ⟨s.map asciiLower, List.map_append⟩
  obtain ⟨base, hbase⟩ : ∃ raw, fsencode (str "base.txt") = some raw := ⟨_, rfl⟩
  obtain ⟨w, hends, hlookup⟩ := ends_create_nested hbase
  obtain ⟨-, hconfined, hcreated⟩ := create_confined hlower _ _ _ _ hends
  rw [splitOn_nested] at hconfined hcreated
  refine ⟨w, hends, ⟨base, hbase, ?_, hlookup⟩, hconfined, hcreated rfl⟩
  show (if some base = fsencode (str "base.txt") then some 3 else none) = some 3
  rw [hbase, if_pos rfl]

end EsphomeMcp.Files
