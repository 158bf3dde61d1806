import EsphomeMcp.Python.Bytes
import EsphomeMcp.Python.World

/-!
# Directory descriptors

The part of `os` that works relative to an open directory, over a tree that other processes
change. A descriptor is the file it is open on, of whatever kind, and a file keeps its number for
good. Before each call of the program the others may have done anything to the tree that
`Interferes` allows: entries come, go and are replaced, but an open directory stays where the
program found it or is removed.

What a failing call leaves behind is the tree as it was, for whatever reason it failed; only
writing may fail half way. `World.calls` records the tree before and after each call.
-/

namespace Py

open Relation

/-! ## Names -/

/-- Whether the file system encoding has bytes for a character. -/
def isFsChar (c : CodePoint) : Bool := !isSurrogate c || (0xDC80 ≤ c.val && c.val ≤ 0xDCFF)

/-- The bytes of a character: UTF-8, and for an escaped byte the byte. -/
def fsChar (c : CodePoint) : Bytes :=
  if isSurrogate c then [byte (c.val - 0xDC00)] else utf8Char c

/-- `os.fsencode`, with `none` for the `UnicodeEncodeError`. -/
def fsencode (s : Str) : Option Bytes := if s.all isFsChar then some (s.flatMap fsChar) else none

/-! ## Trees -/

/-- The number of a file of any kind. -/
abbrev Ino := ℕ

/-- A file of any kind. -/
inductive Node where
  | dir (entries : Bytes → Option Ino)
  /-- A directory that is gone from the tree, while a descriptor is still open on it. -/
  | removed
  | file (content : Bytes)
  | symlink
  | special

/-- The file system. -/
structure Tree where
  node : Ino → Option Node
  /-- What a path names that is not relative to a descriptor; a symlink in last place is not
  followed. -/
  paths : Str → Option Ino

/-- The entry of a node, if it is a directory. -/
def Node.entry : Node → Bytes → Option Ino
  | .dir entries, name => entries name
  | _, _ => none

/-- `stat.S_ISDIR`, of a directory that is in the tree. -/
def Node.isDir : Node → Bool
  | .dir _ => true
  | _ => false

/-- `stat.S_ISLNK`. -/
def Node.isLink : Node → Bool
  | .symlink => true
  | _ => false

namespace Tree

/-- An entry of a directory. -/
def lookup (t : Tree) (d : Ino) (name : Bytes) : Option Ino := (t.node d).bind (·.entry name)

def isDir (t : Tree) (i : Ino) : Bool := (t.node i).any Node.isDir

def isLink (t : Tree) (i : Ino) : Bool := (t.node i).any Node.isLink

/-- Write a node. -/
def setNode (t : Tree) (i : Ino) (n : Node) : Tree :=
  { t with node := Function.update t.node i (some n) }

/-- Write an entry of a directory. -/
def setEntry (t : Tree) (d : Ino) (name : Bytes) (i : Option Ino) : Tree :=
  match t.node d with
  | some (.dir entries) => t.setNode d (.dir (Function.update entries name i))
  | _ => t

/-- Make a new file under a name. -/
def create (t : Tree) (d : Ino) (name : Bytes) (i : Ino) (n : Node) : Tree :=
  (t.setEntry d name (some i)).setNode i n

/-- `b` is a directory in the directory `a`. -/
def Edge (t : Tree) (a b : Ino) : Prop := ∃ name, t.lookup a name = some b ∧ t.isDir b = true

/-- `d` is the directory `r` or below it. -/
def Inside (t : Tree) (r d : Ino) : Prop := ReflTransGen t.Edge r d

/-- No directory is below itself. -/
def Acyclic (t : Tree) : Prop := ∀ d, ¬TransGen t.Edge d d

end Tree

/-! ## Calls -/

/-- The `errno` values a program tells apart. -/
inductive Errno where
  | enoent
  | eexist
  | eloop
  | enotdir
  | other (n : ℕ)
deriving DecidableEq

/-- What a call raises. -/
inductive FileError where
  /-- An `OSError` and its text. -/
  | os (errno : Errno) (text : Str)
  | unicodeEncode
deriving DecidableEq

/-- `os.stat_result`. -/
structure StatResult where
  isLink : Bool
  ino : Ino

/-- The calls; `O_DIRECTORY | O_NOFOLLOW` opens directories, `O_CREAT | O_EXCL | O_NOFOLLOW`
creates files, and nothing follows a symlink in last place. -/
inductive FileCmd where
  | openPath (path : Str)
  | openDir (name : Str) (descriptor : Ino)
  | mkdir (name : Str) (descriptor : Ino)
  | createFile (name : Str) (descriptor : Ino)
  | stat (name : Str) (descriptor : Ino)
  | unlink (name : Str) (descriptor : Ino)
  | fstat (fd : Ino)
  | fdopen (fd : Ino)
  | write (fd : Ino) (text : Str)
  | closeFile (fd : Ino)
  | close (fd : Ino)

/-- What each call returns. -/
@[reducible] def FileCmd.Ans : FileCmd → Type
  | openPath _ | openDir _ _ | createFile _ _ => Ino
  | stat _ _ | fstat _ => StatResult
  | mkdir _ _ | unlink _ _ | fdopen _ | write _ _ | closeFile _ | close _ => Unit

/-- The signature of file system programs. -/
abbrev fileSignature : Signature := ⟨FileCmd, FileCmd.Ans⟩

/-- A file system program. -/
abbrev FileProg (α : Type) := Prog fileSignature FileError α

/-- One call: the tree before and after, and the file the program had created by then. -/
structure FileCall where
  before : Tree
  after : Tree
  own : Option Ino

/-- The tree, and what the program has done to it. -/
structure FileWorld where
  tree : Tree
  /-- The directories the program holds open. -/
  dirs : List Ino
  /-- The directory it opened by a path. -/
  root : Option Ino
  /-- The file it has created. -/
  own : Option Ino
  /-- Bytes of text written to that file and not flushed. -/
  buffer : Bytes
  calls : List FileCall

/-- Before a program has done anything. -/
def FileWorld.start (tree : Tree) : FileWorld := ⟨tree, [], none, none, [], []⟩

/-- What other processes may make of the tree between two calls. -/
structure Interferes (w : FileWorld) (t : Tree) : Prop where
  acyclic : t.Acyclic
  /-- An open directory is removed, or it stays a directory and inside the root. -/
  dirs : ∀ d ∈ w.dirs, t.node d = some .removed ∨ w.tree.isDir d = true ∧ t.isDir d = true ∧
    ∀ r ∈ w.root, w.tree.Inside r d → t.Inside r d
  /-- Nobody else writes to the new file. -/
  own : ∀ f ∈ w.own, t.node f = w.tree.node f

/-- What a call does to the world. -/
def Does (w : FileWorld) (c : FileCmd) (r : Except FileError c.Ans) (w' : FileWorld) : Prop :=
  match c, r with
  | .openPath path, .ok d =>
    w.tree.paths path = some d ∧ w.tree.isDir d = true ∧
      w' = { w with root := some d, dirs := d :: w.dirs }
  | .openDir name descriptor, .ok i =>
    ∃ raw, fsencode name = some raw ∧ w.tree.lookup descriptor raw = some i ∧
      w.tree.isDir i = true ∧ w' = { w with dirs := i :: w.dirs }
  | .mkdir name descriptor, .ok _ =>
    ∃ raw i, fsencode name = some raw ∧ w.tree.isDir descriptor = true ∧
      w.tree.lookup descriptor raw = none ∧ w.tree.node i = none ∧
      w' = { w with tree := w.tree.create descriptor raw i (.dir fun _ => none) }
  | .createFile name descriptor, .ok i =>
    ∃ raw, fsencode name = some raw ∧ w.tree.isDir descriptor = true ∧
      w.tree.lookup descriptor raw = none ∧ w.tree.node i = none ∧
      w' = { w with tree := w.tree.create descriptor raw i (.file []), own := some i }
  | .stat name descriptor, .ok info =>
    (∃ raw, fsencode name = some raw ∧ w.tree.lookup descriptor raw = some info.ino) ∧
      info.isLink = w.tree.isLink info.ino ∧ w' = w
  | .unlink name descriptor, .ok _ =>
    ∃ raw, fsencode name = some raw ∧ w' = { w with tree := w.tree.setEntry descriptor raw none }
  | .fstat fd, .ok info => info.ino = fd ∧ info.isLink = false ∧ w' = w
  | .write fd text, .ok _ =>
    ∃ content raw flushed kept, w.tree.node fd = some (.file content) ∧
      encodeUtf8 text = some raw ∧ w.buffer ++ raw = flushed ++ kept ∧
      w' = { w with tree := w.tree.setNode fd (.file (content ++ flushed)), buffer := kept }
  | .write fd text, .error _ =>
    ∃ content flushed kept, w.tree.node fd = some (.file content) ∧
      w.buffer ++ (encodeUtf8 text).getD [] = flushed ++ kept ∧
      w' = { w with tree := w.tree.setNode fd (.file (content ++ flushed)), buffer := kept }
  | .closeFile fd, .ok _ =>
    ∃ content, w.tree.node fd = some (.file content) ∧
      w' = { w with tree := w.tree.setNode fd (.file (content ++ w.buffer)), buffer := [] }
  | .closeFile fd, .error _ =>
    ∃ content flushed kept, w.tree.node fd = some (.file content) ∧
      w.buffer = flushed ++ kept ∧
      w' = { w with tree := w.tree.setNode fd (.file (content ++ flushed)), buffer := kept }
  | .close fd, .ok _ => w' = { w with dirs := w.dirs.erase fd }
  | _, _ => w' = w

/-- A call, after others have had their turn. -/
def fileHandle : Handler fileSignature FileError FileWorld := fun w c r w' =>
  ∃ t w₁, Interferes w t ∧ Does { w with tree := t } c r w₁ ∧
    w' = { w₁ with calls := w₁.calls ++ [⟨t, w₁.tree, w.own⟩] }

/-! ## Writing to the tree -/

namespace Tree

variable {t : Tree}

theorem node_setNode (i x : Ino) (n : Node) :
    (t.setNode i n).node x = if x = i then some n else t.node x := by
  show Function.update t.node i (some n) x = _
  rw [Function.update_apply]

theorem lookup_setNode (i x : Ino) (n : Node) (name : Bytes) :
    (t.setNode i n).lookup x name = if x = i then n.entry name else t.lookup x name := by
  rw [lookup, node_setNode]
  split_ifs <;> rfl

theorem isDir_setNode (i x : Ino) (n : Node) :
    (t.setNode i n).isDir x = if x = i then n.isDir else t.isDir x := by
  rw [isDir, node_setNode]
  split_ifs <;> rfl

theorem exists_entries {d : Ino} (h : t.isDir d = true) :
    ∃ entries, t.node d = some (.dir entries) := by
  rw [isDir, Option.any_eq_true] at h
  obtain ⟨n, hn, hdir⟩ := h
  cases n with
  | dir entries => exact ⟨entries, hn⟩
  | removed | file | symlink | special => cases hdir

theorem lookup_setEntry {d : Ino} (h : t.isDir d = true) (x : Ino) (name raw : Bytes)
    (i : Option Ino) :
    (t.setEntry d raw i).lookup x name = if x = d ∧ name = raw then i else t.lookup x name := by
  obtain ⟨entries, hd⟩ := exists_entries h
  simp only [setEntry, hd, lookup_setNode, Node.entry, Function.update_apply]
  by_cases hx : x = d
  · subst hx
    simp [lookup, hd, Node.entry]
  · simp [hx]

/-- Only a directory has entries to write. -/
theorem setEntry_of_not_isDir {d : Ino} (h : ¬t.isDir d = true) (raw : Bytes) (i : Option Ino) :
    t.setEntry d raw i = t := by
  rw [setEntry]
  split
  · rename_i entries hnode
    simp [isDir, hnode, Node.isDir] at h
  · rfl

theorem node_setEntry_of_ne {d x : Ino} (h : x ≠ d) (raw : Bytes) (i : Option Ino) :
    (t.setEntry d raw i).node x = t.node x := by
  rw [setEntry]
  split
  · rw [node_setNode, if_neg h]
  · rfl

theorem isDir_setEntry (d x : Ino) (raw : Bytes) (i : Option Ino) :
    (t.setEntry d raw i).isDir x = t.isDir x := by
  by_cases hx : x = d
  · subst hx
    rw [setEntry]
    split
    · rename_i entries hd
      rw [isDir_setNode, if_pos rfl, isDir, hd]
      rfl
    · rfl
  · rw [isDir, node_setEntry_of_ne hx, isDir]

/-- An entry that another call takes away is the one it names. -/
theorem lookup_of_lookup_setEntry_none {d x i : Ino} {raw name : Bytes}
    (h : (t.setEntry d raw none).lookup x name = some i) : t.lookup x name = some i := by
  by_cases hd : t.isDir d = true
  · rw [lookup_setEntry hd] at h
    split_ifs at h
    exact h
  · rwa [setEntry_of_not_isDir hd] at h

theorem node_setEntry_file {d x : Ino} {raw content : Bytes} {i : Option Ino}
    (h : t.node x = some (.file content)) : (t.setEntry d raw i).node x = some (.file content) := by
  by_cases hx : x = d
  · subst hx
    rw [setEntry, h]
    exact h
  · rw [node_setEntry_of_ne hx, h]

/-! ## New files -/

section

variable {d i : Ino} {raw : Bytes} {n : Node}

theorem lookup_create (hd : t.isDir d = true) (hi : t.node i = none)
    (hn : ∀ name, n.entry name = none) (x : Ino) (name : Bytes) :
    (t.create d raw i n).lookup x name =
      if x = d ∧ name = raw then some i else t.lookup x name := by
  have hne : i ≠ d := by
    rintro rfl
    simp [isDir, hi] at hd
  rw [create, lookup_setNode, lookup_setEntry hd]
  by_cases hx : x = i
  · subst hx
    simp [hn, hne, lookup, hi]
  · rw [if_neg hx]

theorem isDir_create_of_isDir (hi : t.node i = none) {x : Ino} (hx : t.isDir x = true) :
    (t.create d raw i n).isDir x = true := by
  have hne : x ≠ i := by
    rintro rfl
    simp [isDir, hi] at hx
  rw [create, isDir_setNode, if_neg hne, isDir_setEntry, hx]

theorem node_create_file (hi : t.node i = none) {x : Ino} {content : Bytes}
    (hx : t.node x = some (.file content)) :
    (t.create d raw i n).node x = some (.file content) := by
  have hne : x ≠ i := by
    rintro rfl
    rw [hi] at hx
    cases hx
  rw [create, node_setNode, if_neg hne, node_setEntry_file hx]

theorem node_create : (t.create d raw i n).node i = some n := by
  rw [create, node_setNode, if_pos rfl]

/-- What was inside stays inside. -/
theorem Inside.create (hd : t.isDir d = true) (hi : t.node i = none)
    (hn : ∀ name, n.entry name = none) (hraw : t.lookup d raw = none) {r x : Ino}
    (h : t.Inside r x) : (t.create d raw i n).Inside r x := by
  refine ReflTransGen.mono (fun a b hab => ?_) _ _ h
  obtain ⟨name, hname, hdir⟩ := hab
  refine ⟨name, ?_, isDir_create_of_isDir hi hdir⟩
  rw [lookup_create hd hi hn, if_neg, hname]
  rintro ⟨rfl, rfl⟩
  rw [hraw] at hname
  cases hname

end

end Tree

end Py
