import EsphomeMcp.Files.Create

/-!
# Cleaning up after a failure

What is left when `_create` has made a file and then fails. Files are told apart by the numbers the
system gives them, which may be given out again, and the entry that was found with the number of the
new file is unlinked by its name.

`create_cleansUp` is what holds of every run with no step that `Harmless` rules out: the new file is
gone from its name, nothing else was touched, a failure is returned and no descriptor is left open.
Some of what is ruled out is not the environment's fault: `fstat` is called outside the `try`, and
an entry may be replaced between the `stat` and the `unlink`.
-/

namespace EsphomeMcp.Files

open Py Py.Prog

/-! ## The world of the leaf -/

/-- The world, with what `_create` has made of it. -/
structure LeafWorld extends FileWorld where
  /-- The descriptors of files that are open. -/
  fds : List Ino
  /-- The folder and the name under which the file was made. -/
  place : Option (Ino × Bytes)

/-- Before `_create` has done anything. -/
def LeafWorld.start (tree : Tree) : LeafWorld where
  toFileWorld := FileWorld.start tree
  fds := []
  place := none

/-- What a call does, where a `stat` tells the number of a file. `ENOENT` is for an entry that is
not there. -/
def DoesNumbered (number : Ino → ℕ) (w : FileWorld) (c : FileCmd) (r : Except FileError c.Ans)
    (w' : FileWorld) : Prop :=
  match c, r with
  | .stat name descriptor, .ok info =>
    (∃ raw i, fsencode name = some raw ∧ w.tree.lookup descriptor raw = some i ∧
      info.ino = number i ∧ info.isLink = w.tree.isLink i) ∧ w' = w
  | .stat name descriptor, .error (.os .enoent _) | .unlink name descriptor, .error (.os .enoent _) =>
    (∀ raw, fsencode name = some raw → w.tree.lookup descriptor raw = none) ∧ w' = w
  | .fstat fd, .ok info => info.ino = number fd ∧ info.isLink = false ∧ w' = w
  | c, r => Does w c r w'

/-- The open files after a call; a file object lets go of its descriptor even if the last flush
fails. -/
def nextFds (c : FileCmd) (r : Except FileError c.Ans) (fds : List Ino) : List Ino :=
  match c, r with
  | .createFile _ _, .ok i => i :: fds
  | .closeFile fd, _ => fds.erase fd
  | .close fd, .ok _ => fds.erase fd
  | _, _ => fds

/-- The place of the new file after a call. -/
def nextPlace (c : FileCmd) (r : Except FileError c.Ans) (place : Option (Ino × Bytes)) :
    Option (Ino × Bytes) :=
  match c, r with
  | .createFile name descriptor, .ok _ => (fsencode name).map fun raw => (descriptor, raw)
  | _, _ => place

/-- What may be said of one call: the world it is made in, the tree when others have had their turn,
the call and its result. -/
abbrev StepProperty := LeafWorld → Tree → (c : FileCmd) → Except FileError c.Ans → Prop

/-- A call, after others have had their turn, with a property that every call is to have. -/
def leafHandle (number : Ino → ℕ) (allowed : StepProperty) :
    Handler fileSignature FileError LeafWorld := fun w c r w' =>
  ∃ t w₁, Interferes w.toFileWorld t ∧ allowed w t c r ∧
    DoesNumbered number { w.toFileWorld with tree := t } c r w₁ ∧
    w' =
      { toFileWorld := { w₁ with calls := w₁.calls ++ [⟨t, w₁.tree, w.own⟩] }
        fds := nextFds c r w.fds
        place := nextPlace c r w.place }

/-- Any call may do anything. -/
def anyStep : StepProperty := fun _ _ _ _ => True

/-! ## What the clean-up is for -/

/-- A call leaves every entry and every file but the one that `_create` has made. -/
structure Keeps (call : FileCall) : Prop where
  entries : ∀ d raw i, call.before.lookup d raw = some i → call.own ≠ some i →
    call.after.lookup d raw = some i
  files : ∀ i content, call.before.node i = some (.file content) → call.own ≠ some i →
    call.after.node i = some (.file content)

/-- What was not made stays. If a file was made and no success is returned, the file is gone from
its name, a failure is returned and everything is closed. -/
structure CleansUp (path : Str) (out : Except FileError Dict) (w : LeafWorld) : Prop where
  keeps : ∀ call ∈ w.calls, Keeps call
  failed : ∀ i, w.own = some i → out ≠ .ok (success path true) →
    (∀ d raw, w.place = some (d, raw) → w.tree.lookup d raw ≠ some i) ∧
    (∃ code message, out = .ok (failure path code message)) ∧ w.dirs = [] ∧ w.fds = []

/-- An `OSError`. -/
def IsOsError : FileError → Prop
  | .os _ _ => True
  | .unicodeEncode => False

/-- A step from which the clean-up can go on, once a file has been made: `fstat` and the closing of
a descriptor do not fail; what else fails is an `OSError`, and the `stat` and the `unlink` of the
clean-up fail only when the file is not under its name; what is unlinked is that file; and it is not
put back under its name before the folder is closed. -/
def Harmless : StepProperty := fun w t c r =>
  ∀ own, w.own = some own →
    match c, r with
    | .fstat _, .error _ | .close _, .error _ => False
    | .fdopen _, .error e | .write _ _, .error e | .closeFile _, .error e => IsOsError e
    | .stat _ _, .error e | .unlink _ _, .error e =>
      IsOsError e ∧ ∀ d raw, w.place = some (d, raw) → t.lookup d raw ≠ some own
    | .unlink name descriptor, .ok _ =>
      ∀ raw i, fsencode name = some raw → t.lookup descriptor raw = some i → i = own
    | .close descriptor, .ok _ =>
      ∀ raw, w.place = some (descriptor, raw) → w.tree.lookup descriptor raw ≠ some own →
        t.lookup descriptor raw ≠ some own
    | _, _ => True

/-! ## One call -/

/-- The calls that neither write nor take away. -/
def IsGentle : FileCmd → Prop
  | .write _ _ | .closeFile _ | .unlink _ _ | .createFile _ _ => False
  | _ => True

theorem keeps_refl (t : Tree) (own : Option Ino) : Keeps ⟨t, t, own⟩ :=
  ⟨fun _ _ _ h _ => h, fun _ _ h _ => h⟩

/-- A new file takes the place of nothing. -/
theorem keeps_create {t : Tree} {d i : Ino} {raw : Bytes} {n : Node} {own : Option Ino}
    (hdir : t.isDir d = true) (hnone : t.lookup d raw = none) (hi : t.node i = none)
    (hn : ∀ name, n.entry name = none) : Keeps ⟨t, t.create d raw i n, own⟩ where
  entries x name j h _ := by
    show (t.create d raw i n).lookup x name = some j
    rw [Tree.lookup_create hdir hi hn, if_neg, h]
    rintro ⟨rfl, rfl⟩
    rw [hnone] at h
    cases h
  files x content h _ := Tree.node_create_file hi h

/-- Writing to the new file changes nothing else. -/
theorem keeps_setNode {t : Tree} {fd : Ino} {old new : Bytes}
    (hfd : t.node fd = some (.file old)) : Keeps ⟨t, t.setNode fd (.file new), some fd⟩ where
  entries d raw i h _ := by
    show (t.setNode fd (.file new)).lookup d raw = some i
    rw [Tree.lookup_setNode, if_neg, h]
    rintro rfl
    rw [Tree.lookup, hfd] at h
    cases h
  files i content h hown := by
    show (t.setNode fd (.file new)).node i = _
    rw [Tree.node_setNode, if_neg, h]
    rintro rfl
    exact hown rfl

/-- Unlinking the new file takes nothing else away. -/
theorem keeps_unlink {t : Tree} {d own : Ino} {raw : Bytes}
    (hown : ∀ i, t.lookup d raw = some i → i = own) :
    Keeps ⟨t, t.setEntry d raw none, some own⟩ where
  entries x name i h hne := by
    show (t.setEntry d raw none).lookup x name = some i
    by_cases hdir : t.isDir d = true
    · rw [Tree.lookup_setEntry hdir, if_neg, h]
      rintro ⟨rfl, rfl⟩
      exact hne (congrArg some (hown i h).symm)
    · rw [Tree.setEntry]
      split
      · rename_i entries hnode
        simp [Tree.isDir, hnode, Node.isDir] at hdir
      · exact h
  files i content h _ := Tree.node_setEntry_file h

/-- A call that fails changes nothing, unless it was to write. -/
theorem DoesNumbered.eq_of_error {number : Ino → ℕ} {w w' : FileWorld} {c : FileCmd}
    {e : FileError} (h : DoesNumbered number w c (.error e) w')
    (hc : ∀ fd text, c ≠ .write fd text ∧ c ≠ .closeFile fd) : w' = w := by
  cases c with
  | write fd text => exact absurd rfl (hc fd text).1
  | closeFile fd => exact absurd rfl (hc fd []).2
  | stat | unlink =>
    cases e with
    | unicodeEncode => exact h
    | os errno text =>
      cases errno with
      | enoent => exact h.2
      | eexist | eloop | enotdir | other => exact h
  | openPath | openDir | mkdir | createFile | fstat | fdopen | close => exact h

theorem DoesNumbered.gentle {number : Ino → ℕ} {w w' : FileWorld} {c : FileCmd}
    {r : Except FileError c.Ans} (h : DoesNumbered number w c r w') (hc : IsGentle c) :
    Keeps ⟨w.tree, w'.tree, w.own⟩ ∧ w'.own = w.own ∧ w'.calls = w.calls := by
  cases r with
  | error e =>
    obtain rfl := h.eq_of_error fun fd text => ⟨fun he => by subst he; exact hc,
      fun he => by subst he; exact hc⟩
    exact ⟨keeps_refl _ _, rfl, rfl⟩
  | ok a =>
    cases c with
    | write | closeFile | unlink | createFile => exact hc.elim
    | openPath path =>
      obtain ⟨-, -, rfl⟩ := h
      exact ⟨keeps_refl _ _, rfl, rfl⟩
    | openDir name descriptor =>
      obtain ⟨raw, -, -, -, rfl⟩ := h
      exact ⟨keeps_refl _ _, rfl, rfl⟩
    | mkdir name descriptor =>
      obtain ⟨raw, i, -, hdir, hnone, hi, rfl⟩ := h
      exact ⟨keeps_create hdir hnone hi fun _ => rfl, rfl, rfl⟩
    | stat =>
      obtain ⟨-, rfl⟩ := h
      exact ⟨keeps_refl _ _, rfl, rfl⟩
    | fstat =>
      obtain ⟨-, -, rfl⟩ := h
      exact ⟨keeps_refl _ _, rfl, rfl⟩
    | fdopen =>
      obtain rfl : w' = _ := h
      exact ⟨keeps_refl _ _, rfl, rfl⟩
    | close =>
      obtain rfl : w' = _ := h
      exact ⟨keeps_refl _ _, rfl, rfl⟩

/-- Every call so far has kept what it did not make. -/
def AllKept (w : LeafWorld) : Prop := ∀ call ∈ w.calls, Keeps call

section

variable {number : Ino → ℕ} {allowed : StepProperty} {w w' : LeafWorld}

theorem allKept_append {calls : List FileCall} {call : FileCall} (h : ∀ c ∈ calls, Keeps c)
    (hcall : Keeps call) : ∀ c ∈ calls ++ [call], Keeps c := by
  intro c hc
  rcases List.mem_append.mp hc with hc | hc
  · exact h c hc
  · exact List.mem_singleton.mp hc ▸ hcall

/-- A gentle call keeps everything, and the new file is the same. -/
theorem leafHandle_gentle {c : FileCmd} {r : Except FileError c.Ans}
    (h : leafHandle number allowed w c r w') (hc : IsGentle c) (hw : AllKept w) :
    AllKept w' ∧ w'.own = w.own := by
  obtain ⟨t, w₁, -, -, hdoes, rfl⟩ := h
  obtain ⟨hkeeps, hown, hcalls⟩ := hdoes.gentle hc
  exact ⟨allKept_append (hcalls ▸ hw) hkeeps, hown⟩

/-! ## Before the file is made -/

/-- No file has been made, whatever is open. -/
structure Idle (w : LeafWorld) : Prop where
  own : w.own = none
  kept : AllKept w

/-- The walk holds one directory open. -/
structure Walking (d : Ino) (w : LeafWorld) : Prop extends Idle w where
  dirs : w.dirs = [d]
  fds : w.fds = []

theorem Idle.gentle (hw : Idle w) {c : FileCmd} {r : Except FileError c.Ans}
    (h : leafHandle number allowed w c r w') (hc : IsGentle c) : Idle w' := by
  obtain ⟨hkept, hown⟩ := leafHandle_gentle h hc hw.kept
  exact ⟨hown.trans hw.own, hkept⟩

theorem triple_idle {c : FileCmd} (hc : IsGentle c) :
    Triple (leafHandle number allowed) Idle (sys c) fun _ => Idle :=
  triple_perform fun _ _ _ hw h => hw.gentle h hc

/-- Making a directory opens none. -/
theorem triple_walking_mkdir (d : Ino) (name : Str) :
    Triple (leafHandle number allowed) (Walking d) (sys (.mkdir name d)) fun _ => Walking d := by
  refine triple_perform fun w r w' hw h => ⟨hw.toIdle.gentle h trivial, ?_, ?_⟩
  · obtain ⟨t, w₁, -, -, hdoes, rfl⟩ := h
    cases r with
    | error e =>
      obtain rfl := hdoes.eq_of_error fun _ _ => ⟨nofun, nofun⟩
      exact hw.dirs
    | ok u =>
      obtain ⟨raw, i, -, -, -, -, rfl⟩ := hdoes
      exact hw.dirs
  · obtain ⟨t, w₁, -, -, -, rfl⟩ := h
    cases r <;> exact hw.fds

/-- Opening the next directory and closing the one before. -/
theorem triple_walking_openDir (d : Ino) (name : Str) :
    Triple (leafHandle number allowed) (Walking d) (sys (.openDir name d)) fun out w =>
      Idle w ∧ w.fds = [] ∧
        match out with
        | .ok child => w.dirs = [child, d]
        | .error _ => w.dirs = [d] := by
  refine triple_perform fun w r w' hw h => ⟨hw.toIdle.gentle h trivial, ?_, ?_⟩
  · obtain ⟨t, w₁, -, -, -, rfl⟩ := h
    cases r <;> exact hw.fds
  · obtain ⟨t, w₁, -, -, hdoes, rfl⟩ := h
    cases r with
    | error e =>
      obtain rfl := hdoes.eq_of_error fun _ _ => ⟨nofun, nofun⟩
      exact hw.dirs
    | ok child =>
      obtain ⟨raw, -, -, -, rfl⟩ := hdoes
      exact congrArg (child :: ·) hw.dirs

/-- Closing the directory the walk came from. -/
theorem triple_walking_close (d child : Ino) :
    Triple (leafHandle number allowed) (fun w => Idle w ∧ w.fds = [] ∧ w.dirs = [child, d])
      (sys (.close d)) fun out w => Idle w ∧ (out = .ok () → Walking child w) := by
  refine triple_perform fun w r w' hw h => ⟨hw.1.gentle h trivial, ?_⟩
  rintro rfl
  refine ⟨hw.1.gentle h trivial, ?_, ?_⟩
  · obtain ⟨t, w₁, -, -, rfl, rfl⟩ := h
    show w.dirs.erase d = [child]
    rw [hw.2.2]
    by_cases he : child = d
    · simp [he]
    · simp [he]
  · obtain ⟨t, w₁, -, -, -, rfl⟩ := h
    show w.fds.erase d = []
    rw [hw.2.1, List.erase_nil]

theorem triple_idle_classify (descriptor : Ino) (name : Str) (gone link other : Dict) :
    Triple (leafHandle number allowed) Idle (classify descriptor name gone link other)
      fun _ => Idle := by
  refine (triple_idle (c := .stat name descriptor) trivial).bind_attempt fun out => ?_
  split
  · exact triple_ret fun _ hw => hw
  · exact triple_raise fun _ hw => hw
  · split_ifs
    · exact triple_ret fun _ hw => hw
    · exact triple_ret fun _ hw => hw

theorem triple_walking_mkdirParent (parents : Bool) (d : Ino) (part : Str) :
    Triple (leafHandle number allowed) (Walking d) (mkdirParent parents d part)
      fun _ => Walking d := by
  rw [mkdirParent]
  split_ifs
  · refine (triple_walking_mkdir d part).bind_attempt fun out => ?_
    split
    · exact triple_ret fun _ hw => hw
    · exact triple_ofExcept fun _ hw => hw
  · exact triple_ret fun _ hw => hw

/-- The walk holds the next directory open, or nothing has been made. -/
theorem triple_walking_enterPart [Runtime] (parents : Bool) (path : Str) (d : Ino) (part : Str) :
    Triple (leafHandle number allowed) (Walking d) (enterPart parents path d part) fun out w =>
      match out with
      | .ok (.inr child) => Walking child w
      | _ => Idle w := by
  refine (triple_walking_mkdirParent parents d part).bind (fun u => ?_) fun e w hw => hw.toIdle
  refine (triple_walking_openDir d part).bind_attempt fun out => ?_
  cases out with
  | ok child =>
    refine (Triple.bind (p := sys (.close d)) ((triple_walking_close d child).mono
      (fun w hw => hw) fun _ _ h => h) (fun u => ?_) fun e w hw => hw.1)
    exact triple_ret fun w hw => hw.2 rfl
  | error e =>
    cases e with
    | unicodeEncode => exact triple_raise fun w hw => hw.1
    | os errno text =>
      show Triple _ _ (if _ then _ else _) _
      split_ifs
      · refine ((triple_idle_classify d part _ _ _).mono (fun w hw => hw.1) fun _ _ h => h).bind
          (fun returned => ?_) fun e w hw => hw
        exact triple_ret fun w hw => hw
      · exact triple_raise fun w hw => hw.1

end

/-! ## Once the file is made -/

/-- The file `i` was made as the leaf of the folder `d`, which is the only one open. -/
structure Holding (leaf : Str) (d i : Ino) (raw : Bytes) (fds : List Ino) (w : LeafWorld) :
    Prop where
  own : w.own = some i
  name : fsencode leaf = some raw
  place : w.place = some (d, raw)
  dirs : w.dirs = [d]
  fds : w.fds = fds
  ne : i ≠ d
  content : ∃ content, w.tree.node i = some (.file content)
  kept : AllKept w

section

variable {number : Ino → ℕ} {leaf : Str} {d i : Ino} {raw : Bytes} {fds : List Ino}
  {w w' : LeafWorld}

/-- The world after a call that leaves the new file a file. -/
theorem Holding.next (hw : Holding leaf d i raw fds w) {t : Tree} {buffer : Bytes}
    {call : FileCall} {fds₁ fds' : List Ino} (hfds : fds₁ = fds')
    (hnode : ∃ content, t.node i = some (.file content)) (hcall : Keeps call) :
    Holding leaf d i raw fds'
      { toFileWorld := { w.toFileWorld with tree := t, buffer, calls := w.calls ++ [call] }
        fds := fds₁
        place := w.place } where
  own := hw.own
  name := hw.name
  place := hw.place
  dirs := hw.dirs
  fds := hfds
  ne := hw.ne
  content := hnode
  kept := allKept_append hw.kept hcall

/-- Others leave the new file a file. -/
theorem Holding.content_of_interferes (hw : Holding leaf d i raw fds w) {t : Tree}
    (h : Interferes w.toFileWorld t) : ∃ content, t.node i = some (.file content) := by
  obtain ⟨content, hnode⟩ := hw.content
  exact ⟨content, (h.own i hw.own).trans hnode⟩

/-- Making the file. -/
theorem triple_createFile (d : Ino) (leaf : Str) :
    Triple (leafHandle number Harmless) (Walking d) (sys (.createFile leaf d)) fun out w =>
      match out with
      | .ok i => ∃ raw, Holding leaf d i raw [i] w
      | .error _ => Idle w := by
  refine triple_perform fun w r w' hw h => ?_
  obtain ⟨t, w₁, -, -, hdoes, rfl⟩ := h
  cases r with
  | error e =>
    obtain rfl := hdoes.eq_of_error fun _ _ => ⟨nofun, nofun⟩
    exact ⟨hw.own, allKept_append hw.kept (keeps_refl _ _)⟩
  | ok i =>
    obtain ⟨raw, hraw, hdir, hnone, hi, rfl⟩ := hdoes
    have hne : i ≠ d := by
      intro he
      rw [← he, Tree.isDir, hi] at hdir
      cases hdir
    refine ⟨raw, rfl, hraw, ?_, hw.dirs, ?_, hne, ⟨[], Tree.node_create⟩,
      allKept_append hw.kept (keeps_create hdir hnone hi fun _ => rfl)⟩
    · show (fsencode leaf).map (fun raw => (d, raw)) = some (d, raw)
      rw [hraw, Option.map_some]
    · show i :: w.fds = [i]
      rw [hw.fds]

theorem triple_fstat (i : Ino) :
    Triple (leafHandle number Harmless) (Holding leaf d i raw [i]) (sys (.fstat i)) fun out w =>
      Holding leaf d i raw [i] w ∧ ∃ info : StatResult, out = .ok info ∧ info.ino = number i := by
  refine triple_perform fun w r w' hw h => ?_
  obtain ⟨t, w₁, hinterferes, hharmless, hdoes, rfl⟩ := h
  cases r with
  | error e => exact (hharmless i hw.own).elim
  | ok info =>
    obtain ⟨hino, -, rfl⟩ := hdoes
    exact ⟨hw.next hw.fds (hw.content_of_interferes hinterferes) (keeps_refl t w.own), info, rfl, hino⟩

theorem triple_fdopen (i : Ino) :
    Triple (leafHandle number Harmless) (Holding leaf d i raw [i]) (sys (.fdopen i)) fun out w =>
      Holding leaf d i raw [i] w ∧ ∀ e, out = .error e → IsOsError e := by
  refine triple_perform fun w r w' hw h => ?_
  obtain ⟨t, w₁, hinterferes, hharmless, hdoes, rfl⟩ := h
  have hcontent := hw.content_of_interferes hinterferes
  cases r with
  | error e =>
    obtain rfl : w₁ = _ := hdoes
    refine ⟨hw.next hw.fds hcontent (keeps_refl t w.own), fun e' he => ?_⟩
    cases he
    exact hharmless i hw.own
  | ok u =>
    obtain rfl : w₁ = _ := hdoes
    exact ⟨hw.next hw.fds hcontent (keeps_refl t w.own), nofun⟩

/-- Writing to the file, or closing the file object. -/
theorem triple_writing {c : FileCmd} (fds' : List Ino)
    (hc : (∃ text, c = .write i text) ∧ fds' = [i] ∨ c = .closeFile i ∧ fds' = []) :
    Triple (leafHandle number Harmless) (Holding leaf d i raw [i]) (sys c) fun out w =>
      Holding leaf d i raw fds' w ∧ ∀ e, out = .error e → IsOsError e := by
  refine triple_perform fun w r w' hw h => ?_
  obtain ⟨t, w₁, hinterferes, hharmless, hdoes, rfl⟩ := h
  have hkeeps : ∀ {old new : Bytes}, t.node i = some (.file old) →
      Keeps ⟨t, t.setNode i (.file new), w.own⟩ := fun hnode => hw.own ▸ keeps_setNode hnode
  have hfile : ∀ new : Bytes, ∃ content, (t.setNode i (.file new)).node i = some (.file content) :=
    fun new => ⟨new, by rw [Tree.node_setNode, if_pos rfl]⟩
  rcases hc with ⟨⟨text, rfl⟩, rfl⟩ | ⟨rfl, rfl⟩
  · cases r with
    | error e =>
      obtain ⟨content, flushed, kept, hnode, -, rfl⟩ := hdoes
      refine ⟨hw.next hw.fds (hfile _) (hkeeps hnode), fun e' he => ?_⟩
      cases he
      exact hharmless i hw.own
    | ok u =>
      obtain ⟨content, bytes, flushed, kept, hnode, -, -, rfl⟩ := hdoes
      exact ⟨hw.next hw.fds (hfile _) (hkeeps hnode), nofun⟩
  · have hfds : w.fds.erase i = [] := by
      rw [hw.fds]
      simp
    cases r with
    | error e =>
      obtain ⟨content, flushed, kept, hnode, -, rfl⟩ := hdoes
      refine ⟨hw.next hfds (hfile _) (hkeeps hnode), fun e' he => ?_⟩
      cases he
      exact hharmless i hw.own
    | ok u =>
      obtain ⟨content, hnode, rfl⟩ := hdoes
      exact ⟨hw.next hfds (hfile _) (hkeeps hnode), nofun⟩

theorem triple_holding_writeText (text : Str) :
    Triple (leafHandle number Harmless) (Holding leaf d i raw [i]) (writeText i text)
      fun out w => Holding leaf d i raw [] w ∧ ∀ e, out = .error e → IsOsError e := by
  refine (triple_writing [i] (.inl ⟨⟨text, rfl⟩, rfl⟩)).bind_attempt fun written => ?_
  refine Triple.bind (p := sys (.closeFile i)) (Q := fun closed w => Holding leaf d i raw [] w ∧
    (∀ e, closed = .error e → IsOsError e) ∧ ∀ e, written = .error e → IsOsError e) ?_
    (fun u => triple_ofExcept fun w hw => ⟨hw.1, hw.2.2⟩) fun e w hw => ⟨hw.1, hw.2.1⟩
  intro w out w' hw hends
  obtain ⟨hholding, hclosed⟩ := triple_writing [] (.inr ⟨rfl, rfl⟩) w out w' hw.1 hends
  exact ⟨hholding, hclosed, hw.2⟩

/-- Closing the descriptor that no file object has taken over. -/
theorem triple_holding_close (i : Ino) :
    Triple (leafHandle number Harmless) (Holding leaf d i raw [i]) (sys (.close i)) fun out w =>
      out = .ok () ∧ Holding leaf d i raw [] w := by
  refine triple_perform fun w r w' hw h => ?_
  obtain ⟨t, w₁, hinterferes, hharmless, hdoes, rfl⟩ := h
  cases r with
  | error e => exact (hharmless i hw.own).elim
  | ok u =>
    obtain rfl : w₁ = _ := hdoes
    have hdirs : w.dirs.erase i = [d] := by
      rw [hw.dirs, List.erase_of_not_mem]
      simpa using hw.ne
    have hfds : w.fds.erase i = [] := by
      rw [hw.fds]
      simp
    exact ⟨rfl, hw.own, hw.name, hw.place, hdirs, hfds, hw.ne,
      hw.content_of_interferes hinterferes, allKept_append hw.kept (keeps_refl t w.own)⟩

/-! ## Taking the file away -/

/-- The file is gone from its name. -/
structure Gone (leaf : Str) (d i : Ino) (raw : Bytes) (w : LeafWorld) : Prop extends
    Holding leaf d i raw [] w where
  gone : w.tree.lookup d raw ≠ some i

/-- The `stat` of the clean-up: another file is under the name, or the numbers are equal. -/
theorem triple_holding_stat :
    Triple (leafHandle number Harmless) (Holding leaf d i raw []) (sys (.stat leaf d)) fun out w =>
      Holding leaf d i raw [] w ∧
        match out with
        | .ok info => info.ino ≠ number i → w.tree.lookup d raw ≠ some i
        | .error e => IsOsError e ∧ w.tree.lookup d raw ≠ some i := by
  refine triple_perform fun w r w' hw h => ?_
  obtain ⟨t, w₁, hinterferes, hharmless, hdoes, rfl⟩ := h
  have hcontent := hw.content_of_interferes hinterferes
  cases r with
  | error e =>
    obtain ⟨hos, hgone⟩ := hharmless i hw.own
    obtain rfl := hdoes.eq_of_error fun _ _ => ⟨nofun, nofun⟩
    exact ⟨hw.next hw.fds hcontent (keeps_refl t w.own), hos, hgone d raw hw.place⟩
  | ok info =>
    obtain ⟨⟨raw', j, hraw, hlookup, hino, -⟩, rfl⟩ := hdoes
    obtain rfl := Option.some.inj (hw.name.symm.trans hraw)
    refine ⟨hw.next hw.fds hcontent (keeps_refl t w.own), fun hne hsame => hne ?_⟩
    rw [hino, Option.some.inj (hlookup.symm.trans hsame)]

theorem lookup_setEntry_self (t : Tree) (d : Ino) (raw : Bytes) :
    (t.setEntry d raw none).lookup d raw = none := by
  by_cases hdir : t.isDir d = true
  · rw [Tree.lookup_setEntry hdir, if_pos ⟨rfl, rfl⟩]
  · cases hlookup : (t.setEntry d raw none).lookup d raw with
    | none => rfl
    | some i => exact absurd (isDir_of_lookup (Tree.lookup_of_lookup_setEntry_none hlookup)) hdir

theorem triple_holding_unlink :
    Triple (leafHandle number Harmless) (Holding leaf d i raw []) (sys (.unlink leaf d))
      fun out w => Gone leaf d i raw w ∧ ∀ e, out = .error e → IsOsError e := by
  refine triple_perform fun w r w' hw h => ?_
  obtain ⟨t, w₁, hinterferes, hharmless, hdoes, rfl⟩ := h
  have hcontent := hw.content_of_interferes hinterferes
  cases r with
  | error e =>
    obtain ⟨hos, hgone⟩ := hharmless i hw.own
    obtain rfl := hdoes.eq_of_error fun _ _ => ⟨nofun, nofun⟩
    refine ⟨⟨hw.next hw.fds hcontent (keeps_refl t w.own), hgone d raw hw.place⟩, fun e' he => ?_⟩
    cases he
    exact hos
  | ok u =>
    obtain ⟨raw', hraw, rfl⟩ := hdoes
    obtain rfl := Option.some.inj (hw.name.symm.trans hraw)
    obtain ⟨content, hnode⟩ := hcontent
    have hkeeps : Keeps ⟨t, t.setEntry d raw none, w.own⟩ :=
      hw.own ▸ keeps_unlink fun j hj => hharmless i hw.own raw j hraw hj
    refine ⟨⟨hw.next hw.fds ⟨content, Tree.node_setEntry_file hnode⟩ hkeeps, ?_⟩, nofun⟩
    show (t.setEntry d raw none).lookup d raw ≠ some i
    rw [lookup_setEntry_self]
    exact nofun

theorem triple_holding_removeCreated :
    Triple (leafHandle number Harmless) (Holding leaf d i raw [])
      (removeCreated (number i) d leaf) fun out w =>
        Gone leaf d i raw w ∧ ∀ e, out = .error e → IsOsError e := by
  refine Triple.bind_attempt (Q := fun out w =>
    Gone leaf d i raw w ∧ ∀ e, out = .error e → IsOsError e) ?_ fun out => ?_
  · refine Triple.bind (p := sys (.stat leaf d)) triple_holding_stat (fun info => ?_)
      fun e w hw => ⟨⟨hw.1, hw.2.2⟩, fun e' he => by cases he; exact hw.2.1⟩
    by_cases hino : info.ino = number i
    · rw [if_pos hino]
      exact triple_holding_unlink.mono (fun w hw => hw.1) fun _ _ h => h
    · rw [if_neg hino]
      exact triple_ret fun w hw => ⟨⟨hw.1, hw.2 hino⟩, nofun⟩
  · split
    · exact triple_ret fun w hw => ⟨hw.1, nofun⟩
    · exact triple_ofExcept fun w hw => hw

/-! ## The whole call -/

/-- How the leaf may end: without a file, with the file and a success, or with the file gone and an
`OSError`. -/
def LeafEnds (path : Str) (d : Ino) (out : Except FileError Dict) (w : LeafWorld) : Prop :=
  Idle w ∨ ∃ leaf i raw, Holding leaf d i raw [] w ∧
    (out = .ok (success path true) ∨
      w.tree.lookup d raw ≠ some i ∧ ∃ errno text, out = .error (.os errno text))

/-- The failure that made `_create` take the file away is raised again. -/
theorem triple_gone_raise {path : Str} {e : FileError} (he : IsOsError e) :
    Triple (leafHandle number Harmless) (Holding leaf d i raw [])
      (Prog.bind (removeCreated (number i) d leaf) fun _ => (raise e : FileProg Dict))
      (LeafEnds path d) := by
  have hends : ∀ {e : FileError} {w : LeafWorld}, IsOsError e → Gone leaf d i raw w →
      LeafEnds path d (.error e) w := by
    intro e w he hw
    cases e with
    | unicodeEncode => exact he.elim
    | os errno text => exact .inr ⟨leaf, i, raw, hw.toHolding, .inr ⟨hw.gone, errno, text, rfl⟩⟩
  refine triple_holding_removeCreated.bind (fun u => ?_) fun e' w hw => hends (hw.2 e' rfl) hw.1
  exact triple_raise fun w hw => hends he hw.1

theorem triple_leaf_createSupportingFile (path : Str) (d : Ino) (leaf content : Str) :
    Triple (leafHandle number Harmless) (Walking d) (createSupportingFile path d leaf content)
      (LeafEnds path d) := by
  refine (triple_createFile d leaf).bind_attempt fun out => ?_
  cases out with
  | error e =>
    have hraise : Triple (leafHandle number Harmless) Idle (raise e : FileProg Dict)
        (LeafEnds path d) := triple_raise fun w hw => .inl hw
    cases e with
    | unicodeEncode => exact hraise
    | os errno text =>
      cases errno with
      | eexist =>
        exact (triple_idle_classify d leaf _ _ _).mono (fun _ hw => hw) fun _ _ hw => .inl hw
      | enoent | eloop | enotdir | other => exact hraise
  | ok i =>
    -- the bytes of the name do not matter from here on
    intro w out w' hw hends
    obtain ⟨raw, hw⟩ := hw
    revert hends
    refine fun hends => Triple.bind (p := sys (.fstat i)) (triple_fstat i) (fun info => ?_)
      (fun e w hw => ?_) w out w' hw hends
    · intro w out w' ⟨hw, info', hinfo, hino⟩ hends
      obtain rfl := Except.ok.inj hinfo
      rw [hino] at hends
      refine (triple_fdopen i).bind_attempt (fun opened => ?_) w out w' hw hends
      cases opened with
      | error e =>
        refine Triple.bind (p := sys (.close i)) (Q := fun out w =>
          (out = .ok () ∧ Holding leaf d i raw [] w) ∧ IsOsError e) ?_ (fun u => ?_)
          fun e' w hw => nomatch hw.1.1
        · intro w out w' hw hends
          exact ⟨triple_holding_close i w out w' hw.1 hends, hw.2 e rfl⟩
        · intro w out w' hw hends
          exact triple_gone_raise hw.2 w out w' hw.1.2 hends
      | ok u =>
        refine ((triple_holding_writeText content).mono (fun w hw => hw.1)
          fun _ _ h => h).bind_attempt fun written => ?_
        cases written with
        | error e =>
          intro w out w' hw hends
          exact triple_gone_raise (hw.2 e rfl) w out w' hw.1 hends
        | ok u => exact triple_ret fun w hw => .inr ⟨leaf, i, raw, hw.1, .inl rfl⟩
    · obtain ⟨-, info, hinfo, -⟩ := hw
      cases hinfo

/-- Closing the folder, and reporting what was caught. -/
theorem triple_cleansUp_finish (path : Str) (d : Ino) (out : Except FileError Dict) :
    Triple (leafHandle number Harmless) (LeafEnds path d out) (finish path d out)
      (CleansUp path) := by
  refine Triple.bind (p := sys (.close d)) (Q := fun closed w => Idle w ∨
    closed = .ok () ∧ AllKept w ∧ w.dirs = [] ∧ w.fds = [] ∧
      (out = .ok (success path true) ∨
        (∀ d raw i, w.place = some (d, raw) → w.own = some i → w.tree.lookup d raw ≠ some i) ∧
          ∃ errno text, out = .error (.os errno text))) ?_ (fun u => ?_) fun e w hw => ?_
  · refine triple_perform fun w r w' hw h => ?_
    rcases hw with hw | ⟨leaf, i, raw, hw, hends⟩
    · exact .inl (hw.gentle h trivial)
    · obtain ⟨t, w₁, hinterferes, hharmless, hdoes, rfl⟩ := h
      cases r with
      | error e => exact (hharmless i hw.own).elim
      | ok u =>
        obtain rfl : w₁ = _ := hdoes
        refine .inr ⟨rfl, allKept_append hw.kept (keeps_refl _ _), ?_, ?_, hends.imp_right ?_⟩
        · show w.dirs.erase d = []
          rw [hw.dirs]
          simp
        · show w.fds.erase d = []
          rw [hw.fds, List.erase_nil]
        · intro ⟨hgone, hout⟩
          refine ⟨fun d' raw' i' hplace hown => ?_, hout⟩
          -- nobody has put the file back
          obtain ⟨rfl, rfl⟩ := Prod.mk.inj (Option.some.inj (hw.place.symm.trans hplace))
          obtain rfl := Option.some.inj (hw.own.symm.trans hown)
          exact hharmless i hw.own raw hw.place hgone
  · refine triple_ofExcept fun w hw => ?_
    rcases hw with hw | ⟨-, hkept, hdirs, hfds, hends⟩
    · exact ⟨hw.kept, fun i hi => by rw [hw.own] at hi; cases hi⟩
    · refine ⟨hkept, fun i hi hne => ?_⟩
      rcases hends with rfl | ⟨hgone, errno, text, rfl⟩
      · exact absurd rfl hne
      · refine ⟨fun d raw hplace => hgone d raw i hplace hi, ?_, hdirs, hfds⟩
        rw [caught]
        split_ifs
        · exact ⟨_, _, rfl⟩
        · exact ⟨_, _, rfl⟩
  · rcases hw with hw | ⟨he, -⟩
    · exact ⟨hw.kept, fun i hi => by rw [hw.own] at hi; cases hi⟩
    · cases he

theorem triple_cleansUp_walk [Runtime] (parents : Bool) (path content leaf : Str) (d : Ino)
    (parts : List Str) :
    Triple (leafHandle number Harmless) (Walking d) (walk parents path (some content) leaf d parts)
      (CleansUp path) := by
  induction parts generalizing d with
  | nil =>
    refine Triple.bind_attempt (triple_leaf_createSupportingFile path d leaf content) fun out => ?_
    exact triple_cleansUp_finish path d out
  | cons part parts ih =>
    have hidle : ∀ out, Triple (leafHandle number Harmless) Idle (finish path d out)
        (CleansUp path) := fun out =>
      (triple_cleansUp_finish path d out).mono (fun w hw => .inl hw) fun _ _ h => h
    refine (triple_walking_enterPart parents path d part).bind_attempt fun out => ?_
    cases out with
    | error e => exact hidle _
    | ok entered =>
      cases entered with
      | inl returned => exact hidle _
      | inr child => exact ih child

end

/-- Nothing is open before the root. -/
structure Fresh (w : LeafWorld) : Prop extends Idle w where
  dirs : w.dirs = []
  fds : w.fds = []

theorem triple_fresh_openPath {number : Ino → ℕ} (root : Str) :
    Triple (leafHandle number Harmless) Fresh (sys (.openPath root)) fun out w =>
      match out with
      | .ok d => Walking d w
      | .error _ => Idle w := by
  refine triple_perform fun w r w' hw h => ?_
  have hidle := hw.toIdle.gentle h trivial
  cases r with
  | error e => exact hidle
  | ok d =>
    refine ⟨hidle, ?_, ?_⟩
    · obtain ⟨t, w₁, -, -, ⟨-, -, rfl⟩, rfl⟩ := h
      exact congrArg (d :: ·) hw.dirs
    · obtain ⟨t, w₁, -, -, -, rfl⟩ := h
      exact hw.fds

theorem triple_cleansUp_create [Runtime] {number : Ino → ℕ} (root path content : Str)
    (parents : Bool) :
    Triple (leafHandle number Harmless) Fresh (create root path parents (some content))
      (CleansUp path) := by
  have hidle : ∀ {out w}, Idle w → CleansUp path out w := fun hw =>
    ⟨hw.kept, fun i hi => by rw [hw.own] at hi; cases hi⟩
  have hreport : ∀ {p q : FileProg Dict} (c : Prop) [Decidable c],
      Triple (leafHandle number Harmless) Idle p (CleansUp path) →
      Triple (leafHandle number Harmless) Idle q (CleansUp path) →
      Triple (leafHandle number Harmless) Idle (if c then p else q) (CleansUp path) := by
    intro p q c _ hp hq
    split_ifs
    · exact hp
    · exact hq
  rw [create]
  split_ifs
  · exact triple_ret fun w hw => hidle hw.toIdle
  · exact triple_ret fun w hw => hidle hw.toIdle
  · refine (triple_fresh_openPath root).bind_attempt fun out => ?_
    cases out with
    | ok d => exact triple_cleansUp_walk parents path content _ d _
    | error e =>
      cases e with
      | unicodeEncode => exact triple_raise fun w hw => hidle hw
      | os errno text =>
        cases errno with
        | enoent => exact triple_ret fun w hw => hidle hw
        | eexist | eloop | enotdir | other =>
          exact hreport _ (triple_ret fun w hw => hidle hw) (triple_ofExcept fun w hw => hidle hw)

/-- In a run with no harmful step, a file that was made is there when a success is returned, and
otherwise it is taken away again, and nothing else is. -/
theorem create_cleansUp [Runtime] {number : Ino → ℕ} {tree : Tree} {root path content : Str}
    {parents : Bool} {out : Except FileError Dict} {w : LeafWorld}
    (h : Ends (leafHandle number Harmless) (LeafWorld.start tree)
      (create root path parents (some content)) out w) : CleansUp path out w :=
  triple_cleansUp_create root path content parents _ out w
    ⟨⟨rfl, fun _ h => (List.not_mem_nil h).elim⟩, rfl, rfl⟩ h

/-! ## Two runs -/

/-- What a run alone depends on. -/
structure Snapshot (tree : Tree) (dirs : List Ino) (own : Option Ino) (fds : List Ino)
    (place : Option (Ino × Bytes)) (w : LeafWorld) : Prop where
  tree : w.tree = tree
  dirs : w.dirs = dirs
  own : w.own = own
  fds : w.fds = fds
  place : w.place = place

/-- A call while nobody else does anything. -/
theorem Snapshot.call {α : Type} {allowed : StepProperty} {tree tree' : Tree} {dirs dirs' : List Ino}
    {own own' : Option Ino} {fds : List Ino} {place : Option (Ino × Bytes)} {w : LeafWorld}
    {c : FileCmd} {r : Except FileError c.Ans} {k : Except FileError c.Ans → FileProg α}
    {out : Except FileError α} {P : LeafWorld → Prop} (hw : Snapshot tree dirs own fds place w)
    (hflat : ∀ a b, ¬ tree.Edge a b) (hdirs : ∀ d ∈ dirs, tree.isDir d = true)
    (hallowed : allowed w w.tree c r)
    (hdoes : ∃ w₁, DoesNumbered id w.toFileWorld c r w₁ ∧
      w₁.tree = tree' ∧ w₁.dirs = dirs' ∧ w₁.own = own')
    (hk : ∀ w₂, Snapshot tree' dirs' own' (nextFds c r fds) (nextPlace c r place) w₂ →
      ∃ w', Ends (leafHandle id allowed) w₂ (k r) out w' ∧ P w') :
    ∃ w', Ends (leafHandle id allowed) w (.call c k) out w' ∧ P w' := by
  obtain ⟨rfl, rfl, rfl, rfl, rfl⟩ := hw
  obtain ⟨w₁, hdoes, rfl, rfl, rfl⟩ := hdoes
  have hself := interferes_self (fun a b h => absurd h (hflat a b)) hdirs
  obtain ⟨w', hends, hP⟩ := hk
    { toFileWorld := { w₁ with calls := w₁.calls ++ [⟨w.tree, w₁.tree, w.own⟩] }
      fds := nextFds c r w.fds
      place := nextPlace c r w.place } ⟨rfl, rfl, rfl, rfl, rfl⟩
  exact ⟨w', .call ⟨w.tree, w₁, hself, hallowed, hdoes, rfl⟩ hends, hP⟩

theorem not_edge_emptyRoot (a b : Ino) : ¬ emptyRoot.Edge a b := by
  intro ⟨name, hlookup, _⟩
  by_cases ha : a = 1 <;> simp [Tree.lookup, emptyRoot, ha, Node.entry] at hlookup

/-- The configuration directory with a new file in it. -/
def withFile (raw : Bytes) : Tree := emptyRoot.create 1 raw 2 (.file [])

theorem lookup_withFile {raw name : Bytes} {a b : Ino}
    (h : (withFile raw).lookup a name = some b) : a = 1 ∧ name = raw ∧ b = 2 := by
  rw [withFile, Tree.lookup_create rfl rfl fun _ => rfl] at h
  split_ifs at h with hsame
  · exact ⟨hsame.1, hsame.2, (Option.some.inj h).symm⟩
  · by_cases ha : a = 1 <;> simp [Tree.lookup, emptyRoot, ha, Node.entry] at h

theorem not_edge_withFile {raw : Bytes} (a b : Ino) : ¬ (withFile raw).Edge a b := by
  intro ⟨name, hlookup, hdir⟩
  rw [(lookup_withFile hlookup).2.2, withFile, Tree.isDir, Tree.node_create] at hdir
  cases hdir

theorem isDir_withFile (raw : Bytes) : ∀ d ∈ [1], (withFile raw).isDir d = true := by
  intro d hd
  rw [List.mem_singleton.mp hd]
  exact Tree.isDir_create_of_isDir rfl rfl

theorem snapshot_start : Snapshot emptyRoot [] none [] none (LeafWorld.start emptyRoot) :=
  ⟨rfl, rfl, rfl, rfl, rfl⟩

/-- The root is opened, and a file is made in it, while nobody else does anything. -/
theorem ends_withFile {α : Type} {allowed : StepProperty} {raw : Bytes} {leaf : Str}
    {k k' : Except FileError Ino → FileProg α} {out : Except FileError α} {P : LeafWorld → Prop}
    (hraw : fsencode leaf = some raw) (hallowed : ∀ w t c r, w.own = none → allowed w t c r)
    (hk' : k' (.ok (1 : Ino)) = .call (.createFile leaf 1) k)
    (hk : ∀ w, Snapshot (withFile raw) [1] (some 2) [2] (some (1, raw)) w →
      ∃ w', Ends (leafHandle id allowed) w (k (.ok (2 : Ino))) out w' ∧ P w') :
    ∃ w', Ends (leafHandle id allowed) (LeafWorld.start emptyRoot)
      (.call (.openPath (str "/config/esphome")) k') out w' ∧ P w' := by
  have hroot : ∀ d ∈ [1], emptyRoot.isDir d = true := by simp; rfl
  have hplace : (fsencode leaf).map (fun raw => ((1 : Ino), raw)) = some (1, raw) := by
    rw [hraw, Option.map_some]
  refine snapshot_start.call (r := .ok (1 : Ino)) not_edge_emptyRoot nofun
    (hallowed _ _ _ _ rfl) ⟨_, ⟨rfl, rfl, rfl⟩, rfl, rfl, rfl⟩
    fun w (hw : Snapshot emptyRoot [1] none [] none w) => ?_
  rw [hk']
  refine hw.call (c := .createFile leaf 1) (r := .ok (2 : Ino)) not_edge_emptyRoot hroot
    (hallowed _ _ _ _ hw.own)
    ⟨{ w.toFileWorld with tree := withFile raw, own := some 2 }, ⟨raw, hraw, ?_, ?_, ?_, ?_⟩, rfl,
      hw.dirs, rfl⟩
    fun w (hw : Snapshot (withFile raw) [1] (some 2) [2]
      ((fsencode leaf).map fun raw => ((1 : Ino), raw)) w) =>
        hk w ⟨hw.tree, hw.dirs, hw.own, hw.fds, hw.place.trans hplace⟩
  · rw [hw.tree]; rfl
  · rw [hw.tree]; rfl
  · rw [hw.tree]; rfl
  · rw [hw.tree]; rfl

/-- `fdopen` fails, and the file is taken away. -/
theorem create_cleansUp_fdopen :
    letI := asciiRuntime
    ∃ out w, Ends (leafHandle id Harmless) (LeafWorld.start emptyRoot)
      (create (str "/config/esphome") (str "notes.txt") true (some (str "hi"))) out w ∧
      w.own = some 2 ∧ CleansUp (str "notes.txt") out w := by
  let := asciiRuntime
  obtain ⟨raw, hraw⟩ : ∃ raw, fsencode (str "notes.txt") = some raw := ⟨_, rfl⟩
  have hlookup : (withFile raw).lookup 1 raw = some 2 := by
    rw [withFile, Tree.lookup_create rfl rfl fun _ => rfl, if_pos ⟨rfl, rfl⟩]
  have hrun : ∃ w, Ends (leafHandle id Harmless) (LeafWorld.start emptyRoot)
      (create (str "/config/esphome") (str "notes.txt") true (some (str "hi")))
      (.ok (failure (str "notes.txt") (str "filesystem_error") (str "Cannot allocate memory"))) w ∧
      w.own = some 2 := by
    rw [create, if_neg (by decide +kernel), if_neg (by decide +kernel)]
    refine ends_withFile hraw (fun w t c r hnone own hown => ?_) rfl fun w hw => ?_
    · rw [hnone] at hown
      cases hown
    refine hw.call (r := .ok (⟨false, 2⟩ : StatResult)) not_edge_withFile (isDir_withFile raw)
      (fun _ _ => trivial) ⟨_, ⟨rfl, rfl, rfl⟩, hw.tree, hw.dirs, hw.own⟩
      fun w (hw : Snapshot (withFile raw) [1] (some 2) [2] (some (1, raw)) w) => ?_
    refine hw.call (r := .error (.os (.other 12) (str "Cannot allocate memory")))
      not_edge_withFile (isDir_withFile raw) (fun _ _ => trivial)
      ⟨_, rfl, hw.tree, hw.dirs, hw.own⟩
      fun w (hw : Snapshot (withFile raw) [1] (some 2) [2] (some (1, raw)) w) => ?_
    -- the descriptor is closed, and the entry is found to be the file
    refine hw.call (r := .ok ()) not_edge_withFile (isDir_withFile raw)
      (fun _ _ raw' hplace => ?_) ⟨{ w.toFileWorld with dirs := [1] }, ?_, hw.tree, rfl, hw.own⟩
      fun w (hw : Snapshot (withFile raw) [1] (some 2) [] (some (1, raw)) w) => ?_
    · rw [hw.place] at hplace
      simp at hplace
    · show { w.toFileWorld with dirs := [1] } = { w.toFileWorld with dirs := w.dirs.erase 2 }
      rw [hw.dirs]
      rfl
    refine hw.call (r := .ok (⟨false, 2⟩ : StatResult)) not_edge_withFile (isDir_withFile raw)
      (fun _ _ => trivial) ⟨_, ⟨⟨raw, 2, hraw, ?_, rfl, ?_⟩, rfl⟩, hw.tree, hw.dirs, hw.own⟩
      fun w (hw : Snapshot (withFile raw) [1] (some 2) [] (some (1, raw)) w) => ?_
    · rw [hw.tree, hlookup]
    · rw [hw.tree]
      rfl
    refine hw.call (r := .ok ()) not_edge_withFile (isDir_withFile raw)
      (fun own hown raw' i _ h => ?_)
      ⟨_, ⟨raw, hraw, rfl⟩, congrArg (Tree.setEntry · 1 raw none) hw.tree, hw.dirs, hw.own⟩
      fun w (hw : Snapshot _ [1] (some 2) [] (some (1, raw)) w) => ?_
    · rw [hw.tree] at h
      rw [hw.own] at hown
      exact (lookup_withFile h).2.2.trans (Option.some.inj hown)
    refine hw.call (r := .ok ()) ?_ ?_ (fun _ _ _ _ h => h) ⟨_, rfl, hw.tree, rfl, hw.own⟩
      fun w hw => ⟨w, .ret _ _, hw.own⟩
    · rintro a b ⟨name, hname, hdir⟩
      refine not_edge_withFile a b ⟨name, Tree.lookup_of_lookup_setEntry_none hname, ?_⟩
      rwa [Tree.isDir_setEntry] at hdir
    · intro d hd
      rw [Tree.isDir_setEntry]
      exact isDir_withFile raw d hd
  obtain ⟨w, hends, hown⟩ := hrun
  exact ⟨_, w, hends, hown, create_cleansUp hends⟩

/-- `fstat` fails: the file stays under its name, and its descriptor is leaked. -/
theorem not_cleansUp_fstat :
    letI := asciiRuntime
    ∃ out w, Ends (leafHandle id anyStep) (LeafWorld.start emptyRoot)
      (create (str "/config/esphome") (str "notes.txt") true (some (str "hi"))) out w ∧
      ¬ CleansUp (str "notes.txt") out w := by
  let := asciiRuntime
  obtain ⟨raw, hraw⟩ : ∃ raw, fsencode (str "notes.txt") = some raw := ⟨_, rfl⟩
  have hrun : ∃ w, Ends (leafHandle id anyStep) (LeafWorld.start emptyRoot)
      (create (str "/config/esphome") (str "notes.txt") true (some (str "hi")))
      (.ok (failure (str "notes.txt") (str "filesystem_error") (str "Input/output error"))) w ∧
      w.own = some 2 ∧ w.fds = [2] := by
    rw [create, if_neg (by decide +kernel), if_neg (by decide +kernel)]
    refine ends_withFile hraw (fun _ _ _ _ _ => trivial) rfl fun w hw => ?_
    refine hw.call (r := .error (.os (.other 5) (str "Input/output error"))) not_edge_withFile
      (isDir_withFile raw) trivial ⟨_, rfl, hw.tree, hw.dirs, hw.own⟩
      fun w (hw : Snapshot (withFile raw) [1] (some 2) [2] (some (1, raw)) w) => ?_
    exact hw.call (r := .ok ()) not_edge_withFile (isDir_withFile raw) trivial
      ⟨_, rfl, hw.tree, rfl, hw.own⟩ fun w hw => ⟨w, .ret _ _, hw.own, hw.fds⟩
  obtain ⟨w, hends, hown, hfds⟩ := hrun
  refine ⟨_, w, hends, fun hclean => ?_⟩
  obtain ⟨-, -, -, hclosed⟩ := hclean.failed 2 hown fun h => failure_ne_success (Except.ok.inj h)
  rw [hfds] at hclosed
  cases hclosed

end EsphomeMcp.Files
