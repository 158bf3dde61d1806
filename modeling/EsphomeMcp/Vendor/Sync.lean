import EsphomeMcp.Python.Str

/-!
# Syncing the vendored trees

`main` of `vendor_fastmcp.py`: every package is downloaded and unpacked into a folder of its own,
then all the folders are swapped in, and last the requirements in the component manifest are
written anew. A run fails at one point at most; what the clean-up does from there on succeeds.

`main_allOrNothing_iff` says from which points a run leaves everything as it was.
-/

namespace EsphomeMcp.Vendor

open Py

/-! ## The vendor folder -/

/-- The three entries the vendor folder can have for a package. -/
inductive Place where
  /-- The tree that is imported. -/
  | target
  /-- `.incoming`: the tree that is staged. -/
  | incoming
  /-- `.previous`: the tree that was swapped out. -/
  | previous
deriving DecidableEq

/-- The points at which a run can fail. -/
inductive Point where
  /-- `read_pins`. -/
  | pins
  /-- The downloads of a package, the checks of the wheel and the look for a licence. -/
  | fetch (package : Str)
  /-- `stage_package`, with some files written already. -/
  | unpack (package : Str)
  /-- `target.rename(backup)` fails. -/
  | backup (package : Str)
  /-- An interrupt is delivered as that rename returns. -/
  | backedUp (package : Str)
  /-- `staging.rename(target)` fails. -/
  | swap (package : Str)
  /-- An interrupt is delivered as that rename returns. -/
  | swapped (package : Str)
  /-- `manifest_requirements`, or reading the manifest. -/
  | merge
  /-- Opening the manifest for writing, which empties it. -/
  | truncate
  /-- Writing its text. -/
  | write
  /-- The closing `print`. -/
  | report
deriving DecidableEq

section

variable {Tree Manifest : Type}

/-- What is on disk: package names have no dot, so the entries of two packages are different. -/
structure Folder (Tree Manifest : Type) where
  tree : Str → Place → Option Tree
  manifest : Manifest

/-- A run: the packages with what is downloaded for them, what the manifest becomes for the trees
that are read back, and where the run fails. -/
structure Run (Tree Manifest : Type) where
  packages : List Str
  fresh : Str → Tree
  torn : Str → Tree
  merged : Manifest → List (Option Tree) → Manifest
  emptied : Manifest
  fault : Option Point

/-- A run under way: the folder, with the dict `staged` and the list `swapped`. -/
structure Progress (Tree Manifest : Type) extends Folder Tree Manifest where
  staged : List Str
  swapped : List (Str × Bool)

namespace Progress

/-- An entry is written. -/
def put (s : Progress Tree Manifest) (package : Str) (place : Place) (tree : Option Tree) :
    Progress Tree Manifest :=
  { s with tree := fun p l => if p = package ∧ l = place then tree else s.tree p l }

/-- `shutil.rmtree(.., ignore_errors=True)`. -/
def rmtree (s : Progress Tree Manifest) (package : Str) (place : Place) :
    Progress Tree Manifest :=
  s.put package place none

/-- `Path.rename`. -/
def rename (s : Progress Tree Manifest) (package : Str) (source dest : Place) :
    Progress Tree Manifest :=
  (s.put package dest (s.tree package source)).put package source none

/-- Restoring the trees that were swapped, the last one first. -/
def restore (s : Progress Tree Manifest) : List (Str × Bool) → Progress Tree Manifest
  | [] => s
  | (package, hadPrevious) :: swapped =>
    let s := s.rmtree package .target
    (if hadPrevious then s.rename package .previous .target else s).restore swapped

/-- Removing one kind of entry for some packages. -/
def sweep (s : Progress Tree Manifest) (place : Place) : List Str → Progress Tree Manifest
  | [] => s
  | package :: packages => (s.rmtree package place).sweep place packages

end Progress

/-- A step of a run: it changes the progress, and an exception leaves the progress behind. -/
abbrev Sync (Tree Manifest α : Type) := EStateM Point (Progress Tree Manifest) α

namespace Sync

variable {α β : Type} (s : Progress Tree Manifest)

@[simp]
theorem bind_apply (x : Sync Tree Manifest α) (f : α → Sync Tree Manifest β) :
    (x >>= f) s =
      match x s with
      | .ok a s => f a s
      | .error failure s => .error failure s := by
  show EStateM.bind x f s = _
  unfold EStateM.bind
  cases x s <;> rfl

@[simp]
theorem get_apply : (get : Sync Tree Manifest (Progress Tree Manifest)) s = .ok s s := rfl

@[simp]
theorem modify_apply (f : Progress Tree Manifest → Progress Tree Manifest) :
    (modify f : Sync Tree Manifest Unit) s = .ok () (f s) := rfl

@[simp]
theorem throw_apply (failure : Point) : (throw failure : Sync Tree Manifest α) s = .error failure s :=
  rfl

@[simp]
theorem tryCatch_apply (x : Sync Tree Manifest α) (handle : Point → Sync Tree Manifest α) :
    tryCatch x handle s =
      match x s with
      | .ok a s => .ok a s
      | .error failure s => handle failure s := by
  show EStateM.tryCatch x handle s = _
  unfold EStateM.tryCatch
  cases x s <;> rfl

end Sync

namespace Run

variable (r : Run Tree Manifest)

/-- A point of the run, with what is done there. -/
def reach (here : Point) (effect : Progress Tree Manifest → Progress Tree Manifest) :
    Sync Tree Manifest Unit := fun s =>
  if r.fault = some here then .error here s else .ok () (effect s)

/-- Downloading and unpacking, the body of the first loop of `main`. -/
def stageEach : List Str → Sync Tree Manifest Unit
  | [] => pure ()
  | package :: packages => do
    modify fun s => { s.rmtree package .incoming with staged := s.staged ++ [package] }
    r.reach (.fetch package) id
    modify fun s => s.put package .incoming (r.torn package)
    r.reach (.unpack package) fun s => s.put package .incoming (r.fresh package)
    stageEach packages

/-- The loop of `_promote`. -/
def promoteEach : List Str → Sync Tree Manifest Unit
  | [] => pure ()
  | package :: packages => do
    modify fun s => s.rmtree package .previous
    let hadPrevious := ((← get).tree package .target).isSome
    if hadPrevious then
      r.reach (.backup package) fun s => s.rename package .target .previous
      r.reach (.backedUp package) id
    modify fun s => { s with swapped := s.swapped ++ [(package, hadPrevious)] }
    r.reach (.swap package) fun s => s.rename package .incoming .target
    r.reach (.swapped package) id
    promoteEach packages

/-- `_promote`. -/
def promote : Sync Tree Manifest Unit := do
  try
    r.promoteEach (← get).staged
  catch failure =>
    modify fun s => (s.restore s.swapped.reverse).sweep .incoming s.staged
    throw failure
  modify fun s => s.sweep .previous (s.swapped.map Prod.fst)

/-- `write_manifest_requirements`. -/
def writeManifestRequirements : Sync Tree Manifest Unit := do
  r.reach .merge id
  let s ← get
  let manifest := r.merged s.manifest (r.packages.map fun package => s.tree package .target)
  r.reach .truncate fun s => { s with manifest := r.emptied }
  r.reach .write fun s => { s with manifest }

/-- `main`. -/
def main : Sync Tree Manifest Unit := do
  r.reach .pins id
  try
    r.stageEach r.packages
  catch failure =>
    modify fun s => s.sweep .incoming s.staged
    throw failure
  r.promote
  r.writeManifestRequirements
  r.reach .report id

/-- A run of `main` on a vendor folder. -/
def result (w : Folder Tree Manifest) : EStateM.Result Point (Progress Tree Manifest) Unit :=
  r.main { w with staged := [], swapped := [] }

/-! ## All or nothing -/

/-- The manifest for the new trees. -/
def newManifest (w : Folder Tree Manifest) : Manifest :=
  r.merged w.manifest (r.packages.map fun package => some (r.fresh package))

/-- Every tree and the manifest are the new ones. -/
def AllNew (w s : Folder Tree Manifest) : Prop :=
  (∀ package ∈ r.packages, s.tree package .target = some (r.fresh package)) ∧
    s.manifest = r.newManifest w

/-- Every tree and the manifest are the old ones. -/
def AllOld (w s : Folder Tree Manifest) : Prop :=
  (∀ package ∈ r.packages, s.tree package .target = w.tree package .target) ∧
    s.manifest = w.manifest

/-- A run that returns has made everything new. One that fails raises the failure it met, with
everything new or everything old, and leaves no entry of its own behind. -/
def AllOrNothing (w : Folder Tree Manifest) :
    EStateM.Result Point (Progress Tree Manifest) Unit → Prop
  | .ok _ s => r.AllNew w s.toFolder
  | .error failure s => r.fault = some failure ∧ (r.AllNew w s.toFolder ∨ r.AllOld w s.toFolder) ∧
      ∀ package ∈ r.packages, s.tree package .incoming = none ∧ s.tree package .previous = none

/-- A failure at this point can be undone: the folder has no entry of an earlier run that this one
does not come to, no interrupt falls between a backup and its record, and a failure behind the swap
does not find anything left to change. -/
def Undoable (w : Folder Tree Manifest) : Point → Prop
  | .pins => ∀ package ∈ r.packages,
      w.tree package .incoming = none ∧ w.tree package .previous = none
  | .fetch package | .unpack package => ∀ earlier later,
      r.packages = earlier ++ package :: later →
      (∀ p ∈ r.packages, w.tree p .previous = none) ∧ ∀ p ∈ later, w.tree p .incoming = none
  | .backup package => (w.tree package .target).isSome = true → ∀ earlier later,
      r.packages = earlier ++ package :: later → ∀ p ∈ later, w.tree p .previous = none
  | .backedUp package => package ∈ r.packages → w.tree package .target = none
  | .swap package | .swapped package => ∀ earlier later,
      r.packages = earlier ++ package :: later → ∀ p ∈ later, w.tree p .previous = none
  | .merge | .truncate => r.newManifest w = w.manifest ∨
      ∀ package ∈ r.packages, w.tree package .target = some (r.fresh package)
  | .write => r.emptied = r.newManifest w ∨ r.emptied = w.manifest ∧
      ∀ package ∈ r.packages, w.tree package .target = some (r.fresh package)
  | .report => True

end Run

/-! ## Entries -/

namespace Progress

variable (s : Progress Tree Manifest)

@[simp] theorem put_tree (package q : Str) (place l : Place) (tree : Option Tree) :
    (s.put package place tree).tree q l = if q = package ∧ l = place then tree else s.tree q l := rfl

@[simp] theorem put_manifest (package : Str) (place : Place) (tree : Option Tree) :
    (s.put package place tree).manifest = s.manifest := rfl

@[simp] theorem put_staged (package : Str) (place : Place) (tree : Option Tree) :
    (s.put package place tree).staged = s.staged := rfl

@[simp] theorem put_swapped (package : Str) (place : Place) (tree : Option Tree) :
    (s.put package place tree).swapped = s.swapped := rfl

@[simp] theorem rmtree_swapped (package : Str) (place : Place) :
    (s.rmtree package place).swapped = s.swapped := rfl

@[simp] theorem rename_swapped (package : Str) (source dest : Place) :
    (s.rename package source dest).swapped = s.swapped := rfl

theorem sweep_tree (place : Place) (packages : List Str) (q : Str) (l : Place) :
    (s.sweep place packages).tree q l =
      if q ∈ packages ∧ l = place then none else s.tree q l := by
  induction packages generalizing s with
  | nil => simp [sweep]
  | cons package packages ih =>
    rw [sweep, ih, rmtree, put_tree]
    by_cases hq : q = package <;> by_cases hl : l = place <;> simp [hq, hl]

theorem sweep_manifest (place : Place) (packages : List Str) :
    (s.sweep place packages).manifest = s.manifest := by
  induction packages generalizing s with
  | nil => rfl
  | cons package packages ih => rw [sweep, ih, rmtree, put_manifest]

/-- What restoring keeps. -/
theorem restore_other (swapped : List (Str × Bool)) :
    (s.restore swapped).manifest = s.manifest ∧ (s.restore swapped).staged = s.staged ∧
    (∀ q, (s.restore swapped).tree q .incoming = s.tree q .incoming) ∧
    ∀ q ∉ swapped.map Prod.fst, ∀ l, (s.restore swapped).tree q l = s.tree q l := by
  induction swapped generalizing s with
  | nil => exact ⟨rfl, rfl, fun _ => rfl, fun _ _ _ => rfl⟩
  | cons entry swapped ih =>
    obtain ⟨package, hadPrevious⟩ := entry
    rw [restore]
    obtain ⟨hmanifest, hstaged, hincoming, htree⟩ := ih (if hadPrevious then
      (s.rmtree package .target).rename package .previous .target else s.rmtree package .target)
    refine ⟨hmanifest.trans ?_, hstaged.trans ?_, fun q => (hincoming q).trans ?_,
      fun q hq l => ?_⟩
    · cases hadPrevious <;> rfl
    · cases hadPrevious <;> rfl
    · cases hadPrevious <;> simp [rmtree, rename]
    · rw [List.map_cons, List.mem_cons, not_or] at hq
      rw [htree q hq.2]
      cases hadPrevious <;> simp [rmtree, rename, hq.1]

/-- A package that was recorded gets the tree back that lay in its backup, if there was one. -/
theorem restore_tree {packages : List Str} (h : packages.Nodup) (old : Str → Option Tree)
    (hold : ∀ q ∈ packages, s.tree q .previous = old q) {q : Str} (hq : q ∈ packages) :
    (s.restore (packages.map fun p => (p, (old p).isSome))).tree q .target = old q ∧
    (s.restore (packages.map fun p => (p, (old p).isSome))).tree q .previous = none := by
  induction packages generalizing s with
  | nil => cases hq
  | cons package packages ih =>
    rw [List.nodup_cons] at h
    rw [List.forall_mem_cons] at hold
    rw [List.map_cons, restore]
    generalize hs : (if (old package).isSome = true then
      (s.rmtree package .target).rename package .previous .target else s.rmtree package .target) = s'
    rcases List.mem_cons.mp hq with rfl | hq
    · -- the rest of the list does not touch it
      have hrest : q ∉ (packages.map fun p => (p, (old p).isSome)).map Prod.fst := by
        rw [List.map_map]
        simpa using h.1
      obtain ⟨-, -, -, htree⟩ := s'.restore_other (packages.map fun p => (p, (old p).isSome))
      rw [htree q hrest, htree q hrest, ← hs]
      cases hq : old q with
      | none => simp [rmtree, hold.1, hq]
      | some tree => simp [rmtree, rename, hold.1, hq]
    · have hne : q ≠ package := fun he => h.1 (he ▸ hq)
      refine ih s' h.2 (fun p hp => ?_) hq
      have hp' : p ≠ package := fun he => h.1 (he ▸ hp)
      rw [← hs, ← hold.2 p hp]
      split_ifs <;> simp [rmtree, rename, hp']

end Progress

namespace Run

variable {r : Run Tree Manifest} {w : Folder Tree Manifest}

/-! ## Staging -/

/-- Nothing but staged trees has changed. -/
structure Staging (w : Folder Tree Manifest) (s : Progress Tree Manifest) : Prop where
  manifest : s.manifest = w.manifest
  swapped : s.swapped = []
  target : ∀ p, s.tree p .target = w.tree p .target
  previous : ∀ p, s.tree p .previous = w.tree p .previous
  incoming : ∀ p ∉ s.staged, s.tree p .incoming = w.tree p .incoming

/-- The progress when the downloads of a package begin. -/
def announced (package : Str) (s : Progress Tree Manifest) : Progress Tree Manifest :=
  { s.rmtree package .incoming with staged := s.staged ++ [package] }

theorem stageEach_cons (package : Str) (packages : List Str) (s : Progress Tree Manifest) :
    r.stageEach (package :: packages) s =
      if r.fault = some (.fetch package) then .error (.fetch package) (announced package s)
      else if r.fault = some (.unpack package) then
        .error (.unpack package) ((announced package s).put package .incoming (r.torn package))
      else r.stageEach packages (((announced package s).put package .incoming (r.torn package)).put
        package .incoming (r.fresh package)) := by
  rw [stageEach]
  split_ifs with hfetch hunpack
  · simp [reach, hfetch, announced]
  · simp [reach, hunpack, announced]
  · simp [reach, hfetch, hunpack, announced]

theorem Staging.announced {s : Progress Tree Manifest} (h : Staging w s) (package : Str) :
    Staging w (announced package s) := by
  refine ⟨h.manifest, h.swapped, fun p => ?_, fun p => ?_, fun p hp => ?_⟩
  · simp [Run.announced, Progress.rmtree, h.target]
  · simp [Run.announced, Progress.rmtree, h.previous]
  · have hp' : p ∉ s.staged ∧ p ≠ package := by simpa [Run.announced] using hp
    simp [Run.announced, Progress.rmtree, hp'.2, h.incoming p hp'.1]

theorem Staging.put {s : Progress Tree Manifest} (h : Staging w s) {package : Str}
    (hmem : package ∈ s.staged) (tree : Option Tree) : Staging w (s.put package .incoming tree) := by
  refine ⟨h.manifest, h.swapped, fun p => ?_, fun p => ?_, fun p hp => ?_⟩
  · simp [h.target]
  · simp [h.previous]
  · have hne : p ≠ package := fun he => hp (he ▸ hmem)
    simp [hne, h.incoming p hp]

/-- Staging comes to its end with every package staged, or fails at a package and has announced
the ones up to it. -/
theorem stageEach_spec {packages : List Str} {s : Progress Tree Manifest} (hs : Staging w s)
    (hfresh : ∀ p ∈ s.staged, s.tree p .incoming = some (r.fresh p))
    (hnodup : (s.staged ++ packages).Nodup) :
    match r.stageEach packages s with
    | .ok _ s' => Staging w s' ∧ s'.staged = s.staged ++ packages ∧
        (∀ p ∈ s'.staged, s'.tree p .incoming = some (r.fresh p)) ∧
        ∀ p ∈ packages, r.fault ≠ some (.fetch p) ∧ r.fault ≠ some (.unpack p)
    | .error failure s' => r.fault = some failure ∧ Staging w s' ∧
        ∃ earlier package later, packages = earlier ++ package :: later ∧
          (failure = .fetch package ∨ failure = .unpack package) ∧
          s'.staged = s.staged ++ (earlier ++ [package]) := by
  induction packages generalizing s with
  | nil => exact ⟨hs, (List.append_nil _).symm, hfresh, fun p hp => absurd hp List.not_mem_nil⟩
  | cons package packages ih =>
    have hann := hs.announced package
    have hmem : package ∈ (announced package s).staged := by simp [announced]
    rw [stageEach_cons]
    split_ifs with hfetch hunpack
    · exact ⟨hfetch, hann, [], package, packages, rfl, .inl rfl, rfl⟩
    · exact ⟨hunpack, hann.put hmem _, [], package, packages, rfl, .inr rfl, rfl⟩
    · generalize hs' : ((announced package s).put package .incoming (r.torn package)).put
        package .incoming (r.fresh package) = s'
      have hstaged : s'.staged = s.staged ++ [package] := by rw [← hs']; rfl
      have hstaging : Staging w s' := by
        rw [← hs']
        exact (hann.put hmem _).put hmem _
      have hfresh' : ∀ p ∈ s'.staged, s'.tree p .incoming = some (r.fresh p) := by
        intro p hp
        rw [hstaged] at hp
        by_cases hpp : p = package
        · subst hpp
          simp [← hs']
        · have hp' : p ∈ s.staged := by simpa [hpp] using hp
          simp [← hs', hpp, announced, Progress.rmtree, hfresh p hp']
      have hnodup' : (s'.staged ++ packages).Nodup := by
        rw [hstaged, List.append_assoc]
        exact hnodup
      have hrest := ih hstaging hfresh' hnodup'
      cases hres : r.stageEach packages s' with
      | ok u s'' =>
        rw [hres] at hrest
        obtain ⟨hst, hst', hfr, hno⟩ := hrest
        refine ⟨hst, ?_, hfr, List.forall_mem_cons.mpr ⟨⟨hfetch, hunpack⟩, hno⟩⟩
        rw [hst', hstaged, List.append_assoc]
        rfl
      | error failure s'' =>
        rw [hres] at hrest
        obtain ⟨hfault, hst, earlier, p, later, rfl, hpoint, hst'⟩ := hrest
        refine ⟨hfault, hst, package :: earlier, p, later, rfl, hpoint, ?_⟩
        rw [hst', hstaged, List.append_assoc]
        rfl

/-! ## Swapping -/

/-- The entries of `swapped` for some packages. -/
def records (w : Folder Tree Manifest) (packages : List Str) : List (Str × Bool) :=
  packages.map fun p => (p, (w.tree p .target).isSome)

/-- Some packages are swapped in, with the old tree in the backup, and the others are staged. -/
structure Promoting (r : Run Tree Manifest) (w : Folder Tree Manifest) (s : Progress Tree Manifest)
    (done todo : List Str) : Prop where
  manifest : s.manifest = w.manifest
  staged : s.staged = r.packages
  swapped : s.swapped = records w done
  doneTarget : ∀ p ∈ done, s.tree p .target = some (r.fresh p)
  doneIncoming : ∀ p ∈ done, s.tree p .incoming = none
  donePrevious : ∀ p ∈ done, s.tree p .previous = w.tree p .target
  todoTarget : ∀ p ∈ todo, s.tree p .target = w.tree p .target
  todoIncoming : ∀ p ∈ todo, s.tree p .incoming = some (r.fresh p)
  todoPrevious : ∀ p ∈ todo, s.tree p .previous = w.tree p .previous

/-- Where `_promote` failed: the packages that were recorded have their old tree in the backup, the
others have it still. -/
structure Broken (r : Run Tree Manifest) (w : Folder Tree Manifest) (s : Progress Tree Manifest)
    (recorded cleared later : List Str) : Prop where
  manifest : s.manifest = w.manifest
  staged : s.staged = r.packages
  swapped : s.swapped = records w recorded
  recorded : ∀ p ∈ recorded, s.tree p .previous = w.tree p .target
  /-- No backup was made of these, and one that was there before is removed. -/
  cleared : ∀ p ∈ cleared, s.tree p .target = w.tree p .target ∧ s.tree p .previous = none
  laterTarget : ∀ p ∈ later, s.tree p .target = w.tree p .target
  laterPrevious : ∀ p ∈ later, s.tree p .previous = w.tree p .previous

/-- The ways `_promote` fails at a package. -/
inductive PromoteFailure (r : Run Tree Manifest) (w : Folder Tree Manifest)
    (earlier : List Str) (package : Str) (later : List Str) :
    Point → Progress Tree Manifest → Prop
  | backup {s : Progress Tree Manifest} (hold : (w.tree package .target).isSome = true)
      (h : Broken r w s earlier [package] later) :
      PromoteFailure r w earlier package later (.backup package) s
  | backedUp {s : Progress Tree Manifest} (hold : (w.tree package .target).isSome = true)
      (hswapped : s.swapped = records w earlier) (hstaged : s.staged = r.packages)
      (hprevious : s.tree package .previous = w.tree package .target) :
      PromoteFailure r w earlier package later (.backedUp package) s
  | swap {s : Progress Tree Manifest} (h : Broken r w s (earlier ++ [package]) [] later) :
      PromoteFailure r w earlier package later (.swap package) s
  | swapped {s : Progress Tree Manifest} (h : Broken r w s (earlier ++ [package]) [] later) :
      PromoteFailure r w earlier package later (.swapped package) s

/-- The progress behind the backup of a package that has a tree. -/
def backedUp (package : Str) (s : Progress Tree Manifest) : Progress Tree Manifest :=
  if (s.tree package .target).isSome then
    (s.rmtree package .previous).rename package .target .previous
  else s.rmtree package .previous

/-- The progress with the swap recorded. -/
def recorded (package : Str) (s : Progress Tree Manifest) : Progress Tree Manifest :=
  { backedUp package s with
    swapped := s.swapped ++ [(package, (s.tree package .target).isSome)] }

theorem promoteEach_cons (package : Str) (packages : List Str) (s : Progress Tree Manifest) :
    r.promoteEach (package :: packages) s =
      if (s.tree package .target).isSome = true ∧ r.fault = some (.backup package) then
        .error (.backup package) (s.rmtree package .previous)
      else if (s.tree package .target).isSome = true ∧ r.fault = some (.backedUp package) then
        .error (.backedUp package) (backedUp package s)
      else if r.fault = some (.swap package) then
        .error (.swap package) (recorded package s)
      else if r.fault = some (.swapped package) then
        .error (.swapped package) ((recorded package s).rename package .incoming .target)
      else r.promoteEach packages ((recorded package s).rename package .incoming .target) := by
  rw [promoteEach]
  have hsame : (s.rmtree package .previous).tree package .target = s.tree package .target := by
    simp [Progress.rmtree]
  cases hold : (s.tree package .target).isSome
  all_goals
    split_ifs
    all_goals
      simp_all [reach, recorded, backedUp]

theorem backedUp_tree (package : Str) (s : Progress Tree Manifest) (q : Str) (l : Place) :
    (backedUp package s).tree q l =
      if q = package then
        match l with
        | .target => none
        | .previous => s.tree package .target
        | .incoming => s.tree package .incoming
      else s.tree q l := by
  unfold backedUp
  by_cases hq : q = package
  · subst hq
    cases hold : s.tree q .target <;> cases l <;>
      simp [hold, Progress.rmtree, Progress.rename]
  · split_ifs <;> simp [hq, Progress.rmtree, Progress.rename]

theorem records_append (done : List Str) (package : Str) :
    records w (done ++ [package]) =
      records w done ++ [(package, (w.tree package .target).isSome)] := by
  simp [records]

/-- The first package that is left to swap, once its backup is recorded. -/
theorem ne_of_nodup {done packages : List Str} {package p : Str}
    (hnodup : (done ++ package :: packages).Nodup) (hp : p ∈ done ++ packages) : p ≠ package := by
  rintro rfl
  exact (List.nodup_cons.mp (List.nodup_middle.mp hnodup)).1 hp

theorem Promoting.recorded {s : Progress Tree Manifest} {done packages : List Str} {package : Str}
    (h : Promoting r w s done (package :: packages))
    (hnodup : (done ++ package :: packages).Nodup) :
    Broken r w (recorded package s) (done ++ [package]) [] packages ∧
    ∀ p, (recorded package s).tree p .incoming = s.tree p .incoming := by
  have htarget := h.todoTarget package List.mem_cons_self
  have hnotlater (p : Str) (hp : p ∈ packages) : p ≠ package :=
    ne_of_nodup hnodup (List.mem_append_right _ hp)
  refine ⟨⟨?_, ?_, ?_, fun p hp => ?_, fun p hp => absurd hp List.not_mem_nil, fun p hp => ?_,
    fun p hp => ?_⟩, fun p => ?_⟩
  · rw [← h.manifest, Run.recorded, backedUp]
    split_ifs <;> rfl
  · rw [← h.staged, Run.recorded, backedUp]
    split_ifs <;> rfl
  · rw [records_append, ← h.swapped, ← htarget]
    rfl
  · show (backedUp package s).tree p .previous = _
    rw [backedUp_tree]
    split_ifs with he
    · rw [he, htarget]
    · have hp' : p ∈ done := by simpa [he] using hp
      exact h.donePrevious p hp'
  · show (backedUp package s).tree p .target = _
    rw [backedUp_tree, if_neg (hnotlater p hp)]
    exact h.todoTarget p (List.mem_cons_of_mem _ hp)
  · show (backedUp package s).tree p .previous = _
    rw [backedUp_tree, if_neg (hnotlater p hp)]
    exact h.todoPrevious p (List.mem_cons_of_mem _ hp)
  · show (backedUp package s).tree p .incoming = _
    rw [backedUp_tree]
    split_ifs with he
    · rw [he]
    · rfl

/-- The swap itself keeps what a restore needs. -/
theorem Broken.rename {s : Progress Tree Manifest} {done later : List Str} {package : Str}
    (h : Broken r w s (done ++ [package]) [] later) (hlater : ∀ p ∈ later, p ≠ package) :
    Broken r w (s.rename package .incoming .target) (done ++ [package]) [] later := by
  refine ⟨h.manifest, h.staged, h.swapped, fun p hp => ?_, fun p hp => absurd hp List.not_mem_nil,
    fun p hp => ?_, fun p hp => ?_⟩
  · simp [Progress.rename, h.recorded p hp]
  · simp [Progress.rename, hlater p hp, h.laterTarget p hp]
  · simp [Progress.rename, h.laterPrevious p hp]

/-- One package more is swapped in. -/
theorem Promoting.swap {s : Progress Tree Manifest} {done packages : List Str} {package : Str}
    (h : Promoting r w s done (package :: packages))
    (hnodup : (done ++ package :: packages).Nodup) :
    Promoting r w ((Run.recorded package s).rename package .incoming .target)
      (done ++ [package]) packages := by
  obtain ⟨hbroken, hincoming⟩ := h.recorded hnodup
  have hlater (p : Str) (hp : p ∈ packages) : p ≠ package :=
    ne_of_nodup hnodup (List.mem_append_right _ hp)
  have hswap := hbroken.rename hlater
  refine ⟨hswap.manifest, hswap.staged, hswap.swapped, fun p hp => ?_, fun p hp => ?_,
    hswap.recorded, hswap.laterTarget, fun p hp => ?_, hswap.laterPrevious⟩
  · by_cases he : p = package
    · subst he
      simp [Progress.rename, hincoming, h.todoIncoming p List.mem_cons_self]
    · have hp' : p ∈ done := by simpa [he] using hp
      have htarget : (Run.recorded package s).tree p .target = s.tree p .target := by
        show (Run.backedUp package s).tree p .target = _
        rw [backedUp_tree, if_neg he]
      simp [Progress.rename, he, htarget, h.doneTarget p hp']
  · by_cases he : p = package
    · simp [Progress.rename, he]
    · have hp' : p ∈ done := by simpa [he] using hp
      simp [Progress.rename, he, hincoming, h.doneIncoming p hp']
  · simp [Progress.rename, hlater p hp, hincoming,
      h.todoIncoming p (List.mem_cons_of_mem _ hp)]

/-- Swapping comes to its end with every package swapped in, or fails at a package. -/
theorem promoteEach_spec {done packages : List Str} {s : Progress Tree Manifest}
    (hs : Promoting r w s done packages) (hnodup : (done ++ packages).Nodup) :
    match r.promoteEach packages s with
    | .ok _ s' => Promoting r w s' (done ++ packages) [] ∧
        ∀ p ∈ packages, r.fault ≠ some (.swap p) ∧ r.fault ≠ some (.swapped p) ∧
          ((w.tree p .target).isSome = true →
            r.fault ≠ some (.backup p) ∧ r.fault ≠ some (.backedUp p))
    | .error failure s' => r.fault = some failure ∧
        ∃ earlier package later, packages = earlier ++ package :: later ∧
          PromoteFailure r w (done ++ earlier) package later failure s' := by
  induction packages generalizing done s with
  | nil =>
    rw [List.append_nil]
    exact ⟨hs, fun p hp => absurd hp List.not_mem_nil⟩
  | cons package packages ih =>
    have htarget := hs.todoTarget package List.mem_cons_self
    have hlater (p : Str) (hp : p ∈ packages) : p ≠ package :=
      ne_of_nodup hnodup (List.mem_append_right _ hp)
    obtain ⟨hbroken, hincoming⟩ := hs.recorded hnodup
    rw [promoteEach_cons, htarget]
    split_ifs with hbackup hbackedUp hswap hswapped
    · refine ⟨hbackup.2, [], package, packages, rfl, .backup hbackup.1 ?_⟩
      rw [List.append_nil]
      refine ⟨hs.manifest, hs.staged, hs.swapped, fun p hp => ?_, fun p hp => ?_, fun p hp => ?_,
        fun p hp => ?_⟩
      · have hne : p ≠ package := ne_of_nodup hnodup (List.mem_append_left _ hp)
        simp [Progress.rmtree, hne, hs.donePrevious p hp]
      · obtain rfl := List.mem_singleton.mp hp
        exact ⟨by simpa [Progress.rmtree] using htarget, by simp [Progress.rmtree]⟩
      · simp [Progress.rmtree, hs.todoTarget p (List.mem_cons_of_mem _ hp)]
      · simp [Progress.rmtree, hlater p hp, hs.todoPrevious p (List.mem_cons_of_mem _ hp)]
    · refine ⟨hbackedUp.2, [], package, packages, rfl, .backedUp hbackedUp.1 ?_ ?_ ?_⟩
      · rw [List.append_nil, ← hs.swapped, Run.backedUp]
        split_ifs <;> rfl
      · rw [← hs.staged, Run.backedUp]
        split_ifs <;> rfl
      · rw [backedUp_tree, if_pos rfl, htarget]
    · refine ⟨hswap, [], package, packages, rfl, .swap ?_⟩
      rw [List.append_nil]
      exact hbroken
    · refine ⟨hswapped, [], package, packages, rfl, .swapped ?_⟩
      rw [List.append_nil]
      exact hbroken.rename hlater
    · generalize hs' : (Run.recorded package s).rename package .incoming .target = s'
      have hfirst : r.fault ≠ some (.swap package) ∧ r.fault ≠ some (.swapped package) ∧
          ((w.tree package .target).isSome = true →
            r.fault ≠ some (.backup package) ∧ r.fault ≠ some (.backedUp package)) :=
        ⟨hswap, hswapped, fun hold => ⟨fun h => hbackup ⟨hold, h⟩, fun h => hbackedUp ⟨hold, h⟩⟩⟩
      have hpromoting : Promoting r w s' (done ++ [package]) packages := by
        rw [← hs']
        exact hs.swap hnodup
      have hrest := ih hpromoting (by simpa using hnodup)
      cases hres : r.promoteEach packages s' with
      | ok u s'' =>
        rw [hres] at hrest
        obtain ⟨hpr, hno⟩ := hrest
        exact ⟨by simpa using hpr, List.forall_mem_cons.mpr ⟨hfirst, hno⟩⟩
      | error failure s'' =>
        rw [hres] at hrest
        obtain ⟨hfault, earlier, p, later, rfl, hfail⟩ := hrest
        exact ⟨hfault, package :: earlier, p, later, rfl, by simpa using hfail⟩

theorem promote_eq (s : Progress Tree Manifest) :
    r.promote s =
      match r.promoteEach s.staged s with
      | .ok _ s' => .ok () (s'.sweep .previous (s'.swapped.map Prod.fst))
      | .error failure s' =>
        .error failure ((s'.restore s'.swapped.reverse).sweep .incoming s'.staged) := by
  rw [promote]
  cases h : r.promoteEach s.staged s <;> simp [h]

/-- What a failed swap is put back to: the recorded packages have their tree again, and only entries
that the loop did not come to are left. -/
theorem Broken.restored {s : Progress Tree Manifest} {recorded cleared later : List Str}
    (h : Broken r w s recorded cleared later)
    (hpackages : r.packages = recorded ++ cleared ++ later) (hnodup : r.packages.Nodup) :
    let s' := (s.restore s.swapped.reverse).sweep .incoming s.staged
    s'.manifest = w.manifest ∧
    ∀ p ∈ r.packages, s'.tree p .target = w.tree p .target ∧ s'.tree p .incoming = none ∧
      s'.tree p .previous = if p ∈ later then w.tree p .previous else none := by
  intro s'
  have hrecords : s.swapped.reverse =
      recorded.reverse.map fun p => (p, (w.tree p .target).isSome) := by
    rw [h.swapped, records, List.map_reverse]
  have hfst : (recorded.reverse.map fun p => (p, (w.tree p .target).isSome)).map Prod.fst =
      recorded.reverse := by
    rw [List.map_map]
    exact List.map_id _
  have hnodup' : recorded.reverse.Nodup := by
    rw [hpackages, List.append_assoc] at hnodup
    exact List.nodup_reverse.mpr (List.nodup_append.mp hnodup).1
  obtain ⟨hmanifest, hstaged, -, hother⟩ := s.restore_other s.swapped.reverse
  have htree : ∀ p ∈ recorded, (s.restore s.swapped.reverse).tree p .target = w.tree p .target ∧
      (s.restore s.swapped.reverse).tree p .previous = none := by
    intro p hp
    rw [hrecords]
    exact s.restore_tree hnodup' (fun q => w.tree q .target)
      (fun q hq => h.recorded q (List.mem_reverse.mp hq)) (List.mem_reverse.mpr hp)
  have hkept : ∀ p ∉ recorded, ∀ l, (s.restore s.swapped.reverse).tree p l = s.tree p l := by
    intro p hp l
    apply hother
    rwa [hrecords, hfst, List.mem_reverse]
  refine ⟨by rw [Progress.sweep_manifest, hmanifest, h.manifest], fun p hp => ?_⟩
  have hsweep : ∀ l ≠ Place.incoming, s'.tree p l = (s.restore s.swapped.reverse).tree p l := by
    intro l hl
    rw [Progress.sweep_tree, if_neg (fun hc => hl hc.2)]
  have hincoming : s'.tree p .incoming = none := by
    rw [Progress.sweep_tree, h.staged, if_pos ⟨hp, rfl⟩]
  rw [hsweep .target (by decide), hsweep .previous (by decide)]
  rw [hpackages] at hp hnodup
  by_cases hrecorded : p ∈ recorded
  · have hlater : p ∉ later := by
      intro hl
      rw [List.append_assoc] at hnodup
      exact List.disjoint_of_nodup_append hnodup hrecorded (List.mem_append_right _ hl)
    rw [if_neg hlater]
    exact ⟨(htree p hrecorded).1, hincoming, (htree p hrecorded).2⟩
  · rw [hkept p hrecorded, hkept p hrecorded]
    by_cases hlater : p ∈ later
    · rw [if_pos hlater]
      exact ⟨h.laterTarget p hlater, hincoming, h.laterPrevious p hlater⟩
    · have hcleared : p ∈ cleared := by simpa [hrecorded, hlater] using hp
      rw [if_neg hlater]
      exact ⟨(h.cleared p hcleared).1, hincoming, (h.cleared p hcleared).2⟩

/-- Everything is staged. -/
structure Staged (r : Run Tree Manifest) (w : Folder Tree Manifest) (s : Progress Tree Manifest) :
    Prop where
  staging : Staging w s
  staged : s.staged = r.packages
  fresh : ∀ p ∈ r.packages, s.tree p .incoming = some (r.fresh p)

/-- The clean-up of a failed swap undoes everything, but for entries that the loop did not come to
and a backup that was not recorded. -/
def Undone (r : Run Tree Manifest) (w : Folder Tree Manifest) (failure : Point)
    (s : Progress Tree Manifest) : Prop :=
  ∃ earlier package later, r.packages = earlier ++ package :: later ∧
    ((failure = .backup package ∧ (w.tree package .target).isSome = true ∨
        failure = .swap package ∨ failure = .swapped package) ∧
      s.manifest = w.manifest ∧
      (∀ p ∈ r.packages, s.tree p .target = w.tree p .target ∧ s.tree p .incoming = none ∧
        s.tree p .previous = if p ∈ later then w.tree p .previous else none) ∨
    failure = .backedUp package ∧ (w.tree package .target).isSome = true ∧
      s.tree package .previous = w.tree package .target)

theorem promote_spec {s : Progress Tree Manifest} (hs : Staged r w s) (hnodup : r.packages.Nodup) :
    match r.promote s with
    | .ok _ s' => s'.manifest = w.manifest ∧
        (∀ p ∈ r.packages, s'.tree p .target = some (r.fresh p) ∧ s'.tree p .incoming = none ∧
          s'.tree p .previous = none) ∧
        ∀ p ∈ r.packages, r.fault ≠ some (.swap p) ∧ r.fault ≠ some (.swapped p) ∧
          ((w.tree p .target).isSome = true →
            r.fault ≠ some (.backup p) ∧ r.fault ≠ some (.backedUp p))
    | .error failure s' => r.fault = some failure ∧ Undone r w failure s' := by
  have hpromoting : Promoting r w s [] r.packages :=
    ⟨hs.staging.manifest, hs.staged, hs.staging.swapped, by simp, by simp, by simp,
      fun p _ => hs.staging.target p, hs.fresh, fun p _ => hs.staging.previous p⟩
  have hspec := promoteEach_spec hpromoting (by simpa using hnodup)
  rw [promote_eq, hs.staged]
  cases hres : r.promoteEach r.packages s with
  | ok u s' =>
    rw [hres] at hspec
    obtain ⟨hpr, hno⟩ := hspec
    rw [List.nil_append] at hpr
    have hfst : s'.swapped.map Prod.fst = r.packages := by
      rw [hpr.swapped, records, List.map_map]
      exact List.map_id _
    refine ⟨by rw [Progress.sweep_manifest, hpr.manifest], fun p hp => ?_, hno⟩
    simp [Progress.sweep_tree, hfst, hp, hpr.doneTarget p hp, hpr.doneIncoming p hp]
  | error failure s' =>
    rw [hres] at hspec
    obtain ⟨hfault, earlier, package, later, hpackages, hfail⟩ := hspec
    rw [List.nil_append] at hfail
    refine ⟨hfault, earlier, package, later, hpackages, ?_⟩
    cases hfail with
    | backup hold h =>
      exact .inl ⟨.inl ⟨rfl, hold⟩, h.restored (by simpa using hpackages) hnodup⟩
    | swap h =>
      exact .inl ⟨.inr (.inl rfl), h.restored (by simpa using hpackages) hnodup⟩
    | swapped h =>
      exact .inl ⟨.inr (.inr rfl), h.restored (by simpa using hpackages) hnodup⟩
    | backedUp hold hswapped hstaged hprevious =>
      refine .inr ⟨rfl, hold, ?_⟩
      obtain ⟨-, -, -, hother⟩ := s'.restore_other s'.swapped.reverse
      have hmem : package ∉ (s'.swapped.reverse).map Prod.fst := by
        rw [hpackages] at hnodup
        rw [List.map_reverse, List.mem_reverse, hswapped, records, List.map_map]
        intro hm
        have hm' : package ∈ earlier := by simpa using hm
        exact List.disjoint_of_nodup_append hnodup hm' List.mem_cons_self
      rw [Progress.sweep_tree, if_neg (by simp), hother package hmem, hprevious]

/-! ## The whole run -/

/-- The progress at the start. -/
def start (w : Folder Tree Manifest) : Progress Tree Manifest :=
  { w with staged := [], swapped := [] }

/-- The progress with the manifest written. -/
def written (r : Run Tree Manifest) (s : Progress Tree Manifest) : Progress Tree Manifest :=
  { s with manifest :=
      r.merged s.manifest (r.packages.map fun package => s.tree package .target) }

theorem writeManifestRequirements_eq (s : Progress Tree Manifest) :
    r.writeManifestRequirements s =
      if r.fault = some .merge then .error .merge s
      else if r.fault = some .truncate then .error .truncate s
      else if r.fault = some .write then .error .write { s with manifest := r.emptied }
      else .ok () (r.written s) := by
  rw [writeManifestRequirements]
  split_ifs with hmerge htruncate hwrite
  · simp [reach, hmerge]
  · simp [reach, htruncate]
  · simp [reach, hwrite]
  · simp [reach, hmerge, htruncate, hwrite, written]

/-- The part of a run behind the swap. -/
def finish (r : Run Tree Manifest) (s : Progress Tree Manifest) :
    EStateM.Result Point (Progress Tree Manifest) Unit :=
  if r.fault = some .merge then .error .merge s
  else if r.fault = some .truncate then .error .truncate s
  else if r.fault = some .write then .error .write { s with manifest := r.emptied }
  else if r.fault = some .report then .error .report (r.written s)
  else .ok () (r.written s)

theorem result_eq (w : Folder Tree Manifest) :
    r.result w =
      if r.fault = some .pins then .error .pins (start w)
      else match r.stageEach r.packages (start w) with
        | .error failure s => .error failure (s.sweep .incoming s.staged)
        | .ok _ s => match r.promote s with
          | .error failure s => .error failure s
          | .ok _ s => r.finish s := by
  show r.main (start w) = _
  rw [main]
  split_ifs with hpins
  · simp [reach, hpins]
  · cases hstage : r.stageEach r.packages (start w) with
    | error failure s =>
      simp [reach, hpins, hstage]
    | ok u s =>
      cases hpromote : r.promote s with
      | error failure s' =>
        simp [reach, hpins, hstage, hpromote]
      | ok u s' =>
        have hstart : r.reach .pins id (start w) = .ok () (start w) := if_neg hpins
        simp only [Sync.bind_apply, Sync.tryCatch_apply, hstart, hstage, hpromote]
        rw [writeManifestRequirements_eq, finish]
        split_ifs <;> simp_all [reach]

/-- A package has one place in the list. -/
theorem later_unique {packages earlier later earlier' later' : List Str} {package : Str}
    (hnodup : packages.Nodup) (h : packages = earlier ++ package :: later)
    (h' : packages = earlier' ++ package :: later') : later' = later := by
  induction earlier generalizing packages earlier' with
  | nil =>
    subst h
    cases earlier' with
    | nil => exact (List.cons.inj h').2.symm
    | cons q earlier' =>
      obtain ⟨rfl, hrest⟩ := List.cons.inj h'
      rw [hrest] at hnodup
      exact absurd (List.mem_append_right earlier' List.mem_cons_self) (List.nodup_cons.mp hnodup).1
  | cons q earlier ih =>
    subst h
    cases earlier' with
    | nil =>
      obtain ⟨rfl, -⟩ := List.cons.inj h'
      exact absurd (List.mem_append_right earlier List.mem_cons_self) (List.nodup_cons.mp hnodup).1
    | cons q' earlier' =>
      exact ih (List.nodup_cons.mp hnodup).2 rfl (List.cons.inj h').2

theorem forall_fault_iff {failure : Point} (h : r.fault = some failure) {P : Point → Prop} :
    (∀ point, r.fault = some point → P point) ↔ P failure := by
  simp [h]

/-- A failure with the old trees in place is undone when no other entry is left. -/
theorem allOrNothing_error_iff {failure : Point} {s : Progress Tree Manifest}
    (hfault : r.fault = some failure) (hold : r.AllOld w s.toFolder) :
    r.AllOrNothing w (.error failure s) ↔
      ∀ p ∈ r.packages, s.tree p .incoming = none ∧ s.tree p .previous = none :=
  ⟨fun h => h.2.2, fun h => ⟨hfault, .inr hold, h⟩⟩

/-- A failure while packages are staged. -/
theorem allOrNothing_stage_iff {failure : Point} {s : Progress Tree Manifest}
    {earlier later : List Str} {package : Str} (hnodup : r.packages.Nodup)
    (hfault : r.fault = some failure) (hs : Staging w s)
    (hpackages : r.packages = earlier ++ package :: later)
    (hfailure : failure = .fetch package ∨ failure = .unpack package)
    (hstaged : s.staged = earlier ++ [package]) :
    r.AllOrNothing w (.error failure (s.sweep .incoming s.staged)) ↔ r.Undoable w failure := by
  have htarget : ∀ p, (s.sweep .incoming s.staged).tree p .target = w.tree p .target := by
    simp [Progress.sweep_tree, hs.target]
  have hprevious : ∀ p, (s.sweep .incoming s.staged).tree p .previous = w.tree p .previous := by
    simp [Progress.sweep_tree, hs.previous]
  have hincoming : ∀ p ∈ r.packages, (s.sweep .incoming s.staged).tree p .incoming =
      if p ∈ later then w.tree p .incoming else none := by
    intro p hp
    rw [Progress.sweep_tree]
    by_cases hmem : p ∈ s.staged
    · have hlater : p ∉ later := by
        intro hl
        rw [hpackages, ← List.singleton_append, ← List.append_assoc, ← hstaged] at hnodup
        exact List.disjoint_of_nodup_append hnodup hmem hl
      rw [if_pos ⟨hmem, rfl⟩, if_neg hlater]
    · have hlater : p ∈ later := by
        rw [hpackages, ← List.singleton_append, ← List.append_assoc, ← hstaged] at hp
        exact (List.mem_append.mp hp).resolve_left hmem
      rw [if_neg (fun hc => hmem hc.1), if_pos hlater, hs.incoming p hmem]
  rw [allOrNothing_error_iff hfault
    ⟨fun p _ => htarget p, by rw [Progress.sweep_manifest, hs.manifest]⟩]
  have hundoable : r.Undoable w failure ↔ ∀ earlier later,
      r.packages = earlier ++ package :: later →
      (∀ p ∈ r.packages, w.tree p .previous = none) ∧ ∀ p ∈ later, w.tree p .incoming = none := by
    rcases hfailure with rfl | rfl <;> rfl
  rw [hundoable]
  constructor
  · intro h earlier' later' h'
    obtain rfl := later_unique hnodup hpackages h'
    refine ⟨fun p hp => (hprevious p).symm.trans (h p hp).2, fun p hp => ?_⟩
    have hmem : p ∈ r.packages := by
      rw [hpackages]
      exact List.mem_append_right _ (List.mem_cons_of_mem _ hp)
    have hnone := (h p hmem).1
    rwa [hincoming p hmem, if_pos hp] at hnone
  · intro h p hp
    obtain ⟨hprev, hinc⟩ := h earlier later hpackages
    refine ⟨?_, (hprevious p).trans (hprev p hp)⟩
    rw [hincoming p hp]
    split_ifs with hl
    · exact hinc p hl
    · rfl

/-- A failure while packages are swapped. -/
theorem allOrNothing_promote_iff {failure : Point} {s : Progress Tree Manifest}
    (hnodup : r.packages.Nodup) (hfault : r.fault = some failure) (h : Undone r w failure s) :
    r.AllOrNothing w (.error failure s) ↔ r.Undoable w failure := by
  obtain ⟨earlier, package, later, hpackages, ⟨hfailure, hmanifest, htree⟩ | ⟨rfl, hold, hprev⟩⟩ := h
  · rw [allOrNothing_error_iff hfault ⟨fun p hp => (htree p hp).1, hmanifest⟩]
    have hundoable : r.Undoable w failure ↔ ∀ earlier later,
        r.packages = earlier ++ package :: later → ∀ p ∈ later, w.tree p .previous = none := by
      rcases hfailure with ⟨rfl, hsome⟩ | rfl | rfl
      · exact imp_iff_right hsome
      · rfl
      · rfl
    rw [hundoable]
    constructor
    · intro hclean earlier' later' h' p hp
      obtain rfl := later_unique hnodup hpackages h'
      have hmem : p ∈ r.packages := by
        rw [hpackages]
        exact List.mem_append_right _ (List.mem_cons_of_mem _ hp)
      have hnone := (hclean p hmem).2
      rwa [(htree p hmem).2.2, if_pos hp] at hnone
    · intro hclear p hp
      refine ⟨(htree p hp).2.1, ?_⟩
      rw [(htree p hp).2.2]
      split_ifs with hl
      · exact hclear earlier later hpackages p hl
      · rfl
  · -- the old tree lies in a backup that nothing points to
    have hmem : package ∈ r.packages := by
      rw [hpackages]
      exact List.mem_append_right _ List.mem_cons_self
    refine iff_of_false (fun hall => ?_) (fun hnone => ?_)
    · have hnone := (hall.2.2 package hmem).2
      rw [hprev] at hnone
      rw [hnone] at hold
      cases hold
    · rw [hnone hmem] at hold
      cases hold

/-- Behind the swap, every tree is the new one. -/
theorem allOrNothing_finish_iff {s : Progress Tree Manifest} (hmanifest : s.manifest = w.manifest)
    (htree : ∀ p ∈ r.packages, s.tree p .target = some (r.fresh p) ∧ s.tree p .incoming = none ∧
      s.tree p .previous = none) :
    r.AllOrNothing w (r.finish s) ↔
      ∀ point ∈ [Point.merge, .truncate, .write], r.fault = some point → r.Undoable w point := by
  have hread : r.packages.map (fun p => s.tree p .target) =
      r.packages.map fun p => some (r.fresh p) := List.map_congr_left fun p hp => (htree p hp).1
  have hnew : r.AllNew w (r.written s).toFolder :=
    ⟨fun p hp => (htree p hp).1, by rw [written, newManifest, hread, hmanifest]⟩
  have hclean : ∀ p ∈ r.packages, s.tree p .incoming = none ∧ s.tree p .previous = none :=
    fun p hp => (htree p hp).2
  -- the trees are the old ones only where nothing was new
  have hsame : (∀ p ∈ r.packages, s.tree p .target = w.tree p .target) ↔
      ∀ p ∈ r.packages, w.tree p .target = some (r.fresh p) := by
    refine forall₂_congr fun p hp => ?_
    rw [(htree p hp).1, eq_comm]
  have hmissed : ∀ (point : Point) (manifest : Manifest), r.fault = some point →
      (r.AllOrNothing w (.error point { s with manifest }) ↔
        manifest = r.newManifest w ∨
          manifest = w.manifest ∧ ∀ p ∈ r.packages, w.tree p .target = some (r.fresh p)) := by
    intro point manifest hfault
    constructor
    · rintro ⟨-, hnew | hold, -⟩
      · exact .inl hnew.2
      · exact .inr ⟨hold.2, hsame.mp hold.1⟩
    · rintro (hnew | ⟨hold, htrees⟩)
      · exact ⟨hfault, .inl ⟨fun p hp => (htree p hp).1, hnew⟩, hclean⟩
      · exact ⟨hfault, .inr ⟨hsame.mpr htrees, hold⟩, hclean⟩
  have hunchanged : ∀ point : Point, r.fault = some point →
      (r.AllOrNothing w (.error point s) ↔ r.newManifest w = w.manifest ∨
        ∀ p ∈ r.packages, w.tree p .target = some (r.fresh p)) := by
    intro point hfault
    have h := hmissed point w.manifest hfault
    rw [← hmanifest] at h ⊢
    refine h.trans ?_
    rw [eq_comm, and_iff_right rfl]
  rw [finish]
  split_ifs with hmerge htruncate hwrite hreport
  · rw [hunchanged _ hmerge]
    simp [hmerge, Undoable]
  · rw [hunchanged _ htruncate]
    simp [htruncate, Undoable]
  · rw [hmissed _ _ hwrite]
    simp [hwrite, Undoable]
  · refine iff_of_true ⟨hreport, .inl hnew, hclean⟩ ?_
    simp [hreport]
  · refine iff_of_true hnew ?_
    simp [hmerge, htruncate, hwrite]

/-- A run is all or nothing exactly when the point it fails at can be undone. -/
theorem main_allOrNothing_iff (hnodup : r.packages.Nodup) (w : Folder Tree Manifest) :
    r.AllOrNothing w (r.result w) ↔
      ∀ point, r.fault = some point → r.Undoable w point := by
  rw [result_eq]
  split_ifs with hpins
  · have hold : r.AllOld w (start w).toFolder := ⟨fun _ _ => rfl, rfl⟩
    rw [forall_fault_iff hpins, allOrNothing_error_iff hpins hold]
    rfl
  · have hstage := stageEach_spec (r := r) (w := w) (s := start w)
      ⟨rfl, rfl, fun _ => rfl, fun _ => rfl, fun _ _ => rfl⟩
      (fun p hp => absurd hp List.not_mem_nil) hnodup
    cases hres : r.stageEach r.packages (start w) with
    | error failure s =>
      rw [hres] at hstage
      obtain ⟨hfault, hs, earlier, package, later, hpackages, hfailure, hstaged⟩ := hstage
      rw [forall_fault_iff hfault]
      exact allOrNothing_stage_iff hnodup hfault hs hpackages hfailure hstaged
    | ok u s =>
      rw [hres] at hstage
      obtain ⟨hs, hstaged, hfresh, hstageless⟩ := hstage
      dsimp only
      have hstaged' : s.staged = r.packages := hstaged
      have hpromote := promote_spec ⟨hs, hstaged', hstaged' ▸ hfresh⟩ hnodup
      cases hres' : r.promote s with
      | error failure s' =>
        rw [hres'] at hpromote
        rw [forall_fault_iff hpromote.1]
        exact allOrNothing_promote_iff hnodup hpromote.1 hpromote.2
      | ok u s' =>
        rw [hres'] at hpromote
        obtain ⟨hmanifest, htree, hswapless⟩ := hpromote
        have hlist : ∀ {earlier package later}, r.packages = earlier ++ package :: later →
            package ∈ r.packages := by
          intro earlier package later h
          rw [h]
          exact List.mem_append_right _ List.mem_cons_self
        refine (allOrNothing_finish_iff hmanifest htree).trans ⟨fun h point hfault => ?_,
          fun h point _ => h point⟩
        -- the points that were passed did not fail
        cases point with
        | pins => exact absurd hfault hpins
        | fetch p => exact fun _ _ hp => absurd hfault (hstageless p (hlist hp)).1
        | unpack p => exact fun _ _ hp => absurd hfault (hstageless p (hlist hp)).2
        | backup p => exact fun hold _ _ hp => absurd hfault ((hswapless p (hlist hp)).2.2 hold).1
        | backedUp p =>
          intro hp
          by_contra hold
          exact absurd hfault ((hswapless p hp).2.2 (Option.isSome_iff_ne_none.mpr hold)).2
        | swap p => exact fun _ _ hp => absurd hfault (hswapless p (hlist hp)).1
        | swapped p => exact fun _ _ hp => absurd hfault (hswapless p (hlist hp)).2.1
        | merge => exact h _ (by simp) hfault
        | truncate => exact h _ (by simp) hfault
        | write => exact h _ (by simp) hfault
        | report => trivial

end Run

end

/-! ## A marker that is not supported -/

/-- The packages that are vendored, at a new version each; the manifest lists the versions. -/
def bump (fault : Option Point) : Run ℕ (List (Option ℕ)) where
  packages := [str "fastmcp", str "mcp", str "mcp_types"]
  fresh _ := 2
  torn _ := 0
  merged _ trees := trees
  emptied := []
  fault

/-- The folder of the version before. -/
def released : Folder ℕ (List (Option ℕ)) where
  tree _
    | .target => some 1
    | _ => none
  manifest := [some 1, some 1, some 1]

theorem main_allOrNothing_iff_bump :
    (bump (some (.swap "mcp"))).AllOrNothing released
        ((bump (some (.swap "mcp"))).result released) ↔
      ∀ point, (bump (some (.swap "mcp"))).fault = some point →
        (bump (some (.swap "mcp"))).Undoable released point :=
  Run.main_allOrNothing_iff (by decide) released

/-- Where merging the requirements fails, the new trees stay with the old manifest. -/
theorem not_allOrNothing_bump :
    ¬ (bump (some .merge)).AllOrNothing released ((bump (some .merge)).result released) := by
  intro h
  obtain ⟨-, hnew | hold, -⟩ := h
  · exact absurd hnew.2 (by decide)
  · exact absurd (hold.1 "mcp" (by decide)) (by decide)

end EsphomeMcp.Vendor
