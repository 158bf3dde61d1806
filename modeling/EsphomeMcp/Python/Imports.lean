import EsphomeMcp.Python.Lines
import Mathlib.Data.Set.Insert

/-!
# The import system

The modules of a program, their `import` statements as `ast` names them, and what running one
does to `sys.modules` and to the namespaces, as the language reference has it. The rest of the
code of a module is a step on the same state.

A `Relocation` moves some top-level packages below another package, and a `Scope` names the other
packages that these reach. `Related` says of two runs that they are at the same point, one with the
packages in their own place and one with the copies, and `loads_copy` that loading any module in
scope keeps them there when every copy has its imports rewritten.
-/

namespace Py.Imports

/-- The dotted name of a module, split at the dots. -/
abbrev ModulePath := List Str

/-- What a name is bound to. -/
inductive Object (V : Type) where
  | module (path : ModulePath)
  | value (v : V)

/-- `ast.alias`. -/
structure Alias where
  name : Str
  asname : Option Str

/-- `ast.Import` and `ast.ImportFrom`. -/
inductive ImportNode where
  | plain (names : List Alias)
  | importFrom (module : Option Str) (names : List Alias) (level : ℕ)

/-- `name.split(".")`. -/
def modulePath (name : Str) : ModulePath := name.splitOn (ch '.')

/-- `name.split(".")[0]`. -/
def topOf (name : Str) : Str := (modulePath name).headD []

/-- The name a member is bound to. -/
def Alias.bound (a : Alias) : Str := a.asname.getD a.name

/-! ## Running -/

/-- `sys.modules`, and the namespaces of the modules. -/
structure Interp (V : Type) where
  loaded : ModulePath → Bool
  attrs : ModulePath → Str → Option (Object V)

/-- The exceptions that an `except` clause tells apart. -/
inductive Raised (V : Type) where
  /-- `ModuleNotFoundError`. -/
  | notFound
  /-- Any other `ImportError`. -/
  | cannotImport
  /-- The `AttributeError` of a name that `__all__` lists in vain. -/
  | noAttribute
  /-- What the rest of the code raises. -/
  | value (v : V)

/-- How a piece of code ends; `deep` where the nesting of imports is followed no further. -/
inductive Outcome (V : Type) where
  | done (s : Interp V)
  | raised (e : Raised V) (s : Interp V)
  | deep

/-- The code of a module: its imports, and steps on the namespaces. -/
inductive Code (V : Type) where
  | skip
  | seq (first second : Code V)
  | node (n : ImportNode)
  /-- `try` with its `except` clauses: which errors they catch, and what handles one. -/
  | attempt (body : Code V) (catches : Raised V → Bool) (handler : Raised V → Code V)
  | branch (test : ModulePath → Interp V → Bool) (yes no : Code V)
  | other (f : ModulePath → Interp V → Outcome V)

/-- A module that can be found. -/
structure Module (V : Type) where
  isPackage : Bool
  code : Code V

variable {V : Type}

/-- Go on where nothing is raised. -/
def Outcome.andThen : Outcome V → (Interp V → Outcome V) → Outcome V
  | done s, f => f s
  | raised e s, _ => raised e s
  | deep, _ => deep

/-- Go on with the handler where something is raised that is caught. -/
def Outcome.orElse (catches : Raised V → Bool) :
    Outcome V → (Raised V → Interp V → Outcome V) → Outcome V
  | raised e s, f => if catches e then f e s else raised e s
  | done s, _ => done s
  | deep, _ => deep

theorem Outcome.andThen_assoc (o : Outcome V) (f g : Interp V → Outcome V) :
    (o.andThen f).andThen g = o.andThen fun s => (f s).andThen g := by
  cases o <;> rfl

@[simp] theorem Outcome.done_andThen (s : Interp V) (f : Interp V → Outcome V) :
    (done s).andThen f = f s := rfl

@[simp] theorem Outcome.andThen_done (o : Outcome V) : o.andThen .done = o := by
  cases o <;> rfl

namespace Interp

/-- Give a module another namespace. -/
def setNames (s : Interp V) (here : ModulePath) (ns : Str → Option (Object V)) : Interp V where
  loaded := s.loaded
  attrs p := if p = here then ns else s.attrs p

/-- Bind a name in the namespace of a module. -/
def bind (s : Interp V) (here : ModulePath) (name : Str) (o : Object V) : Interp V :=
  s.setNames here fun n => if n = name then some o else s.attrs here n

/-- Put a module in `sys.modules`, or take it out. -/
def mark (s : Interp V) (q : ModulePath) (there : Bool) : Interp V where
  loaded p := if p = q then there else s.loaded p
  attrs := s.attrs

/-- A new module goes to `sys.modules` before its code runs. -/
def start (s : Interp V) (q : ModulePath) : Interp V := (s.mark q true).setNames q fun _ => none

/-- The code has run: the module becomes an attribute of its parent. -/
def attach (s : Interp V) (q : ModulePath) : Interp V :=
  if q.dropLast = [] then s.mark q true
  else (s.mark q true).bind q.dropLast (q.getLastD []) (.module q)

/-- The attribute of a module, or the submodule of that name in `sys.modules`. -/
def member (s : Interp V) (m : ModulePath) (name : Str) : Option (Object V) :=
  match s.attrs m name with
  | some o => some o
  | none => if s.loaded (m ++ [name]) then some (.module (m ++ [name])) else none

end Interp

/-- What is left of a module when its code has ended. -/
def Outcome.finish (q : ModulePath) : Outcome V → Outcome V
  | done s => .done (s.attach q)
  | raised e s => .raised e (s.mark q false)
  | deep => .deep

section

-- what `__all__` lists, which modules are found, and how one is loaded
variable (allNames : V → List Str) (found : ModulePath → Bool)
  (load : ModulePath → Interp V → Outcome V)

/-- Load the modules in order. -/
def importPrefixes : List ModulePath → Interp V → Outcome V
  | [], s => .done s
  | q :: qs, s => (load q s).andThen (importPrefixes qs)

/-- Load a module, its parents first. -/
def importPath (p : ModulePath) (s : Interp V) : Outcome V := importPrefixes load p.inits.tail s

/-- Load a submodule if there is one. -/
def loadSub (p : ModulePath) (s : Interp V) : Outcome V :=
  if found p || s.loaded p then load p s else .done s

/-- `from m import name as bound`, with `m` loaded; `missing` is raised where there is no such name. -/
def bindMember (missing : Raised V) (here m : ModulePath) (name bound : Str) (s : Interp V) :
    Outcome V :=
  match s.attrs m name with
  | some o => .done (s.bind here bound o)
  -- perhaps a submodule that is not loaded yet, or one whose code is still running
  | none => (loadSub found load (m ++ [name]) s).andThen fun s =>
      match s.member m name with
      | some o => .done (s.bind here bound o)
      | none => .raised missing s

/-- Bind members one after the other. -/
def bindMembers (missing : Raised V) (here m : ModulePath) : List Alias → Interp V → Outcome V
  | [], s => .done s
  | a :: as, s => (bindMember found load missing here m a.name a.bound s).andThen
      (bindMembers missing here m as)

/-- A name that `*` takes from a module without `__all__`. -/
def isPublic (name : Str) : Bool := name.head? ≠ some (ch '_')

/-- `from m import *`, with `m` loaded. -/
def bindStar (here m : ModulePath) (s : Interp V) : Outcome V :=
  match s.attrs m "__all__" with
  | some (.value v) =>
    bindMembers found load .noAttribute here m ((allNames v).map fun n => ⟨n, none⟩) s
  | _ => .done (s.setNames here fun n =>
      if isPublic n && (s.attrs m n).isSome then s.attrs m n else s.attrs here n)

/-- The names of a `from`, with `m` loaded. -/
def bindNames (here m : ModulePath) (names : List Alias) (s : Interp V) : Outcome V :=
  if names.map Alias.name = [str "*"] then bindStar allNames found load here m s
  else bindMembers found load .cannotImport here m names s

/-- One name of an `import` statement; without `as` the top-level package is looked up again. -/
def importAlias (here : ModulePath) (a : Alias) (s : Interp V) : Outcome V :=
  (importPath load (modulePath a.name) s).andThen fun s =>
    match a.asname with
    | some bound => .done (s.bind here bound (.module (modulePath a.name)))
    | none => (load [topOf a.name] s).andThen fun s =>
        .done (s.bind here (topOf a.name) (.module [topOf a.name]))

/-- The names of an `import` statement. -/
def importAliases (here : ModulePath) : List Alias → Interp V → Outcome V
  | [], s => .done s
  | a :: as, s => (importAlias load here a s).andThen (importAliases here as)

/-- The module a `from` names. -/
def fromPath (here : ModulePath) (isPackage : Bool) (module : Option Str) (level : ℕ) :
    Option ModulePath :=
  let tail := (module.map modulePath).getD []
  let package := if isPackage then here else here.dropLast
  if level = 0 then some tail
  else if package.length < level then none
  else some (package.take (package.length - (level - 1)) ++ tail)

/-- Run an import statement. -/
def runNode (here : ModulePath) (isPackage : Bool) : ImportNode → Interp V → Outcome V
  | .plain names, s => importAliases load here names s
  | .importFrom module names level, s =>
    match fromPath here isPackage module level with
    -- a relative name beyond the top-level package
    | none => .raised .cannotImport s
    | some m => (importPath load m s).andThen fun s =>
        bindNames allNames found load here m names s

/-- Run import statements in order. -/
def runNodes (here : ModulePath) (isPackage : Bool) : List ImportNode → Interp V → Outcome V
  | [], s => .done s
  | n :: ns, s =>
    (runNode allNames found load here isPackage n s).andThen (runNodes here isPackage ns)

/-- Run the code of a module. -/
def Code.run (here : ModulePath) (isPackage : Bool) : Code V → Interp V → Outcome V
  | skip, s => .done s
  | seq first second, s => (first.run here isPackage s).andThen (second.run here isPackage)
  | node n, s => runNode allNames found load here isPackage n s
  | attempt body catches handler, s =>
    (body.run here isPackage s).orElse catches fun e => (handler e).run here isPackage
  | branch test yes no, s =>
    if test here s then yes.run here isPackage s else no.run here isPackage s
  | other f, s => f here s

end

/-- Load a module whose parents are loaded, with at most `fuel` modules inside one another. -/
def load (allNames : V → List Str) (w : ModulePath → Option (Module V)) :
    ℕ → ModulePath → Interp V → Outcome V
  | 0, q, s => if s.loaded q then .done s else if (w q).isNone then .raised .notFound s else .deep
  | fuel + 1, q, s =>
    -- a module whose code is running counts as loaded: imports in a circle end here
    if s.loaded q then .done s
    else match w q with
      | none => .raised .notFound s
      | some m =>
        (m.code.run allNames (fun p => (w p).isSome) (load allNames w fuel) q m.isPackage
          (s.start q)).finish q

/-! ## Relocation -/

/-- Top-level packages that are moved below the package `hostName`. -/
structure Relocation where
  moved : Str → Bool
  hostName : Str
  stays : moved (topOf hostName) = false
  noStar : moved (str "*") = false

namespace Relocation

variable (r : Relocation)

/-- The package the moved ones are below. -/
def host : ModulePath := modulePath r.hostName

/-- Its top-level package. -/
def root : Str := topOf r.hostName

/-- A module of a moved package, under its own name. -/
def Moves (p : ModulePath) : Prop := ∃ t ∈ p.head?, r.moved t = true

/-- Where a module is to be found. -/
def place (p : ModulePath) : ModulePath :=
  match p with
  | [] => []
  | t :: rest => if r.moved t then r.host ++ t :: rest else t :: rest

/-- The counterpart of an object. -/
def object : Object V → Object V
  | .module p => .module (r.place p)
  | .value v => .value v

/-- The name of a module below the host. -/
def hosted (name : Str) : Str := r.hostName ++ ch '.' :: name

/-- The statements for one name of an `import` statement. -/
def relocateAlias (a : Alias) : List ImportNode :=
  if !r.moved (topOf a.name) then [.plain [a]]
  else
    match a.asname with
    | some bound => [.plain [⟨r.hosted a.name, some bound⟩]]
    | none =>
      (if a.name ≠ topOf a.name then [.plain [⟨r.hosted a.name, none⟩]] else []) ++
        [.importFrom (some r.hostName) [⟨topOf a.name, none⟩] 0]

/-- The statements an import statement becomes. -/
def relocateNode : ImportNode → List ImportNode
  | .plain names =>
    if names.any fun a => r.moved (topOf a.name) then names.flatMap r.relocateAlias
    else [.plain names]
  | .importFrom (some m) names 0 =>
    if r.moved (topOf m) then [.importFrom (some (r.hosted m)) names 0]
    else [.importFrom (some m) names 0]
  | n => [n]

/-- The code with its imports relocated. -/
def relocateCode : Code V → Code V
  | .skip => .skip
  | .seq first second => .seq (relocateCode first) (relocateCode second)
  | .node n => (r.relocateNode n).foldr (fun n code => .seq (.node n) code) .skip
  | .attempt body catches handler =>
    .attempt (relocateCode body) catches fun e => relocateCode (handler e)
  | .branch test yes no => .branch test (relocateCode yes) (relocateCode no)
  | .other f => .other f

end Relocation

/-- A relocation with the top-level packages that are followed: those that are moved and what they
reach. The top-level package of the host is none of them. -/
structure Scope extends Relocation where
  follows : Str → Prop
  follows_moved : ∀ t, moved t = true → follows t
  not_follows_root : ¬follows (topOf hostName)

/-- A module of a package that is followed. -/
def Scope.Covers (r : Scope) (p : ModulePath) : Prop := ∃ t ∈ p.head?, r.follows t

theorem runNodes_append (allNames : V → List Str) (found : ModulePath → Bool)
    (load : ModulePath → Interp V → Outcome V) (here : ModulePath) (isPackage : Bool)
    (ms ns : List ImportNode) (s : Interp V) :
    runNodes allNames found load here isPackage (ms ++ ns) s =
      (runNodes allNames found load here isPackage ms s).andThen
        (runNodes allNames found load here isPackage ns) := by
  induction ms generalizing s with
  | nil => rfl
  | cons m ms ih =>
    rw [List.cons_append, runNodes, runNodes, Outcome.andThen_assoc]
    exact congrArg _ (funext ih)

theorem run_foldr_node (allNames : V → List Str) (found : ModulePath → Bool)
    (load : ModulePath → Interp V → Outcome V) (here : ModulePath) (isPackage : Bool)
    (ns : List ImportNode) (s : Interp V) :
    (ns.foldr (fun n code => Code.seq (.node n) code) .skip).run allNames found load here isPackage
        s = runNodes allNames found load here isPackage ns s := by
  induction ns generalizing s with
  | nil => rfl
  | cons n ns ih =>
    rw [List.foldr_cons, Code.run, runNodes]
    exact congrArg _ (funext ih)

/-! ## Two runs at the same point -/

/-- Two runs end alike, at states that are related. -/
inductive Agree (R : Interp V → Interp V → Prop) : Outcome V → Outcome V → Prop where
  | done {s s' : Interp V} (h : R s s') : Agree R (.done s) (.done s')
  | raised (e : Raised V) {s s' : Interp V} (h : R s s') : Agree R (.raised e s) (.raised e s')
  | deep : Agree R .deep .deep

theorem Agree.andThen {R : Interp V → Interp V → Prop} {o o' : Outcome V} (h : Agree R o o')
    {f f' : Interp V → Outcome V} (hf : ∀ s s', R s s' → Agree R (f s) (f' s')) :
    Agree R (o.andThen f) (o'.andThen f') := by
  cases h with
  | done h => exact hf _ _ h
  | raised e h => exact .raised e h
  | deep => exact .deep

theorem Agree.orElse {R : Interp V → Interp V → Prop} {o o' : Outcome V} (h : Agree R o o')
    (catches : Raised V → Bool) {f f' : Raised V → Interp V → Outcome V}
    (hf : ∀ e s s', R s s' → Agree R (f e s) (f' e s')) :
    Agree R (o.orElse catches f) (o'.orElse catches f') := by
  cases h with
  | done h => exact .done h
  | raised e h =>
    simp only [Outcome.orElse]
    split_ifs
    · exact hf e _ _ h
    · exact .raised e h
  | deep => exact .deep

/-- Two runs that end as a third one does end alike. -/
theorem Agree.trans {R R' : Interp V → Interp V → Prop} {o o₁ o₂ : Outcome V}
    (h₁ : Agree R o o₁) (h₂ : Agree R' o o₂) : Agree (fun t t' => ∃ s, R s t ∧ R' s t') o₁ o₂ := by
  cases h₁ with
  | done h₁ =>
    cases h₂ with
    | done h₂ => exact .done ⟨_, h₁, h₂⟩
  | raised e h₁ =>
    cases h₂ with
    | raised _ h₂ => exact .raised e ⟨_, h₁, h₂⟩
  | deep =>
    cases h₂ with
    | deep => exact .deep

theorem Agree.mono {R R' : Interp V → Interp V → Prop} {o o' : Outcome V} (h : Agree R o o')
    (hR : ∀ s s', R s s' → R' s s') : Agree R' o o' := by
  cases h with
  | done h => exact .done (hR _ _ h)
  | raised e h => exact .raised e (hR _ _ h)
  | deep => exact .deep

/-- The state with the packages in their own place, and the one with the copies. The moved
packages that are being loaded are no attribute of the host yet, and what else is below their own
names is as it was. -/
structure Related (r : Scope) (base : Interp V) (running : Set Str) (s s' : Interp V) :
    Prop where
  loaded : ∀ p, r.Covers p → s'.loaded (r.place p) = s.loaded p
  attrs : ∀ p n, r.Covers p → n ≠ r.root → s'.attrs (r.place p) n = (s.attrs p n).map r.object
  host : ∀ q ∈ r.host.inits.tail, s'.loaded q = true
  slot : ∀ t, r.moved t = true → s'.attrs r.host t = none ∨
    s'.attrs r.host t = some (.module (r.host ++ [t])) ∧ s'.loaded (r.host ++ [t]) = true
  running : ∀ t ∈ running, s'.attrs r.host t = none ∧ s.loaded [t] = true
  apart : ∀ p, r.Moves p → s'.loaded p = base.loaded p ∧ s'.attrs p = base.attrs p

/-- A statement names modules that are followed only. -/
def ImportNode.Fits (r : Scope) (here : ModulePath) (isPackage : Bool) : ImportNode → Prop
  | plain names => ∀ a ∈ names, r.Covers (modulePath a.name)
  | importFrom module names level => (∀ a ∈ names, a.name ≠ r.root) ∧
      ∃ m, fromPath here isPackage module level = some m ∧ r.Covers m

/-- The imports fit, and the rest of the code does the same whatever its modules are called. -/
def Code.Fits (r : Scope) (base : Interp V) (here : ModulePath) (isPackage : Bool) :
    Code V → Prop
  | skip => True
  | seq first second => first.Fits r base here isPackage ∧ second.Fits r base here isPackage
  | node n => n.Fits r here isPackage
  | attempt body _ handler =>
    body.Fits r base here isPackage ∧ ∀ e, (handler e).Fits r base here isPackage
  | branch test yes no =>
    (∀ running s s', Related r base running s s' → test (r.place here) s' = test here s) ∧
      yes.Fits r base here isPackage ∧ no.Fits r base here isPackage
  | other f => ∀ running s s', Related r base running s s' →
      Agree (Related r base running) (f here s) (f (r.place here) s')

/-! ## Places -/

theorem modulePath_ne_nil (name : Str) : modulePath name ≠ [] := by
  simp [modulePath, List.splitOn_ne_nil]

namespace Relocation

variable {r : Relocation} {p q : ModulePath} {t : Str}

theorem host_eq (r : Relocation) : ∃ rest, r.host = r.root :: rest := by
  cases h : modulePath r.hostName with
  | nil => exact absurd h (modulePath_ne_nil _)
  | cons t rest => exact ⟨rest, by simp [host, Relocation.root, topOf, h]⟩

theorem moved_root (r : Relocation) : r.moved r.root = false := r.stays

theorem place_cons_of_moved (h : r.moved t = true) : r.place (t :: p) = r.host ++ t :: p := by
  simp [place, h]

theorem place_cons_of_not_moved (h : r.moved t = false) : r.place (t :: p) = t :: p := by
  simp [place, h]

theorem not_moves_cons (h : r.moved t = false) : ¬r.Moves (t :: p) := by
  rintro ⟨u, hu, hmoved⟩
  obtain rfl : t = u := by simpa using hu
  rw [h] at hmoved
  exact absurd hmoved (by simp)

/-- The host's own modules are below none of the moved packages' own names. -/
theorem not_moves_host (r : Relocation) : ¬r.Moves r.host := by
  obtain ⟨rest, hhost⟩ := r.host_eq
  rw [hhost]
  exact not_moves_cons r.moved_root

/-- The modules loaded on the way to a copy are the host's and the copies of those loaded on the
way to the module. -/
theorem inits_host_append (h : r.moved t = true) (p : ModulePath) :
    (r.host ++ t :: p).inits.tail = r.host.inits.tail ++ (t :: p).inits.tail.map r.place := by
  have hhost : r.host.inits ≠ [] := by
    intro hnil
    have := congrArg List.length hnil
    simp at this
  rw [List.inits_append, List.tail_append_of_ne_nil hhost, List.inits_cons, List.tail_cons,
    List.map_map, List.map_map]
  congr 1
  refine List.map_congr_left fun q _ => ?_
  exact (place_cons_of_moved h).symm

theorem map_place_inits (h : r.moved t = false) :
    (t :: p).inits.tail.map r.place = (t :: p).inits.tail := by
  rw [List.inits_cons, List.tail_cons, List.map_map]
  refine List.map_congr_left fun q _ => ?_
  exact place_cons_of_not_moved h

end Relocation

namespace Scope

open Relocation

variable {r : Scope} {p q : ModulePath} {t : Str}

@[simp] theorem covers_cons : r.Covers (t :: p) ↔ r.follows t := by simp [Covers]

theorem covers_of_moved (h : r.moved t = true) : r.Covers (t :: p) :=
  covers_cons.mpr (r.follows_moved t h)

theorem Covers.ne_nil (h : r.Covers p) : p ≠ [] := by
  rintro rfl
  obtain ⟨t, ht, -⟩ := h
  cases ht

theorem ne_root_of_follows (h : r.follows t) : t ≠ r.root := by
  rintro rfl
  exact r.not_follows_root h

/-- The two kinds of modules. -/
theorem Covers.cases (h : r.Covers p) : ∃ t rest, p = t :: rest ∧ t ≠ r.root ∧
    (r.moved t = true ∧ r.place p = r.host ++ p ∨ r.moved t = false ∧ r.place p = p) := by
  obtain ⟨t, rest, rfl⟩ := List.exists_cons_of_ne_nil h.ne_nil
  refine ⟨t, rest, rfl, ne_root_of_follows (covers_cons.mp h), ?_⟩
  cases hmoved : r.moved t with
  | true => exact .inl ⟨rfl, place_cons_of_moved hmoved⟩
  | false => exact .inr ⟨rfl, place_cons_of_not_moved hmoved⟩

theorem Covers.append (h : r.Covers p) (q : ModulePath) : r.Covers (p ++ q) := by
  obtain ⟨t, rest, rfl⟩ := List.exists_cons_of_ne_nil h.ne_nil
  exact covers_cons.mpr (covers_cons.mp h)

/-- A module is covered with the packages it is in. -/
theorem Covers.of_append (h : r.Covers (p ++ q)) (hp : p ≠ []) : r.Covers p := by
  obtain ⟨t, rest, rfl⟩ := List.exists_cons_of_ne_nil hp
  exact covers_cons.mpr (covers_cons.mp h)

theorem Covers.place_append (h : r.Covers p) (q : ModulePath) :
    r.place (p ++ q) = r.place p ++ q := by
  obtain ⟨t, rest, rfl, -, ⟨hmoved, hplace⟩ | ⟨hmoved, hplace⟩⟩ := h.cases
  · rw [hplace, List.cons_append, place_cons_of_moved hmoved]
    simp
  · rw [hplace, List.cons_append, place_cons_of_not_moved hmoved]

/-- Modules outside the host have places of their own. -/
theorem Covers.place_inj (hp : r.Covers p) (hq : r.Covers q) :
    r.place p = r.place q ↔ p = q := by
  refine ⟨fun h => ?_, congrArg _⟩
  obtain ⟨rest, hhost⟩ := r.host_eq
  obtain ⟨t, p', rfl, ht, ⟨-, hpp⟩ | ⟨-, hpp⟩⟩ := hp.cases <;>
    obtain ⟨u, q', rfl, hu, ⟨-, hqq⟩ | ⟨-, hqq⟩⟩ := hq.cases <;> rw [hpp, hqq] at h
  · exact List.append_cancel_left h
  · rw [hhost] at h
    exact absurd (List.cons.inj h).1.symm hu
  · rw [hhost] at h
    exact absurd (List.cons.inj h).1 ht
  · exact h

/-- No place is that of the host, and none is below a moved package's own name. -/
theorem Covers.place_ne (hp : r.Covers p) : r.place p ≠ r.host ∧ ¬r.Moves (r.place p) := by
  obtain ⟨rest, hhost⟩ := r.host_eq
  obtain ⟨t, p', rfl, ht, ⟨hmoved, hpp⟩ | ⟨hmoved, hpp⟩⟩ := hp.cases
  · rw [hpp]
    refine ⟨fun h => by simpa using congrArg List.length h, ?_⟩
    rw [hhost]
    exact not_moves_cons r.moved_root
  · rw [hpp]
    refine ⟨fun h => ?_, not_moves_cons hmoved⟩
    rw [hhost] at h
    exact ht (List.cons.inj h).1

/-- No place is that of a package the host is in. -/
theorem Covers.place_notMem (hp : r.Covers p) : r.place p ∉ r.host.inits.tail := by
  obtain ⟨rest, hhost⟩ := r.host_eq
  intro hmem
  rw [hhost, List.inits_cons, List.tail_cons, List.mem_map] at hmem
  obtain ⟨q, hq, heq⟩ := hmem
  obtain ⟨t, p', rfl, ht, ⟨-, hpp⟩ | ⟨-, hpp⟩⟩ := hp.cases
  · have hle := ((List.mem_inits q rest).mp hq).length_le
    have hlen := congrArg List.length heq
    rw [hpp, hhost] at hlen
    simp only [List.length_cons, List.length_append] at hlen
    omega
  · rw [hpp] at heq
    exact ht (List.cons.inj heq).1.symm

/-- What is put before a module is put before all modules of its package. -/
theorem Covers.exists_place (h : r.Covers p) : ∃ before, r.place p = before ++ p ∧
    ∀ q, q ≠ [] → q <+: p → ∀ tail, r.place (q ++ tail) = before ++ (q ++ tail) := by
  obtain ⟨t, rest, rfl, -, ⟨hmoved, hplace⟩ | ⟨hmoved, hplace⟩⟩ := h.cases
  · refine ⟨r.host, hplace, fun q hq hpre tail => ?_⟩
    obtain ⟨u, q, rfl⟩ := List.exists_cons_of_ne_nil hq
    obtain ⟨rfl, -⟩ := List.cons_prefix_cons.mp hpre
    exact place_cons_of_moved hmoved
  · refine ⟨[], hplace, fun q hq hpre tail => ?_⟩
    obtain ⟨u, q, rfl⟩ := List.exists_cons_of_ne_nil hq
    obtain ⟨rfl, -⟩ := List.cons_prefix_cons.mp hpre
    exact place_cons_of_not_moved hmoved

/-- A relative name leads from the counterpart to the counterpart. -/
theorem Covers.fromPath_place {here m : ModulePath} {isPackage : Bool} {module : Option Str}
    {level : ℕ} (hhere : r.Covers here) (hlevel : level ≠ 0)
    (h : fromPath here isPackage module level = some m) :
    fromPath (r.place here) isPackage module level = some (r.place m) := by
  obtain ⟨before, hplace, hplaces⟩ := hhere.exists_place
  obtain ⟨package, hpackage, hpackage', hpre⟩ : ∃ package,
      (if isPackage then here else here.dropLast) = package ∧
        (if isPackage then r.place here else (r.place here).dropLast) = before ++ package ∧
        package <+: here := by
    refine ⟨_, rfl, ?_, ?_⟩ <;> split_ifs
    · exact hplace
    · rw [hplace, List.dropLast_append_of_ne_nil hhere.ne_nil]
    · exact List.prefix_rfl
    · exact List.dropLast_prefix here
  simp only [fromPath, hpackage, hpackage', if_neg hlevel] at h ⊢
  split_ifs at h with hshort
  have hlong : level - 1 < package.length := by omega
  have hlength : (before ++ package).length - (level - 1) =
      before.length + (package.length - (level - 1)) := by
    rw [List.length_append]
    omega
  rw [if_neg (by rw [List.length_append]; omega), hlength, List.take_length_add_append,
    ← Option.some.inj h, List.append_assoc, hplaces]
  · intro hnil
    have := congrArg List.length hnil
    rw [List.length_take, List.length_nil] at this
    omega
  · exact (List.take_prefix _ _).trans hpre

theorem Covers.of_mem_inits (h : r.Covers p) : ∀ q ∈ p.inits.tail, r.Covers q := by
  obtain ⟨t, rest, rfl⟩ := List.exists_cons_of_ne_nil h.ne_nil
  intro q hq
  rw [List.inits_cons, List.tail_cons, List.mem_map] at hq
  obtain ⟨q, -, rfl⟩ := hq
  exact covers_cons.mpr (covers_cons.mp h)

end Scope

theorem modulePath_hosted (r : Relocation) (name : Str) :
    modulePath (r.hosted name) = r.host ++ modulePath name := by
  simp only [modulePath, Relocation.hosted, Relocation.host, List.splitOn_append_cons_self]

/-- A dotted name begins with its top-level package. -/
theorem modulePath_eq (name : Str) : ∃ rest, modulePath name = topOf name :: rest := by
  cases h : modulePath name with
  | nil => exact absurd h (modulePath_ne_nil _)
  | cons t rest => exact ⟨rest, by simp [topOf, h]⟩

theorem modulePath_of_top {name : Str} (h : name = topOf name) : modulePath name = [topOf name] := by
  obtain ⟨rest, hpath⟩ := modulePath_eq name
  have hmem : topOf name ∈ name.splitOn (ch '.') := by
    have : topOf name ∈ modulePath name := by simp [hpath]
    exact this
  have hdot : ch '.' ∉ name := by
    rw [h]
    exact not_mem_of_mem_splitOn hmem
  rw [← h, modulePath, List.splitOn_eq_singleton hdot]

/-! ## What keeps two runs together -/

section

variable {r : Scope} {base s s' : Interp V} {running : Set Str}
  {here m p q : ModulePath} {name : Str}

namespace Related

/-- A module and its counterpart get namespaces that correspond, but for the name of the host's
top-level package. -/
theorem setNames (h : Related r base running s s') (hhere : r.Covers here)
    {ns ns' : Str → Option (Object V)} (hns : ∀ n, n ≠ r.root → ns' n = (ns n).map r.object) :
    Related r base running (s.setNames here ns) (s'.setNames (r.place here) ns') := by
  obtain ⟨hhost, happart⟩ := hhere.place_ne
  have hslot (t : Str) : (s'.setNames (r.place here) ns').attrs r.host t = s'.attrs r.host t := by
    simp [Interp.setNames, Ne.symm hhost]
  refine ⟨h.loaded, fun p n hp hn => ?_, h.host, fun t ht => ?_, fun t ht => ?_, fun p hp => ?_⟩
  · simp only [Interp.setNames, hp.place_inj hhere]
    split_ifs
    · exact hns n hn
    · exact h.attrs p n hp hn
  · rw [hslot]
    exact h.slot t ht
  · rw [hslot]
    exact h.running t ht
  · have hne : p ≠ r.place here := fun heq => happart (heq ▸ hp)
    simpa [Interp.setNames, hne] using h.apart p hp

/-- A name is bound in a module and in its counterpart. -/
theorem bind (h : Related r base running s s') (hhere : r.Covers here) (name : Str)
    (o : Object V) :
    Related r base running (s.bind here name o) (s'.bind (r.place here) name (r.object o)) := by
  refine h.setNames hhere fun n hn => ?_
  split_ifs
  · rfl
  · exact h.attrs here n hhere hn

/-- The top-level package of the host may be bound besides. -/
theorem bind_root (h : Related r base running s s') (hhere : r.Covers here) (o : Object V) :
    Related r base running s (s'.bind (r.place here) r.root o) := by
  have hself : s.setNames here (s.attrs here) = s := by
    simp only [Interp.setNames]
    congr 1
    ext p
    split_ifs with hp
    · rw [hp]
    · rfl
  have hset : Related r base running (s.setNames here (s.attrs here))
      (s'.bind (r.place here) r.root o) := by
    refine h.setNames hhere fun n hn => ?_
    rw [if_neg hn]
    exact h.attrs here n hhere hn
  rwa [hself] at hset

theorem mark_true (h : Related r base running s s') (hq : r.Covers q) :
    Related r base running (s.mark q true) (s'.mark (r.place q) true) := by
  obtain ⟨hhost, happart⟩ := hq.place_ne
  refine ⟨fun p hp => ?_, h.attrs, fun p hp => ?_, fun t ht => ?_, fun t ht => ?_, fun p hp => ?_⟩
  · simp only [Interp.mark, hp.place_inj hq]
    split_ifs
    · rfl
    · exact h.loaded p hp
  · simp [Interp.mark, h.host p hp]
  · refine (h.slot t ht).imp_right fun hslot => ⟨hslot.1, ?_⟩
    simp [Interp.mark, hslot.2]
  · refine ⟨(h.running t ht).1, ?_⟩
    simp [Interp.mark, (h.running t ht).2]
  · have hne : p ≠ r.place q := fun heq => happart (heq ▸ hp)
    simpa [Interp.mark, hne] using h.apart p hp

/-- A module whose code raised leaves: it is no attribute of the host yet. -/
theorem mark_false (h : Related r base running s s') (hq : r.Covers q)
    (hslot : ∀ t, q = [t] → r.moved t = true → s'.attrs r.host t = none)
    (hrunning : ∀ t ∈ running, q ≠ [t]) :
    Related r base running (s.mark q false) (s'.mark (r.place q) false) := by
  obtain ⟨hhost, happart⟩ := hq.place_ne
  refine ⟨fun p hp => ?_, h.attrs, fun p hp => ?_, fun t ht => ?_, fun t ht => ?_, fun p hp => ?_⟩
  · simp only [Interp.mark, hp.place_inj hq]
    split_ifs
    · rfl
    · exact h.loaded p hp
  · have hne : p ≠ r.place q := fun heq => hq.place_notMem (heq ▸ hp)
    simpa [Interp.mark, hne] using h.host p hp
  · by_cases hqt : q = [t]
    · exact .inl (hslot t hqt ht)
    · refine (h.slot t ht).imp_right fun hthere => ⟨hthere.1, ?_⟩
      have hne : r.host ++ [t] ≠ r.place q := by
        rw [← Relocation.place_cons_of_moved ht,
          Ne, (Scope.covers_of_moved ht).place_inj hq]
        exact Ne.symm hqt
      simpa [Interp.mark, hne] using hthere.2
  · refine ⟨(h.running t ht).1, ?_⟩
    simpa [Interp.mark, Ne.symm (hrunning t ht)] using (h.running t ht).2
  · have hne : p ≠ r.place q := fun heq => happart (heq ▸ hp)
    simpa [Interp.mark, hne] using h.apart p hp

/-- The packages that are being loaded while the code of `q` runs. -/
def inside (r : Scope) (running : Set Str) (q : ModulePath) : Set Str :=
  {t | t ∈ running ∨ q = [t] ∧ r.moved t = true}

theorem start (h : Related r base running s s') (hq : r.Covers q) (hnew : s.loaded q = false) :
    Related r base (inside r running q) (s.start q) (s'.start (r.place q)) := by
  have hset : Related r base running (s.start q) (s'.start (r.place q)) :=
    (h.mark_true hq).setNames hq fun n _ => rfl
  refine ⟨hset.loaded, hset.attrs, hset.host, hset.slot, fun t ht => ?_, hset.apart⟩
  rcases ht with ht | ⟨rfl, ht⟩
  · exact hset.running t ht
  · -- a package that is not loaded is no attribute of the host
    have hhost := (hq.place_ne).1
    refine ⟨?_, by simp [Interp.start, Interp.mark, Interp.setNames]⟩
    rcases h.slot t ht with hslot | ⟨-, hslot⟩
    · simpa [Interp.start, Interp.mark, Interp.setNames, Ne.symm hhost] using hslot
    · rw [← Relocation.place_cons_of_moved ht, h.loaded _ hq, hnew] at hslot
      exact absurd hslot (by simp)

theorem outer (h : Related r base (inside r running q) s s') : Related r base running s s' :=
  ⟨h.loaded, h.attrs, h.host, h.slot, fun t ht => h.running t (.inl ht), h.apart⟩

theorem raised (h : Related r base (inside r running q) s s') (hq : r.Covers q)
    (hrunning : ∀ t ∈ running, q ≠ [t]) :
    Related r base running (s.mark q false) (s'.mark (r.place q) false) :=
  h.outer.mark_false hq (fun t hqt ht => (h.running t (.inr ⟨hqt, ht⟩)).1) hrunning

/-- A copy becomes an attribute of the host, where the package has no parent. -/
theorem attach_host {t : Str} (h : Related r base running s s') (ht : r.moved t = true)
    (hthere : s.loaded [t] = true) (hrunning : t ∉ running) :
    Related r base running s (s'.bind r.host t (.module (r.host ++ [t]))) := by
  have hout : r.Covers [t] := Scope.covers_of_moved ht
  refine ⟨h.loaded, fun p n hp hn => ?_, h.host, fun u hu => ?_, fun u hu => ?_, fun p hp => ?_⟩
  · simpa [Interp.bind, Interp.setNames, hp.place_ne.1] using h.attrs p n hp hn
  · by_cases hut : u = t
    · subst hut
      refine .inr ⟨by simp [Interp.bind, Interp.setNames], ?_⟩
      rw [← Relocation.place_cons_of_moved ht, ← hthere, ← h.loaded _ hout]
      rfl
    · simpa [Interp.bind, Interp.setNames, hut] using h.slot u hu
  · have hut : u ≠ t := fun heq => hrunning (heq ▸ hu)
    simpa [Interp.bind, Interp.setNames, hut] using h.running u hu
  · have hne : p ≠ r.host := fun heq => r.not_moves_host (heq ▸ hp)
    simpa [Interp.bind, Interp.setNames, hne] using h.apart p hp

theorem attach (h : Related r base (inside r running q) s s') (hq : r.Covers q)
    (hrunning : ∀ t ∈ running, q ≠ [t]) :
    Related r base running (s.attach q) (s'.attach (r.place q)) := by
  have hmark := h.outer.mark_true hq
  obtain ⟨parent, name, rfl⟩ : ∃ parent name, q = parent ++ [name] :=
    ⟨_, _, (List.dropLast_append_getLast hq.ne_nil).symm⟩
  by_cases hparent : parent = []
  · subst hparent
    have hleft : s.attach ([] ++ [name]) = s.mark [name] true := by simp [Interp.attach]
    rw [hleft]
    cases hmoved : r.moved name with
    | true =>
      have hright : s'.attach (r.place ([] ++ [name])) =
          (s'.mark (r.place [name]) true).bind r.host name (.module (r.host ++ [name])) := by
        have hhost : r.host ≠ [] := modulePath_ne_nil _
        simp [Interp.attach, Relocation.place_cons_of_moved hmoved, hhost]
      rw [hright]
      exact hmark.attach_host hmoved (by simp [Interp.mark]) fun ht => hrunning _ ht rfl
    | false =>
      have hright : s'.attach (r.place ([] ++ [name])) = s'.mark (r.place [name]) true := by
        simp [Interp.attach, Relocation.place_cons_of_not_moved hmoved]
      rw [hright]
      exact hmark
  · have hout : r.Covers parent := hq.of_append hparent
    have hplace : r.place parent ≠ [] := by
      obtain ⟨t, rest, rfl, -, ⟨-, hp⟩ | ⟨-, hp⟩⟩ := hout.cases <;> rw [hp] <;> simp
    have hbind := hmark.bind hout name (.module (parent ++ [name]))
    have hleft : s.attach (parent ++ [name]) =
        (s.mark (parent ++ [name]) true).bind parent name (.module (parent ++ [name])) := by
      simp [Interp.attach, hparent]
    have hright : s'.attach (r.place (parent ++ [name])) =
        (s'.mark (r.place (parent ++ [name])) true).bind (r.place parent) name
          (r.object (.module (parent ++ [name]))) := by
      simp [Interp.attach, hout.place_append, hplace, Relocation.object]
    rw [hleft, hright]
    exact hbind

/-- What a member of a module is. -/
theorem member (h : Related r base running s s') (hm : r.Covers m) (hn : name ≠ r.root) :
    s'.member (r.place m) name = (s.member m name).map r.object := by
  unfold Interp.member
  rw [h.attrs m name hm hn]
  cases s.attrs m name with
  | some o => rfl
  | none =>
    rw [← hm.place_append, h.loaded _ (hm.append _)]
    simp only [Option.map_none]
    split_ifs <;> simp [Relocation.object]

end Related

/-- Loading a module and loading its counterpart end alike. -/
structure Loads (r : Scope) (base : Interp V) (running : Set Str)
    (found found' : ModulePath → Bool) (load load' : ModulePath → Interp V → Outcome V) : Prop where
  finds : ∀ q, r.Covers q → found' (r.place q) = found q
  agree : ∀ q, r.Covers q → ∀ s s', Related r base running s s' →
    Agree (Related r base running) (load q s) (load' (r.place q) s')
  again : ∀ q s, s.loaded q = true → load q s = .done s
  again' : ∀ q s, s.loaded q = true → load' q s = .done s
  there : ∀ q s s₁, load q s = .done s₁ → s₁.loaded q = true
  present : ∀ t, r.moved t = true → found [t] = true

theorem importPrefixes_append (load : ModulePath → Interp V → Outcome V)
    (ps qs : List ModulePath) (s : Interp V) :
    importPrefixes load (ps ++ qs) s = (importPrefixes load ps s).andThen (importPrefixes load qs) := by
  induction ps generalizing s with
  | nil => rfl
  | cons p ps ih =>
    rw [List.cons_append, importPrefixes, importPrefixes, Outcome.andThen_assoc]
    exact congrArg _ (funext ih)

namespace Loads

variable {found found' : ModulePath → Bool} {load load' : ModulePath → Interp V → Outcome V}
  {allNames : V → List Str} {missing : Raised V}

theorem importPrefixes (h : Loads r base running found found' load load') {qs : List ModulePath}
    (hqs : ∀ q ∈ qs, r.Covers q) (hs : Related r base running s s') :
    Agree (Related r base running) (importPrefixes load qs s)
      (importPrefixes load' (qs.map r.place) s') := by
  induction qs generalizing s s' with
  | nil => exact .done hs
  | cons q qs ih =>
    obtain ⟨hq, hqs⟩ := List.forall_mem_cons.mp hqs
    exact (h.agree q hq s s' hs).andThen fun s s' hs => ih hqs hs

/-- The packages the host is in are loaded already. -/
theorem importPrefixes_host (h : Loads r base running found found' load load')
    {qs : List ModulePath} (hqs : ∀ q ∈ qs, s'.loaded q = true) :
    Imports.importPrefixes load' qs s' = .done s' := by
  induction qs with
  | nil => rfl
  | cons q qs ih =>
    obtain ⟨hq, hqs⟩ := List.forall_mem_cons.mp hqs
    rw [Imports.importPrefixes, h.again' q s' hq]
    exact ih hqs

theorem importPath_host (h : Loads r base running found found' load load')
    (hs : Related r base running s s') : importPath load' r.host s' = .done s' :=
  h.importPrefixes_host hs.host

theorem importPath (h : Loads r base running found found' load load') (hp : r.Covers p)
    (hs : Related r base running s s') :
    Agree (Related r base running) (importPath load p s) (importPath load' (r.place p) s') := by
  have hagree := h.importPrefixes hp.of_mem_inits hs
  unfold Imports.importPath
  obtain ⟨t, rest, rfl, -, ⟨hmoved, hplace⟩ | ⟨hmoved, hplace⟩⟩ := hp.cases
  · -- the packages the copy is in come first, and they are there
    rw [hplace, Relocation.inits_host_append hmoved, importPrefixes_append,
      h.importPrefixes_host hs.host]
    exact hagree
  · rw [hplace]
    rwa [Relocation.map_place_inits hmoved] at hagree

theorem loadSub (h : Loads r base running found found' load load') (hp : r.Covers p)
    (hs : Related r base running s s') :
    Agree (Related r base running) (loadSub found load p s) (loadSub found' load' (r.place p) s') := by
  unfold Imports.loadSub
  rw [h.finds p hp, hs.loaded p hp]
  split_ifs
  · exact h.agree p hp s s' hs
  · exact .done hs

theorem bindMember (h : Loads r base running found found' load load') (hhere : r.Covers here)
    (hm : r.Covers m) (hn : name ≠ r.root) (bound : Str) (hs : Related r base running s s') :
    Agree (Related r base running) (bindMember found load missing here m name bound s)
      (bindMember found' load' missing (r.place here) (r.place m) name bound s') := by
  unfold Imports.bindMember
  rw [hs.attrs m name hm hn]
  cases s.attrs m name with
  | some o => exact .done (hs.bind hhere bound o)
  | none =>
    simp only [Option.map_none]
    rw [← hm.place_append]
    refine (h.loadSub (hm.append _) hs).andThen fun s s' hs => ?_
    rw [hs.member hm hn]
    cases s.member m name with
    | some o => exact .done (hs.bind hhere bound o)
    | none => exact .raised missing hs

theorem bindMembers (h : Loads r base running found found' load load') (hhere : r.Covers here)
    (hm : r.Covers m) {names : List Alias} (hn : ∀ a ∈ names, a.name ≠ r.root)
    (hs : Related r base running s s') :
    Agree (Related r base running) (bindMembers found load missing here m names s)
      (bindMembers found' load' missing (r.place here) (r.place m) names s') := by
  induction names generalizing s s' with
  | nil => exact .done hs
  | cons a names ih =>
    obtain ⟨ha, hn⟩ := List.forall_mem_cons.mp hn
    exact (h.bindMember hhere hm ha a.bound hs).andThen fun s s' hs => ih hn hs

theorem bindStar (h : Loads r base running found found' load load') (hhere : r.Covers here)
    (hm : r.Covers m) (hall : str "__all__" ≠ r.root) (hnames : ∀ v, r.root ∉ allNames v)
    (hs : Related r base running s s') :
    Agree (Related r base running) (bindStar allNames found load here m s)
      (bindStar allNames found' load' (r.place here) (r.place m) s') := by
  have hpublic : Related r base running
      (s.setNames here fun n =>
        if isPublic n && (s.attrs m n).isSome then s.attrs m n else s.attrs here n)
      (s'.setNames (r.place here) fun n =>
        if isPublic n && (s'.attrs (r.place m) n).isSome then s'.attrs (r.place m) n
        else s'.attrs (r.place here) n) := by
    refine hs.setNames hhere fun n hn => ?_
    rw [hs.attrs m n hm hn, hs.attrs here n hhere hn, Option.isSome_map]
    split_ifs <;> rfl
  unfold Imports.bindStar
  rw [hs.attrs m _ hm hall]
  cases s.attrs m "__all__" with
  | none => exact .done hpublic
  | some o =>
    cases o with
    | module p => exact .done hpublic
    | value v =>
      refine h.bindMembers hhere hm (fun a ha => ?_) hs
      obtain ⟨n, hn, rfl⟩ := List.mem_map.mp ha
      exact fun heq => hnames v (heq ▸ hn)

theorem bindNames (h : Loads r base running found found' load load') (hhere : r.Covers here)
    (hm : r.Covers m) (hall : str "__all__" ≠ r.root) (hnames : ∀ v, r.root ∉ allNames v)
    {names : List Alias} (hn : ∀ a ∈ names, a.name ≠ r.root) (hs : Related r base running s s') :
    Agree (Related r base running) (bindNames allNames found load here m names s)
      (bindNames allNames found' load' (r.place here) (r.place m) names s') := by
  unfold Imports.bindNames
  split_ifs
  · exact h.bindStar hhere hm hall hnames hs
  · exact h.bindMembers hhere hm hn hs

/-- `from host import t` does what `import t` does. -/
theorem fromHost (h : Loads r base running found found' load load') (hhere : r.Covers here)
    {t : Str} (ht : r.moved t = true) (hs : Related r base running s s') :
    Agree (Related r base running)
      ((load [t] s).andThen fun s => .done (s.bind here t (.module [t])))
      (Imports.bindMember found' load' missing (r.place here) r.host t t s') := by
  have hout : r.Covers [t] := Scope.covers_of_moved ht
  have hplace : r.place [t] = r.host ++ [t] := Relocation.place_cons_of_moved ht
  have hobject : r.object (.module [t] : Object V) = .module (r.host ++ [t]) :=
    congrArg Object.module hplace
  unfold Imports.bindMember
  rcases hs.slot t ht with hslot | ⟨hslot, hloaded⟩
  · rw [hslot, ← hplace]
    simp only
    have hsub : Imports.loadSub found' load' (r.place [t]) s' = load' (r.place [t]) s' := by
      rw [Imports.loadSub, h.finds _ hout, h.present t ht, Bool.true_or, if_pos rfl]
    rw [hsub]
    have hthere := h.there [t] s
    have hagree := h.agree [t] hout s s' hs
    generalize load [t] s = o at hthere hagree ⊢
    generalize load' (r.place [t]) s' = o' at hagree ⊢
    cases hagree with
    | raised e hs => exact .raised e hs
    | deep => exact .deep
    | @done s₁ s₁' hs =>
      -- the attribute, or before the code of the package has run the entry of `sys.modules`
      have hmember : s₁'.member r.host t = some (r.object (.module [t])) := by
        have hloaded : s₁'.loaded (r.host ++ [t]) = true := by
          rw [← hplace, hs.loaded _ hout, hthere s₁ rfl]
        unfold Interp.member
        rcases hs.slot t ht with hslot | ⟨hslot, -⟩ <;> rw [hslot, hobject]
        simp [hloaded]
      simp only [Outcome.andThen, hmember]
      exact .done (hs.bind hhere t (.module [t]))
  · rw [hslot]
    have hthere : s.loaded [t] = true := by rw [← hs.loaded _ hout, hplace, hloaded]
    rw [h.again _ _ hthere, ← hobject]
    exact .done (hs.bind hhere t (.module [t]))

/-! ### Statements -/

theorem importAlias_stays (h : Loads r base running found found' load load')
    (hhere : r.Covers here) {a : Alias} (ha : r.Covers (modulePath a.name))
    (hmoved : r.moved (topOf a.name) = false) (hs : Related r base running s s') :
    Agree (Related r base running) (importAlias load here a s)
      (importAlias load' (r.place here) a s') := by
  obtain ⟨rest, hpath⟩ := modulePath_eq a.name
  have hplace : r.place (modulePath a.name) = modulePath a.name := by
    rw [hpath, Relocation.place_cons_of_not_moved hmoved]
  have htop : r.place [topOf a.name] = [topOf a.name] :=
    Relocation.place_cons_of_not_moved hmoved
  have hout : r.Covers [topOf a.name] := (hpath ▸ ha).of_append (List.cons_ne_nil _ [])
  unfold Imports.importAlias
  have hagree := h.importPath ha hs
  rw [hplace] at hagree
  refine hagree.andThen fun s s' hs => ?_
  cases a.asname with
  | some bound =>
    have hbind := hs.bind hhere bound (.module (modulePath a.name))
    rw [Relocation.object, hplace] at hbind
    exact .done hbind
  | none =>
    have hagree := h.agree _ hout s s' hs
    rw [htop] at hagree
    refine hagree.andThen fun s s' hs => ?_
    have hbind := hs.bind hhere (topOf a.name) (.module [topOf a.name])
    rw [Relocation.object, htop] at hbind
    exact .done hbind

/-- The copy is imported under the same name. -/
theorem importAlias_as (h : Loads r base running found found' load load')
    (hhere : r.Covers here) {dotted bound : Str} (ha : r.Covers (modulePath dotted))
    (hmoved : r.moved (topOf dotted) = true) (hs : Related r base running s s') :
    Agree (Related r base running) (importAlias load here ⟨dotted, some bound⟩ s)
      (importAlias load' (r.place here) ⟨r.hosted dotted, some bound⟩ s') := by
  obtain ⟨rest, hpath⟩ := modulePath_eq dotted
  have hplace : modulePath (r.hosted dotted) = r.place (modulePath dotted) := by
    rw [modulePath_hosted, hpath, Relocation.place_cons_of_moved hmoved]
  unfold Imports.importAlias
  simp only [hplace]
  exact (h.importPath ha hs).andThen fun s s' hs =>
    .done (hs.bind hhere bound (.module (modulePath dotted)))

/-- `import host.t.x` loads what `import t.x` does and binds no name of the module. -/
theorem importAlias_hosted (h : Loads r base running found found' load load')
    (hhere : r.Covers here) {dotted : Str} (ha : r.Covers (modulePath dotted))
    (hmoved : r.moved (topOf dotted) = true) (hs : Related r base running s s') :
    Agree (Related r base running) (Imports.importPath load (modulePath dotted) s)
      (importAlias load' (r.place here) ⟨r.hosted dotted, none⟩ s') := by
  obtain ⟨rest, hpath⟩ := modulePath_eq dotted
  obtain ⟨rest', hhost⟩ := r.host_eq
  have hplace : modulePath (r.hosted dotted) = r.place (modulePath dotted) := by
    rw [modulePath_hosted, hpath, Relocation.place_cons_of_moved hmoved]
  have htop : topOf (r.hosted dotted) = r.root := by
    rw [topOf, modulePath_hosted, hhost]
    rfl
  have hroot : [r.root] ∈ r.host.inits.tail := by
    rw [hhost, List.inits_cons, List.tail_cons]
    exact List.mem_map.mpr ⟨[], by simp, rfl⟩
  rw [← Outcome.andThen_done (Imports.importPath load (modulePath dotted) s)]
  unfold Imports.importAlias
  simp only [hplace, htop]
  refine (h.importPath ha hs).andThen fun s s' hs => ?_
  rw [h.again' _ _ (hs.host _ hroot)]
  exact .done (hs.bind_root hhere _)

/-- A package without parents is loaded once. -/
theorem importAlias_top (h : Loads r base running found found' load load') (here : ModulePath)
    {t : Str} (ht : t = topOf t) :
    importAlias load here ⟨t, none⟩ s =
      (load [topOf t] s).andThen fun s => .done (s.bind here (topOf t) (.module [topOf t])) := by
  have hinits : (modulePath t).inits.tail = [[topOf t]] := by
    rw [modulePath_of_top ht]
    rfl
  have hthere := h.there [topOf t] s
  simp only [importAlias, Imports.importPath, hinits, Imports.importPrefixes, Outcome.andThen_done]
  cases hload : load [topOf t] s with
  | done s₁ => simp only [Outcome.done_andThen, h.again _ _ (hthere s₁ hload)]
  | raised s₁ => rfl
  | deep => rfl

/-- The statements for one name do what the name does in an `import` statement. -/
theorem relocateAlias (h : Loads r base running found found' load load')
    (hhere : r.Covers here) (isPackage : Bool) {a : Alias} (ha : r.Covers (modulePath a.name))
    (hs : Related r base running s s') :
    Agree (Related r base running) (importAlias load here a s)
      (runNodes allNames found' load' (r.place here) isPackage (r.relocateAlias a) s') := by
  have hplain (b : Alias) (s : Interp V) :
      runNode allNames found' load' (r.place here) isPackage (.plain [b]) s =
        importAlias load' (r.place here) b s := by
    simp only [runNode, importAliases, Outcome.andThen_done]
  unfold Relocation.relocateAlias
  cases hmoved : r.moved (topOf a.name) with
  | false =>
    simp only [Bool.not_false, if_true, runNodes, hplain, Outcome.andThen_done]
    exact h.importAlias_stays hhere ha hmoved hs
  | true =>
    obtain ⟨dotted, asname⟩ := a
    cases asname with
    | some bound =>
      simp only [Bool.not_true, Bool.false_eq_true, if_false, runNodes, hplain,
        Outcome.andThen_done]
      exact h.importAlias_as hhere ha hmoved hs
    | none =>
      have hstar : topOf dotted ≠ str "*" := fun heq => by
        simp only [heq, r.noStar, Bool.false_eq_true] at hmoved
      have hfrom {s s' : Interp V} (hs : Related r base running s s') :
          Agree (Related r base running)
            ((load [topOf dotted] s).andThen fun s =>
              .done (s.bind here (topOf dotted) (.module [topOf dotted])))
            (runNode allNames found' load' (r.place here) isPackage
              (.importFrom (some r.hostName) [⟨topOf dotted, none⟩] 0) s') := by
        have hpath : fromPath (r.place here) isPackage (some r.hostName) 0 = some r.host := by
          simp [fromPath, Relocation.host]
        simp only [runNode, hpath, h.importPath_host hs, Outcome.done_andThen, Imports.bindNames,
          List.map_cons, List.map_nil, List.cons.injEq, hstar, false_and, if_false,
          Imports.bindMembers, Outcome.andThen_done, Alias.bound, Option.getD_none]
        exact h.fromHost hhere hmoved hs
      by_cases hdot : dotted = topOf dotted
      · rw [h.importAlias_top here hdot]
        simp only [Bool.not_true, Bool.false_eq_true, if_false, ne_eq, if_neg (not_not.mpr hdot),
          List.nil_append, runNodes, Outcome.andThen_done]
        exact hfrom hs
      · simp only [Bool.not_true, Bool.false_eq_true, if_false, ne_eq, hdot, not_false_eq_true,
          if_true, List.cons_append, List.nil_append, runNodes, hplain, Outcome.andThen_done]
        exact (h.importAlias_hosted hhere ha hmoved hs).andThen fun s s' hs => hfrom hs

theorem relocateAliases (h : Loads r base running found found' load load')
    (hhere : r.Covers here) (isPackage : Bool) {names : List Alias}
    (hnames : ∀ a ∈ names, r.Covers (modulePath a.name)) (hs : Related r base running s s') :
    Agree (Related r base running) (importAliases load here names s)
      (runNodes allNames found' load' (r.place here) isPackage
        (names.flatMap r.relocateAlias) s') := by
  induction names generalizing s s' with
  | nil => exact .done hs
  | cons a names ih =>
    obtain ⟨ha, hnames⟩ := List.forall_mem_cons.mp hnames
    rw [List.flatMap_cons, runNodes_append]
    exact (h.relocateAlias hhere isPackage ha hs).andThen fun s s' hs => ih hnames hs

theorem importAliases_stay (h : Loads r base running found found' load load')
    (hhere : r.Covers here) {names : List Alias}
    (hnames : ∀ a ∈ names, r.Covers (modulePath a.name))
    (hmoved : ∀ a ∈ names, r.moved (topOf a.name) = false) (hs : Related r base running s s') :
    Agree (Related r base running) (importAliases load here names s)
      (importAliases load' (r.place here) names s') := by
  induction names generalizing s s' with
  | nil => exact .done hs
  | cons a names ih =>
    obtain ⟨ha, hnames⟩ := List.forall_mem_cons.mp hnames
    obtain ⟨hma, hmoved⟩ := List.forall_mem_cons.mp hmoved
    exact (h.importAlias_stays hhere ha hma hs).andThen fun s s' hs => ih hnames hmoved hs

/-- The statements an import statement becomes do what it does. -/
theorem relocateNode (h : Loads r base running found found' load load') (hhere : r.Covers here)
    {isPackage : Bool} (hall : str "__all__" ≠ r.root) (hnames : ∀ v, r.root ∉ allNames v)
    {n : ImportNode} (hn : n.Fits r here isPackage) (hs : Related r base running s s') :
    Agree (Related r base running) (runNode allNames found load here isPackage n s)
      (runNodes allNames found' load' (r.place here) isPackage (r.relocateNode n) s') := by
  cases n with
  | plain names =>
    rw [Relocation.relocateNode]
    split_ifs with hany
    · exact h.relocateAliases hhere isPackage hn hs
    · simp only [runNodes, runNode, Outcome.andThen_done]
      refine h.importAliases_stay hhere hn (fun a ha => ?_) hs
      simpa using fun hmoved => hany (List.any_eq_true.mpr ⟨a, ha, hmoved⟩)
  | importFrom module names level =>
    obtain ⟨hmembers, m, hpath, hm⟩ := hn
    -- an absolute name is rewritten; a relative one leads to the copy as it stands
    obtain ⟨module', hnode, hpath'⟩ : ∃ module',
        r.relocateNode (.importFrom module names level) = [.importFrom module' names level] ∧
          fromPath (r.place here) isPackage module' level = some (r.place m) := by
      cases level with
      | zero =>
        obtain ⟨dotted, rfl, rfl⟩ : ∃ dotted, module = some dotted ∧ m = modulePath dotted := by
          cases module with
          | none => exact absurd (Option.some.inj hpath).symm hm.ne_nil
          | some dotted => exact ⟨dotted, rfl, (Option.some.inj hpath).symm⟩
        obtain ⟨rest, htop⟩ := modulePath_eq dotted
        cases hmoved : r.moved (topOf dotted) with
        | true =>
          refine ⟨some (r.hosted dotted), by simp [Relocation.relocateNode, hmoved], ?_⟩
          rw [htop, Relocation.place_cons_of_moved hmoved, ← htop, ← modulePath_hosted]
          rfl
        | false =>
          refine ⟨some dotted, by simp [Relocation.relocateNode, hmoved], ?_⟩
          rw [htop, Relocation.place_cons_of_not_moved hmoved, ← htop]
          rfl
      | succ level =>
        refine ⟨module, ?_, hhere.fromPath_place (Nat.succ_ne_zero level) hpath⟩
        cases module <;> rfl
    simp only [hnode, runNodes, runNode, hpath, hpath', Outcome.andThen_done]
    exact (h.importPath hm hs).andThen fun s s' hs =>
      h.bindNames hhere hm hall hnames hmembers hs

/-- Relocated code does what the code does. -/
theorem run (h : Loads r base running found found' load load') (hhere : r.Covers here)
    {isPackage : Bool} (hall : str "__all__" ≠ r.root) (hnames : ∀ v, r.root ∉ allNames v)
    {code : Code V} (hcode : code.Fits r base here isPackage)
    (hs : Related r base running s s') :
    Agree (Related r base running) (code.run allNames found load here isPackage s)
      ((r.relocateCode code).run allNames found' load' (r.place here) isPackage s') := by
  -- by induction on the code, of which only the imports are rewritten
  induction code generalizing s s' with
  | skip => exact .done hs
  | seq first second ihFirst ihSecond =>
    exact (ihFirst hcode.1 hs).andThen fun s s' hs => ihSecond hcode.2 hs
  | node n =>
    rw [Relocation.relocateCode, run_foldr_node]
    exact h.relocateNode hhere hall hnames hcode hs
  | attempt body catches handler ihBody ihHandler =>
    exact (ihBody hcode.1 hs).orElse catches fun e s s' hs => ihHandler e (hcode.2 e) hs
  | branch test yes no ihYes ihNo =>
    obtain ⟨htest, hyes, hno⟩ := hcode
    simp only [Code.run, Relocation.relocateCode, htest running s s' hs]
    split_ifs
    · exact ihYes hyes hs
    · exact ihNo hno hs
  | other f => exact hcode running s s' hs

end Loads

/-- The moved packages are there, and their modules have copies with relocated imports below the
host. The other modules in scope are the same on both sides and import none of the moved packages.
What is found under the moved packages' own names is free. -/
structure IsCopy (r : Scope) (w w' : ModulePath → Option (Module V)) : Prop where
  present : ∀ t, r.moved t = true → (w [t]).isSome = true
  copies : ∀ q, r.Moves q →
    w' (r.host ++ q) = (w q).map fun m => { m with code := r.relocateCode m.code }
  others : ∀ q, r.Covers q → ¬r.Moves q → w' q = w q ∧ ∀ m ∈ w q, r.relocateCode m.code = m.code

theorem IsCopy.place {w w' : ModulePath → Option (Module V)} (h : IsCopy r w w')
    (hq : r.Covers q) :
    w' (r.place q) = (w q).map fun m => { m with code := r.relocateCode m.code } := by
  obtain ⟨t, rest, rfl, -, ⟨hmoved, hplace⟩ | ⟨hmoved, hplace⟩⟩ := hq.cases
  · rw [hplace]
    exact h.copies _ ⟨t, rfl, hmoved⟩
  · obtain ⟨hsame, hstay⟩ := h.others _ hq (Relocation.not_moves_cons hmoved)
    rw [hplace, hsame]
    cases hw : w (t :: rest) with
    | none => rfl
    | some m =>
      rw [Option.map_some, hstay m hw]

theorem load_again (allNames : V → List Str) (w : ModulePath → Option (Module V)) (fuel : ℕ)
    (hq : s.loaded q = true) : load allNames w fuel q s = .done s := by
  cases fuel <;> simp [load, hq]

theorem load_there {allNames : V → List Str} {w : ModulePath → Option (Module V)} {fuel : ℕ}
    {s₁ : Interp V} (h : load allNames w fuel q s = .done s₁) : s₁.loaded q = true := by
  cases hq : s.loaded q with
  | true =>
    rw [load_again allNames w fuel hq] at h
    obtain rfl := Outcome.done.inj h
    exact hq
  | false =>
    cases fuel with
    | zero =>
      simp only [load, hq, Bool.false_eq_true, if_false] at h
      split_ifs at h
    | succ fuel =>
      simp only [load, hq, Bool.false_eq_true, if_false] at h
      cases hw : w q with
      | none =>
        rw [hw] at h
        cases h
      | some m =>
        rw [hw] at h
        simp only at h
        generalize m.code.run allNames (fun p => (w p).isSome) (load allNames w fuel) q m.isPackage
          (s.start q) = o at h
        cases o with
        | done s =>
          obtain rfl := Outcome.done.inj h
          simp only [Interp.attach]
          split_ifs <;> simp [Interp.mark, Interp.bind, Interp.setNames]
        | raised e s => cases h
        | deep => cases h

/-- The code of a module and of its counterpart have ended alike. -/
theorem Agree.finish (hq : r.Covers q) (hrunning : ∀ t ∈ running, q ≠ [t]) {o o' : Outcome V}
    (h : Agree (Related r base (Related.inside r running q)) o o') :
    Agree (Related r base running) (o.finish q) (o'.finish (r.place q)) := by
  cases h with
  | done hs => exact .done (hs.attach hq hrunning)
  | raised e hs => exact .raised e (hs.raised hq hrunning)
  | deep => exact .deep

/-- Loading a module ends as loading its counterpart does, at whatever depth of imports inside one
another, and the two runs stay together. -/
theorem loads_copy {allNames : V → List Str} {w w' : ModulePath → Option (Module V)}
    (hcopy : IsCopy r w w') (hall : str "__all__" ≠ r.root) (hnames : ∀ v, r.root ∉ allNames v)
    (hfits : ∀ q m, r.Covers q → w q = some m → m.code.Fits r base q m.isPackage)
    (fuel : ℕ) (running : Set Str) :
    Loads r base running (fun p => (w p).isSome) (fun p => (w' p).isSome) (load allNames w fuel)
      (load allNames w' fuel) := by
  -- by induction on the depth; the code of a module runs while the module is being loaded
  induction fuel generalizing running with
  | zero =>
    refine ⟨fun q hq => ?_, fun q hq s s' hs => ?_, fun q s => load_again allNames w 0,
      fun q s => load_again allNames w' 0, fun q s s₁ => load_there, hcopy.present⟩
    · simp [hcopy.place hq]
    · simp only [load, hs.loaded q hq, hcopy.place hq, Option.isNone_map]
      split_ifs
      · exact .done hs
      · exact .raised .notFound hs
      · exact .deep
  | succ fuel ih =>
    refine ⟨fun q hq => ?_, fun q hq s s' hs => ?_, fun q s => load_again allNames w _,
      fun q s => load_again allNames w' _, fun q s s₁ => load_there, hcopy.present⟩
    · simp [hcopy.place hq]
    · simp only [load, hs.loaded q hq, hcopy.place hq]
      cases hloaded : s.loaded q with
      | true => exact .done hs
      | false =>
        have hrunning : ∀ t ∈ running, q ≠ [t] := by
          rintro t ht rfl
          rw [(hs.running t ht).2] at hloaded
          exact absurd hloaded (by simp)
        cases hw : w q with
        | none => exact .raised .notFound hs
        | some m =>
          simp only [Bool.false_eq_true, if_false, Option.map_some]
          exact ((ih (Related.inside r running q)).run hq hall hnames (hfits q m hq hw)
            (hs.start hq hloaded)).finish hq hrunning

end

end Py.Imports
