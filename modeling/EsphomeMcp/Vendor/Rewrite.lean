import EsphomeMcp.Python.Imports
import EsphomeMcp.Vendor.Markers

/-!
# Rewriting the imports of the vendored packages

`_rewrite_import` and `_rewrite_import_from` of `vendor_fastmcp.py`: every import of a vendored
package is pointed at its copy below the component. The texts they write are those of the
statements that `vendoring`, a relocation of the import system, makes of the statement.

`vendored_runs` says what stands in the place of every statement, however it is written, and that
the copies run as the packages do in their own place; `vendored_isolated` that they do so whatever
other copies are installed. Both are about the packages that the vendored ones reach, and leave open
what any other does, an integration of Home Assistant that imports `mcp` for itself among them.
-/

namespace EsphomeMcp.Vendor

open Py Py.Imports

/-! ## The texts -/

/-- `VENDOR_PREFIX`. -/
def vendorPrefix : Str := "custom_components.esphome_mcp._vendor"

/-- `VENDORED_TOP_LEVEL`. -/
def vendoredTopLevel : List Str := [str "fastmcp", str "mcp", str "mcp_types"]

/-- `_vendored`. -/
def vendored (module : Str) : Str := vendorPrefix ++ ch '.' :: module

/-- `_is_vendored`. -/
def isVendored : Option Str → Bool
  | none => false
  | some module => topOf module ∈ vendoredTopLevel

/-- What `_rewrite_import` appends for one name. -/
def aliasStatements (a : Alias) : List Str :=
  if !isVendored (some a.name) then
    let asClause := match a.asname with
      | some name => str " as " ++ name
      | none => []
    [str "import " ++ a.name ++ asClause]
  else
    match a.asname with
    | some name => [str "import " ++ vendored a.name ++ str " as " ++ name]
    | none =>
      let top := topOf a.name
      (if a.name ≠ top then [str "import " ++ vendored a.name] else []) ++
        [str "from " ++ vendorPrefix ++ str " import " ++ top]

/-- `_rewrite_import`. -/
def rewriteImport (names : List Alias) : Option Str :=
  if !names.any fun a => isVendored (some a.name) then none
  else some ((str "; ").intercalate (names.flatMap aliasStatements))

/-- `(?:\s|\\\n)+` at the start of a text: the match, empty where there is none, and the rest. -/
def takeBlanks : Str → Str × Str
  | [] => ([], [])
  | [c] => if isSpace c then ([c], []) else ([], [c])
  | c :: d :: s =>
    if isSpace c then
      let (blanks, rest) := takeBlanks (d :: s)
      (c :: blanks, rest)
    else if c = ch '\\' ∧ d = ch '\n' then
      let (blanks, rest) := takeBlanks s
      (c :: d :: blanks, rest)
    else ([], c :: d :: s)

/-- The pattern of `_rewrite_import_from` at the start of a statement: the blanks behind `from`,
and what follows the module. -/
def matchFrom (module text : Str) : Option (Str × Str) := do
  let rest ← dropStart "from" text
  let (blanks, rest) := takeBlanks rest
  let rest ← dropStart module rest
  if blanks = [] ∨ rest.head?.any isWordChar then none else some (blanks, rest)

/-- The `ValueError` of a statement that is not written as it is read. -/
structure NotRewritten where
  text : Str
deriving DecidableEq

/-- `_rewrite_import_from`. -/
def rewriteImportFrom (module : Option Str) (level : ℕ) (text : Str) :
    Except NotRewritten (Option Str) :=
  if level ≠ 0 ∨ !isVendored module then .ok none
  else
    match matchFrom (module.getD []) text with
    | some (blanks, rest) => .ok (some (str "from" ++ blanks ++ vendored (module.getD []) ++ rest))
    | none => .error ⟨text⟩

/-! ## The statements -/

/-- The vendored packages, moved below the component. -/
def vendoring : Relocation where
  moved t := t ∈ vendoredTopLevel
  hostName := vendorPrefix
  stays := by decide
  noStar := by decide

/-- The text of one name of an import statement. -/
def aliasText (a : Alias) : Str :=
  match a.asname with
  | some name => a.name ++ str " as " ++ name
  | none => a.name

/-- The text of an import statement. -/
def nodeText : ImportNode → Str
  | .plain names => str "import " ++ (str ", ").intercalate (names.map aliasText)
  | .importFrom module names level =>
    str "from " ++ List.replicate level (ch '.') ++ module.getD [] ++ str " import " ++
      (str ", ").intercalate (names.map aliasText)

theorem isVendored_some (module : Str) :
    isVendored (some module) = vendoring.moved (topOf module) := rfl

theorem vendored_eq (module : Str) : vendored module = vendoring.hosted module := rfl

theorem aliasStatements_eq (a : Alias) :
    aliasStatements a = (vendoring.relocateAlias a).map nodeText := by
  obtain ⟨dotted, asname⟩ := a
  unfold aliasStatements Relocation.relocateAlias
  simp only [isVendored_some]
  cases vendoring.moved (topOf dotted) with
  | false => cases asname <;> simp [nodeText, aliasText, List.intercalate]
  | true =>
    cases asname with
    | some name => simp [nodeText, aliasText, List.intercalate, vendored_eq]
    | none =>
      by_cases htop : dotted = topOf dotted
      · simp [nodeText, aliasText, List.intercalate, ← htop, vendoring]
      · simp [nodeText, aliasText, List.intercalate, htop, vendored_eq, vendoring]

/-- What `_rewrite_import` writes are the statements the relocation makes, one behind the other. -/
theorem rewriteImport_eq (names : List Alias) :
    rewriteImport names =
      if names.any fun a => isVendored (some a.name) then
        some ((str "; ").intercalate ((vendoring.relocateNode (.plain names)).map nodeText))
      else none := by
  have hstatements : names.flatMap aliasStatements =
      (names.flatMap vendoring.relocateAlias).map nodeText := by
    rw [List.map_flatMap]
    exact congrArg (names.flatMap ·) (funext aliasStatements_eq)
  rw [rewriteImport, Relocation.relocateNode]
  simp only [isVendored_some]
  by_cases hany : (names.any fun a => vendoring.moved (topOf a.name)) = true
  · simp only [hany, Bool.not_true, Bool.false_eq_true, if_false, if_true, hstatements]
  · rw [Bool.not_eq_true] at hany
    simp only [hany, Bool.not_false, if_true, Bool.false_eq_true, if_false]

theorem takeBlanks_of_head {t : Str} (h : ∀ c ∈ t.head?, isSpace c = false ∧ c ≠ ch '\\') :
    takeBlanks t = ([], t) := by
  match t with
  | [] => rfl
  | [c] => simp [takeBlanks, h c rfl]
  | c :: d :: s => simp [takeBlanks, h c rfl]

/-- Blanks are taken up to a text that begins with none. -/
theorem takeBlanks_append {blanks t : Str} (hblanks : takeBlanks blanks = (blanks, []))
    (h : ∀ c ∈ t.head?, isSpace c = false ∧ c ≠ ch '\\') :
    takeBlanks (blanks ++ t) = (blanks, t) := by
  induction blanks using takeBlanks.induct with
  | case1 => exact takeBlanks_of_head h
  | case2 c hc =>
    have ht := takeBlanks_of_head h
    cases t with
    | nil => exact hblanks
    | cons d t =>
      rw [List.singleton_append, takeBlanks, if_pos hc, ht]
  | case3 c hc => simp [takeBlanks, hc] at hblanks
  | case4 c d s hc _ _ _ ih =>
    rw [takeBlanks, if_pos hc] at hblanks
    simp only [Prod.mk.injEq, List.cons.injEq, true_and] at hblanks
    have hih := ih (Prod.ext hblanks.1 hblanks.2)
    rw [List.cons_append, List.cons_append, takeBlanks, if_pos hc, ← List.cons_append, hih]
  | case5 c d s hc hcd _ _ _ ih =>
    rw [takeBlanks, if_neg hc, if_pos hcd] at hblanks
    simp only [Prod.mk.injEq, List.cons.injEq, true_and] at hblanks
    have hih := ih (Prod.ext hblanks.1 hblanks.2)
    rw [List.cons_append, List.cons_append, takeBlanks, if_neg hc, if_pos hcd, hih]
  | case6 c d s hc hcd =>
    rw [takeBlanks, if_neg hc, if_neg hcd] at hblanks
    exact absurd (congrArg Prod.fst hblanks) (by simp)

/-- The blanks that are taken are blanks to their end. -/
theorem takeBlanks_spec (s : Str) : s = (takeBlanks s).1 ++ (takeBlanks s).2 ∧
    takeBlanks (takeBlanks s).1 = ((takeBlanks s).1, []) := by
  induction s using takeBlanks.induct with
  | case1 => exact ⟨rfl, rfl⟩
  | case2 c hc => simp [takeBlanks, hc]
  | case3 c hc => simp [takeBlanks, hc]
  | case4 c d s hc blanks rest htake ih =>
    rw [htake] at ih
    rw [takeBlanks, if_pos hc, htake]
    refine ⟨congrArg (c :: ·) ih.1, ?_⟩
    cases blanks with
    | nil => simp [takeBlanks, hc]
    | cons x blanks =>
      dsimp only at ih ⊢
      rw [takeBlanks, if_pos hc, ih.2]
  | case5 c d s hc hcd blanks rest htake ih =>
    rw [htake] at ih
    rw [takeBlanks, if_neg hc, if_pos hcd, htake]
    refine ⟨congrArg (c :: d :: ·) ih.1, ?_⟩
    dsimp only at ih ⊢
    rw [takeBlanks, if_neg hc, if_pos hcd, ih.2]
  | case6 c d s hc hcd =>
    rw [takeBlanks, if_neg hc, if_neg hcd]
    exact ⟨rfl, rfl⟩

/-- The text of a `from` statement names its module in one piece, right behind the blanks. -/
structure Names (module blanks rest text : Str) : Prop where
  spelled : text = str "from" ++ blanks ++ module ++ rest
  blank : takeBlanks blanks = (blanks, [])
  apart : blanks ≠ []
  ends : rest.head?.any isWordChar = false

/-- The pattern matches such a text and no other. -/
theorem matchFrom_eq_some_iff {module text blanks rest : Str} (hne : module ≠ [])
    (hhead : ∀ c ∈ module.head?, isSpace c = false ∧ c ≠ ch '\\') :
    matchFrom module text = some (blanks, rest) ↔ Names module blanks rest text := by
  constructor
  · intro h
    obtain ⟨t, ht, h⟩ := Option.bind_eq_some_iff.mp h
    obtain ⟨rest', hrest', h⟩ := Option.bind_eq_some_iff.mp h
    obtain ⟨hsplit, htaken⟩ := takeBlanks_spec t
    rw [Option.ite_none_left_eq_some, not_or] at h
    obtain ⟨⟨hsome, hends⟩, heq⟩ := h
    obtain ⟨rfl, rfl⟩ := Prod.ext_iff.mp (Option.some.inj heq)
    refine ⟨?_, htaken, hsome, by simpa using hends⟩
    rw [eq_append_of_dropStart ht, List.append_assoc, List.append_assoc,
      ← eq_append_of_dropStart hrest', ← hsplit]
  · intro h
    obtain ⟨rfl, hblanks, hsome, hends⟩ := h
    have hbehind : ∀ c ∈ (module ++ rest).head?, isSpace c = false ∧ c ≠ ch '\\' := by
      obtain ⟨c, module, rfl⟩ := List.exists_cons_of_ne_nil hne
      exact hhead
    simp only [matchFrom, List.append_assoc, dropStart_append, Option.bind_eq_bind,
      Option.bind_some, takeBlanks_append hblanks hbehind, hsome, hends, false_or,
      Bool.false_eq_true, if_false]

/-- A dotted name begins as its first part does. -/
theorem head?_topOf {module : Str} (h : topOf module ≠ []) : module.head? = (topOf module).head? := by
  cases module with
  | nil => exact absurd rfl h
  | cons c module =>
    rw [topOf, modulePath, List.splitOn_cons_eq_if_modifyHead] at h ⊢
    split_ifs at h ⊢ with hdot
    · exact absurd rfl h
    · obtain ⟨top, rest, hsplit⟩ := List.exists_cons_of_ne_nil (List.splitOn_ne_nil (ch '.') module)
      rw [hsplit]
      rfl

theorem head_of_isVendored {module : Str} (h : isVendored (some module) = true) :
    module ≠ [] ∧ ∀ c ∈ module.head?, isSpace c = false ∧ c ≠ ch '\\' := by
  have hmem : topOf module ∈ vendoredTopLevel := by simpa [isVendored] using h
  have hne : topOf module ≠ [] := fun hnil => by
    rw [hnil] at hmem
    exact absurd hmem (by decide)
  have hhead := head?_topOf hne
  have hall : ∀ top ∈ vendoredTopLevel, ∀ c ∈ top.head?, isSpace c = false ∧ c ≠ ch '\\' := by
    intro top htop c hc
    have hc : c = ch 'f' ∨ c = ch 'm' := by
      simp only [vendoredTopLevel, List.mem_cons, List.not_mem_nil, or_false] at htop
      rcases htop with rfl | rfl | rfl
      · exact .inl (Option.some.inj hc).symm
      · exact .inr (Option.some.inj hc).symm
      · exact .inr (Option.some.inj hc).symm
    rcases hc with rfl | rfl <;> decide
  refine ⟨?_, hhead ▸ hall _ hmem⟩
  rintro rfl
  exact hne rfl

/-- What `rewrite_imports` puts in the place of a statement, if anything. -/
def replacement (n : ImportNode) (text : Str) : Except NotRewritten (Option Str) :=
  match n with
  | .plain names => .ok (rewriteImport names)
  | .importFrom module _ level => rewriteImportFrom module level text

/-- The statement names a vendored package, and not relative to its own. -/
def concerns : ImportNode → Bool
  | .plain names => names.any fun a => isVendored (some a.name)
  | .importFrom module _ level => level = 0 && isVendored module

/-- A text is made of statements. -/
def IsTextOf (text : Str) (ns : List ImportNode) : Prop :=
  text = (str "; ").intercalate (ns.map nodeText)

/-- What stands in the place of a statement that was written as `text`. An `import` becomes the text of
the statements the relocation makes of it, a `from` gets another module's name and keeps the rest of
its text, and one that does not name its module in one piece is refused. -/
structure IsReplaced (n : ImportNode) (text : Str) : Prop where
  kept : concerns n = false → replacement n text = .ok none ∧ vendoring.relocateNode n = [n]
  plain : ∀ names, n = .plain names → concerns n = true → ∃ new,
    replacement n text = .ok (some new) ∧ IsTextOf new (vendoring.relocateNode n)
  renamed : ∀ module names, n = .importFrom (some module) names 0 → concerns n = true →
    vendoring.relocateNode n = [.importFrom (some (vendored module)) names 0] ∧
    ∀ blanks rest, Names module blanks rest text →
      replacement n text = .ok (some (str "from" ++ blanks ++ vendored module ++ rest))
  refused : ∀ module names, n = .importFrom (some module) names 0 → concerns n = true →
    (∀ blanks rest, ¬Names module blanks rest text) → replacement n text = .error ⟨text⟩

theorem relocateNode_of_not_concerns {n : ImportNode} (h : concerns n = false) :
    vendoring.relocateNode n = [n] := by
  cases n with
  | plain names => exact if_neg (by rw [← Bool.not_eq_true] at h; exact h)
  | importFrom module names level =>
    cases module with
    | none => rfl
    | some dotted =>
      cases level with
      | zero =>
        have hmoved : vendoring.moved (topOf dotted) = false := by
          simpa [concerns, isVendored_some] using h
        simp [Relocation.relocateNode, hmoved]
      | succ level => rfl

theorem isReplaced (n : ImportNode) (text : Str) : IsReplaced n text := by
  refine ⟨fun h => ⟨?_, relocateNode_of_not_concerns h⟩, ?_, ?_, ?_⟩
  · cases n with
    | plain names =>
      have hany : ¬(names.any fun a => isVendored (some a.name)) = true := by
        rw [Bool.not_eq_true]
        exact h
      rw [replacement, rewriteImport_eq, if_neg hany]
    | importFrom module names level =>
      rw [concerns, Bool.and_eq_false_iff] at h
      have hleft : level ≠ 0 ∨ (!isVendored module) = true := by simpa using h
      simp only [replacement, rewriteImportFrom, if_pos hleft]
  · rintro names rfl h
    have hany : (names.any fun a => isVendored (some a.name)) = true := h
    exact ⟨_, by rw [replacement, rewriteImport_eq, if_pos hany], rfl⟩
  · rintro module names rfl h
    have hvendored : isVendored (some module) = true := by simpa [concerns] using h
    have hmoved : vendoring.moved (topOf module) = true := hvendored
    refine ⟨by simp [Relocation.relocateNode, hmoved, vendored_eq], fun blanks rest hnames => ?_⟩
    obtain ⟨hne, hhead⟩ := head_of_isVendored hvendored
    have hmatch := (matchFrom_eq_some_iff hne hhead).mpr hnames
    simp only [replacement, rewriteImportFrom, hvendored, Option.getD_some, hmatch, ne_eq,
      not_true_eq_false, Bool.not_true, Bool.false_eq_true, or_self, if_false]
  · rintro module names rfl h hnone
    have hvendored : isVendored (some module) = true := by simpa [concerns] using h
    obtain ⟨hne, hhead⟩ := head_of_isVendored hvendored
    have hmatch : matchFrom module text = none := by
      by_contra hsome
      obtain ⟨⟨blanks, rest⟩, hmatch⟩ := Option.ne_none_iff_exists'.mp hsome
      exact hnone blanks rest ((matchFrom_eq_some_iff hne hhead).mp hmatch)
    simp only [replacement, rewriteImportFrom, hvendored, Option.getD_some, hmatch, ne_eq,
      not_true_eq_false, Bool.not_true, Bool.false_eq_true, or_self, if_false]

/-! ## The copies -/

/-- The vendored packages with the other top-level packages that they reach. -/
def vendoringTo (others : Set Str) : Scope where
  toRelocation := vendoring
  follows t := vendoring.moved t = true ∨ t ∈ others ∧ t ≠ vendoring.root
  follows_moved _ := .inl
  not_follows_root := by
    rintro (hmoved | ⟨-, hroot⟩)
    · exact absurd hmoved (by decide)
    · exact hroot rfl

section

variable {V : Type} {allNames : V → List Str} {others : Set Str}

/-- The modules that are found once the packages are vendored: the copies, what is installed under
the packages' own names, and everything else. -/
def vendoredWorld (w installed : ModulePath → Option (Module V)) (p : ModulePath) :
    Option (Module V) :=
  if vendoring.host.isPrefixOf p ∧ p ≠ vendoring.host then
    (w (p.drop vendoring.host.length)).map fun m => { m with code := vendoring.relocateCode m.code }
  else if p.head?.any vendoring.moved then installed p
  else w p

/-- The three packages are there, and what they reach is code that their copies can run: packages
that import none of the three under its own name, imports that stay with what is reached, and steps
that do the same whatever the modules are called. Nothing is said of any other package. -/
structure Vendorable (others : Set Str) (w : ModulePath → Option (Module V)) (base : Interp V) :
    Prop where
  present : ∀ t ∈ vendoredTopLevel, (w [t]).isSome = true
  reached : ∀ q m, (vendoringTo others).Covers q → ¬vendoring.Moves q → w q = some m →
    vendoring.relocateCode m.code = m.code
  fits : ∀ q m, (vendoringTo others).Covers q → w q = some m →
    m.code.Fits (vendoringTo others) base q m.isPackage

theorem isCopy_vendoredWorld {w : ModulePath → Option (Module V)} {base : Interp V}
    (installed : ModulePath → Option (Module V)) (h : Vendorable others w base) :
    IsCopy (vendoringTo others) w (vendoredWorld w installed) := by
  refine ⟨fun t ht => h.present t (of_decide_eq_true ht), fun q hq => ?_, fun q hq hmoves =>
    ⟨?_, fun m hm => h.reached q m hq hmoves hm⟩⟩
  · obtain ⟨t, ht, -⟩ := hq
    obtain ⟨q, rfl⟩ : ∃ rest, q = t :: rest := by
      cases q with
      | nil => cases ht
      | cons u q => exact ⟨q, by rw [Option.some.inj ht]⟩
    show vendoredWorld w installed (vendoring.host ++ t :: q) = _
    have hpre : vendoring.host.isPrefixOf (vendoring.host ++ t :: q) = true := by simp
    rw [vendoredWorld, if_pos ⟨hpre, by simp⟩, List.drop_left]
    rfl
  · have hhost : ¬(vendoring.host.isPrefixOf q = true ∧ q ≠ vendoring.host) := by
      rintro ⟨hpre, -⟩
      obtain ⟨rest, hroot⟩ := vendoring.host_eq
      rw [List.isPrefixOf_iff_prefix, hroot] at hpre
      obtain ⟨tail, rfl⟩ := hpre
      exact (vendoringTo others).not_follows_root (Scope.covers_cons.mp hq)
    have hown : ¬q.head?.any vendoring.moved = true := by
      rw [Option.any_eq_true]
      exact hmoves
    rw [vendoredWorld, if_neg hhost, if_neg hown]

theorem root_vendoring : vendoring.root = str "custom_components" := by decide

/-- The two runs stay together from any two states that are. -/
theorem loads_vendored {w : ModulePath → Option (Module V)} {base : Interp V}
    (installed : ModulePath → Option (Module V)) (h : Vendorable others w base)
    (hnames : ∀ v, str "custom_components" ∉ allNames v) (fuel : ℕ) :
    Loads (vendoringTo others) base ∅ (fun p => (w p).isSome)
      (fun p => (vendoredWorld w installed p).isSome) (load allNames w fuel)
      (load allNames (vendoredWorld w installed) fuel) := by
  have hall : str "__all__" ≠ vendoring.root := by
    rw [root_vendoring, Ne, str_inj]
    decide
  have hnames : ∀ v, vendoring.root ∉ allNames v := by rwa [root_vendoring]
  exact loads_copy (isCopy_vendoredWorld installed h) hall hnames h.fits fuel ∅

/-- An `ImportError` of either kind. -/
def isImportError : Raised V → Bool
  | .notFound | .cannotImport => true
  | .noAttribute | .value _ => false

/-- Packages that import one another, the inner one while it is being loaded, and try a package that
is not there; and an integration that imports `mcp` for itself. -/
def circular (p : ModulePath) : Option (Module ℕ) :=
  if p = [str "fastmcp"] then
    some ⟨true, .seq (.attempt (.node (.plain [⟨"httpx", none⟩])) isImportError fun _ => .skip)
      (.node (.importFrom (some "mcp") [⟨"types", none⟩] 0))⟩
  else if p = [str "mcp"] then
    some ⟨true, .seq (.node (.plain [⟨"mcp.types", none⟩]))
      (.other fun here s => .done (s.bind here "ready" (.value 1)))⟩
  else if p = [str "mcp", str "types"] then
    some ⟨false, .node (.importFrom (some "mcp") [⟨"types", some "own"⟩] 0)⟩
  else if p = [str "mcp_types"] then some ⟨false, .skip⟩
  else if p = [str "homeassistant"] then some ⟨false, .node (.plain [⟨"mcp", none⟩])⟩
  else none

/-- No module is loaded. -/
def unloaded : Interp ℕ := ⟨fun _ => false, fun _ _ => none⟩

/-- The component is loaded, and modules under the packages' own names. -/
def hosting (own : ModulePath → Bool) : Interp ℕ where
  loaded p := p ∈ vendoring.host.inits.tail || (own p && p.head?.any vendoring.moved)
  attrs _ _ := none

theorem related_hosting (own : ModulePath → Bool) :
    Related (vendoringTo others) (hosting own) ∅ unloaded (hosting own) := by
  refine ⟨fun p hp => ?_, fun p n _ _ => rfl, fun q hq => ?_, fun t _ => .inl rfl,
    fun t ht => absurd ht (by simp), fun p _ => ⟨rfl, rfl⟩⟩
  · show (_ || _) = false
    have hown : ((vendoringTo others).place p).head?.any vendoring.moved = false := by
      rw [← Bool.not_eq_true, Option.any_eq_true]
      exact hp.place_ne.2
    rw [hown, Bool.and_false, Bool.or_false, decide_eq_false_iff_not]
    exact hp.place_notMem
  · have hq : q ∈ vendoring.host.inits.tail := hq
    show (_ || _) = true
    rw [decide_eq_true hq, Bool.true_or]

theorem vendorable_circular (base : Interp ℕ) : Vendorable {str "httpx"} circular base := by
  have hcovers (t : Str) (rest : ModulePath) (ht : t ∈ vendoredTopLevel) :
      (vendoringTo {str "httpx"}).Covers (t :: rest) :=
    Scope.covers_of_moved (decide_eq_true ht)
  have hmcp (rest : ModulePath) : (vendoringTo {str "httpx"}).Covers (str "mcp" :: rest) :=
    hcovers _ rest (by decide)
  have hroot (name : String) (h : name ≠ "custom_components") :
      str name ≠ (vendoringTo {str "httpx"}).root := by
    show str name ≠ vendoring.root
    rwa [root_vendoring, Ne, str_inj]
  have hhttpx : (vendoringTo {str "httpx"}).Covers (modulePath (str "httpx")) := by
    have hpath : modulePath (str "httpx") = [str "httpx"] := by decide
    rw [hpath]
    exact Scope.covers_cons.mpr (.inr ⟨rfl, hroot "httpx" (by decide)⟩)
  have hcases : ∀ q m, (vendoringTo {str "httpx"}).Covers q → circular q = some m →
      vendoring.Moves q ∧ m.code.Fits (vendoringTo {str "httpx"}) base q m.isPackage := by
    intro q m hq hm
    unfold circular at hm
    split_ifs at hm with hfast hm' htypes hmt hha
    · obtain rfl := Option.some.inj hm
      subst hfast
      refine ⟨⟨_, rfl, by decide⟩, ⟨fun a ha => ?_, fun e => trivial⟩, fun a ha => ?_, [str "mcp"],
        rfl, hmcp []⟩
      · obtain rfl : a = ⟨"httpx", none⟩ := by simpa using ha
        exact hhttpx
      · obtain rfl : a = ⟨"types", none⟩ := by simpa using ha
        exact hroot _ (by decide)
    · obtain rfl := Option.some.inj hm
      subst hm'
      refine ⟨⟨_, rfl, by decide⟩, fun a ha => ?_, fun running s s' hs => ?_⟩
      · obtain rfl : a = ⟨"mcp.types", none⟩ := by simpa using ha
        exact hmcp [str "types"]
      · exact .done (hs.bind (hmcp []) _ _)
    · obtain rfl := Option.some.inj hm
      subst htypes
      refine ⟨⟨_, rfl, by decide⟩, fun a ha => ?_, [str "mcp"], rfl, hmcp []⟩
      obtain rfl : a = ⟨"types", some "own"⟩ := by simpa using ha
      exact hroot _ (by decide)
    · obtain rfl := Option.some.inj hm
      subst hmt
      exact ⟨⟨_, rfl, by decide⟩, trivial⟩
    · -- nothing is asked of the integration, which no vendored package imports
      subst hha
      rcases Scope.covers_cons.mp hq with hmoved | ⟨hother, -⟩
      · exact absurd hmoved (by decide)
      · exact absurd (str_inj.mp hother) (by decide)
  refine ⟨by decide, fun q m hq hmoves hm => absurd (hcases q m hq hm).1 hmoves, fun q m hq hm =>
    (hcases q m hq hm).2⟩

/-- The script rewrites the import statements to those of the copies, or refuses, and the copies run
as the packages do in their own place: a module and its counterpart load alike, raise alike, and
bind the same names to counterparts, at whatever depth their imports are inside one another and
whatever is installed under the packages' own names, which stays as it is. -/
theorem vendored_runs {w installed : ModulePath → Option (Module V)} {base s s' : Interp V}
    (h : Vendorable others w base) (hnames : ∀ v, str "custom_components" ∉ allNames v)
    (fuel : ℕ) {q : ModulePath} (hq : (vendoringTo others).Covers q)
    (hs : Related (vendoringTo others) base ∅ s s') :
    (∀ n text, IsReplaced n text) ∧
      Agree (Related (vendoringTo others) base ∅) (load allNames w fuel q s)
        (load allNames (vendoredWorld w installed) fuel (vendoring.place q) s') :=
  ⟨isReplaced, (loads_vendored installed h hnames fuel).agree q hq s s' hs⟩

theorem vendored_runs_circular :
    (∀ n text, IsReplaced n text) ∧
      Agree (Related (vendoringTo {str "httpx"}) (hosting fun _ => false) ∅)
        (load (fun _ => []) circular 4 [str "fastmcp"] unloaded)
        (load (fun _ => []) (vendoredWorld circular fun _ => none) 4
          (vendoring.place [str "fastmcp"]) (hosting fun _ => false)) :=
  vendored_runs (vendorable_circular _) (by simp) 4 (Scope.covers_of_moved (by decide))
    (related_hosting _)

/-- Nothing in the copies, or in what they reach, tells two states apart. -/
structure SameCopies (others : Set Str) (t t' : Interp V) : Prop where
  loaded : ∀ p, (vendoringTo others).Covers p →
    t.loaded (vendoring.place p) = t'.loaded (vendoring.place p)
  attrs : ∀ p n, (vendoringTo others).Covers p → n ≠ str "custom_components" →
    t.attrs (vendoring.place p) n = t'.attrs (vendoring.place p) n

/-- What is loaded under the packages' own names is as it was. -/
def KeepsOwn (s t : Interp V) : Prop :=
  ∀ p, vendoring.Moves p → t.loaded p = s.loaded p ∧ t.attrs p = s.attrs p

/-- Other copies of the packages, of whatever version, make no difference to the vendored ones and
are left alone by them: with two choices of what is installed and loaded under the packages' own
names, a module loads or raises alike, with the same namespaces. -/
theorem vendored_isolated {w installed₁ installed₂ : ModulePath → Option (Module V)}
    {s s₁ s₂ : Interp V} (hw₁ : Vendorable others w s₁) (hw₂ : Vendorable others w s₂)
    (hnames : ∀ v, str "custom_components" ∉ allNames v)
    (fuel : ℕ) {q : ModulePath} (hq : (vendoringTo others).Covers q)
    (h₁ : Related (vendoringTo others) s₁ ∅ s s₁) (h₂ : Related (vendoringTo others) s₂ ∅ s s₂) :
    Agree (fun t₁ t₂ => SameCopies others t₁ t₂ ∧ KeepsOwn s₁ t₁ ∧ KeepsOwn s₂ t₂)
      (load allNames (vendoredWorld w installed₁) fuel (vendoring.place q) s₁)
      (load allNames (vendoredWorld w installed₂) fuel (vendoring.place q) s₂) := by
  have hrun₁ := (loads_vendored installed₁ hw₁ hnames fuel).agree q hq s s₁ h₁
  have hrun₂ := (loads_vendored installed₂ hw₂ hnames fuel).agree q hq s s₂ h₂
  -- both end as the packages do in their own place
  refine (hrun₁.trans hrun₂).mono ?_
  rintro t₁ t₂ ⟨t, ht₁, ht₂⟩
  refine ⟨⟨fun p hp => ?_, fun p n hp hn => ?_⟩, ht₁.apart, ht₂.apart⟩
  · exact (ht₁.loaded p hp).trans (ht₂.loaded p hp).symm
  · rw [← root_vendoring] at hn
    exact (ht₁.attrs p n hp hn).trans (ht₂.attrs p n hp hn).symm

theorem vendored_isolated_circular :
    Agree (fun t₁ t₂ => SameCopies {str "httpx"} t₁ t₂ ∧ KeepsOwn (hosting fun _ => false) t₁ ∧
        KeepsOwn (hosting fun _ => true) t₂)
      (load (fun _ => []) (vendoredWorld circular fun _ => none) 4
        (vendoring.place [str "fastmcp"]) (hosting fun _ => false))
      (load (fun _ => []) (vendoredWorld circular fun _ => some ⟨true, .skip⟩) 4
        (vendoring.place [str "fastmcp"]) (hosting fun _ => true)) :=
  vendored_isolated (vendorable_circular _) (vendorable_circular _) (by simp) 4
    (Scope.covers_of_moved (by decide)) (related_hosting _) (related_hosting _)

end

end EsphomeMcp.Vendor
