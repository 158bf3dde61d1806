import EsphomeMcp.Vendor.Requirements

/-!
# Requires-Dist lines

`runtime_requirements`: which requirements of a wheel go with a choice of extras. The extra clauses
of a marker are found and taken out by two patterns over its text. `Marker` is the grammar of
markers, with their texts and their meaning.
-/

namespace EsphomeMcp.Vendor

open Py

/-! ## The patterns -/

def isQuote (c : CodePoint) : Bool := c = ch '"' ∨ c = ch '\''

/-- `\w`. Letters outside ASCII do not come next to a keyword of a marker. -/
def isWordChar (c : CodePoint) : Bool := isAlpha c || isDigit c || decide (c = ch '_')

/-- `extra\s*==\s*["']([^"']+)["']` at the start of a text: the group, and what follows. -/
def matchExtra (s : Str) : Option (Str × Str) := do
  let rest ← dropStart "extra" s
  let rest ← dropStart "==" (rest.dropWhile isSpace)
  match rest.dropWhile isSpace with
  | [] => none
  | quote :: rest =>
    if isQuote quote ∧ rest.takeWhile (!isQuote ·) ≠ [] then
      match rest.dropWhile (!isQuote ·) with
      | [] => none
      | _ :: behind => some (rest.takeWhile (!isQuote ·), behind)
    else none

/-- `re.search` of it: the group of the first match. -/
def searchExtra : Str → Option Str
  | [] => none
  | c :: s =>
    match matchExtra (c :: s) with
    | some (name, _) => some name
    | none => searchExtra s

/-- `\s*\band\s+` at the start of a text, which stands behind a word character or not. -/
def matchAnd (behindWord : Bool) (s : Str) : Option Str :=
  if s.dropWhile isSpace = s ∧ behindWord then none
  else do
    let rest ← dropStart "and" (s.dropWhile isSpace)
    if rest.takeWhile isSpace = [] then none else some (rest.dropWhile isSpace)

/-- What follows `(\s+and\b\s*)?`. -/
def dropAnd (s : Str) : Str :=
  if s.takeWhile isSpace = [] then s
  else
    match dropStart "and" (s.dropWhile isSpace) with
    | none => s
    | some rest => if rest.head?.any isWordChar then s else rest.dropWhile isSpace

/-- The pattern of `re.sub` at the start of a text: what follows the match. -/
def matchClause (behindWord : Bool) (s : Str) : Option Str :=
  (((matchAnd behindWord s).bind matchExtra).or (matchExtra s)).map fun m => dropAnd m.2

/-- `re.sub(.., "", marker)`; `skip` characters still belong to the last match. -/
def removeClauses (skip : ℕ) (behindWord : Bool) : Str → Str
  | [] => []
  | c :: s =>
    match skip with
    | skip + 1 => removeClauses skip (isWordChar c) s
    | 0 =>
      match matchClause behindWord (c :: s) with
      | some rest => removeClauses (s.length - rest.length) (isWordChar c) s
      | none => c :: removeClauses 0 (isWordChar c) s

/-! ## The lines -/

/-- The requirements of the `Requires-Dist:` lines. -/
def requiresDist (metadata : Str) : List Str :=
  ((splitlines metadata).filter (startsWith · "Requires-Dist:")).map fun line =>
    strip (line.drop (str "Requires-Dist:").length)

/-- What is appended for one of them. -/
def keptRequirement (extras : List Str) (requirement : Str) : Option Str :=
  let spec := before (ch ';') requirement
  let marker := ((partition (ch ';') requirement).map Prod.snd).getD []
  match searchExtra marker with
  | none => some requirement
  | some extra =>
    if extra ∈ extras then
      let rest := strip (removeClauses 0 false marker)
      some (if rest = [] then strip spec else strip spec ++ str "; " ++ rest)
    else none

/-- `runtime_requirements`, of the wheel's METADATA. -/
def runtimeRequirements (metadata : Str) (extras : List Str) : List Str :=
  sorted (setUpdate [] ((requiresDist metadata).filterMap (keptRequirement extras)))

/-! ## Markers -/

/-- White space between the tokens of a marker. -/
abbrev Blank := {s : Str // ∀ c ∈ s, isSpace c = true}

/-- The environment a marker asks about. -/
inductive MarkerVariable where
  | osName | sysPlatform | platformMachine | platformPythonImplementation | platformRelease
  | platformSystem | platformVersion | pythonVersion | pythonFullVersion | implementationName
  | implementationVersion
deriving DecidableEq

def MarkerVariable.text : MarkerVariable → Str
  | osName => "os_name"
  | sysPlatform => "sys_platform"
  | platformMachine => "platform_machine"
  | platformPythonImplementation => "platform_python_implementation"
  | platformRelease => "platform_release"
  | platformSystem => "platform_system"
  | platformVersion => "platform_version"
  | pythonVersion => "python_version"
  | pythonFullVersion => "python_full_version"
  | implementationName => "implementation_name"
  | implementationVersion => "implementation_version"

/-- A side of a comparison. -/
inductive Operand where
  | named (v : MarkerVariable)
  | quoted (quote : CodePoint) (body : Str) (hquote : isQuote quote = true) (hbody : quote ∉ body)

def Operand.text : Operand → Str
  | named v => v.text
  | quoted quote body _ _ => quote :: (body ++ [quote])

inductive MarkerOperator where
  | le | lt | ne | eq | ge | gt | compatible | identical | isIn
  | notIn (gap : Blank) (hgap : gap.val ≠ [])

def MarkerOperator.text : MarkerOperator → Str
  | le => "<="
  | lt => "<"
  | ne => "!="
  | eq => "=="
  | ge => ">="
  | gt => ">"
  | compatible => "~="
  | identical => "==="
  | isIn => "in"
  | notIn gap _ => str "not" ++ gap.val ++ str "in"

/-- Two texts can stand next to each other: they do not run together to one word. -/
def Apart (s t : Str) : Prop :=
  ¬(s.getLast?.any isWordChar = true ∧ t.head?.any isWordChar = true)

/-- `python_version >= '3.10'`, and so on, of anything but `extra`. -/
structure MarkerComparison where
  left : Operand
  before : Blank
  operator : MarkerOperator
  after : Blank
  right : Operand
  hleft : Apart (left.text ++ before) operator.text
  hright : Apart operator.text (after ++ right.text)

def MarkerComparison.text (c : MarkerComparison) : Str :=
  c.left.text ++ (c.before.val ++ (c.operator.text ++ (c.after.val ++ c.right.text)))

/-- `extra == '<name>'`. -/
structure ExtraClause where
  before : Blank
  after : Blank
  quote : CodePoint
  name : Str
  hquote : isQuote quote = true
  hne : name ≠ []
  hname : ∀ c ∈ name, isNameChar c = true

def ExtraClause.text (e : ExtraClause) : Str :=
  str "extra" ++ (e.before.val ++ (str "==" ++ (e.after.val ++ (e.quote :: (e.name ++ [e.quote])))))

/-- What a part of a marker is: one operand, operands with `and` between them, or those with `or`
between them. -/
inductive MarkerLevel where
  | operand | conjunction | disjunction

/-- A marker as it is written. -/
inductive Marker : MarkerLevel → Type where
  | comparison (c : MarkerComparison) : Marker .operand
  | clause (e : ExtraClause) : Marker .operand
  | paren (before : Blank) (m : Marker .disjunction) (after : Blank) : Marker .operand
  | single (m : Marker .operand) : Marker .conjunction
  | and (m : Marker .operand) (before after : Blank) (rest : Marker .conjunction) :
    Marker .conjunction
  | whole (m : Marker .conjunction) : Marker .disjunction
  | or (m : Marker .conjunction) (before after : Blank) (rest : Marker .disjunction) :
    Marker .disjunction

variable {l : MarkerLevel}

def Marker.text : {l : MarkerLevel} → Marker l → Str
  | _, comparison c => c.text
  | _, clause e => e.text
  | _, paren before m after => ch '(' :: (before.val ++ (m.text ++ (after.val ++ [ch ')'])))
  | _, single m => m.text
  | _, and m before after rest =>
    m.text ++ (before.val ++ (str "and" ++ (after.val ++ rest.text)))
  | _, whole m => m.text
  | _, or m before after rest => m.text ++ (before.val ++ (str "or" ++ (after.val ++ rest.text)))

/-- The keywords stand for themselves. -/
def Marker.Spaced : {l : MarkerLevel} → Marker l → Prop
  | _, comparison _ | _, clause _ => True
  | _, paren _ m _ => m.Spaced
  | _, single m => m.Spaced
  | _, and m before after rest => m.Spaced ∧ rest.Spaced ∧
    Apart (m.text ++ before) (str "and") ∧ Apart (str "and") (after ++ rest.text)
  | _, whole m => m.Spaced
  | _, or m before after rest => m.Spaced ∧ rest.Spaced ∧
    Apart (m.text ++ before) (str "or") ∧ Apart (str "or") (after ++ rest.text)

/-- What a marker says, in an environment and for the extras for which `asked` holds. -/
def Marker.eval (env : MarkerComparison → Bool) (asked : Str → Bool) :
    {l : MarkerLevel} → Marker l → Bool
  | _, comparison c => env c
  | _, clause e => asked e.name
  | _, paren _ m _ => m.eval env asked
  | _, single m => m.eval env asked
  | _, and m _ _ rest => m.eval env asked && rest.eval env asked
  | _, whole m => m.eval env asked
  | _, or m _ _ rest => m.eval env asked || rest.eval env asked

/-- The names of the clauses, from left to right. -/
def Marker.names : {l : MarkerLevel} → Marker l → List Str
  | _, comparison _ => []
  | _, clause e => [e.name]
  | _, paren _ m _ => m.names
  | _, single m => m.names
  | _, and m _ _ rest => m.names ++ rest.names
  | _, whole m => m.names
  | _, or m _ _ rest => m.names ++ rest.names

/-! ## What the result is asked for -/

/-- The text is that of the marker, with white space around it. -/
def IsMarkerText (text : Str) (m : Marker .disjunction) : Prop :=
  m.Spaced ∧ ∃ before after : Blank, text = before.val ++ (m.text ++ after.val)

/-- A requirement as it is read: what it asks for, and the marker it may have behind a `;`. -/
inductive ReadsAs (requirement : Str) : Str → Option (Marker .disjunction) → Prop where
  | bare (h : ch ';' ∉ requirement) : ReadsAs requirement (strip requirement) none
  | marked {spec text : Str} {m : Marker .disjunction}
    (h : partition (ch ';') requirement = some (spec, text)) (hm : IsMarkerText text m) :
    ReadsAs requirement (strip spec) (some m)

/-- A requirement without a marker holds always. -/
def holdsIn (env : MarkerComparison → Bool) (asked : Str → Bool)
    (m : Option (Marker .disjunction)) : Bool :=
  (m.map (Marker.eval env asked)).getD true

/-- What `extra` is, in turn: nothing, and each of the selected extras. -/
def contexts (extras : List Str) : List (Str → Bool) :=
  (fun _ => false) :: extras.map fun extra name => decide (name = extra)

/-- A `Requires-Dist` line, and how it is read. -/
structure RequiresDist where
  requirement : Str
  spec : Str
  marker : Option (Marker .disjunction)
  reads : ReadsAs requirement spec marker

/-- With no extra or with a selected one, it holds. -/
def RequiresDist.neededIn (line : RequiresDist) (extras : List Str)
    (env : MarkerComparison → Bool) : Bool :=
  (contexts extras).any fun asked => holdsIn env asked line.marker

def RequiresDist.Needed (line : RequiresDist) (extras : List Str) : Prop :=
  ∃ env, line.neededIn extras env = true

/-- It is there with a marker that says the same, once it is known which extras are selected. -/
def RequiresDist.KeptAs (line : RequiresDist) (extras : List Str) (kept : Str) : Prop :=
  ∃ marker, ReadsAs kept line.spec marker ∧
    ∀ env asked, holdsIn env asked marker = line.neededIn extras env

/-- The `REQUIRES.txt` of a tree, `"\n".join(requirements) + "\n"`. -/
def requiresText (requirements : List Str) : Str :=
  [ch '\n'].intercalate requirements ++ [ch '\n']

def Comparison.text : Comparison → Str
  | ge => ">="
  | le => "<="
  | eq => "=="
  | ne => "!="
  | lt => "<"
  | gt => ">"

/-- What a supported comparison says of the deployed Home Assistant, which runs on CPython 3.14 and
Linux. -/
inductive MarkerComparison.OnTarget (c : MarkerComparison) : Bool → Prop where
  | pythonVersion {comparison : Comparison} {quote : CodePoint} {major minor : Str}
    (hleft : c.left = .named .pythonVersion) (hoperator : c.operator.text = comparison.text)
    (hright : c.right.text = quote :: (major ++ ch '.' :: minor ++ [quote]))
    (hmajor : major.all isDigit = true) (hminor : minor.all isDigit = true) :
    OnTarget c (comparison.holds [3, 14] [digitsVal major, digitsVal minor])
  | windows {quote : CodePoint} (hleft : c.left = .named .sysPlatform)
    (hoperator : c.operator.text = Comparison.eq.text)
    (hright : c.right.text = quote :: (str "win32" ++ [quote])) : OnTarget c false
  | noEmscripten {quote : CodePoint} (hleft : c.left = .named .sysPlatform)
    (hoperator : c.operator.text = Comparison.ne.text)
    (hright : c.right.text = quote :: (str "emscripten" ++ [quote])) : OnTarget c true

/-- The marker is one comparison and nothing else. -/
inductive Marker.IsOnly (c : MarkerComparison) : {l : MarkerLevel} → Marker l → Prop where
  | comparison : IsOnly c (.comparison c)
  | single {m : Marker .operand} (h : m.IsOnly c) : IsOnly c (.single m)
  | whole {m : Marker .conjunction} (h : m.IsOnly c) : IsOnly c (.whole m)

/-- The marker is supported, and this is what it says of the deployed Home Assistant: it is one
supported comparison, perhaps in parentheses. -/
inductive Marker.OnTarget : Marker .disjunction → Bool → Prop where
  | bare {m : Marker .disjunction} {c : MarkerComparison} {holds : Bool} (h : m.IsOnly c)
    (hholds : c.OnTarget holds) : OnTarget m holds
  | paren {m : Marker .disjunction} {before after : Blank} {c : MarkerComparison} {holds : Bool}
    (h : m.IsOnly c) (hholds : c.OnTarget holds) :
    OnTarget (.whole (.single (.paren before m after))) holds

/-- Everything that is needed is kept, and nothing else; and the merge for the component manifest
takes each marker that is left for what it says, or stops. -/
structure KeepsNeeded (extras : List Str) (lines : List RequiresDist) (result : List Str) : Prop where
  needed : ∀ line ∈ lines, line.Needed extras → ∃ kept ∈ result, line.KeptAs extras kept
  only : ∀ kept ∈ result, ∃ line ∈ lines, line.Needed extras ∧ line.KeptAs extras kept
  /-- No marker is altered in meaning. -/
  means : ∀ kept ∈ result, ∀ spec m, ReadsAs kept spec (some m) → ∀ r holds,
    matchRequirement kept = some r → r.applies kept = .ok holds → m.OnTarget holds
  /-- An unsupported marker stops the run. -/
  stops : ∀ kept ∈ result, ∀ spec m, ReadsAs kept spec (some m) → (∀ holds, ¬m.OnTarget holds) →
    ∀ order texts, requiresText result ∈ texts → ∃ e, manifestRequirements order texts = .error e

/-! ## When the patterns do -/

/-- What a marker says when its clauses are taken to be true; `none` is what is always true. -/
def Marker.kept : {l : MarkerLevel} → Marker l → Option (Marker l)
  | _, comparison c => some (comparison c)
  | _, clause _ => none
  | _, paren before m after => m.kept.map fun m => paren before m after
  | _, single m => m.kept.map single
  | _, and m before after rest =>
    match m.kept, rest.kept with
    | none, rest => rest
    | some m, none => some (single m)
    | some m, some rest => some (and m before after rest)
  | _, whole m => m.kept.map whole
  | _, or m before after rest =>
    match m.kept, rest.kept with
    | some m, some rest => some (or m before after rest)
    | _, _ => none

def Marker.isClause : {l : MarkerLevel} → Marker l → Bool
  | _, clause _ => true
  | _, _ => false

/-- There is a clause at the left end. -/
def Marker.startsWithClause : {l : MarkerLevel} → Marker l → Bool
  | _, single m => m.isClause
  | _, and m _ _ _ => m.isClause
  | _, _ => false

/-- One conjunction, of nothing but clauses. -/
def Marker.onlyClauses : {l : MarkerLevel} → Marker l → Bool
  | _, single m => m.isClause
  | _, and m _ _ rest => m.isClause && rest.onlyClauses
  | _, whole m => m.onlyClauses
  | _, _ => false

/-- Each conjunction has something besides clauses, and its clauses at its ends; those at its start
have white space behind them. -/
def Marker.ClausesAtEnds : {l : MarkerLevel} → Marker l → Prop
  | _, comparison _ => True
  | _, clause _ => False
  | _, paren _ m _ => m.ClausesAtEnds
  | _, single m => m.ClausesAtEnds
  | _, and m before _ rest =>
    m.isClause = true ∧ before.val ≠ [] ∧ rest.ClausesAtEnds ∨
    m.ClausesAtEnds ∧
      (rest.onlyClauses = true ∨ rest.startsWithClause = false ∧ rest.ClausesAtEnds)
  | _, whole m => m.ClausesAtEnds
  | _, or m _ _ rest => m.ClausesAtEnds ∧ rest.ClausesAtEnds

/-- In front of `behind`, the pattern for a clause matches nowhere in a comparison. -/
def Marker.Quiet : {l : MarkerLevel} → Marker l → Str → Prop
  | _, comparison c, behind => ∀ s, s ≠ [] → s <:+ c.text → matchExtra (s ++ behind) = none
  | _, clause _, _ => True
  | _, paren _ m after, behind => m.Quiet (after.val ++ ch ')' :: behind)
  | _, single m, behind => m.Quiet behind
  | _, and m before after rest, behind =>
    m.Quiet (before.val ++ (str "and" ++ (after.val ++ (rest.text ++ behind)))) ∧ rest.Quiet behind
  | _, whole m, behind => m.Quiet behind
  | _, or m before after rest, behind =>
    m.Quiet (before.val ++ (str "or" ++ (after.val ++ (rest.text ++ behind)))) ∧ rest.Quiet behind

/-- As `Quiet`, of the comparisons in front of the first clause. -/
def Marker.QuietStart : {l : MarkerLevel} → Marker l → Str → Prop
  | _, comparison c, behind => ∀ s, s ≠ [] → s <:+ c.text → matchExtra (s ++ behind) = none
  | _, clause _, _ => True
  | _, paren _ m after, behind => m.QuietStart (after.val ++ ch ')' :: behind)
  | _, single m, behind => m.QuietStart behind
  | _, and m before after rest, behind =>
    m.QuietStart (before.val ++ (str "and" ++ (after.val ++ (rest.text ++ behind)))) ∧
      (m.names = [] → rest.QuietStart behind)
  | _, whole m, behind => m.QuietStart behind
  | _, or m before after rest, behind =>
    m.QuietStart (before.val ++ (str "or" ++ (after.val ++ (rest.text ++ behind)))) ∧
      (m.names = [] → rest.QuietStart behind)

/-- Every alternative has a clause for another extra than this one. -/
def Marker.AsksOther (extra : Option Str) : {l : MarkerLevel} → Marker l → Prop
  | _, comparison _ => False
  | _, clause e => extra ≠ some e.name
  | _, paren _ m _ => m.AsksOther extra
  | _, single m => m.AsksOther extra
  | _, and m _ _ rest => m.AsksOther extra ∨ rest.AsksOther extra
  | _, whole m => m.AsksOther extra
  | _, or m _ _ rest => m.AsksOther extra ∧ rest.AsksOther extra

/-- The first clause decides rightly, and the text without its clauses says what is left of the
marker. -/
def Marker.Handled (extras : List Str) (m : Marker .disjunction) : Prop :=
  ∀ name ∈ m.names.head?,
    if name ∈ extras then
      (∀ behind : Blank, m.Quiet behind.val) ∧ (m.onlyClauses = true ∨ m.ClausesAtEnds) ∧
      (∀ kept ∈ m.kept, kept.Spaced) ∧
      ∀ env, m.eval env (fun _ => true) = (contexts extras).any (m.eval env)
    else m.AsksOther none ∧ ∀ extra ∈ extras, m.AsksOther (some extra)

/-- What makes the result right for a line: a bracket of its specification is closed there, and its
marker is one that the patterns handle. -/
structure RequiresDist.Handled (line : RequiresDist) (extras : List Str) : Prop where
  bracket : ch '[' ∈ line.spec → ch ']' ∈ line.spec
  quiet : ∀ m ∈ line.marker, ∀ behind : Blank, m.QuietStart behind.val
  marker : ∀ m ∈ line.marker, m.Handled extras

end EsphomeMcp.Vendor
