import EsphomeMcp.Python.Lines
import EsphomeMcp.Release.Version

/-!
# The assignment of a version in a text

`_replace_assignment`: `re.subn` with a pattern for `name = "current"` at the start of a line. The
source is cut into the matches and the characters between them; there has to be one match, and of
it only the quoted version is exchanged.
-/

namespace EsphomeMcp.Release

open Py

/-! ## Definitions -/

/-- The text behind a text at the start. -/
def dropText (p s : Str) : Option Str := if startsWith s p then some (s.drop p.length) else none

/-- `["\']` at the start of a text. -/
def readQuote : Str → Option (CodePoint × Str)
  | [] => none
  | c :: s => if c = ch '"' ∨ c = ch '\'' then some (c, s) else none

/-- `(?P<prefix>name\s*=\s*)["\']current["\']` at the start of a text: the group and what is behind
it in the match. The two quotes need not be the same. -/
def matchAssignment (name current s : Str) : Option (Str × Str) := do
  let s₁ ← dropText name s
  let s₂ ← dropText [ch '='] (s₁.dropWhile isSpace)
  let (quote, s₃) ← readQuote (s₂.dropWhile isSpace)
  let s₄ ← dropText current s₃
  let (quote', _) ← readQuote s₄
  return (name ++ (s₁.takeWhile isSpace ++ ch '=' :: s₂.takeWhile isSpace),
    quote :: (current ++ [quote']))

/-- A piece of a source: a match, or a character that belongs to none. -/
inductive Piece where
  | char (c : CodePoint)
  | assignment (head literal : Str)
deriving DecidableEq

namespace Piece

/-- A piece as it stands in the source. -/
def text : Piece → Str
  | char c => [c]
  | assignment head literal => head ++ literal

/-- A piece in the result; the target has no backslashes, which the template would interpret. -/
def render (target : Str) : Piece → Str
  | char c => [c]
  | assignment head _ => head ++ (ch '"' :: (target ++ [ch '"']))

def isAssignment : Piece → Bool
  | char _ => false
  | assignment _ _ => true

end Piece

/-- The pieces of a source, with the number of characters that belong to the last match. A match
starts at the start of a line, as `^` does with `re.MULTILINE`. -/
def pieces (name current : Str) : ℕ → Bool → Str → List Piece
  | _, _, [] => []
  | skip + 1, _, c :: s => pieces name current skip (c = ch '\n') s
  | 0, lineStart, c :: s =>
    match (if lineStart then matchAssignment name current (c :: s) else none) with
    | some (head, literal) =>
      .assignment head literal ::
        pieces name current (head.length + literal.length - 1) (c = ch '\n') s
    | none => .char c :: pieces name current 0 (c = ch '\n') s

section

variable [Runtime]

/-- `_replace_assignment`. -/
def replaceAssignment (source name current target : Str) : Except ScriptError Str :=
  let found := pieces name current 0 true source
  if found.countP Piece.isAssignment ≠ 1 then
    .error (.runtime (str "expected exactly one " ++ name ++ str " assignment for " ++
      Runtime.repr (.str current)))
  else .ok (found.flatMap (Piece.render target))

end

/-- The pattern matches once, with `before` in front and `after` behind. -/
def IsOnlyMatch (name current source before head literal after : Str) : Prop :=
  pieces name current 0 true source =
    before.map Piece.char ++ .assignment head literal :: after.map Piece.char

/-- The source with the target in the place of the matched literal. -/
def exchanged (before head target after : Str) : Str :=
  before ++ (head ++ (ch '"' :: (target ++ ch '"' :: after)))

/-! ## The pieces -/

theorem eq_append_of_dropText {p s t : Str} (h : dropText p s = some t) : s = p ++ t := by
  rw [dropText] at h
  split_ifs at h with hstart
  obtain ⟨u, rfl⟩ := startsWith_iff.mp hstart
  obtain rfl := Option.some.inj h
  rw [List.drop_left]

theorem eq_cons_of_readQuote {s t : Str} {quote : CodePoint} (h : readQuote s = some (quote, t)) :
    s = quote :: t := by
  cases s with
  | nil => cases h
  | cons c s =>
    rw [readQuote] at h
    split_ifs at h
    obtain ⟨rfl, rfl⟩ := Prod.mk.inj (Option.some.inj h)
    rfl

/-- What is matched behind the group is the version in quotes. -/
theorem literal_of_matchAssignment {name current s head literal : Str}
    (h : matchAssignment name current s = some (head, literal)) :
    ∃ quote quote', literal = quote :: (current ++ [quote']) := by
  simp only [matchAssignment, Option.bind_eq_bind, Option.bind_eq_some_iff, Option.pure_def,
    Option.some.injEq, Prod.mk.injEq, Prod.exists] at h
  obtain ⟨s₁, -, s₂, -, quote, s₃, -, s₄, -, quote', s₅, -, -, rfl⟩ := h
  exact ⟨quote, quote', rfl⟩

/-- A match is a start of the text, and it is not empty. -/
theorem matchAssignment_spec {name current s head literal : Str}
    (h : matchAssignment name current s = some (head, literal)) :
    (∃ rest, s = head ++ literal ++ rest) ∧ 0 < literal.length := by
  simp only [matchAssignment, Option.bind_eq_bind, Option.bind_eq_some_iff, Option.pure_def,
    Option.some.injEq, Prod.mk.injEq, Prod.exists] at h
  obtain ⟨s₁, h₁, s₂, h₂, quote, s₃, h₃, s₄, h₄, quote', s₅, h₅, rfl, rfl⟩ := h
  refine ⟨⟨s₅, ?_⟩, Nat.succ_pos _⟩
  calc s = name ++ (s₁.takeWhile isSpace ++ s₁.dropWhile isSpace) := by
        rw [List.takeWhile_append_dropWhile]
        exact eq_append_of_dropText h₁
    _ = name ++ (s₁.takeWhile isSpace ++
          ([ch '='] ++ (s₂.takeWhile isSpace ++ s₂.dropWhile isSpace))) := by
        rw [List.takeWhile_append_dropWhile (l := s₂), ← eq_append_of_dropText h₂]
    _ = _ := by
        rw [eq_cons_of_readQuote h₃, eq_append_of_dropText h₄, eq_cons_of_readQuote h₅]
        simp

/-- The pieces put together are the source. -/
theorem flatMap_text_pieces (name current : Str) (skip : ℕ) (lineStart : Bool) (s : Str) :
    (pieces name current skip lineStart s).flatMap Piece.text = s.drop skip := by
  induction s generalizing skip lineStart with
  | nil => rw [pieces, List.drop_nil, List.flatMap_nil]
  | cons c s ih =>
    cases skip with
    | succ skip => rw [pieces, ih, List.drop_succ_cons]
    | zero =>
      rw [pieces]
      split
      · next head literal hmatch =>
        split_ifs at hmatch
        obtain ⟨⟨rest, hrest⟩, hpos⟩ := matchAssignment_spec hmatch
        -- the rest of the match is left out behind its first character
        have hlen : head.length + literal.length = head.length + literal.length - 1 + 1 := by omega
        rw [List.flatMap_cons, ih, List.drop_zero, Piece.text,
          ← List.drop_succ_cons (a := c), ← hlen, hrest, ← List.length_append, List.drop_left]
      · rw [List.flatMap_cons, ih]
        rfl

/-- Around the one match the source is left as it is. -/
theorem IsOnlyMatch.source_eq {name current source before head literal after : Str}
    (h : IsOnlyMatch name current source before head literal after) :
    source = before ++ (head ++ (literal ++ after)) := by
  have htext := flatMap_text_pieces name current 0 true source
  rw [h, List.drop_zero] at htext
  rw [← htext]
  simp [Piece.text, List.flatMap_append, List.flatMap_map]

/-- Every match is one of the pattern. -/
theorem literal_of_mem_pieces {name current head literal : Str} {skip : ℕ} {lineStart : Bool}
    {s : Str} (h : .assignment head literal ∈ pieces name current skip lineStart s) :
    ∃ quote quote', literal = quote :: (current ++ [quote']) := by
  induction s generalizing skip lineStart with
  | nil =>
    rw [pieces] at h
    cases h
  | cons c s ih =>
    cases skip with
    | succ skip =>
      rw [pieces] at h
      exact ih h
    | zero =>
      rw [pieces] at h
      split at h
      · rename_i head' literal' hmatch
        rcases List.mem_cons.mp h with heq | h
        · obtain ⟨rfl, rfl⟩ := Piece.assignment.inj heq
          split_ifs at hmatch
          exact literal_of_matchAssignment hmatch
        · exact ih h
      · rcases List.mem_cons.mp h with heq | h
        · cases heq
        · exact ih h

theorem IsOnlyMatch.literal_eq {name current source before head literal after : Str}
    (h : IsOnlyMatch name current source before head literal after) :
    ∃ quote quote', literal = quote :: (current ++ [quote']) := by
  rw [IsOnlyMatch] at h
  exact literal_of_mem_pieces (h ▸ List.mem_append_right _ List.mem_cons_self)

/-- A source has one only match at most. -/
theorem IsOnlyMatch.unique {name current source before head literal after : Str}
    {before' head' literal' after' : Str}
    (h : IsOnlyMatch name current source before head literal after)
    (h' : IsOnlyMatch name current source before' head' literal' after') :
    before' = before ∧ head' = head ∧ literal' = literal ∧ after' = after := by
  have hinj : Function.Injective Piece.char := fun _ _ => Piece.char.inj
  have hsame := h.symm.trans h'
  clear h h'
  -- the two cuts run through the same characters up to the match
  induction before generalizing before' with
  | nil =>
    cases before' with
    | nil =>
      obtain ⟨hmatch, hafter⟩ := List.cons.inj hsame
      obtain ⟨rfl, rfl⟩ := Piece.assignment.inj hmatch
      exact ⟨rfl, rfl, rfl, (List.map_injective_iff.mpr hinj hafter).symm⟩
    | cons c' before' => cases (List.cons.inj hsame).1
  | cons c before ih =>
    cases before' with
    | nil => cases (List.cons.inj hsame).1
    | cons c' before' =>
      obtain ⟨hc, hrest⟩ := List.cons.inj hsame
      obtain ⟨rfl, rest⟩ := ih hrest
      exact ⟨congrArg (· :: _) (hinj hc).symm, rest⟩

theorem eq_map_char {found : List Piece} (h : ∀ piece ∈ found, ¬piece.isAssignment = true) :
    found = (found.flatMap Piece.text).map Piece.char := by
  induction found with
  | nil => rfl
  | cons piece found ih =>
    rw [List.forall_mem_cons] at h
    cases piece with
    | char c =>
      rw [List.flatMap_cons, List.map_append, ← ih h.2]
      rfl
    | assignment head literal => exact absurd rfl h.1

/-- A single match has only characters around it. -/
theorem exists_split_of_countP_eq_one {found : List Piece}
    (h : found.countP Piece.isAssignment = 1) :
    ∃ before head literal after : Str,
      found = before.map Piece.char ++ .assignment head literal :: after.map Piece.char := by
  induction found with
  | nil => exact absurd h (by decide)
  | cons piece found ih =>
    cases piece with
    | char c =>
      obtain ⟨before, head, literal, after, rfl⟩ := ih (by simpa [Piece.isAssignment] using h)
      exact ⟨c :: before, head, literal, after, rfl⟩
    | assignment head literal =>
      rw [List.countP_cons_of_pos rfl] at h
      have hnone : ∀ piece ∈ found, ¬piece.isAssignment = true :=
        List.countP_eq_zero.mp (by omega)
      refine ⟨[], head, literal, found.flatMap Piece.text, ?_⟩
      rw [List.map_nil, List.nil_append, ← eq_map_char hnone]

variable [Runtime]

/-- The result is the source with the target in the place of the one quoted version. -/
theorem replaceAssignment_eq_ok_iff {source name current target rendered : Str} :
    replaceAssignment source name current target = .ok rendered ↔
      ∃ before head literal after : Str, IsOnlyMatch name current source before head literal after ∧
        rendered = exchanged before head target after := by
  have hrender : ∀ before head literal after : Str,
      (before.map Piece.char ++ Piece.assignment head literal :: after.map Piece.char).flatMap
        (Piece.render target) = exchanged before head target after := by
    intro before head literal after
    simp [exchanged, Piece.render, List.flatMap_append, List.flatMap_map]
  rw [replaceAssignment]
  constructor
  · intro h
    split_ifs at h with hcount
    obtain ⟨before, head, literal, after, hfound⟩ :=
      exists_split_of_countP_eq_one (not_not.mp hcount)
    refine ⟨before, head, literal, after, hfound, ?_⟩
    rw [← Except.ok.inj h, hfound, hrender]
  · intro ⟨before, head, literal, after, hfound, hrendered⟩
    rw [IsOnlyMatch] at hfound
    have hcount : ((before.map Piece.char ++ Piece.assignment head literal ::
        after.map Piece.char).countP Piece.isAssignment) = 1 := by
      simp [List.countP_append, List.countP_cons, List.countP_map, Piece.isAssignment,
        Function.comp_def]
    rw [hfound, hcount, hrender, hrendered]
    rfl

end EsphomeMcp.Release
