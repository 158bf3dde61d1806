import EsphomeMcp.OAuth.Register
import Mathlib.Logic.Relation

/-!
# The capped read of a body

`_read_capped_body` over every way a stream hands a body out. The stream picks the length of each
chunk, so the loop is a relation on its variables, and `readCappedBody` is one of its runs.
-/

namespace EsphomeMcp.OAuth

open Py Relation

/-! ## Definitions -/

/-- An answer of `read(n)` with `unread` to come: at most `n` bytes, and none only at the end. -/
structure Reads (n : ℕ) (unread chunk rest : Bytes) : Prop where
  append : chunk ++ rest = unread
  length_le : chunk.length ≤ n
  atEof : chunk = [] → unread = []

/-- The variables of `_read_capped_body`, what the stream still holds and whether the loop broke. -/
structure CappedRead where
  chunks : List Bytes
  remaining : ℕ
  unread : Bytes
  broke : Bool

namespace CappedRead

/-- Before the first turn. -/
def start (body : Bytes) : CappedRead := ⟨[], maxDcrBodyBytes + 1, body, false⟩

/-- One turn of the loop. -/
inductive Turn : CappedRead → CappedRead → Prop
  | append {chunks : List Bytes} {remaining : ℕ} {unread chunk rest : Bytes}
      (hremaining : 0 < remaining) (hread : Reads remaining unread chunk rest)
      (hchunk : chunk ≠ []) :
      Turn ⟨chunks, remaining, unread, false⟩
        ⟨chunks ++ [chunk], remaining - chunk.length, rest, false⟩
  | stop {chunks : List Bytes} {remaining : ℕ} {unread rest : Bytes}
      (hremaining : 0 < remaining) (hread : Reads remaining unread [] rest) :
      Turn ⟨chunks, remaining, unread, false⟩ ⟨chunks, remaining, rest, true⟩

/-- The loop is over. -/
def Done (s : CappedRead) : Prop := s.broke = true ∨ s.remaining = 0

/-- `raw`. -/
def raw (s : CappedRead) : Bytes := s.chunks.flatten

/-- What is returned once the loop is over. -/
def outcome (s : CappedRead) : Option Bytes :=
  if maxDcrBodyBytes < s.raw.length then none else some s.raw

/-! ## One turn -/

/-- The bytes taken and the bytes left are the body, the budget is what is not taken of the cap,
and the loop breaks at the end of the body only. -/
structure IsReading (body : Bytes) (s : CappedRead) : Prop where
  append : s.raw ++ s.unread = body
  budget : s.raw.length + s.remaining = maxDcrBodyBytes + 1
  atEof : s.broke = true → s.unread = []

theorem isReading_start (body : Bytes) : IsReading body (start body) where
  append := rfl
  budget := Nat.zero_add _
  atEof h := absurd h Bool.false_ne_true

theorem IsReading.turn {body : Bytes} {s t : CappedRead} (hs : IsReading body s)
    (hturn : Turn s t) : IsReading body t := by
  cases hturn with
  | @append chunks remaining unread chunk rest hremaining hread hchunk =>
    have hraw : (chunks ++ [chunk]).flatten = chunks.flatten ++ chunk := by
      rw [List.flatten_append, List.flatten_singleton]
    have hbudget : chunks.flatten.length + remaining = maxDcrBodyBytes + 1 := hs.budget
    have hlen := hread.length_le
    refine ⟨?_, ?_, fun h => absurd h Bool.false_ne_true⟩
    · show (chunks ++ [chunk]).flatten ++ rest = body
      rw [hraw, List.append_assoc, hread.append]
      exact hs.append
    -- the chunk fits the request, so the subtraction takes nothing twice
    · show (chunks ++ [chunk]).flatten.length + (remaining - chunk.length) = _
      rw [hraw, List.length_append]
      omega
  | @stop chunks remaining unread rest hremaining hread =>
    have hunread : unread = [] := hread.atEof rfl
    have hrest : rest = [] := hread.append.trans hunread
    refine ⟨?_, hs.budget, fun _ => hrest⟩
    show chunks.flatten ++ rest = body
    rw [hrest, ← hunread]
    exact hs.append

/-- The budget and the turn that is still to break. -/
def fuel (s : CappedRead) : ℕ := s.remaining + if s.broke then 0 else 1

theorem Turn.fuel_lt {s t : CappedRead} (hturn : Turn s t) : t.fuel < s.fuel := by
  cases hturn with
  | @append chunks remaining unread chunk rest hremaining hread hchunk =>
    have hpos := List.length_pos_of_ne_nil hchunk
    show remaining - chunk.length + 1 < remaining + 1
    omega
  | @stop chunks remaining unread rest hremaining hread =>
    show remaining < remaining + 1
    omega

/-- Before the loop is over the stream has an answer, whatever it holds. -/
theorem exists_turn {s : CappedRead} (h : ¬s.Done) : ∃ t, Turn s t := by
  obtain ⟨chunks, remaining, unread, broke⟩ := s
  have hbroke : broke = false := by
    rw [← Bool.not_eq_true]
    intro hbroke
    exact h (.inl hbroke)
  have hremaining : 0 < remaining := by
    apply Nat.pos_of_ne_zero
    intro hzero
    exact h (.inr hzero)
  subst hbroke
  cases unread with
  | nil => exact ⟨_, .stop hremaining ⟨rfl, Nat.zero_le _, fun _ => rfl⟩⟩
  | cons b unread =>
    have hread : Reads remaining (b :: unread) [b] unread :=
      ⟨rfl, hremaining, fun h => absurd h (List.cons_ne_nil _ _)⟩
    exact ⟨_, .append hremaining hread (List.cons_ne_nil _ _)⟩

/-! ## Every run -/

theorem wellFounded_turn : WellFounded fun t s => Turn s t := by
  apply Subrelation.wf (r := InvImage (· < ·) fuel)
  · intro t s hturn
    exact hturn.fuel_lt
  · exact InvImage.wf fuel Nat.lt_wfRel.wf

theorem isReading_of_run {body : Bytes} {s : CappedRead}
    (h : ReflTransGen Turn (start body) s) : IsReading body s := by
  induction h with
  | refl => exact isReading_start body
  | tail _ hturn ih => exact ih.turn hturn

/-- When the loop is over it has taken the whole body, or one byte more than the cap. -/
theorem IsReading.outcome_eq {body : Bytes} {s : CappedRead} (hs : IsReading body s)
    (hdone : s.Done) :
    s.outcome = if body.length ≤ maxDcrBodyBytes then some body else none := by
  have hbudget := hs.budget
  have hlen : s.raw.length + s.unread.length = body.length := by
    rw [← List.length_append, hs.append]
  rw [outcome]
  by_cases hover : maxDcrBodyBytes < s.raw.length
  · rw [if_pos hover, if_neg (by omega)]
  -- a budget that is not used up: the loop broke, with nothing left to read
  · have hbroke : s.broke = true := by
      apply hdone.resolve_right
      omega
    have hunread := hs.atEof hbroke
    have hraw : s.raw = body := by
      rw [← hs.append, hunread, List.append_nil]
    rw [if_neg hover, hraw, if_pos (by rw [← hraw]; omega)]

/-- Every run of the loop is finite, no run is stuck before its end, at no point has it taken more
than the cap and one byte, and at its end it has the whole body or refuses it. -/
theorem cappedRead_spec (body : Bytes) :
    Acc (fun t s => Turn s t) (start body) ∧
      ∀ s, ReflTransGen Turn (start body) s →
        s.raw ++ s.unread = body ∧ s.raw.length ≤ maxDcrBodyBytes + 1 ∧
          (¬s.Done → ∃ t, Turn s t) ∧
          (s.Done → s.outcome = if body.length ≤ maxDcrBodyBytes then some body else none) := by
  refine ⟨wellFounded_turn.apply _, ?_⟩
  intro s hrun
  have hs := isReading_of_run hrun
  have hbudget := hs.budget
  exact ⟨hs.append, by omega, exists_turn, hs.outcome_eq⟩

/-! ## The reader of a registration -/

/-- The loop over a list of fragments is one of the runs. -/
theorem exists_run_readRemaining {fuel remaining : ℕ} (h : remaining ≤ fuel)
    (content : StreamReader) (chunks : List Bytes) :
    ∃ s, ReflTransGen Turn ⟨chunks, remaining, content.flatten, false⟩ s ∧ s.Done ∧
      s.raw = chunks.flatten ++ readRemaining fuel remaining content := by
  induction fuel generalizing remaining content chunks with
  | zero =>
    have hzero : remaining = 0 := by omega
    exact ⟨_, .refl, .inr hzero, (List.append_nil _).symm⟩
  | succ fuel ih =>
    rw [readRemaining]
    split_ifs with hzero
    · exact ⟨_, .refl, .inr hzero, (List.append_nil _).symm⟩
    obtain ⟨happend, hlen, hnil⟩ := read_spec remaining content
    have hremaining : 0 < remaining := Nat.pos_of_ne_zero hzero
    have hread : Reads remaining content.flatten (StreamReader.read remaining content).1
        (StreamReader.read remaining content).2.flatten :=
      ⟨happend, hlen, fun hchunk => (hnil hchunk).resolve_left hzero⟩
    simp only
    split_ifs with hchunk
    · rw [hchunk] at hread
      exact ⟨_, .single (.stop hremaining hread), .inl rfl, (List.append_nil _).symm⟩
    · have hpos := List.length_pos_of_ne_nil hchunk
      have hfuel : remaining - (StreamReader.read remaining content).1.length ≤ fuel := by omega
      obtain ⟨s, hrun, hdone, hraw⟩ := ih hfuel (StreamReader.read remaining content).2
        (chunks ++ [(StreamReader.read remaining content).1])
      refine ⟨s, .head (.append hremaining hread hchunk) hrun, hdone, ?_⟩
      rw [hraw, List.flatten_append, List.flatten_singleton, List.append_assoc]

/-- `readCappedBody` is what a run of the loop returns, so every other run returns it too. -/
theorem readCappedBody_eq_outcome (content : StreamReader) {s : CappedRead}
    (hrun : ReflTransGen Turn (start content.flatten) s) (hdone : s.Done) :
    readCappedBody content = s.outcome := by
  obtain ⟨t, htrun, htdone, hraw⟩ := exists_run_readRemaining
    (le_refl (maxDcrBodyBytes + 1)) content []
  have ht : readCappedBody content = t.outcome := by
    rw [readCappedBody, outcome, hraw]
    rfl
  rw [ht, (isReading_of_run htrun).outcome_eq htdone,
    (isReading_of_run hrun).outcome_eq hdone]

end CappedRead

end EsphomeMcp.OAuth
