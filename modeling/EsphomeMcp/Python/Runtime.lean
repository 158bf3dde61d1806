import EsphomeMcp.Python.Json
import EsphomeMcp.Python.Number

/-!
# The interpreter's tables

The parts of Python that are tables rather than code: Unicode case mapping and
normalisation, `repr`, the shortest decimal text of a float, and the recursion limit. A
model takes them from an instance of `Runtime`, which promises only what they do on ASCII
text and what makes a float's text a fixed point of reading it back. Which URLs the `yarl`
package reads is taken from there as well, with no promise at all.

`asciiRuntime` is one such interpreter, for evaluating a model on ASCII input.
-/

namespace Py

/-- The texts the `json` module writes for the floats that are no numbers. -/
def floatConstants : List Str := [str "NaN", str "Infinity", str "-Infinity"]

/-- What the models ask of the interpreter they run on. -/
class Runtime where
  /-- `s.lower()`. -/
  lower : Str → Str
  /-- `s.upper()`. -/
  upper : Str → Str
  /-- `unicodedata.normalize("NFKC", s)`. -/
  nfkc : Str → Str
  /-- `repr(x)`. -/
  repr : Json → Str
  /-- `json.dumps(float(t))` for the text `t` of a JSON float. -/
  floatText : Str → Str
  /-- The deepest nesting the `json` scanner enters before `RecursionError`. -/
  recursionLimit : ℕ
  /-- `str(yarl.URL(url).update_query(params))` raises no `ValueError`. -/
  yarlReads : Str → List (Str × Str) → Bool
  lower_of_ascii : ∀ s, (∀ c ∈ s, isAscii c) → lower s = s.map asciiLower
  nfkc_of_ascii : ∀ s, (∀ c ∈ s, isAscii c) → nfkc s = s
  floatText_spec : ∀ t,
    floatText t ∈ floatConstants ∨ (IsFloatText (floatText t) ∧ floatText (floatText t) = floatText t)
  recursionLimit_pos : 8 ≤ recursionLimit

export Runtime (lower upper nfkc floatText recursionLimit yarlReads)

section

variable [Runtime]

/-- `str(x)`: a string is itself, anything else its `repr`. -/
def strOf : Json → Str
  | .str s => s
  | j => Runtime.repr j

@[simp] theorem strOf_str (s : Str) : strOf (.str s) = s := rfl

/-- Lower-casing ASCII text keeps it ASCII. -/
theorem isAscii_lower {s : Str} (h : ∀ c ∈ s, isAscii c) : ∀ c ∈ lower s, isAscii c := by
  rw [Runtime.lower_of_ascii s h]
  intro c hc
  obtain ⟨d, hd, rfl⟩ := List.mem_map.mp hc
  rw [isAscii_asciiLower]
  exact h d hd

end

/-- An interpreter that knows ASCII only, writes every float the way it was read and reads every URL
but those with an IPvFuture host. -/
@[reducible] def asciiRuntime : Runtime where
  lower s := s.map asciiLower
  upper s := s.map fun c => if 0x61 ≤ c.val ∧ c.val ≤ 0x7A then ⟨c.val - 32, by omega⟩ else c
  nfkc s := s
  repr
    | .null => str "None"
    | .bool true => str "True"
    | .bool false => str "False"
    | .int n => intRepr n
    | .float t => t
    | .str s => str "'" ++ s ++ str "'"
    | .arr _ => str "[...]"
    | .obj _ => str "{...}"
  floatText t := if IsFloatText t then t else str "0.0"
  recursionLimit := 1000
  yarlReads url _ := !contains (str "//[v") url
  lower_of_ascii _ _ := rfl
  nfkc_of_ascii _ _ := rfl
  floatText_spec t := by
    by_cases h : IsFloatText t
    · rw [if_pos h, if_pos h]
      exact .inr ⟨h, rfl⟩
    · rw [if_neg h]
      exact .inr (by decide)
  recursionLimit_pos := by norm_num

end Py
