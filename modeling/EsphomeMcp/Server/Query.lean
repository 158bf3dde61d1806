import EsphomeMcp.Python.JsonSearch
import EsphomeMcp.Addon.DeviceListing

/-!
# What a search finds

The search tools write a payload as JSON and look the query up in the text, both in lower case.
A query that stands in a string of the payload is found in every such payload when a stretch of
the string's plain characters is the query, up to the case of its letters, or when it can be read
off the escape sequences of the string (`findsString_iff`). It is missed in some otherwise.
-/

namespace EsphomeMcp.Server

open Py Addon

section

variable [Runtime]

/-- `_matches_query`. -/
def matchesQuery (payload : Json) (query : Option Str) : Except Err Bool :=
  match query with
  | some (c :: q) => do
    let needle := lower (c :: q)
    let text ← (dumps .spaced payload).mapError jsonErr
    return contains needle (lower text)
  | _ => .ok true

/-- A payload as Python holds it: the floats are floats, and an integer is short enough to be
written. -/
abbrev IsPayload (payload : Json) : Prop := payload.WellFormed

/-- A query that stands in the string is found wherever the string stands, in every payload that
can be written. -/
def FindsString (query s : Str) : Prop :=
  lower query <:+: lower s → ∀ payload : Json, IsPayload payload → payload.HasString s →
    (matchesQuery payload (some query) = .ok true ∧ textMatches payload (some query) = .ok true ↔
      payload.depth ≤ recursionLimit)

/-- The two searches are the same function. -/
theorem matchesQuery_eq_textMatches (payload : Json) (query : Option Str) :
    matchesQuery payload query = textMatches payload query := by
  match query with
  | none => rfl
  | some [] => rfl
  | some (c :: q) => rfl

/-- What is found is what stands in the text of the payload. -/
theorem textMatches_eq_ok_true {payload : Json} {query : Str} (hquery : query ≠ []) :
    textMatches payload (some query) = .ok true ↔
      payload.depth ≤ recursionLimit ∧ lower query <:+: lower (dumpsText .spaced payload) := by
  cases query with
  | nil => exact absurd rfl hquery
  | cons c q =>
    rw [← contains_iff]
    unfold textMatches dumps
    split_ifs with hdepth
    · rw [and_iff_right hdepth]
      show Except.ok (contains _ _) = .ok true ↔ _
      rw [Except.ok.injEq]
    · exact iff_of_false (fun h => nomatch h) fun h => hdepth h.1

/-- A query is found wherever a string stands that has the query in it, exactly when a stretch of
the string's plain characters is the query, or its escape sequences spell it. -/
theorem findsString_iff {query : Str} (hquery : query ≠ []) (s : Str) :
    (∀ payload q, matchesQuery payload q = textMatches payload q) ∧
    (FindsString query s ↔
      (lower query <:+: lower s → StandsPlain (lower query) s ∨ ReadsSpelled (lower query) s)) := by
  refine ⟨matchesQuery_eq_textMatches, forall_congr' fun _ => ⟨fun h => ?_, ?_⟩⟩
  · -- the string alone is a payload
    have hfound := (h (.str s) (.str s) .here).mpr (Nat.zero_le _)
    exact infix_lower_dumpsStr_iff.mp ((textMatches_eq_ok_true hquery).mp hfound.2).2
  · intro h payload hwf hstring
    have hstands := (infix_lower_dumpsStr_iff.mpr h).trans
      (lower_isInfix (isAscii_dumpsText .spaced hwf) (infix_dumpsText hstring))
    rw [matchesQuery_eq_textMatches, and_self, textMatches_eq_ok_true hquery,
      and_iff_left hstands]

/-- In an ASCII string a query without quotes, backslashes and control characters is never
missed. -/
theorem findsString_of_ascii {query s : Str} (hquery : query ≠ [])
    (hs : ∀ c ∈ s, isAscii c = true) (hplain : ∀ c ∈ lower query, isPlain c = true) :
    FindsString query s :=
  (findsString_iff hquery s).2.mpr fun hstands => .inl (standsPlain_of_ascii hs hplain hstands)

/-- A query with a character that is not printable ASCII in lower case is always missed. -/
theorem not_findsString_of_not_printable {query s : Str} {c : CodePoint} (hquery : query ≠ [])
    (hmem : c ∈ lower query) (hc : isPrintable c = false) (hstands : lower query <:+: lower s) :
    ¬ FindsString query s := by
  intro h
  have hspelled := infix_lower_dumpsStr_iff.mpr ((findsString_iff hquery s).2.mp h hstands)
  rw [isPrintable_lower_dumpsStr s c (hspelled.subset hmem)] at hc
  cases hc

end

/-- A query in another case than the string, behind a character that is escaped. -/
theorem findsString_iff_plug :
    letI := asciiRuntime
    (∀ payload q, matchesQuery payload q = textMatches payload q) ∧
    FindsString "Plug" "Küche: smart PLUG" := by
  let := asciiRuntime
  have hquery : str "Plug" ≠ [] := by decide
  obtain ⟨hsame, hiff⟩ := findsString_iff hquery "Küche: smart PLUG"
  refine ⟨hsame, hiff.mpr fun _ => .inl ⟨str "PLUG", ⟨str "Küche: smart ", [], rfl⟩, ?_, rfl⟩⟩
  exact List.all_eq_true.mp rfl

/-- A device that is named with an umlaut. -/
def kitchenDevice : Json := .dict [("name", .lit "Küche"), ("area", .null)]

/-- The device is not found under its own name. -/
theorem matchesQuery_kitchenDevice :
    letI := asciiRuntime
    kitchenDevice.HasString "Küche" ∧ lower (str "Küche") <:+: lower (str "Küche") ∧
    matchesQuery kitchenDevice (some "Küche") = .ok false ∧
    textMatches kitchenDevice (some "Küche") = .ok false :=
  ⟨.member List.mem_cons_self .here, List.infix_rfl, rfl, rfl⟩

end EsphomeMcp.Server
