import EsphomeMcp.Python.Runtime

/-!
# Multi-dicts

The ordered dictionaries of `multidict`: HTTP headers, whose keys are compared without regard
to case, and query and form parameters, whose keys are not.
-/

namespace Py

/-- HTTP headers, in the order they were received. -/
abbrev CIMultiDict := List (Str × Str)

section

variable [Runtime]

/-- `headers.get(name)`: the first value under a name, without regard to case. -/
def CIMultiDict.get? (headers : CIMultiDict) (name : Str) : Option Str :=
  (headers.find? fun h => lower h.1 = lower name).map Prod.snd

/-- `headers.get(name, default)`. -/
def CIMultiDict.getD (headers : CIMultiDict) (name dflt : Str) : Str := (headers.get? name).getD dflt

end

/-- Query and form parameters, in the order they were received. -/
abbrev MultiDict := List (Str × Str)

namespace MultiDict

/-- `form.get(key, "")`: the first value under a key. -/
def getD (form : MultiDict) (key : Str) : Str := (form.lookup key).getD []

/-- `form.popall(key, None)`. -/
def popall (form : MultiDict) (key : Str) : MultiDict := form.filter fun field => field.1 ≠ key

/-- `form[key] = value`: in the place of the first value under the key, and of all others. -/
def setItem (key value : Str) : MultiDict → MultiDict
  | [] => [(key, value)]
  | field :: form =>
    if field.1 = key then (key, value) :: popall form key else field :: setItem key value form

/-- `form.popall(key, None)` and `form[key] = value`. -/
def replace (form : MultiDict) (key value : Str) : MultiDict :=
  setItem key value (form.popall key)

/-- A new key is put at the end. -/
theorem setItem_of_forall_ne {form : MultiDict} {key : Str} (value : Str)
    (h : ∀ field ∈ form, field.1 ≠ key) : setItem key value form = form ++ [(key, value)] := by
  induction form with
  | nil => rfl
  | cons field form ih =>
    rw [List.forall_mem_cons] at h
    rw [setItem, if_neg h.1, ih h.2, List.cons_append]

/-- Replacing takes the old fields out and puts one at the end. -/
theorem replace_eq (form : MultiDict) (key value : Str) :
    form.replace key value = form.popall key ++ [(key, value)] :=
  setItem_of_forall_ne value fun _ hfield => of_decide_eq_true (List.mem_filter.mp hfield).2

/-- `form.getall(key, [])`: the values under a key. -/
def getAll (form : MultiDict) (key : Str) : List Str :=
  (form.filter fun field => field.1 = key).map Prod.snd

theorem getAll_append (form form' : MultiDict) (key : Str) :
    getAll (form ++ form') key = form.getAll key ++ form'.getAll key := by
  rw [getAll, List.filter_append, List.map_append]
  rfl

/-- The values under a key are gone, and those under other keys stay. -/
theorem getAll_popall (form : MultiDict) (key other : Str) :
    (form.popall key).getAll other = if other = key then [] else form.getAll other := by
  unfold getAll popall
  rw [List.filter_filter]
  split_ifs with h
  · subst h
    simp
  · congr 1
    refine List.filter_congr fun field _ => ?_
    by_cases hfield : field.1 = other
    · simp [hfield, h]
    · simp [hfield]

/-- The one value under a key that was replaced. -/
theorem getAll_replace_self (form : MultiDict) (key value : Str) :
    (form.replace key value).getAll key = [value] := by
  rw [replace_eq, getAll_append, getAll_popall, if_pos rfl]
  simp [getAll]

/-- Other keys keep their values. -/
theorem getAll_replace_of_ne {form : MultiDict} {key other : Str} (value : Str)
    (h : other ≠ key) : (form.replace key value).getAll other = form.getAll other := by
  rw [replace_eq, getAll_append, getAll_popall, if_neg h]
  simp [getAll, Ne.symm h]

/-- `get` returns the first value. -/
theorem getD_eq_headD (form : MultiDict) (key : Str) :
    form.getD key = (form.getAll key).headD [] := by
  induction form with
  | nil => rfl
  | cons field form ih =>
    obtain ⟨k, v⟩ := field
    by_cases h : k = key
    · subst h
      simp [getD, getAll]
    · have hlookup : getD ((k, v) :: form) key = getD form key := by
        rw [getD, List.lookup_cons, beq_eq_false_iff_ne.mpr (Ne.symm h)]
        rfl
      have hall : getAll ((k, v) :: form) key = getAll form key := by
        rw [getAll, List.filter_cons_of_neg (by simpa using h)]
        rfl
      rw [hlookup, hall, ih]

theorem getD_replace_self (form : MultiDict) (key value : Str) :
    (form.replace key value).getD key = value := by
  rw [getD_eq_headD, getAll_replace_self]
  rfl

theorem getD_replace_of_ne {form : MultiDict} {key other : Str} (value : Str)
    (h : other ≠ key) : (form.replace key value).getD other = form.getD other := by
  rw [getD_eq_headD, getAll_replace_of_ne value h, getD_eq_headD]

theorem lookup_eq_head? (form : MultiDict) (key : Str) :
    form.lookup key = (form.getAll key).head? := by
  induction form with
  | nil => rfl
  | cons field form ih =>
    obtain ⟨k, v⟩ := field
    unfold getAll at ih ⊢
    by_cases h : k = key
    · subst h
      rw [List.filter_cons_of_pos (by simp), List.map_cons, List.lookup_cons_self]
      rfl
    · rw [List.filter_cons_of_neg (by simpa using h), ← ih, List.lookup_cons,
        beq_eq_false_iff_ne.mpr (Ne.symm h)]

theorem lookup_replace_of_ne {form : MultiDict} {key other : Str} (value : Str)
    (h : other ≠ key) : (form.replace key value).lookup other = form.lookup other := by
  rw [lookup_eq_head?, getAll_replace_of_ne value h, lookup_eq_head?]

end MultiDict

end Py
