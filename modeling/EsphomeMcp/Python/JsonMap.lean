import EsphomeMcp.Python.SplitPairs

/-!
# Changing part of a JSON value

`mapFields` and `mapItems` change the members of a dict and the items of a list and leave any
other value alone; `atKey` changes what stands under one key. They keep a value well formed, make
it no deeper when what they apply does not, and commute with the joining of split surrogate
pairs, so a text written after a change is read back as the changed value.
-/

namespace Py

/-- Setting a key that is there changes the value under it. -/
theorem dictSet_eq_map {α : Type} {d : List (Str × α)} {k : Str} (hkeys : (d.map Prod.fst).Nodup)
    (hk : k ∈ d.map Prod.fst) (v : α) :
    dictSet k v d = d.map fun e => (e.1, if e.1 = k then v else e.2) := by
  induction d with
  | nil => cases hk
  | cons e d ih =>
    obtain ⟨l, w⟩ := e
    rw [List.map_cons, List.nodup_cons] at hkeys
    rw [dictSet, List.map_cons]
    by_cases hl : l = k
    · subst hl
      have hrest : (d.map fun e => (e.1, if e.1 = l then v else e.2)) = d := by
        conv_rhs => rw [← List.map_id d]
        refine List.map_congr_left fun e he => ?_
        have hmem : e.1 ∈ d.map Prod.fst := List.mem_map_of_mem he
        have hne : e.1 ≠ l := fun heq => hkeys.1 (heq ▸ hmem)
        rw [if_neg hne]
        rfl
      rw [if_pos rfl, hrest]
      simp
    · have hk : k ∈ d.map Prod.fst := by
        rw [List.map_cons, List.mem_cons] at hk
        exact hk.resolve_left (Ne.symm hl)
      rw [if_neg hl, ih hkeys.2 hk]
      simp [hl]

/-- A change of values that looks at the keys does not mind in which order keys are set. -/
theorem dictOf_map (h : Str → Json → Json) (pairs : List (Str × Json)) :
    dictOf (pairs.map fun e => (e.1, h e.1 e.2)) =
      (dictOf pairs).map fun e => (e.1, h e.1 e.2) := by
  have hset (k : Str) (v : Json) (d : Dict) :
      dictSet k (h k v) (d.map fun e => (e.1, h e.1 e.2)) =
        (dictSet k v d).map fun e => (e.1, h e.1 e.2) := by
    induction d with
    | nil => rfl
    | cons e d ih =>
      obtain ⟨l, w⟩ := e
      simp only [List.map_cons, dictSet]
      split_ifs with hl
      · rfl
      · rw [ih, List.map_cons]
  have hupdate (d : Dict) : dictUpdate (d.map fun e => (e.1, h e.1 e.2))
      (pairs.map fun e => (e.1, h e.1 e.2)) =
        (dictUpdate d pairs).map fun e => (e.1, h e.1 e.2) := by
    induction pairs generalizing d with
    | nil => rfl
    | cons e pairs ih =>
      simp only [dictUpdate, List.map_cons, List.foldl_cons] at ih ⊢
      rw [hset, ih]
  exact hupdate []

namespace Json

/-- A change of the members of a dict. -/
def mapFields (h : Str → Json → Json) : Json → Json
  | obj fields => obj (fields.map fun e => (e.1, h e.1 e.2))
  | j => j

/-- A change of the items of a list. -/
def mapItems (f : Json → Json) : Json → Json
  | arr items => arr (items.map f)
  | j => j

/-- A change of what stands under a key. -/
def atKey (k : Str) (f : Json → Json) : Json → Json :=
  mapFields fun key v => if key = k then f v else v

section

variable {h : Str → Json → Json} {f : Json → Json} {k : Str} {j : Json} {fields : Dict}

/-- What stands under the key is set to what the change makes of it. -/
theorem atKey_obj (hkeys : (fields.map Prod.fst).Nodup) {v : Json}
    (hget : dictGet? fields k = some v) :
    atKey k f (obj fields) = obj (dictSet k (f v) fields) := by
  have hmem : k ∈ fields.map Prod.fst := List.mem_map_of_mem (mem_of_dictGet? hget)
  rw [dictSet_eq_map hkeys hmem, atKey, mapFields]
  refine congrArg obj (List.map_congr_left fun e he => ?_)
  by_cases hk : e.1 = k
  · have hv : dictGet? fields k = some e.2 := dictGet?_of_mem hkeys (hk ▸ he)
    rw [if_pos hk, if_pos hk, Option.some.inj (hv.symm.trans hget)]
  · rw [if_neg hk, if_neg hk]

/-- A dict is left alone when the change has nothing to do under the key. -/
theorem atKey_eq_self (hkeys : (fields.map Prod.fst).Nodup)
    (hsame : ∀ v, dictGet? fields k = some v → f v = v) :
    atKey k f (obj fields) = obj fields := by
  rw [atKey, mapFields]
  refine congrArg obj ?_
  conv_rhs => rw [← List.map_id fields]
  refine List.map_congr_left fun e he => ?_
  by_cases hk : e.1 = k
  · rw [if_pos hk, hsame e.2 (dictGet?_of_mem hkeys (hk ▸ he))]
    rfl
  · rw [if_neg hk]
    rfl

/-! ## Members and items -/

/-- A member of what a change leaves was made by it. -/
theorem exists_of_mem_mapFields {v : Json} (heq : mapFields h j = obj fields)
    (hmem : (k, v) ∈ fields) : ∃ w, h k w = v := by
  cases j with
  | null | bool | int | float | str | arr => cases heq
  | obj old =>
    rw [← obj.inj heq] at hmem
    obtain ⟨e, -, he⟩ := List.mem_map.mp hmem
    obtain ⟨rfl, rfl⟩ := Prod.ext_iff.mp he
    exact ⟨e.2, rfl⟩

/-- Every value under the key is one that was mapped. -/
theorem exists_of_mem_atKey {v : Json} (heq : atKey k f j = obj fields)
    (hmem : (k, v) ∈ fields) : ∃ w, f w = v := by
  obtain ⟨w, hw⟩ := exists_of_mem_mapFields heq hmem
  rw [if_pos rfl] at hw
  exact ⟨w, hw⟩

/-- So is every item. -/
theorem exists_of_mem_mapItems {items : List Json} {i : Json} (heq : mapItems f j = arr items)
    (hmem : i ∈ items) : ∃ w, f w = i := by
  cases j with
  | null | bool | int | float | str | obj => cases heq
  | arr old =>
    rw [← arr.inj heq] at hmem
    obtain ⟨w, -, hw⟩ := List.mem_map.mp hmem
    exact ⟨w, hw⟩

/-! ## Well-formedness and depth -/

/-- Mapping keeps a document well formed if the map does. -/
theorem wellFormed_mapFields [Runtime] (hh : ∀ key v, WellFormed v → WellFormed (h key v))
    (hj : j.WellFormed) : (mapFields h j).WellFormed := by
  cases hj with
  | null | bool | int | float | str | arr => constructor <;> assumption
  | obj fields hkeys hfields =>
    refine .obj _ ?_ ?_
    · simpa [Function.comp_def] using hkeys
    · intro e he
      obtain ⟨e₀, he₀, rfl⟩ := List.mem_map.mp he
      exact hh e₀.1 e₀.2 (hfields e₀ he₀)

theorem wellFormed_mapItems [Runtime] (hf : ∀ v, WellFormed v → WellFormed (f v))
    (hj : j.WellFormed) : (mapItems f j).WellFormed := by
  cases hj with
  | null | bool | int | float | str | obj => constructor <;> assumption
  | arr items hitems =>
    refine .arr _ fun i hi => ?_
    obtain ⟨i₀, hi₀, rfl⟩ := List.mem_map.mp hi
    exact hf i₀ (hitems i₀ hi₀)

theorem wellFormed_atKey [Runtime] (hf : ∀ v, WellFormed v → WellFormed (f v))
    (hj : j.WellFormed) : (atKey k f j).WellFormed := by
  refine wellFormed_mapFields (fun key v hv => ?_) hj
  split_ifs
  · exact hf v hv
  · exact hv

/-- Nothing gets deeper than the map makes it. -/
theorem depth_mapFields_le (hh : ∀ key v, (h key v).depth ≤ v.depth) :
    (mapFields h j).depth ≤ j.depth := by
  cases j with
  | null | bool | int | float | str | arr => exact le_rfl
  | obj fields =>
    refine Nat.succ_le_succ (depthFields_le fun e he => ?_)
    obtain ⟨e₀, he₀, rfl⟩ := List.mem_map.mp he
    exact (hh e₀.1 e₀.2).trans (depth_le_depthFields he₀)

theorem depth_mapItems_le (hf : ∀ v, (f v).depth ≤ v.depth) : (mapItems f j).depth ≤ j.depth := by
  cases j with
  | null | bool | int | float | str | obj => exact le_rfl
  | arr items =>
    refine Nat.succ_le_succ (depthItems_le fun i hi => ?_)
    obtain ⟨i₀, hi₀, rfl⟩ := List.mem_map.mp hi
    exact (hf i₀).trans (depth_le_depthItems hi₀)

theorem depth_atKey_le (hf : ∀ v, (f v).depth ≤ v.depth) : (atKey k f j).depth ≤ j.depth := by
  refine depth_mapFields_le fun key v => ?_
  split_ifs
  · exact hf v
  · exact le_rfl

/-! ## Split pairs -/

/-- Mapping and reading back commute if they do on the values. -/
theorem rejoin_mapFields (hh : ∀ key v, (h key v).rejoin = h (rejoinStr key) v.rejoin) :
    (mapFields h j).rejoin = mapFields h j.rejoin := by
  cases j with
  | null | bool | int | float | str | arr => rfl
  | obj fields =>
    have hfields : (fields.map fun e => (e.1, h e.1 e.2)).map (fun e => (rejoinStr e.1, e.2.rejoin)) =
        (fields.map fun e => (rejoinStr e.1, e.2.rejoin)).map fun e => (e.1, h e.1 e.2) := by
      rw [List.map_map, List.map_map]
      exact List.map_congr_left fun e _ => congrArg (Prod.mk _) (hh e.1 e.2)
    rw [mapFields, rejoin, rejoinFields_eq_map, hfields, dictOf_map, rejoin, rejoinFields_eq_map,
      mapFields]

theorem rejoin_mapItems (hf : ∀ v, (f v).rejoin = f v.rejoin) :
    (mapItems f j).rejoin = mapItems f j.rejoin := by
  cases j with
  | null | bool | int | float | str | obj => rfl
  | arr items =>
    simp only [mapItems, rejoin, rejoinItems_eq_map, List.map_map, arr.injEq]
    exact List.map_congr_left fun i _ => hf i

/-- No other key becomes one in ASCII. -/
theorem rejoinStr_eq_iff {key : Str} (hk : ∀ c ∈ k, isAscii c = true) : rejoinStr key = k ↔ key = k := by
  constructor
  · exact fun heq => eq_of_rejoinStr_eq heq hk
  · rintro rfl
    exact rejoinStr_ascii hk

theorem rejoin_atKey (hk : ∀ c ∈ k, isAscii c = true) (hf : ∀ v, (f v).rejoin = f v.rejoin) :
    (atKey k f j).rejoin = atKey k f j.rejoin := by
  refine rejoin_mapFields fun key v => ?_
  simp only [rejoinStr_eq_iff hk]
  split_ifs
  · exact hf v
  · rfl

end

end Json

end Py
