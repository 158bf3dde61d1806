import EsphomeMcp.Python.JsonBytes

/-!
# Split surrogate pairs in JSON

`json.loads(json.dumps(j))` joins every high surrogate with a low one that follows it. A value is
the same afterwards exactly when no string and no key in it has such a pair.
-/

namespace Py

theorem not_isLowSurrogate_joinSurrogates {hi lo : CodePoint} (hhi : isHighSurrogate hi = true)
    (hlo : isLowSurrogate lo = true) : isLowSurrogate (joinSurrogates hi.val lo.val) = false := by
  simp only [isHighSurrogate, isLowSurrogate, decide_eq_true_eq, decide_eq_false_iff_not] at *
  rw [joinSurrogates, codePoint_val (by omega)]
  omega

theorem not_isHighSurrogate_joinSurrogates {hi lo : CodePoint} (hhi : isHighSurrogate hi = true)
    (hlo : isLowSurrogate lo = true) : isHighSurrogate (joinSurrogates hi.val lo.val) = false := by
  simp only [isHighSurrogate, isLowSurrogate, decide_eq_true_eq, decide_eq_false_iff_not] at *
  rw [joinSurrogates, codePoint_val (by omega)]
  omega

/-- What comes back as ASCII text is that text. -/
theorem eq_of_rejoinStr_eq {s t : Str} (h : rejoinStr s = t) (ht : ∀ c ∈ t, isAscii c = true) :
    s = t := by
  fun_induction rejoinStr s generalizing t with
  | case1 => exact h
  | case2 => exact h
  | case3 c d s hp ih =>
    rw [Bool.and_eq_true] at hp
    have hjoined := ht (joinSurrogates c.val d.val) (h ▸ List.mem_cons_self)
    simp only [isHighSurrogate, isLowSurrogate, isAscii, decide_eq_true_eq] at hp hjoined
    rw [joinSurrogates, codePoint_val (by omega)] at hjoined
    omega
  | case4 c d s hp ih =>
    subst h
    rw [← ih rfl fun e he => ht e (List.mem_cons_of_mem _ he)]

theorem hasSplitPair_cons {c : CodePoint} {s : Str} (h : HasSplitPair (c :: s)) :
    HasSplitPair s ∨ isHighSurrogate c = true ∧ ∃ d t, s = d :: t ∧ isLowSurrogate d = true := by
  obtain ⟨before, hi, lo, after, hs, hhi, hlo⟩ := h
  cases before with
  | nil =>
    obtain ⟨rfl, rfl⟩ := List.cons.inj hs
    exact .inr ⟨hhi, lo, after, rfl, hlo⟩
  | cons x before => exact .inl ⟨before, hi, lo, after, (List.cons.inj hs).2, hhi, hlo⟩

/-- A low surrogate at the front of what was joined stood there before. -/
theorem head_rejoinStr {d e : CodePoint} {s t : Str} (h : rejoinStr (d :: s) = e :: t)
    (he : isLowSurrogate e = true) : d = e := by
  cases s with
  | nil => exact (List.cons.inj h).1
  | cons c s =>
    rw [rejoinStr] at h
    split_ifs at h with hp
    · rw [Bool.and_eq_true] at hp
      rw [← (List.cons.inj h).1, not_isLowSurrogate_joinSurrogates hp.1 hp.2] at he
      cases he
    · exact (List.cons.inj h).1

/-- Joining leaves no pair. -/
theorem not_hasSplitPair_rejoinStr (s : Str) : ¬HasSplitPair (rejoinStr s) := by
  fun_induction rejoinStr s with
  | case1 => exact rejoinStr_eq_self_iff.mp rfl
  | case2 => exact rejoinStr_eq_self_iff.mp rfl
  | case3 c d s hp ih =>
    rw [Bool.and_eq_true] at hp
    intro h
    rcases hasSplitPair_cons h with h | ⟨hhigh, -⟩
    · exact ih h
    · rw [not_isHighSurrogate_joinSurrogates hp.1 hp.2] at hhigh
      cases hhigh
  | case4 c d s hp ih =>
    intro h
    rcases hasSplitPair_cons h with h | ⟨hhigh, e, t, heq, hlow⟩
    · exact ih h
    · rw [head_rejoinStr heq hlow, hhigh, hlow] at hp
      exact hp rfl

namespace Json

/-- Some string or key in the value has a split surrogate pair. -/
inductive HasSplitPair : Json → Prop
  | str {s : Str} : Py.HasSplitPair s → HasSplitPair (str s)
  | item {items : List Json} {j : Json} : j ∈ items → HasSplitPair j → HasSplitPair (arr items)
  | key {fields : List (Str × Json)} {f : Str × Json} : f ∈ fields → Py.HasSplitPair f.1 →
      HasSplitPair (obj fields)
  | value {fields : List (Str × Json)} {f : Str × Json} : f ∈ fields → HasSplitPair f.2 →
      HasSplitPair (obj fields)

theorem hasSplitPair_str_iff {s : Str} : HasSplitPair (str s) ↔ Py.HasSplitPair s :=
  ⟨fun | .str h => h, .str⟩

theorem hasSplitPair_arr_iff {items : List Json} :
    HasSplitPair (arr items) ↔ ∃ j ∈ items, HasSplitPair j :=
  ⟨fun | .item hj h => ⟨_, hj, h⟩, fun ⟨_, hj, h⟩ => .item hj h⟩

theorem hasSplitPair_obj_iff {fields : List (Str × Json)} :
    HasSplitPair (obj fields) ↔ ∃ f ∈ fields, Py.HasSplitPair f.1 ∨ HasSplitPair f.2 := by
  constructor
  · rintro (_ | _ | ⟨hf, h⟩ | ⟨hf, h⟩)
    · exact ⟨_, hf, .inl h⟩
    · exact ⟨_, hf, .inr h⟩
  · rintro ⟨f, hf, h | h⟩
    · exact .key hf h
    · exact .value hf h

/-- Joining leaves no pair anywhere. -/
theorem not_hasSplitPair_rejoin (j : Json) : ¬j.rejoin.HasSplitPair := by
  induction j using induct with
  | null | bool | int | float => nofun
  | str s => exact hasSplitPair_str_iff.not.mpr (not_hasSplitPair_rejoinStr s)
  | arr items ih =>
    rw [rejoin, rejoinItems_eq_map, hasSplitPair_arr_iff]
    rintro ⟨j, hj, h⟩
    obtain ⟨i, hi, rfl⟩ := List.mem_map.mp hj
    exact ih i hi h
  | obj fields ih =>
    rw [rejoin, rejoinFields_eq_map, hasSplitPair_obj_iff]
    rintro ⟨f, hf, h⟩
    obtain ⟨g, hg, rfl⟩ := List.mem_map.mp (mem_dictOf hf)
    rcases h with h | h
    · exact not_hasSplitPair_rejoinStr _ h
    · exact ih g hg h

/-- Joining changes no value without a pair. -/
theorem rejoin_eq_self [Runtime] {j : Json} (hwf : j.WellFormed) (h : ¬j.HasSplitPair) :
    j.rejoin = j := by
  induction hwf with
  | null | bool | int | float => rfl
  | str s => rw [rejoin, rejoinStr_eq_self_iff.mpr fun hs => h (.str hs)]
  | arr items _ ih =>
    have hitems : items.map rejoin = items := by
      conv_rhs => rw [← List.map_id items]
      exact List.map_congr_left fun j hj => ih j hj fun hj' => h (.item hj hj')
    rw [rejoin, rejoinItems_eq_map, hitems]
  | obj fields hk _ ih =>
    have hfields : fields.map (fun f => (rejoinStr f.1, f.2.rejoin)) = fields := by
      conv_rhs => rw [← List.map_id fields]
      refine List.map_congr_left fun f hf => ?_
      rw [rejoinStr_eq_self_iff.mpr fun hs => h (.key hf hs), ih f hf fun hv => h (.value hf hv)]
      rfl
    rw [rejoin, rejoinFields_eq_map, hfields, dictOf_of_nodup hk]

/-- The pairs in a dict once a key without one is set. -/
theorem hasSplitPair_dictSet_iff {fields : List (Str × Json)} {k : Str} {v : Json}
    (hk : ¬Py.HasSplitPair k) (hnodup : (fields.map Prod.fst).Nodup) :
    (obj (dictSet k v fields)).HasSplitPair ↔ v.HasSplitPair ∨
      ∃ f ∈ fields, f.1 ≠ k ∧ (Py.HasSplitPair f.1 ∨ f.2.HasSplitPair) := by
  rw [hasSplitPair_obj_iff]
  induction fields with
  | nil => simp [dictSet, hk]
  | cons p fields ih =>
    rw [List.map_cons, List.nodup_cons] at hnodup
    rw [dictSet]
    split_ifs with hp
    · have hne : ∀ f ∈ fields, f.1 ≠ k := by
        rintro f hf rfl
        exact hnodup.1 (hp ▸ List.mem_map_of_mem hf)
      simp only [List.mem_cons, exists_eq_or_imp, hk, false_or, hp, ne_eq, not_true_eq_false,
        false_and]
      refine or_congr_right (exists_congr fun f => and_congr_right fun hf => ?_)
      rw [and_iff_right (hne f hf)]
    · simp only [List.mem_cons, exists_eq_or_imp, ih hnodup.2, ne_eq, hp, not_false_eq_true,
        true_and]
      exact or_left_comm

/-- A text that was set under a key in ASCII is read back there, its own pairs joined: no other key
becomes that one. -/
theorem dictGet?_rejoinFields_dictSet {fields : List (Str × Json)} {k s : Str}
    (hk : ∀ c ∈ k, isAscii c = true) (hnodup : (fields.map Prod.fst).Nodup) :
    dictGet? (dictOf (rejoinFields (dictSet k (.str s) fields))) k = some (.str (rejoinStr s)) := by
  have hset : (k, Json.str s) ∈ dictSet k (.str s) fields :=
    mem_of_dictGet? (by rw [dictGet?_dictSet, if_pos rfl])
  rw [rejoinFields_eq_map]
  apply dictGet?_dictOf_of_mem
  · refine List.mem_map.mpr ⟨_, hset, ?_⟩
    rw [rejoinStr_ascii hk, rejoin]
  · intro p hp hkey
    obtain ⟨f, hf, rfl⟩ := List.mem_map.mp hp
    have hname : f.1 = k := eq_of_rejoinStr_eq hkey hk
    have hvalue := dictGet?_of_mem (nodup_keys_dictSet k _ hnodup) hf
    rw [dictGet?_dictSet, if_pos hname, Option.some.injEq] at hvalue
    show f.2.rejoin = _
    rw [← hvalue, rejoin]

end Json

end Py
