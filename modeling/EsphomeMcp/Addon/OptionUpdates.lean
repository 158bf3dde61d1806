import EsphomeMcp.Addon.Actions

/-!
# What an options update submits

The Supervisor replaces the whole options object of an add-on, so what an update does not submit
is lost. The submitted options are the current ones with the caller's merged into them, key by
key; a caller key that the schema does not know is taken out again, and with it goes the value the
add-on had under that key.
-/

namespace EsphomeMcp.Addon

open Py Py.Prog

/-! ## Definitions -/

/-- The options an add-on has, as `_execute_config_update` reads them. -/
def currentOptions (addon : Dict) : Dict :=
  match dictGet addon "options" with
  | .obj d => d
  | _ => []

/-- What becomes of a current value under a caller's: the one-level merge of two dicts, or the
caller's value. -/
def mergedValue (current : Option Json) (value : Json) : Json :=
  match value, current with
  | .obj value, some (.obj current) => .obj (dictUpdate current value)
  | value, _ => value

/-- The add-on schema knows a key, or is no list. -/
def SchemaAllows (addon : Dict) (key : Str) : Prop :=
  ∀ schema, dictGet addon "schema" = .arr schema →
    ∃ d, Json.obj d ∈ schema ∧ dictGet? d "name" = some (.str key)

/-- The fields a response reports as ignored. -/
def ignoredFields (response : Dict) : List Json :=
  match dictGet response "ignored_fields" with
  | .arr keys => keys
  | _ => []

/-- What an update owes to the options of an add-on. -/
structure PreservesOptions (addon options submitted : Dict) (out : Except Err Dict) : Prop where
  untouched : ∀ key, dictGet? options key = none →
    dictGet? submitted key = dictGet? (currentOptions addon) key
  merged : ∀ key value, dictGet? options key = some value → SchemaAllows addon key →
    dictGet? submitted key = some (mergedValue (dictGet? (currentOptions addon) key) value)
  ignored : ∀ response key, out = .ok response → .str key ∈ ignoredFields response →
    dictGet? submitted key = dictGet? (currentOptions addon) key
  others : ∀ key, dictHas submitted key → dictHas (currentOptions addon) key ∨
    dictHas options key ∧ SchemaAllows addon key

/-- What an update submits: the merged options, and every other field as it was given. -/
structure SubmitsMerge (addon config options payload : Dict) (out : Except Err Dict) : Prop where
  options : ∃ submitted, dictGet? payload "options" = some (.obj submitted) ∧
    PreservesOptions addon options submitted out
  fields : ∀ field ≠ str "options", dictGet? payload field = dictGet? config field

/-- Every payload an update of an add-on submits preserves what the caller did not change. -/
def UpdatesOptions [Runtime] (slug : Str) (addon config options : Dict) : Prop :=
  ∀ tr out, Runs (executeConfigUpdate slug addon config) tr out →
    ∀ payload answer, supervisorExchange (optionsEndpoint slug) "POST" (.obj payload) (some 30)
      answer ∈ tr → SubmitsMerge addon config options payload out

/-- The names of a schema can be put in a set. -/
def HasHashableNames (schema : List Json) : Prop :=
  ∀ d name, Json.obj d ∈ schema → dictGet? d "name" = some name → name.isHashable = true

/-- Where the schema is a list the update can read, the caller names no option that the add-on
has and the schema does not know. -/
def SparesUnknownOptions (addon options : Dict) : Prop :=
  ∀ schema, dictGet addon "schema" = .arr schema → HasHashableNames schema →
    ∀ key, dictHas options key → dictHas (currentOptions addon) key → SchemaAllows addon key

/-! ## Merging -/

/-- One turn of the loop of `_merge_options`. -/
def mergeStep (merged : Dict) (field : Str × Json) : Dict :=
  dictSet field.1 (mergedValue (dictGet? merged field.1) field.2) merged

theorem mergeOptions_eq (base override : Dict) :
    mergeOptions base override = override.foldl mergeStep base := by
  unfold mergeOptions
  congr 1
  funext merged field
  obtain ⟨key, value⟩ := field
  cases value with
  | obj value =>
    cases hget : dictGet? merged key with
    | none => simp [dictGet, hget, mergeStep, mergedValue]
    | some current => cases current <;> simp [dictGet, hget, mergeStep, mergedValue]
  | _ => rfl

theorem dictGet?_mergeStep (merged : Dict) (field : Str × Json) (key : Str) :
    dictGet? (mergeStep merged field) key =
      if key = field.1 then some (mergedValue (dictGet? merged key) field.2)
      else dictGet? merged key := by
  rw [mergeStep, dictGet?_dictSet]
  split_ifs with h
  · rw [h]
  · rfl

/-- Merging changes the caller's keys and no others. -/
theorem dictGet?_mergeOptions {base override : Dict} (h : (override.map Prod.fst).Nodup)
    (key : Str) : dictGet? (mergeOptions base override) key =
      match dictGet? override key with
      | none => dictGet? base key
      | some value => some (mergedValue (dictGet? base key) value) := by
  rw [mergeOptions_eq]
  induction override generalizing base with
  | nil => rfl
  | cons field override ih =>
    rw [List.map_cons, List.nodup_cons] at h
    rw [List.foldl_cons, ih h.2, dictGet?_mergeStep, dictGet?_cons]
    split_ifs with hkey
    · -- the key is set once, and the rest of the caller's dict leaves it alone
      have hnone : dictGet? override key = none := by
        cases hget : dictGet? override key with
        | none => rfl
        | some value =>
          have hmem : key ∈ override.map Prod.fst := List.mem_map_of_mem (mem_of_dictGet? hget)
          exact absurd (hkey ▸ hmem) h.1
      rw [hnone]
    · rfl

theorem nodup_keys_mergeOptions {base override : Dict} (h : (base.map Prod.fst).Nodup) :
    ((mergeOptions base override).map Prod.fst).Nodup := by
  rw [mergeOptions_eq]
  induction override generalizing base with
  | nil => exact h
  | cons field override ih =>
    rw [List.foldl_cons]
    apply ih
    exact nodup_keys_dictSet _ _ h

/-! ## The schema -/

/-- The name an item of a schema has. -/
def schemaName? : Json → Option Json
  | .obj d => dictGet? d "name"
  | _ => none

theorem schemaName?_eq_some {item name : Json} :
    schemaName? item = some name ↔ ∃ d, item = .obj d ∧ dictGet? d "name" = some name := by
  cases item <;> simp [schemaName?]

theorem allowedKeys_cons (item : Json) (schema : List Json) :
    allowedKeys (item :: schema) =
      match schemaName? item with
      | none => allowedKeys schema
      | some name =>
        if name.isHashable then (allowedKeys schema).map (name :: ·)
        else .error (.exn .type "unhashable type") := by
  cases item with
  | obj d =>
    rw [allowedKeys, schemaName?]
    cases hname : dictGet? d "name" with
    | none => cases allowedKeys schema <;> rfl
    | some name =>
      dsimp only
      split_ifs
      · cases allowedKeys schema <;> rfl
      · rfl
  | _ =>
    simp only [allowedKeys, schemaName?]
    cases allowedKeys schema <;> rfl

theorem hasHashableNames_cons {item : Json} {schema : List Json} :
    HasHashableNames (item :: schema) ↔
      (∀ name, schemaName? item = some name → name.isHashable = true) ∧
      HasHashableNames schema := by
  constructor
  · intro h
    refine ⟨fun name hname => ?_, fun d name hd => h d name (List.mem_cons_of_mem _ hd)⟩
    obtain ⟨d, rfl, hd⟩ := schemaName?_eq_some.mp hname
    exact h d name List.mem_cons_self hd
  · intro h d name hd hname
    rcases List.mem_cons.mp hd with rfl | hd
    · exact h.1 name hname
    · exact h.2 d name hd hname

/-- The allowed keys are the names of the schema, each of them hashable. -/
theorem allowedKeys_eq_ok {schema names : List Json} (h : allowedKeys schema = .ok names) :
    HasHashableNames schema ∧ names = schema.filterMap schemaName? := by
  induction schema generalizing names with
  | nil =>
    cases h
    exact ⟨fun d name hd => absurd hd List.not_mem_nil, rfl⟩
  | cons item schema ih =>
    rw [allowedKeys_cons] at h
    rw [hasHashableNames_cons, List.filterMap_cons]
    cases hname : schemaName? item with
    | none =>
      simp only [hname] at h
      exact ⟨⟨fun name hn => (nomatch hn), (ih h).1⟩, (ih h).2⟩
    | some name =>
      simp only [hname] at h
      split_ifs at h with hhash
      cases hrest : allowedKeys schema with
      | error e =>
        rw [hrest] at h
        cases h
      | ok rest =>
        rw [hrest] at h
        cases h
        refine ⟨⟨fun name' hn => ?_, (ih hrest).1⟩, congrArg (name :: ·) (ih hrest).2⟩
        cases hn
        exact hhash

theorem exists_allowedKeys {schema : List Json} (h : HasHashableNames schema) :
    ∃ names, allowedKeys schema = .ok names := by
  induction schema with
  | nil => exact ⟨[], rfl⟩
  | cons item schema ih =>
    obtain ⟨hitem, hschema⟩ := hasHashableNames_cons.mp h
    obtain ⟨names, hnames⟩ := ih hschema
    rw [allowedKeys_cons, hnames]
    cases hname : schemaName? item with
    | none => exact ⟨names, rfl⟩
    | some name =>
      dsimp only
      rw [if_pos (hitem name hname)]
      exact ⟨name :: names, rfl⟩

/-- A list-valued schema allows the names in it. -/
theorem schemaAllows_iff {addon : Dict} {schema : List Json}
    (h : dictGet addon "schema" = .arr schema) (key : Str) :
    SchemaAllows addon key ↔ .str key ∈ schema.filterMap schemaName? := by
  simp only [SchemaAllows, h, Json.arr.injEq, forall_eq', List.mem_filterMap,
    schemaName?_eq_some]
  constructor
  · intro ⟨d, hd, hname⟩
    exact ⟨.obj d, hd, d, rfl, hname⟩
  · intro ⟨item, hd, d, hitem, hname⟩
    exact ⟨d, hitem ▸ hd, hname⟩

theorem schemaAllows_of_not_arr {addon : Dict}
    (h : ∀ schema, dictGet addon "schema" ≠ .arr schema) (key : Str) :
    SchemaAllows addon key := by
  intro schema hschema
  exact absurd hschema (h schema)

/-! ## What is submitted -/

/-- The options that are submitted and the fields that are reported, when there are any. -/
theorem mergedOptions_eq_ok {addon options merged : Dict} {ignored : List Str}
    (h : mergedOptions addon options = .ok (merged, ignored)) :
    (∀ schema, dictGet addon "schema" = .arr schema → HasHashableNames schema) ∧
    (∀ key, key ∈ ignored ↔ key ∈ options.map Prod.fst ∧ ¬ SchemaAllows addon key) ∧
    merged = (mergeOptions (currentOptions addon) options).filter fun f => f.1 ∉ ignored := by
  unfold mergedOptions at h
  cases hschema : dictGet addon "schema" with
  | arr schema =>
    simp only [hschema] at h
    cases hallowed : allowedKeys schema with
    | error e =>
      rw [hallowed] at h
      cases h
    | ok allowed =>
      rw [hallowed] at h
      cases h
      obtain ⟨hhash, rfl⟩ := allowedKeys_eq_ok hallowed
      refine ⟨fun schema' h' => ?_, fun key => ?_, rfl⟩
      · cases h'
        exact hhash
      · rw [List.mem_filter, schemaAllows_iff hschema, decide_eq_true_iff]
  | _ =>
    -- no list: nothing is filtered out
    simp only [hschema] at h
    cases h
    have hallows : ∀ key, SchemaAllows addon key := schemaAllows_of_not_arr fun schema h =>
      Json.noConfusion (hschema.symm.trans h)
    refine ⟨fun schema h => Json.noConfusion h, fun key => ?_, ?_⟩
    · simp [hallows key]
    · exact (List.filter_eq_self.mpr fun f _ => by simp).symm

theorem exists_mergedOptions {addon : Dict} (options : Dict)
    (h : ∀ schema, dictGet addon "schema" = .arr schema → HasHashableNames schema) :
    ∃ p, mergedOptions addon options = .ok p := by
  unfold mergedOptions
  cases hschema : dictGet addon "schema" with
  | arr schema =>
    obtain ⟨names, hnames⟩ := exists_allowedKeys (h schema hschema)
    simp only [hnames]
    exact ⟨_, rfl⟩
  | _ => exact ⟨_, rfl⟩

/-- The value of a key that is submitted: of the merged options, less what is ignored. -/
theorem dictGet?_submitted {addon options merged : Dict} {ignored : List Str}
    (h : mergedOptions addon options = .ok (merged, ignored))
    (hoptions : (options.map Prod.fst).Nodup)
    (hcurrent : ((currentOptions addon).map Prod.fst).Nodup) (key : Str) :
    dictGet? merged key =
      if key ∈ ignored then none
      else match dictGet? options key with
        | none => dictGet? (currentOptions addon) key
        | some value => some (mergedValue (dictGet? (currentOptions addon) key) value) := by
  obtain ⟨-, -, rfl⟩ := mergedOptions_eq_ok h
  rw [dictGet?_filter (nodup_keys_mergeOptions hcurrent), dictGet?_mergeOptions hoptions]
  split_ifs with hkey
  · exact Option.filter_eq_none_iff.mpr fun value _ => by simp [hkey]
  · generalize hvalue : (match dictGet? options key with
      | none => dictGet? (currentOptions addon) key
      | some value => some (mergedValue (dictGet? (currentOptions addon) key) value)) = value?
    cases value? with
    | none => rfl
    | some value => simp [hkey]

/-- The submitted options preserve the current ones where the schema knows every caller key that
is one of theirs. -/
theorem preservesOptions {addon options merged : Dict} {ignored : List Str}
    {out : Except Err Dict} (h : mergedOptions addon options = .ok (merged, ignored))
    (hoptions : (options.map Prod.fst).Nodup)
    (hcurrent : ((currentOptions addon).map Prod.fst).Nodup)
    (hspares : SparesUnknownOptions addon options)
    (hout : ∀ response, out = .ok response →
      ∀ key, .str key ∈ ignoredFields response → key ∈ ignored) :
    PreservesOptions addon options merged out := by
  obtain ⟨hhash, hignored, -⟩ := mergedOptions_eq_ok h
  have hget := dictGet?_submitted h hoptions hcurrent
  have hnone : ∀ key ∈ ignored, dictGet? (currentOptions addon) key = none := by
    intro key hkey
    obtain ⟨hmem, hallows⟩ := (hignored key).mp hkey
    by_contra hsome
    have hhas : dictHas (currentOptions addon) key = true := Option.isSome_iff_ne_none.mpr hsome
    -- only a list-valued schema can fail to know a key
    have hlist : ∃ schema, dictGet addon "schema" = .arr schema := by
      by_contra hno
      exact hallows (schemaAllows_of_not_arr (fun schema hs => hno ⟨schema, hs⟩) key)
    obtain ⟨schema, hschema⟩ := hlist
    exact hallows (hspares schema hschema (hhash schema hschema) key
      (dictHas_iff_mem.mpr hmem) hhas)
  refine ⟨fun key hkey => ?_, fun key value hkey hallows => ?_, fun response key hr hkey => ?_,
    fun key hkey => ?_⟩
  · have hmem : key ∉ ignored := fun hmem =>
      absurd (dictHas_iff_mem.mpr ((hignored key).mp hmem).1) (by simp [dictHas, hkey])
    rw [hget, if_neg hmem, hkey]
  · have hmem : key ∉ ignored := fun hmem => ((hignored key).mp hmem).2 hallows
    rw [hget, if_neg hmem, hkey]
  · have hmem := hout response hr key hkey
    rw [hget, if_pos hmem, hnone key hmem]
  · rw [dictHas, hget] at hkey
    split_ifs at hkey with hmem
    · cases hkey
    · cases hvalue : dictGet? options key with
      | none =>
        rw [hvalue] at hkey
        exact .inl hkey
      | some value =>
        have hhas : dictHas options key = true := by rw [dictHas, hvalue]; rfl
        refine .inr ⟨hhas, ?_⟩
        by_contra hallows
        exact hmem ((hignored key).mpr ⟨dictHas_iff_mem.mp hhas, hallows⟩)

/-! ## Runs -/

section

variable [Runtime]

omit [Runtime] in
theorem ignoredFields_eq_nil {response : Dict} (h : dictGet? response "ignored_fields" = none) :
    ignoredFields response = [] := by
  rw [ignoredFields, dictGet, h]
  rfl

/-- What a Supervisor call answers reports no ignored fields. -/
theorem supervisorApiCall_ignoredFields (endpoint method : Str) (data : Json)
    (timeout : Option ℤ) :
    Spec (supervisorApiCall endpoint method data timeout) fun _ out =>
      ∀ response, out = .ok response → ignoredFields response = [] := by
  have hret : ∀ response : Dict, dictGet? response "ignored_fields" = none →
      Spec (ret response : Coro Dict) fun _ out =>
        ∀ response, out = .ok response → ignoredFields response = [] := by
    intro response h
    refine spec_ret_iff.mpr fun response' hr => ?_
    cases hr
    exact ignoredFields_eq_nil h
  refine Spec.bind (Q := fun _ _ => True) (spec_perform_iff.mpr fun c => trivial)
    (fun c tr _ => ?_) (fun e tr _ response h => nomatch h)
  cases c with
  | notImportable => exact hret _ (by simp [error, dictGet?_cons])
  | notLoaded => exact hret _ (by simp [error, dictGet?_cons])
  | loaded =>
    refine Spec.bind (Q := fun _ _ => True)
      (spec_attempt_iff.mpr (spec_perform_iff.mpr fun r => trivial)) (fun r tr _ => ?_)
      (fun e tr _ response h => nomatch h)
    split
    · exact hret _ (by simp [success, dictGet?_cons])
    · exact hret _ (by simp [error, dictGet?_cons])
    · split_ifs
      · exact hret _ (by simp [error, dictGet?_cons])
      · exact spec_raise_iff.mpr fun response h => nomatch h

omit [Runtime] in
theorem ignoredFields_configResponse (slug : Str) (config : Dict) (ignored : List Str) :
    ignoredFields (configResponse slug config ignored) = ignored.map .str := by
  cases ignored with
  | nil =>
    unfold configResponse
    dsimp only
    rw [if_pos rfl]
    apply ignoredFields_eq_nil
    split_ifs <;> simp [success, dictGet?_cons]
  | cons key ignored =>
    unfold configResponse
    dsimp only
    rw [if_neg (List.cons_ne_nil key ignored), ignoredFields, dictGet, dictGet?_dictSet,
      if_neg (by decide), dictGet?_dictSet, if_pos rfl]
    rfl

/-- An update submits the merged configuration, and reports at most the fields it ignored. -/
theorem runs_configUpdate {slug : Str} {addon config payload : Dict}
    {tr : List Exchange} {out : Except Err Dict} {answer : Except Err Json}
    (h : Runs (executeConfigUpdate slug addon config) tr out)
    (hpost : supervisorExchange (optionsEndpoint slug) "POST" (.obj payload) (some 30) answer ∈ tr) :
    ∃ ignored, submittedConfig addon config = .ok (payload, ignored) ∧
      ∀ response, out = .ok response → ∀ key, .str key ∈ ignoredFields response → key ∈ ignored := by
  unfold executeConfigUpdate at h
  rcases runs_bind_iff.mp h with ⟨submitted, tr₁, tr₂, h₁, h₂, rfl⟩ | ⟨e, h₁, rfl⟩
  swap
  · obtain ⟨rfl, -⟩ := runs_ofExcept_iff.mp h₁
    cases hpost
  obtain ⟨rfl, hsubmitted⟩ := runs_ofExcept_iff.mp h₁
  have hcall : ∀ {tr out'}, Runs (supervisorApiCall (optionsEndpoint slug) "POST"
      (.obj submitted.1) (some 30)) tr out' →
      supervisorExchange (optionsEndpoint slug) "POST" (.obj payload) (some 30) answer ∈ tr →
      submitted.1 = payload := by
    intro tr out' hrun hmem
    rcases runs_supervisorApiCall hrun with ⟨r, rfl, -⟩ | ⟨e, rfl, -⟩ | ⟨j, rfl, -⟩
    · simp [supervisorExchange] at hmem
    · have hsame : payload = submitted.1 ∧ answer = .error e := by
        simpa [supervisorExchange] using hmem
      exact hsame.1.symm
    · have hsame : payload = submitted.1 ∧ answer = .ok j := by
        simpa [supervisorExchange] using hmem
      exact hsame.1.symm
  rcases runs_bind_iff.mp h₂ with ⟨result, tr₃, tr₄, h₃, h₄, rfl⟩ | ⟨e, h₃, rfl⟩
  · have hnone := supervisorApiCall_ignoredFields _ _ _ _ _ _ h₃ result rfl
    split_ifs at h₄
    · obtain ⟨rfl, rfl⟩ := runs_ret_iff.mp h₄
      obtain rfl := hcall h₃ (by simpa using hpost)
      refine ⟨submitted.2, hsubmitted.symm, fun response hr key hkey => ?_⟩
      cases hr
      rw [hnone] at hkey
      cases hkey
    · obtain ⟨rfl, rfl⟩ := runs_ret_iff.mp h₄
      obtain rfl := hcall h₃ (by simpa using hpost)
      refine ⟨submitted.2, hsubmitted.symm, fun response hr key hkey => ?_⟩
      cases hr
      rw [ignoredFields_configResponse] at hkey
      simpa using hkey
  · obtain rfl := hcall h₃ (by simpa using hpost)
    exact ⟨submitted.2, hsubmitted.symm, fun response hr => nomatch hr⟩

theorem exists_runs_configUpdate (slug : Str) {addon config payload : Dict}
    {ignored : List Str} (h : submittedConfig addon config = .ok (payload, ignored)) :
    Runs (executeConfigUpdate slug addon config)
      [⟨.component, .ok .loaded⟩,
        supervisorExchange (optionsEndpoint slug) "POST" (.obj payload) (some 30) (.ok .null)]
      (.ok (configResponse slug payload ignored)) := by
  unfold executeConfigUpdate
  rw [h]
  rw [ofExcept_ok, bind_eq, bind_ret]
  refine runs_bind_iff.mpr (.inl ⟨_, _, [], exists_runs_supervisorApiCall _ _ _ _ .null, ?_, rfl⟩)
  simp only [isSuccess_success, Bool.not_true, Bool.false_eq_true, if_false]
  exact .ret _

/-- A reported field whose value is lost. -/
theorem not_updatesOptions {slug : Str} {addon config options merged : Dict} {ignored : List Str}
    {key : Str} (hconfig : dictGet? config "options" = some (.obj options))
    (hmerged : mergedOptions addon options = .ok (merged, ignored)) (hkey : key ∈ ignored)
    (hlost : dictGet? merged key ≠ dictGet? (currentOptions addon) key) :
    ¬ UpdatesOptions slug addon config options := by
  intro h
  have hsubmitted : submittedConfig addon config =
      .ok (dictSet "options" (.obj merged) config, ignored) := by
    simp only [submittedConfig, hconfig, hmerged]
    rfl
  have hrun := exists_runs_configUpdate slug hsubmitted
  obtain ⟨⟨submitted, hpayload, hpreserves⟩, -⟩ := h _ _ hrun
    (dictSet "options" (.obj merged) config) (.ok .null) (by simp)
  rw [dictGet?_dictSet, if_pos rfl] at hpayload
  cases hpayload
  apply hlost
  apply hpreserves.ignored _ key rfl
  rw [ignoredFields_configResponse]
  exact List.mem_map_of_mem hkey

/-- An update preserves what the caller did not change exactly where it spares the options the
schema does not know: a caller key that is ignored is taken out of the merged options, where the
current value was. -/
theorem updatesOptions_iff (slug : Str) {addon config options : Dict}
    (hconfig : dictGet? config "options" = some (.obj options))
    (hoptions : (options.map Prod.fst).Nodup)
    (hcurrent : ((currentOptions addon).map Prod.fst).Nodup) :
    UpdatesOptions slug addon config options ↔ SparesUnknownOptions addon options := by
  constructor
  · intro h schema hschema hhash key hkey hhas
    by_contra hallows
    have hnames : ∀ schema', dictGet addon "schema" = .arr schema' → HasHashableNames schema' := by
      intro schema' h'
      cases hschema.symm.trans h'
      exact hhash
    obtain ⟨⟨merged, ignored⟩, hmerged⟩ := exists_mergedOptions options hnames
    obtain ⟨-, hignored, -⟩ := mergedOptions_eq_ok hmerged
    have hmem : key ∈ ignored := (hignored key).mpr ⟨dictHas_iff_mem.mp hkey, hallows⟩
    refine not_updatesOptions hconfig hmerged hmem ?_ h
    rw [dictGet?_submitted hmerged hoptions hcurrent, if_pos hmem]
    exact (Option.isSome_iff_ne_none.mp hhas).symm
  · intro h tr out hrun payload answer hpost
    obtain ⟨ignored, hsubmitted, hout⟩ := runs_configUpdate hrun hpost
    simp only [submittedConfig, hconfig] at hsubmitted
    cases hmerged : mergedOptions addon options with
    | error e =>
      rw [hmerged] at hsubmitted
      cases hsubmitted
    | ok p =>
      rw [hmerged] at hsubmitted
      cases hsubmitted
      refine ⟨⟨p.1, ?_, preservesOptions hmerged hoptions hcurrent h hout⟩, fun field hne => ?_⟩
      · rw [dictGet?_dictSet, if_pos rfl]
      · rw [dictGet?_dictSet, if_neg hne]

end

/-- An add-on with an option that its schema does not list. -/
def retiredOptionAddon : Dict :=
  dictOf [(str "options", .dict [("leave_front_door_open", .bool true)]),
    (str "schema", .arr [.dict [("name", .lit "ssl")]])]

/-- The options a caller gives for it. -/
def retiredOption : Dict := dictOf [(str "leave_front_door_open", .bool false)]

theorem updatesOptions_iff_allowed :
    letI := asciiRuntime
    UpdatesOptions "5c53de3b_esphome" retiredOptionAddon
      [(str "options", .obj [(str "ssl", .bool true)])] [(str "ssl", .bool true)] ↔
      SparesUnknownOptions retiredOptionAddon [(str "ssl", .bool true)] :=
  letI := asciiRuntime
  updatesOptions_iff "5c53de3b_esphome" rfl (by decide) (by decide)

/-- The add-on's own value is lost with the ignored one. -/
theorem not_updatesOptions_retired :
    letI := asciiRuntime
    ¬ UpdatesOptions "5c53de3b_esphome" retiredOptionAddon
      [(str "options", .obj retiredOption)] retiredOption := by
  let := asciiRuntime
  have hmerged : mergedOptions retiredOptionAddon retiredOption =
      .ok ([], [str "leave_front_door_open"]) := rfl
  have hkey : str "leave_front_door_open" ∈ [str "leave_front_door_open"] := by decide
  exact not_updatesOptions rfl hmerged hkey (by decide)

end EsphomeMcp.Addon
