import EsphomeMcp.Addon.DeviceBuilderAnswers

/-!
# What a device list reports

The reply to `devices/list` holds two lists that are filtered, cut at the caller's limit and
counted. The configured devices are cut first and counted then; the importable ones are counted
before they are cut, so their count is the length of the returned list only where nothing is cut.
-/

namespace EsphomeMcp.Addon

open Py

/-! ## Definitions -/

/-- The input list under a key of a result; a member that is no list lists nothing. -/
def resultMembers (result : Dict) (key : Str) : List Json :=
  match dictGet? result key with
  | some (.arr items) => items
  | _ => []

section

variable [Runtime]

/-- A dict that matches the query and passes a further test. -/
def matchesDevice (query : Option Str) (keep : Json → Bool) (device : Json) : Bool :=
  device.isDict && (textMatches device query).toOption = some true && keep device

/-- The first of the matching devices, as many as the limit allows. -/
def DeviceFilter.firstMatches (f : DeviceFilter) (keep : Json → Bool) (devices : List Json) :
    List Json :=
  (devices.filter (matchesDevice f.query keep)).take (boundedLimit f.limit)

/-- What the reply to a device list owes to the result it was given. -/
structure ReportsDevices (f : DeviceFilter) (result reply : Dict) : Prop where
  configured : dictGet? reply "configured" =
    some (.arr (f.firstMatches f.keeps (resultMembers result "configured")))
  configuredCount : dictGet? reply "configured_count" =
    some (.int (f.firstMatches f.keeps (resultMembers result "configured")).length)
  importable : f.includeImportable = true → dictGet? reply "importable" =
    some (.arr (f.firstMatches (fun _ => true) (resultMembers result "importable")))
  importableCount : f.includeImportable = true → dictGet? reply "importable_count" =
    some (.int (f.firstMatches (fun _ => true) (resultMembers result "importable")).length)

/-- A device that the query can be looked up in: the JSON encoder follows it to its end. -/
def IsReadable (query : Option Str) (device : Json) : Prop :=
  device.isDict = true → query.getD [] ≠ [] → device.depth ≤ recursionLimit

/-- A member of the result that can be gone through. -/
def IsSearchable (query : Option Str) : Option Json → Prop
  | some (.arr items) => ∀ device ∈ items, IsReadable query device
  | some (.str _) => True
  | some (.obj _) => True
  | some _ => False
  | none => True

/-- The members can be gone through, and the importable devices that match are within the limit. -/
structure IsReportable (f : DeviceFilter) (result : Dict) : Prop where
  configured : IsSearchable f.query (dictGet? result "configured")
  importable : f.includeImportable = true → IsSearchable f.query (dictGet? result "importable")
  importableCount : f.includeImportable = true →
    ((resultMembers result "importable").filter (matchesDevice f.query fun _ => true)).length ≤
      boundedLimit f.limit

/-! ## Filtering -/

theorem exists_textMatches {device : Json} {query : Option Str} :
    (∃ b, textMatches device query = .ok b) ↔
      (query.getD [] ≠ [] → device.depth ≤ recursionLimit) := by
  match query with
  | none => simp [textMatches]
  | some [] => simp [textMatches]
  | some (c :: q) =>
    simp only [textMatches, dumps, Option.getD_some, ne_eq, reduceCtorEq, not_false_eq_true,
      true_imp_iff]
    split_ifs with hdepth
    · exact iff_of_true ⟨_, rfl⟩ hdepth
    · refine iff_of_false ?_ hdepth
      rintro ⟨b, ⟨⟩⟩

/-- Whether a device is a dict that the query matches. -/
def isSelected (query : Option Str) (device : Json) : Except Err Bool :=
  if device.isDict then textMatches device query else .ok false

theorem selectDevices_cons (query : Option Str) (keep : Json → Bool) (device : Json)
    (devices : List Json) :
    selectDevices query keep (device :: devices) =
      (isSelected query device).bind fun selected =>
        (selectDevices query keep devices).map fun rest =>
          if selected && keep device then device :: rest else rest := by
  rw [selectDevices, isSelected]
  split_ifs
  · cases textMatches device query with
    | error e => rfl
    | ok b =>
      cases selectDevices query keep devices <;>
        simp [bind, Except.bind, Except.map, pure, Except.pure]
  · cases selectDevices query keep devices <;>
      simp [bind, Except.bind, Except.map, pure, Except.pure]

/-- A device that can be read is selected when it matches. -/
theorem isSelected_eq_ok {query : Option Str} {device : Json} (h : IsReadable query device)
    (keep : Json → Bool) :
    ∃ b, isSelected query device = .ok b ∧ matchesDevice query keep device = (b && keep device) := by
  cases hdict : device.isDict with
  | false => exact ⟨false, by rw [isSelected, hdict]; rfl, by rw [matchesDevice, hdict]; rfl⟩
  | true =>
    obtain ⟨b, hb⟩ := exists_textMatches.mpr (h hdict)
    refine ⟨b, by rw [isSelected, if_pos hdict, hb], ?_⟩
    rw [matchesDevice, hdict, hb]
    cases b <;> rfl

theorem isSelected_eq_error {query : Option Str} {device : Json} (h : ¬ IsReadable query device) :
    ∃ e, isSelected query device = .error e := by
  obtain ⟨hdict, hdepth⟩ := Classical.not_imp.mp h
  rw [isSelected, if_pos hdict]
  cases hmatch : textMatches device query with
  | error e => exact ⟨e, rfl⟩
  | ok b => exact absurd (exists_textMatches.mp ⟨b, hmatch⟩) hdepth

/-- Going through devices: every one of them is read, and the matching ones stay in order. -/
theorem selectDevices_eq_ok_iff {query : Option Str} {keep : Json → Bool}
    {devices found : List Json} :
    selectDevices query keep devices = .ok found ↔
      (∀ device ∈ devices, IsReadable query device) ∧
      found = devices.filter (matchesDevice query keep) := by
  induction devices generalizing found with
  | nil => simp [selectDevices, eq_comm]
  | cons device devices ih =>
    rw [selectDevices_cons, List.forall_mem_cons, List.filter_cons]
    by_cases hread : IsReadable query device
    · obtain ⟨b, hb, hmatch⟩ := isSelected_eq_ok hread keep
      rw [hb, hmatch]
      cases hrest : selectDevices query keep devices with
      | error e =>
        refine iff_of_false (by rintro ⟨⟩) fun h => ?_
        rw [ih.mpr ⟨h.1.2, rfl⟩] at hrest
        cases hrest
      | ok rest =>
        obtain ⟨hall, rfl⟩ := ih.mp hrest
        simp only [Except.bind, Except.map, Except.ok.injEq]
        exact ⟨fun h => ⟨⟨hread, hall⟩, h.symm⟩, fun h => h.2.symm⟩
    · obtain ⟨e, he⟩ := isSelected_eq_error hread
      rw [he]
      exact iff_of_false (by rintro ⟨⟩) fun h => hread h.1.1

/-- The items of a member and what is selected of them. -/
def selectMember (query : Option Str) (keep : Json → Bool) (member : Option Json) :
    Except Err (List Json) := do
  selectDevices query keep (← iterItems (member.getD (.arr [])))

theorem selectMember_eq_ok_iff {query : Option Str} {keep : Json → Bool} {result : Dict} {key : Str}
    {found : List Json} : selectMember query keep (dictGet? result key) = .ok found ↔
      IsSearchable query (dictGet? result key) ∧
      found = (resultMembers result key).filter (matchesDevice query keep) := by
  have hnone : ∀ items : List Json, (∀ item ∈ items, item.isDict = false) →
      (selectDevices query keep items = .ok found ↔ found = []) := by
    intro items hitems
    have hfilter : items.filter (matchesDevice query keep) = [] := by
      apply List.filter_eq_nil_iff.mpr
      intro item hitem
      rw [matchesDevice, hitems item hitem]
      exact Bool.false_ne_true
    rw [selectDevices_eq_ok_iff, hfilter]
    refine and_iff_right fun item hitem hdict => ?_
    rw [hitems item hitem] at hdict
    cases hdict
  rw [resultMembers, selectMember]
  cases hmember : dictGet? result key with
  | none => simp [iterItems, IsSearchable, selectDevices, eq_comm, bind, Except.bind]
  | some member =>
    cases member with
    | arr items => exact selectDevices_eq_ok_iff
    | str s =>
      have h := hnone (s.map fun c => .str [c]) (by simp [Json.isDict])
      exact h.trans (by simp [IsSearchable])
    | obj d =>
      have h := hnone (d.map fun f => .str f.1) (by
        intro item hitem
        obtain ⟨f, -, rfl⟩ := List.mem_map.mp hitem
        rfl)
      exact h.trans (by simp [IsSearchable])
    | _ => exact iff_of_false (by rintro ⟨⟩) fun h => h.1

/-! ## The reply -/

/-- The reply for the configured devices and, when asked for, the importable ones. -/
def devicesReply (f : DeviceFilter) (debug : Bool) (response : Dict) (configured : List Json)
    (importable : Option (List Json)) : Dict :=
  let returned := configured.take (boundedLimit f.limit)
  success ([("configured_count", .int returned.length), ("configured", .arr returned)] ++
    (match importable with
      | some devices => [("importable_count", .int devices.length),
          ("importable", .arr (devices.take (boundedLimit f.limit)))]
      | none => []) ++
    if debug ∧ dictHas response "_debug" then [("_debug", dictGet response "_debug")] else [])

theorem finishDevices_eq {f : DeviceFilter} {debug : Bool} {response result : Dict}
    (hresult : dictGet response "result" = .obj result) :
    finishDevices f debug response =
      (selectMember f.query f.keeps (dictGet? result "configured")).bind fun configured =>
        (if f.includeImportable then
            (selectMember f.query (fun _ => true) (dictGet? result "importable")).map some
          else .ok none).map (devicesReply f debug response configured) := by
  rw [finishDevices, hresult]
  dsimp only [selectMember]
  cases iterItems ((dictGet? result "configured").getD (.arr [])) with
  | error e => rfl
  | ok listed =>
    dsimp only [bind, Except.bind]
    cases selectDevices f.query f.keeps listed with
    | error e => rfl
    | ok configured =>
      dsimp only
      by_cases hasked : f.includeImportable = true
      · rw [if_pos hasked, if_pos hasked]
        cases iterItems ((dictGet? result "importable").getD (.arr [])) with
        | error e => rfl
        | ok listed =>
          dsimp only
          cases selectDevices f.query (fun _ => true) listed <;> rfl
      · rw [if_neg hasked, if_neg hasked]
        rfl

/-- The reply to a device list that can be gone through. -/
theorem finishDevices_eq_ok_iff {f : DeviceFilter} {debug : Bool} {response result reply : Dict}
    (hresult : dictGet response "result" = .obj result) :
    finishDevices f debug response = .ok reply ↔
      IsSearchable f.query (dictGet? result "configured") ∧
      (f.includeImportable = true → IsSearchable f.query (dictGet? result "importable")) ∧
      reply = devicesReply f debug response
        ((resultMembers result "configured").filter (matchesDevice f.query f.keeps))
        (if f.includeImportable then
          some ((resultMembers result "importable").filter (matchesDevice f.query fun _ => true))
        else none) := by
  rw [finishDevices_eq hresult]
  cases hc : selectMember f.query f.keeps (dictGet? result "configured") with
  | error e =>
    refine iff_of_false (by rintro ⟨⟩) fun h => ?_
    rw [selectMember_eq_ok_iff.mpr ⟨h.1, rfl⟩] at hc
    cases hc
  | ok configured =>
    obtain ⟨hsearch, rfl⟩ := selectMember_eq_ok_iff.mp hc
    dsimp only [Except.bind]
    split_ifs with hasked
    · cases hi : selectMember f.query (fun _ => true) (dictGet? result "importable") with
      | error e =>
        refine iff_of_false (by rintro ⟨⟩) fun h => ?_
        rw [selectMember_eq_ok_iff.mpr ⟨h.2.1 hasked, rfl⟩] at hi
        cases hi
      | ok importable =>
        obtain ⟨hsearch', rfl⟩ := selectMember_eq_ok_iff.mp hi
        dsimp only [Except.map]
        rw [Except.ok.injEq]
        exact ⟨fun h => ⟨hsearch, fun _ => hsearch', h.symm⟩, fun h => h.2.2.symm⟩
    · dsimp only [Except.map]
      rw [Except.ok.injEq]
      exact ⟨fun h => ⟨hsearch, fun h' => absurd h' hasked, h.symm⟩, fun h => h.2.2.symm⟩

omit [Runtime] in
/-- The devices a reply returns and the counts it gives for them. -/
theorem devicesReply_fields (f : DeviceFilter) (debug : Bool) (response : Dict)
    (configured : List Json) (importable : Option (List Json)) :
    let reply := devicesReply f debug response configured importable
    dictGet? reply "configured" = some (.arr (configured.take (boundedLimit f.limit))) ∧
    dictGet? reply "configured_count" =
      some (.int (configured.take (boundedLimit f.limit)).length) ∧
    ∀ devices, importable = some devices →
      dictGet? reply "importable" = some (.arr (devices.take (boundedLimit f.limit))) ∧
      dictGet? reply "importable_count" = some (.int devices.length) := by
  refine ⟨?_, ?_, fun devices h => ?_⟩
  · simp [devicesReply, success, dictGet?_cons]
  · simp [devicesReply, success, dictGet?_cons]
  · subst h
    simp [devicesReply, success, dictGet?_cons]

/-- The reply is honest about the devices it returns exactly where the importable ones are not
cut. -/
theorem reportsDevices_devicesReply_iff {f : DeviceFilter} {debug : Bool} {response result : Dict} :
    ReportsDevices f result (devicesReply f debug response
        ((resultMembers result "configured").filter (matchesDevice f.query f.keeps))
        (if f.includeImportable then
          some ((resultMembers result "importable").filter (matchesDevice f.query fun _ => true))
        else none)) ↔
      (f.includeImportable = true →
        ((resultMembers result "importable").filter (matchesDevice f.query fun _ => true)).length ≤
          boundedLimit f.limit) := by
  generalize himportable : (if f.includeImportable then
      some ((resultMembers result "importable").filter (matchesDevice f.query fun _ => true))
    else none) = importable
  obtain ⟨hconfigured, hcount, hfields⟩ := devicesReply_fields f debug response
    ((resultMembers result "configured").filter (matchesDevice f.query f.keeps)) importable
  have hasked : f.includeImportable = true → importable =
      some ((resultMembers result "importable").filter (matchesDevice f.query fun _ => true)) := by
    intro h
    rw [← himportable, if_pos h]
  constructor
  · intro h h'
    have hsame := (hfields _ (hasked h')).2.symm.trans (h.importableCount h')
    rw [Option.some.injEq, Json.int.injEq, Nat.cast_inj, DeviceFilter.firstMatches,
      List.length_take] at hsame
    exact hsame ▸ min_le_left _ _
  · intro h
    refine ⟨hconfigured, hcount, fun h' => (hfields _ (hasked h')).1, fun h' => ?_⟩
    rw [(hfields _ (hasked h')).2, DeviceFilter.firstMatches, List.take_of_length_le (h h')]

/-! ## Runs -/

open Prog

theorem runs_listDeviceBuilderDevices {fuel : ℕ} {hass : Hass} {slug : Option Str}
    {timeout : ℤ} {debug : Bool} {tr : List Exchange} {response : Dict}
    (hcommand : Runs (deviceBuilderCommand fuel hass slug
      (requestCommand "devices/list" [] timeout debug)) tr (.ok response))
    (hsuccess : isSuccess response = true) (f : DeviceFilter) :
    Runs (listDeviceBuilderDevices fuel hass slug f timeout debug) tr
      (finishDevices f debug response) := by
  refine runs_bind_iff.mpr (.inl ⟨response, tr, [], hcommand, ?_, (List.append_nil tr).symm⟩)
  rw [if_neg (by simp [hsuccess])]
  exact runs_ofExcept_iff.mpr ⟨rfl, rfl⟩

/-- In a run whose `devices/list` command gave a result, the reply is the honest one exactly where
the result can be gone through and the matching importable devices are within the limit. -/
theorem listDeviceBuilderDevices_reports_iff {fuel : ℕ} {hass : Hass} {slug : Option Str}
    {f : DeviceFilter} {timeout : ℤ} {debug : Bool} {tr : List Exchange} {response result : Dict}
    {out : Except Err Dict}
    (hcommand : Runs (deviceBuilderCommand fuel hass slug
      (requestCommand "devices/list" [] timeout debug)) tr (.ok response))
    (hsuccess : isSuccess response = true) (hresult : dictGet response "result" = .obj result)
    (h : Runs (listDeviceBuilderDevices fuel hass slug f timeout debug) tr out) :
    (∃ reply, out = .ok reply ∧ ReportsDevices f result reply) ↔ IsReportable f result := by
  obtain rfl := h.functional (runs_listDeviceBuilderDevices hcommand hsuccess f)
  constructor
  · intro ⟨reply, hout, hreports⟩
    obtain ⟨hconfigured, himportable, rfl⟩ := (finishDevices_eq_ok_iff hresult).mp hout
    exact ⟨hconfigured, himportable, reportsDevices_devicesReply_iff.mp hreports⟩
  · intro h
    exact ⟨_, (finishDevices_eq_ok_iff hresult).mpr ⟨h.configured, h.importable, rfl⟩,
      reportsDevices_devicesReply_iff.mpr h.importableCount⟩

end

/-! ## More importable devices than the limit -/

/-- Two devices that can be adopted. -/
def adoptableDevices : Dict :=
  dictOf [(str "configured", .arr []),
    (str "importable", .arr [.dict [("name", .lit "plug")], .dict [("name", .lit "lamp")]])]

/-- The answer of Device Builder that lists them. -/
def adoptableFrame : Str :=
  dumpsText .spaced (.dict [("message_id", .str commandId), ("result", .obj adoptableDevices)])

/-- An environment in which Device Builder answers the command it was sent. -/
def adoptableAddon (past : List Exchange) : (c : Cmd) → Except Err c.Ans
  | .receive _ => .ok (if past.any isSend then .text adoptableFrame else .other)
  | c => silentAddon past c

/-- The command of a device list, with one run's worth of receives. -/
def listAdoptable : Coro Dict :=
  @deviceBuilderCommand asciiRuntime 2 ⟨none⟩ (some (str "esphome"))
    (requestCommand "devices/list" [] 60 false)

/-- At most one device, importable ones included. -/
def oneDevice : DeviceFilter := ⟨none, none, true, 1⟩

/-- The command succeeds with the two devices as its result. -/
def answered : Except Err Dict → Bool
  | .ok d => isSuccess d && dictGet d "result" = .obj adoptableDevices
  | .error _ => false

theorem answered_listAdoptable : answered (Prog.exec adoptableAddon listAdoptable []).2 = true := by
  decide +kernel

open Prog

theorem exists_listAdoptable : ∃ tr response, Runs listAdoptable tr (.ok response) ∧
    isSuccess response = true ∧ dictGet response "result" = .obj adoptableDevices := by
  obtain ⟨tr, hrun, -⟩ := runs_exec adoptableAddon listAdoptable []
  have hanswer := answered_listAdoptable
  cases hout : (exec adoptableAddon listAdoptable []).2 with
  | error e =>
    rw [hout] at hanswer
    cases hanswer
  | ok response =>
    rw [hout] at hrun hanswer
    obtain ⟨hsuccess, hresult⟩ := Bool.and_eq_true_iff.mp hanswer
    exact ⟨tr, response, hrun, hsuccess, of_decide_eq_true hresult⟩

theorem listDeviceBuilderDevices_reports_iff_adoptable :
    letI := asciiRuntime
    ∃ tr out, Runs (listDeviceBuilderDevices 2 ⟨none⟩ (some (str "esphome")) oneDevice 60 false)
      tr out ∧ ((∃ reply, out = .ok reply ∧ ReportsDevices oneDevice adoptableDevices reply) ↔
        IsReportable oneDevice adoptableDevices) := by
  let := asciiRuntime
  obtain ⟨tr, response, hcommand, hsuccess, hresult⟩ := exists_listAdoptable
  have hrun := runs_listDeviceBuilderDevices hcommand hsuccess oneDevice
  exact ⟨tr, _, hrun,
    listDeviceBuilderDevices_reports_iff hcommand hsuccess hresult hrun⟩

/-- Two importable devices are counted where one is returned. -/
theorem not_reportsDevices_adoptable :
    letI := asciiRuntime
    ∃ tr reply, Runs (listDeviceBuilderDevices 2 ⟨none⟩ (some (str "esphome")) oneDevice 60 false)
      tr (.ok reply) ∧ ¬ ReportsDevices oneDevice adoptableDevices reply := by
  let := asciiRuntime
  obtain ⟨tr, response, hcommand, hsuccess, hresult⟩ := exists_listAdoptable
  have hrun := runs_listDeviceBuilderDevices hcommand hsuccess oneDevice
  have hout : finishDevices oneDevice false response = .ok (devicesReply oneDevice false response
      [] (some [.dict [("name", .lit "plug")], .dict [("name", .lit "lamp")]])) := by
    rw [finishDevices_eq hresult]
    rfl
  rw [hout] at hrun
  refine ⟨tr, _, hrun, fun h => ?_⟩
  have hcount := h.importableCount rfl
  rw [((devicesReply_fields _ _ _ _ _).2.2 _ rfl).2] at hcount
  exact absurd hcount (by decide)

end EsphomeMcp.Addon
