import EsphomeMcp.Python.Leads
import EsphomeMcp.Server.Query
import Mathlib.Data.Prod.Lex

/-!
# What Home Assistant knows of ESPHome

`_async_snapshot` joins the config entries, the device registry and the entity registry, and
`esp_list_devices` and `esp_list_entities` search what it finds. The registries are dicts and the
members of a device sets, so the order in which they are gone through is not theirs: a listing is
the first of what matches, whatever that order (`Lists`).
-/

namespace EsphomeMcp.Server

open Py Addon

/-! ## The registries -/

/-- A config entry of the domain `esphome`. -/
structure ConfigEntry where
  entryId : Str
  title : Str
  /-- `str(entry.state)`. -/
  state : Str
  /-- `str(entry.disabled_by)`, where there is one. -/
  disabledBy : Option Str
deriving DecidableEq

/-- The members of a device that are no sets. -/
structure DeviceInfo where
  id : Str
  nameByUser : Option Str
  name : Option Str
  manufacturer : Option Str
  model : Option Str
  swVersion : Option Str
  areaId : Option Str
  /-- `device.config_entry_id`, where devices have that attribute. -/
  configEntryId : Option (Option Str)
deriving DecidableEq

structure DeviceEntry where
  info : DeviceInfo
  configEntries : List Str
  identifiers : List (List Str)
  nodup_configEntries : configEntries.Nodup
  nodup_identifiers : identifiers.Nodup

structure EntityEntry where
  entityId : Str
  name : Option Str
  originalName : Option Str
  deviceId : Option Str
  platform : Option Str
  configEntryId : Option Str
  /-- `str(entity.disabled_by)`, where there is one. -/
  disabledBy : Option Str
deriving DecidableEq

/-- The registries and the states, as they are gone through. -/
structure Registries where
  entries : List ConfigEntry
  devices : List DeviceEntry
  entities : List EntityEntry
  /-- `hass.states.get(entity_id).state`. -/
  states : Str → Option Str
  nodup_entries : (entries.map ConfigEntry.entryId).Nodup
  nodup_devices : (devices.map fun device => device.info.id).Nodup
  nodup_entities : (entities.map EntityEntry.entityId).Nodup

/-! ## The snapshot -/

/-- `x or y` of two strings. -/
def orStr (x y : Option Str) : Option Str := if x.getD [] ≠ [] then x else y

/-- A string or `None`. -/
def jsonOf (value : Option Str) : Json := (value.map Json.str).getD .null

/-- What the snapshot says of a device. -/
structure DeviceRow where
  id : Str
  name : Option Str
  manufacturer : Option Str
  model : Option Str
  swVersion : Option Str
  area : Option Str
  configEntries : List Str
  configEntryStates : List Str
  identifiers : List (List Str)
deriving DecidableEq

def DeviceRow.payload (row : DeviceRow) : Json := .dict [("id", .str row.id),
  ("name", jsonOf row.name), ("manufacturer", jsonOf row.manufacturer),
  ("model", jsonOf row.model), ("sw_version", jsonOf row.swVersion), ("area", jsonOf row.area),
  ("config_entries", .arr (row.configEntries.map .str)),
  ("config_entry_states", .arr (row.configEntryStates.map .str)),
  ("identifiers", .arr (row.identifiers.map fun item => .arr (item.map .str)))]

/-- What the snapshot says of an entity. -/
structure EntityRow where
  entityId : Str
  domain : Str
  name : Option Str
  originalName : Option Str
  deviceId : Option Str
  platform : Option Str
  disabledBy : Option Str
  state : Option Str
deriving DecidableEq

def EntityRow.payload (row : EntityRow) : Json := .dict [("entity_id", .str row.entityId),
  ("domain", .str row.domain), ("name", jsonOf row.name),
  ("original_name", jsonOf row.originalName), ("device_id", jsonOf row.deviceId),
  ("platform", jsonOf row.platform), ("disabled_by", jsonOf row.disabledBy),
  ("state", jsonOf row.state)]

/-- `config_entries` of a device. -/
def DeviceEntry.entryIds (device : DeviceEntry) : List Str :=
  match device.info.configEntryId with
  | some entryId => if entryId.getD [] ≠ [] then entryId.toList else []
  | none => device.configEntries

/-- `any(item[0] == "esphome" for item in identifiers)`. -/
def anyEsphome : List (List Str) → Except Err Bool
  | [] => .ok false
  | [] :: _ => .error (.exn .other "list index out of range")
  | (domain :: _) :: items => if domain = "esphome" then .ok true else anyEsphome items

/-- `entry_states`. -/
def entryStates (entries : List ConfigEntry) : List (Str × Str) :=
  dictUpdate [] (entries.map fun entry => (entry.entryId, entry.state))

/-- The row of a device that is one of ESPHome's. -/
def deviceRow (entries : List ConfigEntry) (device : DeviceEntry) : DeviceRow where
  id := device.info.id
  name := orStr device.info.nameByUser device.info.name
  manufacturer := device.info.manufacturer
  model := device.info.model
  swVersion := device.info.swVersion
  area := device.info.areaId
  configEntries := sorted device.entryIds
  configEntryStates := (sorted (device.entryIds.filter (· ∈ entries.map ConfigEntry.entryId))
    ).filterMap fun entryId => dictGet? (entryStates entries) entryId
  identifiers := sorted device.identifiers

/-- `config_entries & entry_ids or any(item[0] == "esphome" for item in identifiers)`. -/
def isEsphomeDevice (entries : List ConfigEntry) (device : DeviceEntry) : Except Err Bool :=
  if device.entryIds.any (· ∈ entries.map ConfigEntry.entryId) then .ok true
  else anyEsphome (sorted device.identifiers)

/-- The loop over the device registry. -/
def collectDevices (entries : List ConfigEntry) : List DeviceEntry → Except Err (List DeviceRow)
  | [] => .ok []
  | device :: devices => do
    let listed ← isEsphomeDevice entries device
    let rows ← collectDevices entries devices
    return if listed then deviceRow entries device :: rows else rows

/-- `platform != "esphome" and config_entry_id not in entry_ids`, negated. -/
def isEsphomeEntity (entries : List ConfigEntry) (entity : EntityEntry) : Bool :=
  entity.platform = some (str "esphome") ||
    entity.configEntryId.any (· ∈ entries.map ConfigEntry.entryId)

/-- The row of an entity. -/
def entityRow (states : Str → Option Str) (entity : EntityEntry) : EntityRow where
  entityId := entity.entityId
  domain := before (ch '.') entity.entityId
  name := entity.name
  originalName := entity.originalName
  deviceId := entity.deviceId
  platform := entity.platform
  disabledBy := entity.disabledBy
  state := states entity.entityId

/-- What `_async_snapshot` returns. -/
structure Snapshot where
  configEntries : List ConfigEntry
  devices : List DeviceRow
  entities : List EntityRow

/-- `(item.get("name") or "", item["id"])`. -/
def DeviceRow.key (row : DeviceRow) : Str ×ₗ Str := toLex (row.name.getD [], row.id)

/-- `_async_snapshot`. -/
def asyncSnapshot (reg : Registries) : Except Err Snapshot := do
  let devices ← collectDevices reg.entries reg.devices
  return {
    configEntries := reg.entries
    devices := sortedBy DeviceRow.key devices
    entities := sortedBy EntityRow.entityId
      ((reg.entities.filter (isEsphomeEntity reg.entries)).map (entityRow reg.states)) }

/-- `VERSION`. -/
def version : Str := "2.2.1"

/-- `_async_overview`. -/
def asyncOverview (reg : Registries) (fastmcpVersion : Option Str) : Except Err Json := do
  let snapshot ← asyncSnapshot reg
  return .dict [("success", .bool true), ("integration_domain", .lit "esphome"),
    ("mcp_domain", .lit "esphome_mcp"), ("server_version", .str version),
    ("fastmcp_version", jsonOf fastmcpVersion),
    ("config_entry_count", .int snapshot.configEntries.length),
    ("device_count", .int snapshot.devices.length),
    ("entity_count", .int snapshot.entities.length)]

/-! ## The listings -/

section

variable [Runtime]

/-- `_matches_optional`. -/
def matchesOptional (value : Json) (expected : Option Str) : Bool :=
  match expected with
  | none => true
  | some expected =>
    match value with
    | .arr items => items.any fun item => contains (lower expected) (lower (strOf item))
    | value => contains (lower expected) (lower (if value.truthy then strOf value else []))

/-- The rows whose payload the query matches and that pass the other filters. -/
def selectRows {α : Type} (payload : α → Json) (query : Option Str) (keep : Json → Bool) :
    List α → Except Err (List α)
  | [] => .ok []
  | row :: rows => do
    let selected ← matchesQuery (payload row) query
    let rest ← selectRows payload query keep rows
    return if selected && keep (payload row) then row :: rest else rest

/-- `max(0, min(limit, maximum))`. -/
def pageLimit (limit maximum : ℤ) : ℕ := (max 0 (min limit maximum)).toNat

/-- A reply with the rows and their count. -/
def listReply {α : Type} (key : String) (payload : α → Json) (rows : List α) : Json :=
  .dict [("success", .bool true), ("count", .int rows.length), (key, .arr (rows.map payload))]

/-- The filters of `esp_list_devices`. -/
structure DeviceSearch where
  query : Option Str
  area : Option Str
  configEntryState : Option Str
  limit : ℤ

/-- The filters of `esp_list_entities`. -/
structure EntitySearch where
  query : Option Str
  domain : Option Str
  deviceId : Option Str
  state : Option Str
  disabled : Option Bool
  limit : ℤ

/-- The filters on single members of a device. -/
def DeviceSearch.keeps (search : DeviceSearch) (device : Json) : Bool :=
  matchesOptional (device.get "area") search.area &&
    matchesOptional (device.get "config_entry_states") search.configEntryState

/-- The filters on single members of an entity. -/
def EntitySearch.keeps (search : EntitySearch) (entity : Json) : Bool :=
  matchesOptional (entity.get "domain") search.domain &&
    matchesOptional (entity.get "device_id") search.deviceId &&
    matchesOptional (entity.get "state") search.state &&
    search.disabled.all fun disabled => (entity.get "disabled_by").truthy = disabled

/-- `esp_list_devices`. -/
def espListDevices (reg : Registries) (search : DeviceSearch) : Except Err Json := do
  let snapshot ← asyncSnapshot reg
  let devices ← selectRows DeviceRow.payload search.query search.keeps snapshot.devices
  return listReply "devices" DeviceRow.payload (devices.take (pageLimit search.limit 500))

/-- `esp_list_entities`. -/
def espListEntities (reg : Registries) (search : EntitySearch) : Except Err Json := do
  let snapshot ← asyncSnapshot reg
  let entities ← selectRows EntityRow.payload search.query search.keeps snapshot.entities
  return listReply "entities" EntityRow.payload (entities.take (pageLimit search.limit 1000))

end

/-! ## What is listed -/

/-- Two devices whose sets have the same elements. -/
structure DeviceEntry.Same (device device' : DeviceEntry) : Prop where
  info : device.info = device'.info
  configEntries : ∀ entryId, entryId ∈ device.configEntries ↔ entryId ∈ device'.configEntries
  identifiers : ∀ item, item ∈ device.identifiers ↔ item ∈ device'.identifiers

namespace Registries

/-- One of the device's config entries is ESPHome's. -/
def HasEntry (reg : Registries) (device : DeviceEntry) : Prop :=
  ∃ entry ∈ reg.entries, entry.entryId ∈ device.entryIds

/-- A device is ESPHome's by a config entry or by an identifier. -/
def IsEsphome (reg : Registries) (device : DeviceEntry) : Prop :=
  reg.HasEntry device ∨ ∃ item, str "esphome" :: item ∈ device.identifiers

/-- No device makes the snapshot index an empty identifier. -/
def IsReadable (reg : Registries) : Prop :=
  ∀ device ∈ reg.devices, reg.HasEntry device ∨ [] ∉ device.identifiers

/-- An entity is ESPHome's by its platform or by its config entry. -/
def IsEsphomeEntity (reg : Registries) (entity : EntityEntry) : Prop :=
  entity.platform = some (str "esphome") ∨
    ∃ entry ∈ reg.entries, entity.configEntryId = some entry.entryId

/-- Two registries with the same members, in whatever order. -/
structure Same (reg reg' : Registries) : Prop where
  entries : ∀ entry, entry ∈ reg.entries ↔ entry ∈ reg'.entries
  devices : ∀ device ∈ reg.devices, ∃ device' ∈ reg'.devices, device.Same device'
  devices' : ∀ device' ∈ reg'.devices, ∃ device ∈ reg.devices, device.Same device'
  entities : ∀ entity, entity ∈ reg.entities ↔ entity ∈ reg'.entities
  states : reg.states = reg'.states

section

variable [Runtime]

/-- The row of a device of ESPHome's that the search is for. -/
def FindsDevice (reg : Registries) (search : DeviceSearch) (row : DeviceRow) : Prop :=
  (∃ device ∈ reg.devices, reg.IsEsphome device ∧ row = deviceRow reg.entries device) ∧
    matchesQuery row.payload search.query = .ok true ∧ search.keeps row.payload = true

/-- The row of an entity of ESPHome's that the search is for. -/
def FindsEntity (reg : Registries) (search : EntitySearch) (row : EntityRow) : Prop :=
  (∃ entity ∈ reg.entities, reg.IsEsphomeEntity entity ∧ row = entityRow reg.states entity) ∧
    matchesQuery row.payload search.query = .ok true ∧ search.keeps row.payload = true

end

end Registries

/-! ## Going through identifiers -/

theorem nil_le_list (l : List Str) : [] ≤ l := by
  cases l with
  | nil => exact le_rfl
  | cons s l => exact (List.nil_lt_cons s l).le

/-- An empty identifier comes first. -/
theorem sorted_of_nil_mem {items : List (List Str)} (h : [] ∈ items) :
    ∃ rest, sorted items = [] :: rest := by
  have hmem : [] ∈ sorted items := mem_sorted.mpr h
  have hsorted : (sorted items).Pairwise (· ≤ ·) := List.pairwise_insertionSort _ _
  cases hs : sorted items with
  | nil =>
    rw [hs] at hmem
    cases hmem
  | cons item rest =>
    rw [hs] at hmem hsorted
    rcases List.mem_cons.mp hmem with rfl | hrest
    · exact ⟨rest, rfl⟩
    · have hle := List.rel_of_pairwise_cons hsorted hrest
      rw [le_antisymm hle (nil_le_list item)]
      exact ⟨rest, rfl⟩

theorem anyEsphome_of_notMem {items : List (List Str)} (h : [] ∉ items) :
    ∃ b, anyEsphome items = .ok b ∧ (b = true ↔ ∃ item, str "esphome" :: item ∈ items) := by
  induction items with
  | nil => exact ⟨false, rfl, by simp⟩
  | cons item items ih =>
    obtain ⟨b, hb, hiff⟩ := ih fun hmem => h (List.mem_cons_of_mem _ hmem)
    cases item with
    | nil => exact absurd List.mem_cons_self h
    | cons domain item =>
      by_cases hdomain : domain = str "esphome"
      · refine ⟨true, by rw [anyEsphome, if_pos hdomain], iff_of_true rfl ⟨item, ?_⟩⟩
        rw [hdomain]
        exact List.mem_cons_self
      · refine ⟨b, by rw [anyEsphome, if_neg hdomain, hb], hiff.trans ?_⟩
        simp only [List.mem_cons, List.cons.injEq]
        constructor
        · intro hitem
          obtain ⟨item', hmem⟩ := hitem
          exact ⟨item', .inr hmem⟩
        · intro hitem
          obtain ⟨item', hmem⟩ := hitem
          exact ⟨item', hmem.resolve_left fun he => hdomain he.1.symm⟩

theorem any_entryIds_iff {reg : Registries} {device : DeviceEntry} :
    device.entryIds.any (· ∈ reg.entries.map ConfigEntry.entryId) = true ↔ reg.HasEntry device := by
  simp only [List.any_eq_true, decide_eq_true_eq, List.mem_map, Registries.HasEntry]
  constructor
  · intro h
    obtain ⟨entryId, hmem, entry, hentry, rfl⟩ := h
    exact ⟨entry, hentry, hmem⟩
  · intro h
    obtain ⟨entry, hentry, hmem⟩ := h
    exact ⟨entry.entryId, hmem, entry, hentry, rfl⟩

/-- A device is ESPHome's or not, unless an empty identifier is indexed. -/
theorem isEsphomeDevice_spec {reg : Registries} {device : DeviceEntry}
    (h : reg.HasEntry device ∨ [] ∉ device.identifiers) :
    ∃ b, isEsphomeDevice reg.entries device = .ok b ∧ (b = true ↔ reg.IsEsphome device) := by
  unfold isEsphomeDevice
  split_ifs with hany
  · exact ⟨true, rfl, iff_of_true rfl (.inl (any_entryIds_iff.mp hany))⟩
  · have hnone : ¬reg.HasEntry device := fun hentry => hany (any_entryIds_iff.mpr hentry)
    obtain ⟨b, hb, hiff⟩ := anyEsphome_of_notMem fun hmem =>
      (h.resolve_left hnone) (mem_sorted.mp hmem)
    refine ⟨b, hb, hiff.trans ?_⟩
    simp only [mem_sorted, Registries.IsEsphome, hnone, false_or]

theorem isEsphomeDevice_error {reg : Registries} {device : DeviceEntry}
    (h : ¬(reg.HasEntry device ∨ [] ∉ device.identifiers)) :
    isEsphomeDevice reg.entries device = .error (.exn .other "list index out of range") := by
  obtain ⟨hentry, hnil⟩ := not_or.mp h
  obtain ⟨rest, hrest⟩ := sorted_of_nil_mem (not_not.mp hnil)
  rw [isEsphomeDevice, if_neg fun hany => hentry (any_entryIds_iff.mp hany), hrest]
  rfl

/-! ## Going through the device registry -/

/-- Whether the snapshot lists a device, where it can be told. -/
def isListed (entries : List ConfigEntry) (device : DeviceEntry) : Bool :=
  (isEsphomeDevice entries device).toOption = some true

theorem isListed_iff {reg : Registries} {device : DeviceEntry}
    (h : reg.HasEntry device ∨ [] ∉ device.identifiers) :
    isListed reg.entries device = true ↔ reg.IsEsphome device := by
  obtain ⟨b, hb, hiff⟩ := isEsphomeDevice_spec h
  rw [isListed, hb, ← hiff]
  simp [Except.toOption]

theorem collectDevices_cons (entries : List ConfigEntry) (device : DeviceEntry)
    (devices : List DeviceEntry) : collectDevices entries (device :: devices) =
      (isEsphomeDevice entries device).bind fun listed =>
        (collectDevices entries devices).map fun rows =>
          if listed then deviceRow entries device :: rows else rows := by
  rw [collectDevices]
  cases isEsphomeDevice entries device with
  | error e => rfl
  | ok b => cases collectDevices entries devices <;> rfl

theorem collectDevices_eq {reg : Registries} {devices : List DeviceEntry}
    (h : ∀ device ∈ devices, reg.HasEntry device ∨ [] ∉ device.identifiers) :
    collectDevices reg.entries devices =
      .ok ((devices.filter (isListed reg.entries)).map (deviceRow reg.entries)) := by
  induction devices with
  | nil => rfl
  | cons device devices ih =>
    obtain ⟨b, hb, -⟩ := isEsphomeDevice_spec (h device List.mem_cons_self)
    have hlisted : isListed reg.entries device = b := by
      rw [isListed, hb]
      cases b <;> rfl
    rw [collectDevices_cons, hb, ih fun d hd => h d (List.mem_cons_of_mem _ hd),
      List.filter_cons, hlisted]
    cases b <;> rfl

theorem collectDevices_error {reg : Registries} {devices : List DeviceEntry}
    (h : ¬∀ device ∈ devices, reg.HasEntry device ∨ [] ∉ device.identifiers) :
    collectDevices reg.entries devices = .error (.exn .other "list index out of range") := by
  induction devices with
  | nil => exact absurd nofun h
  | cons device devices ih =>
    rw [collectDevices_cons]
    by_cases hdevice : reg.HasEntry device ∨ [] ∉ device.identifiers
    · obtain ⟨b, hb, -⟩ := isEsphomeDevice_spec hdevice
      rw [hb, ih fun hrest => h (List.forall_mem_cons.mpr ⟨hdevice, hrest⟩)]
      rfl
    · rw [isEsphomeDevice_error hdevice]
      rfl

/-- The snapshot of registries that can be read. -/
theorem asyncSnapshot_eq {reg : Registries} (h : reg.IsReadable) :
    asyncSnapshot reg = .ok {
      configEntries := reg.entries
      devices := sortedBy DeviceRow.key
        ((reg.devices.filter (isListed reg.entries)).map (deviceRow reg.entries))
      entities := sortedBy EntityRow.entityId
        ((reg.entities.filter (isEsphomeEntity reg.entries)).map (entityRow reg.states)) } := by
  rw [asyncSnapshot, collectDevices_eq h]
  rfl

theorem asyncSnapshot_error {reg : Registries} (h : ¬reg.IsReadable) :
    asyncSnapshot reg = .error (.exn .other "list index out of range") := by
  rw [asyncSnapshot, collectDevices_error h]
  rfl

/-- The key of a row tells the device. -/
theorem nodup_deviceKeys (reg : Registries) :
    (((reg.devices.filter (isListed reg.entries)).map (deviceRow reg.entries)).map
      DeviceRow.key).Nodup := by
  rw [List.map_map]
  have hids := reg.nodup_devices.sublist ((List.filter_sublist (p := isListed reg.entries)).map _)
  refine List.Nodup.of_map (fun key : Str ×ₗ Str => (ofLex key).2) ?_
  rw [List.map_map]
  exact hids

theorem nodup_entityIds (reg : Registries) :
    (((reg.entities.filter (isEsphomeEntity reg.entries)).map (entityRow reg.states)).map
      EntityRow.entityId).Nodup := by
  rw [List.map_map]
  exact reg.nodup_entities.sublist (List.filter_sublist.map _)

/-! ## Searching -/

theorem depth_jsonOf (value : Option Str) : (jsonOf value).depth = 0 := by
  cases value <;> rfl

theorem depth_strings (items : List Str) : (Json.arr (items.map .str)).depth ≤ 1 := by
  refine Nat.succ_le_succ (Json.depthItems_le fun j hj => ?_)
  obtain ⟨s, -, rfl⟩ := List.mem_map.mp hj
  exact le_rfl

theorem DeviceRow.depth_payload (row : DeviceRow) : row.payload.depth ≤ 3 := by
  refine Nat.succ_le_succ (Json.depthFields_le fun f hf => ?_)
  have hids : (Json.arr (row.identifiers.map fun item => .arr (item.map .str))).depth ≤ 2 := by
    refine Nat.succ_le_succ (Json.depthItems_le fun j hj => ?_)
    obtain ⟨item, -, rfl⟩ := List.mem_map.mp hj
    exact depth_strings item
  have hentries := depth_strings row.configEntries
  have hstates := depth_strings row.configEntryStates
  simp only [List.map_cons, List.map_nil, List.mem_cons, List.not_mem_nil, or_false] at hf
  rcases hf with rfl | rfl | rfl | rfl | rfl | rfl | rfl | rfl | rfl <;>
    simp only [depth_jsonOf, Json.depth] at * <;> omega

theorem EntityRow.depth_payload (row : EntityRow) : row.payload.depth ≤ 3 := by
  refine Nat.succ_le_succ (Json.depthFields_le fun f hf => ?_)
  simp only [List.map_cons, List.map_nil, List.mem_cons, List.not_mem_nil, or_false] at hf
  rcases hf with rfl | rfl | rfl | rfl | rfl | rfl | rfl | rfl <;>
    simp only [depth_jsonOf, Json.depth] <;> omega

section

variable [Runtime] {α : Type} {payload : α → Json} {query : Option Str} {keep : Json → Bool}

/-- A payload that is not nested deeply is searched without an exception. -/
theorem exists_matchesQuery {j : Json} (h : j.depth ≤ 3) (query : Option Str) :
    ∃ b, matchesQuery j query = .ok b := by
  have hlimit := Runtime.recursionLimit_pos
  rw [matchesQuery_eq_textMatches]
  exact exists_textMatches.mpr fun _ => by omega

/-- A row the query matches and the other filters keep. -/
def isFound (payload : α → Json) (query : Option Str) (keep : Json → Bool) (row : α) : Bool :=
  (matchesQuery (payload row) query).toOption = some true && keep (payload row)

theorem isFound_iff {row : α} : isFound payload query keep row = true ↔
    matchesQuery (payload row) query = .ok true ∧ keep (payload row) = true := by
  rw [isFound, Bool.and_eq_true, decide_eq_true_eq]
  refine and_congr_left fun _ => ?_
  cases matchesQuery (payload row) query <;> simp [Except.toOption]

theorem selectRows_cons (row : α) (rows : List α) : selectRows payload query keep (row :: rows) =
    (matchesQuery (payload row) query).bind fun selected =>
      (selectRows payload query keep rows).map fun rest =>
        if selected && keep (payload row) then row :: rest else rest := by
  rw [selectRows]
  cases matchesQuery (payload row) query with
  | error e => rfl
  | ok b => cases selectRows payload query keep rows <;> rfl

theorem selectRows_eq (h : ∀ row, (payload row).depth ≤ 3) (rows : List α) :
    selectRows payload query keep rows = .ok (rows.filter (isFound payload query keep)) := by
  induction rows with
  | nil => rfl
  | cons row rows ih =>
    obtain ⟨b, hb⟩ := exists_matchesQuery (h row) query
    have hfound : isFound payload query keep row = (b && keep (payload row)) := by
      rw [isFound, hb]
      cases b <;> rfl
    rw [selectRows_cons, hb, ih, List.filter_cons, hfound]
    rfl

/-- What a listing takes from the rows of a snapshot. -/
theorem leads_found {κ : Type} [LinearOrder κ] {key : α → κ} {rows : List α}
    (hkeys : (rows.map key).Nodup) (payload : α → Json) (query : Option Str)
    (keep : Json → Bool) (limit : ℕ) :
    Leads key (fun row => row ∈ rows ∧ matchesQuery (payload row) query = .ok true ∧
        keep (payload row) = true) limit
      (((sortedBy key rows).filter (isFound payload query keep)).take limit) := by
  have hordered := (pairwise_sortedBy hkeys).filter (isFound payload query keep)
  refine (leads_take hordered limit).congr fun row => ?_
  rw [List.mem_filter, mem_sortedBy, isFound_iff]

omit [Runtime] in
theorem mem_deviceRows {reg : Registries} (h : reg.IsReadable) {row : DeviceRow} :
    row ∈ (reg.devices.filter (isListed reg.entries)).map (deviceRow reg.entries) ↔
      ∃ device ∈ reg.devices, reg.IsEsphome device ∧ row = deviceRow reg.entries device := by
  simp only [List.mem_map, List.mem_filter]
  refine exists_congr fun device => ?_
  constructor
  · intro hrow
    obtain ⟨⟨hmem, hlisted⟩, rfl⟩ := hrow
    exact ⟨hmem, (isListed_iff (h device hmem)).mp hlisted, rfl⟩
  · intro hrow
    obtain ⟨hmem, hesphome, rfl⟩ := hrow
    exact ⟨⟨hmem, (isListed_iff (h device hmem)).mpr hesphome⟩, rfl⟩

omit [Runtime] in
theorem isEsphomeEntity_iff {reg : Registries} {entity : EntityEntry} :
    isEsphomeEntity reg.entries entity = true ↔ reg.IsEsphomeEntity entity := by
  rw [isEsphomeEntity, Bool.or_eq_true, decide_eq_true_eq]
  refine or_congr_right ?_
  cases hentry : entity.configEntryId with
  | none => simp
  | some entryId => simp [eq_comm]

omit [Runtime] in
theorem mem_entityRows {reg : Registries} {row : EntityRow} :
    row ∈ (reg.entities.filter (isEsphomeEntity reg.entries)).map (entityRow reg.states) ↔
      ∃ entity ∈ reg.entities, reg.IsEsphomeEntity entity ∧ row = entityRow reg.states entity := by
  simp only [List.mem_map, List.mem_filter, isEsphomeEntity_iff, and_assoc]
  refine exists_congr fun entity => and_congr_right fun _ => and_congr_right fun _ => ?_
  exact eq_comm

theorem espListDevices_eq {reg : Registries} (h : reg.IsReadable) (search : DeviceSearch) :
    ∃ rows, espListDevices reg search = .ok (listReply "devices" DeviceRow.payload rows) ∧
      Leads DeviceRow.key (reg.FindsDevice search) (pageLimit search.limit 500) rows := by
  have hleads := leads_found (nodup_deviceKeys reg) DeviceRow.payload search.query search.keeps
    (pageLimit search.limit 500)
  refine ⟨_, ?_, hleads.congr fun row => and_congr_left fun _ => mem_deviceRows h⟩
  rw [espListDevices, asyncSnapshot_eq h]
  show (selectRows _ _ _ _).bind _ = _
  rw [selectRows_eq DeviceRow.depth_payload]
  rfl

theorem espListEntities_eq {reg : Registries} (h : reg.IsReadable) (search : EntitySearch) :
    ∃ rows, espListEntities reg search = .ok (listReply "entities" EntityRow.payload rows) ∧
      Leads EntityRow.entityId (reg.FindsEntity search) (pageLimit search.limit 1000) rows := by
  have hleads := leads_found (nodup_entityIds reg) EntityRow.payload search.query search.keeps
    (pageLimit search.limit 1000)
  refine ⟨_, ?_, hleads.congr fun row => and_congr_left fun _ => mem_entityRows⟩
  rw [espListEntities, asyncSnapshot_eq h]
  show (selectRows _ _ _ _).bind _ = _
  rw [selectRows_eq EntityRow.depth_payload]
  rfl

omit [Runtime] in
/-- A result that is the first of some rows, or an exception, is nothing else. -/
theorem eq_ok_iff_of_leads {κ : Type} [LinearOrder κ] {key : α → κ} {s : α → Prop} {limit : ℕ}
    {name : String} {readable : Prop} {result : Except Err Json}
    (hok : readable → ∃ rows, result = .ok (listReply name payload rows) ∧ Leads key s limit rows)
    (herror : ¬readable → ∃ e, result = .error e) (reply : Json) :
    result = .ok reply ↔
      readable ∧ ∃ rows, Leads key s limit rows ∧ reply = listReply name payload rows := by
  by_cases h : readable
  · obtain ⟨rows, hreply, hleads⟩ := hok h
    rw [hreply, and_iff_right h, Except.ok.injEq]
    constructor
    · intro he
      exact ⟨rows, hleads, he.symm⟩
    · intro hrows
      obtain ⟨rows', hleads', rfl⟩ := hrows
      rw [hleads.unique hleads']
  · obtain ⟨e, he⟩ := herror h
    rw [he]
    exact iff_of_false nofun fun hreply => h hreply.1

/-- A listing is the first of what it is asked for, and fails only on an empty identifier. -/
theorem listings_eq_ok_iff (reg : Registries) :
    (∀ search reply, espListDevices reg search = .ok reply ↔ reg.IsReadable ∧ ∃ rows,
      Leads DeviceRow.key (reg.FindsDevice search) (pageLimit search.limit 500) rows ∧
        reply = listReply "devices" DeviceRow.payload rows) ∧
    (∀ search reply, espListEntities reg search = .ok reply ↔ reg.IsReadable ∧ ∃ rows,
      Leads EntityRow.entityId (reg.FindsEntity search) (pageLimit search.limit 1000) rows ∧
        reply = listReply "entities" EntityRow.payload rows) := by
  refine ⟨fun search => eq_ok_iff_of_leads (fun h => espListDevices_eq h search) fun h => ?_,
    fun search => eq_ok_iff_of_leads (fun h => espListEntities_eq h search) fun h => ?_⟩
  · refine ⟨.exn .other "list index out of range", ?_⟩
    rw [espListDevices, asyncSnapshot_error h]
    rfl
  · refine ⟨.exn .other "list index out of range", ?_⟩
    rw [espListEntities, asyncSnapshot_error h]
    rfl

end

/-! ## The order of the registries -/

theorem DeviceEntry.nodup_entryIds (device : DeviceEntry) : device.entryIds.Nodup := by
  unfold entryIds
  split
  · next entryId _ =>
    split_ifs
    · cases entryId <;> simp
    · exact List.nodup_nil
  · exact device.nodup_configEntries

theorem DeviceEntry.Same.mem_entryIds {device device' : DeviceEntry} (h : device.Same device')
    (entryId : Str) : entryId ∈ device.entryIds ↔ entryId ∈ device'.entryIds := by
  unfold entryIds
  rw [← h.info]
  split
  · exact .rfl
  · exact h.configEntries entryId

/-- `dict` keeps items whose keys are distinct as they are. -/
theorem dictUpdate_nil {α : Type} {pairs : List (Str × α)} (h : (pairs.map Prod.fst).Nodup) :
    dictUpdate [] pairs = pairs := by
  induction pairs using List.reverseRecOn with
  | nil => rfl
  | append_singleton pairs p ih =>
    rw [List.map_append, List.nodup_append] at h
    have hp : p.1 ∉ pairs.map Prod.fst := fun hm => h.2.2 _ hm _ (by simp) rfl
    have hpairs := ih h.1
    rw [dictUpdate] at hpairs ⊢
    rw [List.foldl_append, hpairs]
    exact dictSet_of_not_mem p.2 hp

theorem dictGet?_entryStates {reg : Registries} {entryId state : Str} :
    dictGet? (entryStates reg.entries) entryId = some state ↔
      ∃ entry ∈ reg.entries, entry.entryId = entryId ∧ entry.state = state := by
  have hkeys :
      ((reg.entries.map fun entry => (entry.entryId, entry.state)).map Prod.fst).Nodup := by
    rw [List.map_map]
    exact reg.nodup_entries
  rw [entryStates, dictUpdate_nil hkeys]
  constructor
  · intro h
    obtain ⟨entry, hmem, he⟩ := List.mem_map.mp (mem_of_dictGet? h)
    exact ⟨entry, hmem, congrArg Prod.fst he, congrArg Prod.snd he⟩
  · intro h
    obtain ⟨entry, hmem, rfl, rfl⟩ := h
    exact dictGet?_of_mem hkeys (List.mem_map_of_mem hmem)

namespace Registries.Same

variable {reg reg' : Registries}

theorem dictGet?_entryStates (h : reg.Same reg') (entryId : Str) :
    dictGet? (entryStates reg.entries) entryId = dictGet? (entryStates reg'.entries) entryId := by
  ext state
  rw [Server.dictGet?_entryStates, Server.dictGet?_entryStates]
  exact exists_congr fun entry => and_congr_left fun _ => h.entries entry

theorem hasEntry (h : reg.Same reg') {device device' : DeviceEntry} (hd : device.Same device') :
    reg.HasEntry device ↔ reg'.HasEntry device' :=
  exists_congr fun entry => and_congr (h.entries entry) (hd.mem_entryIds entry.entryId)

theorem isEsphome (h : reg.Same reg') {device device' : DeviceEntry} (hd : device.Same device') :
    reg.IsEsphome device ↔ reg'.IsEsphome device' :=
  or_congr (h.hasEntry hd) (exists_congr fun _ => hd.identifiers _)

/-- Sorting forgets the order of the device's sets. -/
theorem deviceRow (h : reg.Same reg') {device device' : DeviceEntry} (hd : device.Same device') :
    Server.deviceRow reg.entries device = Server.deviceRow reg'.entries device' := by
  have hentries : sorted device.entryIds = sorted device'.entryIds :=
    sorted_congr device.nodup_entryIds device'.nodup_entryIds hd.mem_entryIds
  have hshared : sorted (device.entryIds.filter (· ∈ reg.entries.map ConfigEntry.entryId)) =
      sorted (device'.entryIds.filter (· ∈ reg'.entries.map ConfigEntry.entryId)) := by
    refine sorted_congr (device.nodup_entryIds.filter _) (device'.nodup_entryIds.filter _)
      fun entryId => ?_
    simp only [List.mem_filter, decide_eq_true_eq, List.mem_map, hd.mem_entryIds entryId, h.entries]
  have hids : sorted device.identifiers = sorted device'.identifiers :=
    sorted_congr device.nodup_identifiers device'.nodup_identifiers hd.identifiers
  unfold Server.deviceRow
  rw [hd.info, hentries, hshared, hids]
  congr 2
  funext entryId
  exact h.dictGet?_entryStates entryId

theorem isReadable (h : reg.Same reg') : reg.IsReadable ↔ reg'.IsReadable := by
  constructor
  · intro hread device' hmem'
    obtain ⟨device, hmem, hd⟩ := h.devices' device' hmem'
    exact (hread device hmem).imp (h.hasEntry hd).mp fun hnil hmem =>
      hnil ((hd.identifiers _).mpr hmem)
  · intro hread device hmem
    obtain ⟨device', hmem', hd⟩ := h.devices device hmem
    exact (hread device' hmem').imp (h.hasEntry hd).mpr fun hnil hmem =>
      hnil ((hd.identifiers _).mp hmem)

theorem deviceRows (h : reg.Same reg') (row : DeviceRow) :
    (∃ device ∈ reg.devices, reg.IsEsphome device ∧ row = Server.deviceRow reg.entries device) ↔
      ∃ device ∈ reg'.devices, reg'.IsEsphome device ∧
        row = Server.deviceRow reg'.entries device := by
  constructor
  · intro hrow
    obtain ⟨device, hmem, hesphome, rfl⟩ := hrow
    obtain ⟨device', hmem', hd⟩ := h.devices device hmem
    exact ⟨device', hmem', (h.isEsphome hd).mp hesphome, h.deviceRow hd⟩
  · intro hrow
    obtain ⟨device', hmem', hesphome, rfl⟩ := hrow
    obtain ⟨device, hmem, hd⟩ := h.devices' device' hmem'
    exact ⟨device, hmem, (h.isEsphome hd).mpr hesphome, (h.deviceRow hd).symm⟩

theorem entityRows (h : reg.Same reg') (row : EntityRow) :
    (∃ entity ∈ reg.entities, reg.IsEsphomeEntity entity ∧ row = entityRow reg.states entity) ↔
      ∃ entity ∈ reg'.entities, reg'.IsEsphomeEntity entity ∧
        row = entityRow reg'.states entity := by
  rw [h.states]
  refine exists_congr fun entity => and_congr (h.entities entity) (and_congr_left fun _ => ?_)
  exact or_congr_right (exists_congr fun entry => and_congr_left fun _ => h.entries entry)

/-- The snapshots differ in the order of the config entries at most. -/
theorem asyncSnapshot (h : reg.Same reg') (hread : reg.IsReadable) : ∃ entries entries' devices
    entities, Server.asyncSnapshot reg = .ok ⟨entries, devices, entities⟩ ∧
      Server.asyncSnapshot reg' = .ok ⟨entries', devices, entities⟩ ∧
      entries.length = entries'.length := by
  have hdevices := sortedBy_congr (nodup_deviceKeys reg) (nodup_deviceKeys reg') fun row => by
    rw [mem_deviceRows hread, mem_deviceRows (h.isReadable.mp hread)]
    exact h.deviceRows row
  have hentities := sortedBy_congr (nodup_entityIds reg) (nodup_entityIds reg') fun row => by
    rw [mem_entityRows, mem_entityRows]
    exact h.entityRows row
  have hentries : reg.entries.Perm reg'.entries :=
    (List.perm_ext_iff_of_nodup (reg.nodup_entries.of_map _) (reg'.nodup_entries.of_map _)).mpr
      h.entries
  refine ⟨_, _, _, _, asyncSnapshot_eq hread, ?_, hentries.length_eq⟩
  rw [asyncSnapshot_eq (h.isReadable.mp hread), ← hdevices, ← hentities]

end Registries.Same

/-- Nothing that is reported depends on the order in which registries and sets are gone through. -/
theorem listings_of_same [Runtime] {reg reg' : Registries} (h : reg.Same reg') :
    (∀ search, espListDevices reg search = espListDevices reg' search) ∧
    (∀ search, espListEntities reg search = espListEntities reg' search) ∧
    ∀ fastmcpVersion, asyncOverview reg fastmcpVersion = asyncOverview reg' fastmcpVersion := by
  by_cases hread : reg.IsReadable
  · obtain ⟨entries, entries', devices, entities, hsnapshot, hsnapshot', hlen⟩ :=
      h.asyncSnapshot hread
    refine ⟨fun search => ?_, fun search => ?_, fun fastmcpVersion => ?_⟩
    · rw [espListDevices, espListDevices, hsnapshot, hsnapshot']
      rfl
    · rw [espListEntities, espListEntities, hsnapshot, hsnapshot']
      rfl
    · rw [asyncOverview, asyncOverview, hsnapshot, hsnapshot']
      simp only [bind, Except.bind, hlen]
  · have herror := asyncSnapshot_error hread
    have herror' := asyncSnapshot_error fun hread' => hread (h.isReadable.mpr hread')
    refine ⟨fun search => ?_, fun search => ?_, fun fastmcpVersion => ?_⟩
    · rw [espListDevices, espListDevices, herror, herror']
    · rw [espListEntities, espListEntities, herror, herror']
    · rw [asyncOverview, asyncOverview, herror, herror']

/-- A device with two identifiers. -/
def lamp (id : Str) (identifiers : List (List Str)) (h : identifiers.Nodup) : DeviceEntry :=
  ⟨⟨id, none, none, none, none, none, none, none⟩, [], identifiers, List.nodup_nil, h⟩

/-- Two devices, as they are gone through. -/
def lamps (devices : List DeviceEntry)
    (h : (devices.map fun device => device.info.id).Nodup) : Registries :=
  ⟨[], devices, [], fun _ => none, List.nodup_nil, h, List.nodup_nil⟩

theorem listings_of_same_lamps :
    letI := asciiRuntime
    let a := lamp "a" [["esphome", "1"], ["other", "2"]] (by decide)
    let a' := lamp "a" [["other", "2"], ["esphome", "1"]] (by decide)
    let b := lamp "b" [["esphome", "3"]] (by decide)
    ∀ search, espListDevices (lamps [a, b] (by decide)) search =
      espListDevices (lamps [b, a'] (by decide)) search := by
  let := asciiRuntime
  intro a a' b
  have ha : a.Same a' := ⟨rfl, fun _ => .rfl, fun item => by simp [a, a', lamp, or_comm]⟩
  have hb : b.Same b := ⟨rfl, fun _ => .rfl, fun _ => .rfl⟩
  have hsame : (lamps [a, b] (by decide)).Same (lamps [b, a'] (by decide)) := by
    refine ⟨fun _ => .rfl, ?_, ?_, fun _ => .rfl, rfl⟩
    · exact List.forall_mem_cons.mpr ⟨⟨a', by simp [lamps], ha⟩,
        List.forall_mem_cons.mpr ⟨⟨b, by simp [lamps], hb⟩, nofun⟩⟩
    · exact List.forall_mem_cons.mpr ⟨⟨b, by simp [lamps], hb⟩,
        List.forall_mem_cons.mpr ⟨⟨a, by simp [lamps], ha⟩, nofun⟩⟩
  exact (listings_of_same hsame).1

end EsphomeMcp.Server
