import EsphomeMcp.Python.JsonIndent
import EsphomeMcp.Python.JsonMap
import EsphomeMcp.Python.World

/-!
# What a diagnostics artifact holds

`redact_diagnostics_secrets.py`, which is run over the diagnostics of a test system before they are
uploaded. In every `storage.tar` it replaces the credentials of the configuration entries; a tar
that it cannot rewrite, for whatever reason and at whatever point, is deleted.

* `censor` says what is replaced, and `redactConfigEntries` replaces that;
* `Redacted` compares a member of a tar with what it becomes, its text read back;
* `main_redacts` is about the whole directory, with any call failing at any time.

The script sees the files that `rglob` lists, which leaves out a directory that it may not read
without a word. A member whose header does not come back as it was written is not plain (`IsPlain`),
and nothing is known of a tar after such a member was added to it.
-/

namespace EsphomeMcp.Diagnostics

open Py Py.Prog

/-! ## Configuration entries -/

/-- What a call raises: an `Exception`, or something that is none. -/
inductive Raised where
  | exception
  | exit
deriving DecidableEq

/-- `SECRET_KEYS`. -/
def secretKeys : List Str :=
  [str "token", str "access_token", str "refresh_token", str "client_secret", str "password",
    str "api_key"]

/-- `CONFIG_ENTRIES_MEMBERS`. -/
def configEntriesMembers : List Str := [str "./core.config_entries", str "core.config_entries"]

/-- `REDACTED`. -/
def redacted : Str := str "**REDACTED**"

/-- `key in SECRET_KEYS and isinstance(value, str) and value`. -/
def isCredential (key : Str) (value : Json) : Bool :=
  match value with
  | .str s => key ∈ secretKeys && s ≠ []
  | _ => false

/-- The loop over `data.items()`, with the count. -/
def redactData : Dict → Dict × ℕ
  | [] => ([], 0)
  | (key, value) :: data =>
    let (rest, n) := redactData data
    if isCredential key value then ((key, .str redacted) :: rest, n + 1)
    else ((key, value) :: rest, n)

/-- One turn of the loop over the entries. -/
def redactEntry (entry : Json) : Except Raised (Json × ℕ) :=
  match entry with
  | .obj fields =>
    match dictGet fields (str "data") with
    | .obj data =>
      .ok (.obj (dictSet (str "data") (.obj (redactData data).1) fields), (redactData data).2)
    | _ => .ok (entry, 0)
  | _ => .error .exception

/-- The loop over the entries. -/
def redactEntries : List Json → Except Raised (List Json × ℕ)
  | [] => .ok ([], 0)
  | entry :: entries => do
    let (entry, n) ← redactEntry entry
    let (entries, m) ← redactEntries entries
    return (entry :: entries, n + m)

/-- `redact_config_entries`, with the document it leaves behind. -/
def redactConfigEntries (doc : Json) : Except Raised (Json × ℕ) :=
  match doc with
  | .obj fields =>
    match (dictGet? fields (str "data")).getD (.obj []) with
    | .obj data =>
      match (dictGet? data (str "entries")).getD (.arr []) with
      | .arr entries => do
        let (entries, n) ← redactEntries entries
        if dictHas data (str "entries") then
          return (.obj (dictSet (str "data")
            (.obj (dictSet (str "entries") (.arr entries) data)) fields), n)
        else return (doc, 0)
      -- an empty dict and an empty string have nothing to iterate over
      | .obj [] => .ok (doc, 0)
      | .str [] => .ok (doc, 0)
      | _ => .error .exception
    | _ => .error .exception
  | _ => .error .exception

/-! ## The tar -/

/-- The type of a member, as far as `tarfile` handles it differently. -/
inductive TarType where
  /-- `REGTYPE`, `AREGTYPE` and `CONTTYPE`. -/
  | regular
  /-- `GNUTYPE_SPARSE`, or any file with `GNU.sparse` records. -/
  | sparse
  /-- A directory, a link, a device or a FIFO: the header has no data behind it. -/
  | dataless
  /-- A type that `tarfile` does not know, whose data it skips. -/
  | unknown
deriving DecidableEq

/-- What the script reads and writes of a `TarInfo`. -/
structure TarInfo where
  name : Str
  type : TarType
  size : ℕ
  /-- The `size` record in `pax_headers`, which goes before the size when the member is read. -/
  paxSize : Option ℕ
deriving DecidableEq

/-- `info.isfile()`. -/
def TarInfo.isfile (info : TarInfo) : Bool := info.type = .regular || info.type = .sparse

/-- A member that is read as it was written. A sparse file is written whole behind a header without
its map, the data of an unknown type are not written, and a `size` record outlives a new size. -/
structure TarInfo.IsPlain (info : TarInfo) : Prop where
  type : info.type = .regular ∨ info.type = .dataless
  paxSize : info.paxSize = none

/-- A member of a tar, with the data of a regular file. -/
structure Member where
  info : TarInfo
  data : Bytes
deriving DecidableEq

/-- The data of a regular file is as long as its header says. -/
def Member.WellFormed (m : Member) : Prop := m.info.isfile = true → m.data.length = m.info.size

/-- `tf.addfile(info, io.BytesIO(payload))` or `tf.addfile(info, None)` of a plain member: the header,
and as many bytes as it says; `none` when they run out. -/
def addfile (info : TarInfo) (payload : Option Bytes) : Option Member :=
  match payload with
  | none => some ⟨info, []⟩
  | some payload => if info.size ≤ payload.length then some ⟨info, payload.take info.size⟩ else none

section

variable [Runtime] (dumpsLimit : ℕ)

/-- The new text of a config-entries file, and the count. -/
def redactPayload (payload : Bytes) : Except Raised (Bytes × ℕ) :=
  match decodeUtf8 payload with
  | none => .error .exception
  | some text => do
    let doc ← (loads text).mapError fun _ => .exception
    let (doc, n) ← redactConfigEntries doc
    let text ← (dumpsIndented dumpsLimit 2 doc).mapError fun _ => .exception
    match encodeUtf8 text with
    | none => .error .exception
    | some payload => .ok (payload, n)

/-- One turn of the loop over `tf.getmembers()`. -/
def redactMember (m : Member) : Except Raised ((TarInfo × Option Bytes) × ℕ) :=
  if m.info.isfile then
    if m.info.name ∈ configEntriesMembers then do
      let (payload, n) ← redactPayload dumpsLimit m.data
      return (({ m.info with size := payload.length }, some payload), n)
    else .ok ((m.info, some m.data), 0)
  else .ok ((m.info, none), 0)

/-- The loop over `tf.getmembers()`. -/
def redactMembers : List Member → Except Raised (List (TarInfo × Option Bytes) × ℕ)
  | [] => .ok ([], 0)
  | m :: ms => do
    let (entry, n) ← redactMember dumpsLimit m
    let (entries, k) ← redactMembers ms
    return (entry :: entries, n + k)

end

/-! ## The script -/

/-- What the script prints. -/
inductive Line where
  | usage
  | missing
  | done (path : Str) (count : ℕ)
  | failed (path : Str)
deriving DecidableEq

/-- The calls of the script. -/
inductive Cmd where
  | isDir
  /-- `sorted(root.rglob("storage.tar"))`: what it lists, which need not be all there is. -/
  | rglob
  /-- `tarfile.open(path, "r")` with every member read. -/
  | readTar (path : Str)
  /-- `tarfile.open(path, "w")` with every member added. -/
  | writeTar (path : Str) (members : List (TarInfo × Option Bytes))
  /-- `path.unlink(missing_ok=True)`. -/
  | unlink (path : Str)
  | print (line : Line)

/-- Their answers. -/
@[reducible] def Cmd.Ans : Cmd → Type
  | .isDir => Bool
  | .rglob => List Str
  | .readTar _ => List Member
  | .writeTar _ _ | .unlink _ | .print _ => Unit

/-- The calls, as a signature. -/
abbrev calls : Signature := ⟨Cmd, Cmd.Ans⟩

/-- A part of the script. -/
abbrev Script (α : Type) := Prog calls Raised α

/-- One call. -/
def call (c : Cmd) : Script c.Ans := @perform calls Raised c

section

variable [Runtime] (dumpsLimit : ℕ)

/-- `redact_storage_tar`. -/
def redactStorageTar (tarPath : Str) : Script ℕ := do
  let members ← call (.readTar tarPath)
  let (members, total) ← ofExcept (redactMembers dumpsLimit members)
  call (.writeTar tarPath members)
  return total

/-- One turn of the loop of `main`. -/
def redactOne (tarPath : Str) : Script Unit := do
  let result ← attempt do
    let count ← redactStorageTar dumpsLimit tarPath
    call (.print (.done tarPath count))
  match result with
  | .ok _ => return ()
  | .error .exception => do
    call (.unlink tarPath)
    call (.print (.failed tarPath))
  | .error .exit => raise .exit

/-- The loop of `main`. -/
def redactEach : List Str → Script Unit
  | [] => return ()
  | tarPath :: tarPaths => do
    redactOne dumpsLimit tarPath
    redactEach tarPaths

/-- `main`, whose second argument is the directory. -/
def main (argv : List Str) : Script ℤ := do
  match argv with
  | [_, _] =>
    if !(← call .isDir) then do
      call (.print .missing)
      return 0
    else do
      let tarPaths ← call .rglob
      redactEach dumpsLimit tarPaths
      return 0
  | _ => do
    call (.print .usage)
    return 2

end

/-! ## The directory -/

/-- What a `storage.tar` holds: members that `tarfile` reads, or anything else. -/
inductive Content where
  | tar (members : List Member)
  | other

/-- The directory and the files named `storage.tar` below it, none of them a link, with those that
were listed. -/
structure Directory where
  isDir : Bool
  files : Str → Option Content
  listed : List Str

/-- A file put in the place of another. -/
def Directory.set (w : Directory) (path : Str) (c : Option Content) : Directory :=
  { w with files := Function.update w.files path c }

/-- What a call may answer. Anything may fail, any files may be listed, and a write that fails leaves
anything behind, as does one of a member that is not plain. -/
def handle (w : Directory) (c : Cmd) (r : Except Raised c.Ans) (w' : Directory) : Prop :=
  match c, r with
  | .isDir, .ok b => b = w.isDir ∧ w' = w
  | .rglob, .ok paths => paths.Nodup ∧ w' = { w with listed := paths }
  | .readTar path, .ok members =>
    w.files path = some (.tar members) ∧ (∀ m ∈ members, m.WellFormed) ∧ w' = w
  | .writeTar path members, .ok _ =>
    ∃ c, w' = w.set path (some c) ∧ ((∀ m ∈ members, m.1.IsPlain) →
      ∃ stored, members.mapM (fun m => addfile m.1 m.2) = some stored ∧ c = .tar stored)
  | .writeTar path _, .error _ => ∃ c, w' = w.set path c
  | .unlink path, .ok _ => w' = w.set path none
  | .print _, .ok _ => w' = w
  | _, .error _ => w' = w

/-! ## What is replaced -/

/-- The data of an entry without its credentials. -/
def censorData : Json → Json :=
  Json.mapFields fun key value => if isCredential key value then .str redacted else value

/-- The document without the credentials of its entries. -/
def censor : Json → Json :=
  Json.atKey (str "data") <| Json.atKey (str "entries") <|
    Json.mapItems (Json.atKey (str "data") censorData)

/-- The data of an entry holds a credential. -/
inductive HoldsCredential (doc : Json) (value : Str) : Prop
  | intro {fields data entry entryData : Dict} {entries : List Json} {key : Str} :
    doc = .obj fields → (str "data", .obj data) ∈ fields → (str "entries", .arr entries) ∈ data →
      .obj entry ∈ entries → (str "data", .obj entryData) ∈ entry →
        (key, .str value) ∈ entryData → key ∈ secretKeys → value ≠ [] → HoldsCredential doc value

theorem redactData_fst (data : Dict) : .obj (redactData data).1 = censorData (.obj data) := by
  rw [censorData, Json.mapFields]
  refine congrArg Json.obj ?_
  induction data with
  | nil => rfl
  | cons field data ih =>
    obtain ⟨key, value⟩ := field
    rw [redactData, List.map_cons, ← ih]
    split_ifs <;> rfl

theorem redactEntry_eq [Runtime] {entry entry' : Json} {n : ℕ} (hwf : entry.WellFormed)
    (h : redactEntry entry = .ok (entry', n)) : entry' = Json.atKey (str "data") censorData entry := by
  cases hwf with
  | null | bool | int | float | str | arr => cases h
  | obj fields hkeys hfields =>
    rw [redactEntry] at h
    cases hget : dictGet? fields (str "data") with
    | none =>
      have hnone : dictGet fields (str "data") = .null := by rw [dictGet, hget]; rfl
      rw [hnone] at h
      obtain rfl := (Prod.ext_iff.mp (Except.ok.inj h)).1
      exact (Json.atKey_eq_self hkeys fun v hv => by rw [hget] at hv; cases hv).symm
    | some value =>
      have hsome : dictGet fields (str "data") = value := by rw [dictGet, hget]; rfl
      rw [hsome] at h
      cases value with
      | obj data =>
        obtain rfl := (Prod.ext_iff.mp (Except.ok.inj h)).1
        rw [Json.atKey_obj hkeys hget, redactData_fst]
      | null | bool | int | float | str | arr =>
        obtain rfl := (Prod.ext_iff.mp (Except.ok.inj h)).1
        refine (Json.atKey_eq_self hkeys fun v hv => ?_).symm
        obtain rfl := Option.some.inj (hget.symm.trans hv)
        rfl

theorem redactEntries_eq [Runtime] {entries entries' : List Json} {n : ℕ}
    (hwf : ∀ entry ∈ entries, entry.WellFormed)
    (h : redactEntries entries = .ok (entries', n)) :
    entries' = entries.map (Json.atKey (str "data") censorData) := by
  induction entries generalizing entries' n with
  | nil =>
    obtain rfl := (Prod.ext_iff.mp (Except.ok.inj h)).1
    rfl
  | cons entry entries ih =>
    rw [List.forall_mem_cons] at hwf
    obtain ⟨⟨entry', m⟩, hentry, h⟩ := except_bind_eq_ok h
    obtain ⟨⟨rest, k⟩, hrest, h⟩ := except_bind_eq_ok h
    obtain rfl := (Prod.ext_iff.mp (Except.ok.inj h)).1
    rw [List.map_cons, redactEntry_eq hwf.1 hentry, ih hwf.2 hrest]

/-- The document is left with its credentials replaced. -/
theorem redactConfigEntries_eq [Runtime] {doc doc' : Json} {n : ℕ} (hwf : doc.WellFormed)
    (h : redactConfigEntries doc = .ok (doc', n)) : doc' = censor doc := by
  cases hwf with
  | null | bool | int | float | str | arr => cases h
  | obj fields hkeys hfields =>
    rw [redactConfigEntries] at h
    cases hdata : dictGet? fields (str "data") with
    | none =>
      rw [hdata] at h
      obtain rfl := (Prod.ext_iff.mp (Except.ok.inj h)).1
      exact (Json.atKey_eq_self hkeys fun v hv => by rw [hdata] at hv; cases hv).symm
    | some v =>
      rw [hdata, Option.getD_some] at h
      cases hfields _ (mem_of_dictGet? hdata) with
      | null | bool | int | float | str | arr => cases h
      | obj data hdataKeys hdataFields =>
        -- the document is as it was, unless there are entries
        have hsame (hentries : ∀ v, dictGet? data (str "entries") = some v →
            Json.mapItems (Json.atKey (str "data") censorData) v = v) :
            censor (.obj fields) = .obj fields := by
          refine Json.atKey_eq_self hkeys fun v hv => ?_
          obtain rfl := Option.some.inj (hdata.symm.trans hv)
          exact Json.atKey_eq_self hdataKeys hentries
        dsimp only at h
        cases hentries : dictGet? data (str "entries") with
        | none =>
          rw [hentries, Option.getD_none] at h
          obtain ⟨p, hp, h⟩ := except_bind_eq_ok h
          rw [dictHas, hentries] at h
          obtain rfl := (Prod.ext_iff.mp (Except.ok.inj h)).1
          exact (hsame fun v hv => by rw [hentries] at hv; cases hv).symm
        | some v =>
          rw [hentries, Option.getD_some] at h
          have hsome (w : Json) (hw : dictGet? data (str "entries") = some w) : w = v :=
            Option.some.inj (hw.symm.trans hentries)
          cases hdataFields _ (mem_of_dictGet? hentries) with
          | null | bool | int | float => cases h
          | str s =>
            cases s with
            | cons => cases h
            | nil =>
              obtain rfl := (Prod.ext_iff.mp (Except.ok.inj h)).1
              exact (hsame fun w hw => by rw [hsome w hw]; rfl).symm
          | obj inner =>
            cases inner with
            | cons => cases h
            | nil =>
              obtain rfl := (Prod.ext_iff.mp (Except.ok.inj h)).1
              exact (hsame fun w hw => by rw [hsome w hw]; rfl).symm
          | arr entries hitems =>
            obtain ⟨⟨entries', m⟩, hrun, h⟩ := except_bind_eq_ok h
            rw [dictHas, hentries, Option.isSome_some, if_pos rfl] at h
            obtain rfl := (Prod.ext_iff.mp (Except.ok.inj h)).1
            rw [censor, Json.atKey_obj hkeys hdata, Json.atKey_obj hdataKeys hentries,
              redactEntries_eq hitems hrun]
            rfl

/-- No credential is left but the mark that stands for one. -/
theorem eq_redacted_of_holdsCredential {doc : Json} {value : Str}
    (h : HoldsCredential (censor doc) value) : value = redacted := by
  obtain ⟨hdoc, hdata, hentries, hentry, hentryData, hvalue, hkey, hne⟩ := h
  obtain ⟨_, hdata⟩ := Json.exists_of_mem_atKey hdoc hdata
  obtain ⟨_, hentries⟩ := Json.exists_of_mem_atKey hdata hentries
  obtain ⟨_, hentry⟩ := Json.exists_of_mem_mapItems hentries hentry
  obtain ⟨_, hentryData⟩ := Json.exists_of_mem_atKey hentry hentryData
  obtain ⟨w, hw⟩ := Json.exists_of_mem_mapFields hentryData hvalue
  split_ifs at hw with hcredential
  · exact (Json.str.inj hw).symm
  · -- what was left alone is no credential
    subst hw
    exact absurd (by simp [isCredential, hkey, hne]) hcredential

/-! ## The text -/

/-- A payload is the text of a document. -/
def Reads [Runtime] (payload : Bytes) (doc : Json) : Prop :=
  ∃ text, decodeUtf8 payload = some text ∧ loads text = .ok doc

section

variable [Runtime] {dumpsLimit : ℕ}

theorem wellFormed_censor {doc : Json} (h : doc.WellFormed) : (censor doc).WellFormed := by
  have hdata (v : Json) (hv : v.WellFormed) : (censorData v).WellFormed := by
    refine Json.wellFormed_mapFields (fun key w hw => ?_) hv
    split_ifs
    · exact .str _
    · exact hw
  exact Json.wellFormed_atKey (fun v hv => Json.wellFormed_atKey (fun w hw =>
    Json.wellFormed_mapItems (fun _ => Json.wellFormed_atKey hdata) hw) hv) h

omit [Runtime] in
theorem depth_censor_le (doc : Json) : (censor doc).depth ≤ doc.depth := by
  have hdata (v : Json) : (censorData v).depth ≤ v.depth := by
    refine Json.depth_mapFields_le fun key w => ?_
    split_ifs
    · exact Nat.zero_le _
    · exact le_rfl
  exact Json.depth_atKey_le fun v => Json.depth_atKey_le fun w =>
    Json.depth_mapItems_le fun u => Json.depth_atKey_le hdata

omit [Runtime] in
/-- Joining split pairs makes and unmakes no credential. -/
theorem isCredential_rejoin (key : Str) (value : Json) :
    isCredential (rejoinStr key) value.rejoin = isCredential key value := by
  cases value with
  | null | bool | int | float | arr | obj => rfl
  | str s =>
    have hascii : ∀ k ∈ secretKeys, ∀ c ∈ k, isAscii c = true := by
      have hall : (secretKeys.all fun k => k.all isAscii) = true := rfl
      exact fun k hk => List.all_eq_true.mp (List.all_eq_true.mp hall k hk)
    have hkey : rejoinStr key ∈ secretKeys ↔ key ∈ secretKeys := by
      constructor
      · intro h
        have heq := (Json.rejoinStr_eq_iff (hascii _ h)).mp rfl
        rwa [← heq] at h
      · intro h
        rwa [rejoinStr_ascii (hascii key h)]
    have hempty : rejoinStr s = [] ↔ s = [] := Json.rejoinStr_eq_iff (by simp)
    simp only [isCredential, Json.rejoin, hkey, ne_eq, hempty]

omit [Runtime] in
theorem rejoin_censor (doc : Json) : (censor doc).rejoin = censor doc.rejoin := by
  have hdata (v : Json) : (censorData v).rejoin = censorData v.rejoin := by
    refine Json.rejoin_mapFields fun key w => ?_
    rw [isCredential_rejoin]
    split_ifs
    · rfl
    · rfl
  have hdataKey : ∀ c ∈ str "data", isAscii c = true := List.all_eq_true.mp rfl
  have hentriesKey : ∀ c ∈ str "entries", isAscii c = true := List.all_eq_true.mp rfl
  exact Json.rejoin_atKey hdataKey fun v => Json.rejoin_atKey hentriesKey fun w =>
    Json.rejoin_mapItems fun u => Json.rejoin_atKey hdataKey hdata

theorem loads_wellFormed {text : Str} {doc : Json} (h : loads text = .ok doc) :
    doc.WellFormed ∧ doc.depth ≤ recursionLimit := by
  rw [loads, loadsWith] at h
  split_ifs at h
  exact decodeJson_wellFormed h

/-- An indented text is read back. -/
theorem loads_indented {doc : Json} (hwf : doc.WellFormed) (hdepth : doc.depth ≤ recursionLimit) :
    loads (indentedText 2 0 doc) = .ok doc.rejoin := by
  have hstart := startsValue_indentedText 2 hwf 0
  -- a text that starts with a byte order mark would be refused
  have hbom : (indentedText 2 0 doc).head? ≠ some (codePoint 0xFEFF) := by
    intro h
    exact absurd (isLayout_indentedText hwf 0 _ (List.mem_of_mem_head? h)) (by decide)
  have hscan := scanValue_indentedText 2 hwf hdepth 0 stopsNumber_nil
  have hskip := hstart.append []
  rw [List.append_nil] at hscan
  rw [List.append_nil] at hskip
  rw [loads, loadsWith, if_neg hbom, decodeJson, hskip.skipSpace, hscan]
  rfl

/-- The new text of a config-entries file reads as the document without its credentials. -/
theorem reads_redactPayload {payload payload' : Bytes} {n : ℕ}
    (h : redactPayload dumpsLimit payload = .ok (payload', n)) :
    ∃ doc, Reads payload doc ∧ Reads payload' (censor doc.rejoin) := by
  rw [redactPayload] at h
  cases hdecode : decodeUtf8 payload with
  | none =>
    rw [hdecode] at h
    cases h
  | some text =>
    rw [hdecode] at h
    obtain ⟨doc, hdoc, h⟩ := except_bind_eq_ok h
    obtain ⟨⟨doc', m⟩, hredact, h⟩ := except_bind_eq_ok h
    obtain ⟨out, hdumps, hpayload⟩ := except_bind_eq_ok h
    have hload : loads text = .ok doc := by
      cases hload : loads text with
      | error e => simp [hload, Except.mapError] at hdoc
      | ok d => simpa [hload, Except.mapError] using hdoc
    obtain ⟨hwf, hdepth⟩ := loads_wellFormed hload
    obtain rfl := redactConfigEntries_eq hwf hredact
    have hout : out = indentedText 2 0 (censor doc) := by
      rw [dumpsIndented] at hdumps
      split_ifs at hdumps
      · exact (Except.ok.inj hdumps).symm
      · cases hdumps
    have hwf' := wellFormed_censor hwf
    have hascii : ∀ c ∈ out, isAscii c = true := by
      intro c hc
      rw [hout] at hc
      have hlayout := isLayout_indentedText hwf' 0 c hc
      rw [isLayout, Bool.or_eq_true, decide_eq_true_eq] at hlayout
      rcases hlayout with hprintable | rfl
      · exact isAscii_of_isPrintable hprintable
      · decide
    have hbytes : payload' = out.map fun c => byte c.val := by
      cases hencode : encodeUtf8 out with
      | none =>
        rw [hencode] at hpayload
        cases hpayload
      | some raw =>
        rw [hencode] at hpayload
        obtain rfl := (Prod.ext_iff.mp (Except.ok.inj hpayload)).1
        rw [encodeUtf8] at hencode
        split_ifs at hencode
        rw [← Option.some.inj hencode, flatMap_utf8Char_ascii hascii]
    refine ⟨doc, ⟨text, hdecode, hload⟩, out, ?_, ?_⟩
    · rw [hbytes, decodeUtf8_ascii hascii]
    · rw [hout, loads_indented hwf' ((depth_censor_le doc).trans hdepth), rejoin_censor]

/-! ## The members -/

/-- What a member of a tar becomes. A config-entries file reads as its document without the
credentials, and holds none; any other file is the same. A document read from UTF-8 has no split
pairs to join. -/
structure Redacted (m m' : Member) : Prop where
  name : m'.info.name = m.info.name
  type : m'.info.type = m.info.type
  entries : m.info.isfile = true → m.info.name ∈ configEntriesMembers →
    ∃ doc doc', Reads m.data doc ∧ Reads m'.data doc' ∧ doc' = censor doc.rejoin ∧
      ∀ value, HoldsCredential doc' value → value = redacted
  other : m.info.isfile = true → m.info.name ∉ configEntriesMembers → m'.data = m.data

theorem redacted_of_redactMember {m m' : Member} {entry : TarInfo × Option Bytes} {n : ℕ}
    (hwf : m.WellFormed) (h : redactMember dumpsLimit m = .ok (entry, n))
    (hadd : addfile entry.1 entry.2 = some m') : Redacted m m' := by
  rw [redactMember] at h
  split_ifs at h with hfile hname
  · obtain ⟨⟨payload, k⟩, hpayload, h⟩ := except_bind_eq_ok h
    obtain rfl := (Prod.ext_iff.mp (Except.ok.inj h)).1
    -- the header has the new length
    simp only [addfile, le_refl, if_true, List.take_length, Option.some.injEq] at hadd
    subst hadd
    obtain ⟨doc, hold, hnew⟩ := reads_redactPayload hpayload
    exact ⟨rfl, rfl, fun _ _ => ⟨doc, _, hold, hnew, rfl, fun _ =>
      eq_redacted_of_holdsCredential⟩, fun _ h => absurd hname h⟩
  · obtain rfl := (Prod.ext_iff.mp (Except.ok.inj h)).1
    rw [addfile, if_pos (hwf hfile).ge, ← hwf hfile, List.take_length] at hadd
    obtain rfl := Option.some.inj hadd
    exact ⟨rfl, rfl, fun _ h => absurd h hname, fun _ _ => rfl⟩
  · obtain rfl := (Prod.ext_iff.mp (Except.ok.inj h)).1
    simp only [addfile, Option.some.injEq] at hadd
    subst hadd
    exact ⟨rfl, rfl, fun h => absurd h hfile, fun h => absurd h hfile⟩

/-- A plain member stays plain. -/
theorem isPlain_of_redactMember {m : Member} {entry : TarInfo × Option Bytes} {n : ℕ}
    (hplain : m.info.IsPlain) (h : redactMember dumpsLimit m = .ok (entry, n)) :
    entry.1.IsPlain := by
  rw [redactMember] at h
  split_ifs at h
  · obtain ⟨⟨payload, k⟩, -, h⟩ := except_bind_eq_ok h
    obtain rfl := (Prod.ext_iff.mp (Except.ok.inj h)).1
    exact ⟨hplain.type, hplain.paxSize⟩
  all_goals
    obtain rfl := (Prod.ext_iff.mp (Except.ok.inj h)).1
    exact hplain

theorem isPlain_of_redactMembers {ms : List Member} {entries : List (TarInfo × Option Bytes)}
    {n : ℕ} (hplain : ∀ m ∈ ms, m.info.IsPlain)
    (h : redactMembers dumpsLimit ms = .ok (entries, n)) : ∀ e ∈ entries, e.1.IsPlain := by
  induction ms generalizing entries n with
  | nil =>
    obtain rfl := (Prod.ext_iff.mp (Except.ok.inj h)).1
    simp
  | cons m ms ih =>
    rw [List.forall_mem_cons] at hplain
    obtain ⟨⟨entry, k⟩, hentry, h⟩ := except_bind_eq_ok h
    obtain ⟨⟨rest, l⟩, hrest, h⟩ := except_bind_eq_ok h
    obtain rfl := (Prod.ext_iff.mp (Except.ok.inj h)).1
    rw [List.forall_mem_cons]
    exact ⟨isPlain_of_redactMember hplain.1 hentry, ih hplain.2 hrest⟩

theorem redacted_of_redactMembers {ms stored : List Member}
    {entries : List (TarInfo × Option Bytes)} {n : ℕ} (hwf : ∀ m ∈ ms, m.WellFormed)
    (h : redactMembers dumpsLimit ms = .ok (entries, n))
    (hadd : entries.mapM (fun e => addfile e.1 e.2) = some stored) :
    List.Forall₂ Redacted ms stored := by
  induction ms generalizing entries stored n with
  | nil =>
    obtain rfl := (Prod.ext_iff.mp (Except.ok.inj h)).1
    obtain rfl := Option.some.inj hadd
    exact .nil
  | cons m ms ih =>
    rw [List.forall_mem_cons] at hwf
    obtain ⟨⟨entry, k⟩, hentry, h⟩ := except_bind_eq_ok h
    obtain ⟨⟨rest, l⟩, hrest, h⟩ := except_bind_eq_ok h
    obtain rfl := (Prod.ext_iff.mp (Except.ok.inj h)).1
    rw [List.mapM_cons] at hadd
    obtain ⟨m', hm', hadd⟩ := Option.bind_eq_some_iff.mp hadd
    obtain ⟨stored', hstored', hadd⟩ := Option.bind_eq_some_iff.mp hadd
    obtain rfl := Option.some.inj hadd
    exact .cons (redacted_of_redactMember hwf.1 hentry hm') (ih hwf.2 hrest hstored')

/-! ## The run -/

/-- Every member of the tar is plain. -/
def PlainAt (w : Directory) (path : Str) : Prop :=
  ∀ ms, w.files path = some (.tar ms) → ∀ m ∈ ms, m.info.IsPlain

/-- What is left of a tar: nothing, or its members redacted. -/
def Left (w w' : Directory) (path : Str) : Prop :=
  w'.files path = none ∨ ∃ ms ms', w.files path = some (.tar ms) ∧
    w'.files path = some (.tar ms') ∧ List.Forall₂ Redacted ms ms'

/-- The files other than one are as they were, and what was listed. -/
structure Only (w w' : Directory) (tarPath : Str) : Prop where
  files : ∀ path, path ≠ tarPath → w'.files path = w.files path
  listed : w'.listed = w.listed

omit [Runtime] in
theorem only_set (w : Directory) (tarPath : Str) (c : Option Content) :
    Only w (w.set tarPath c) tarPath :=
  ⟨fun _ hne => Function.update_of_ne hne _ _, rfl⟩

omit [Runtime] in
theorem Only.refl (w : Directory) (tarPath : Str) : Only w w tarPath := ⟨fun _ _ => rfl, rfl⟩

omit [Runtime] in
@[simp] theorem files_set (w : Directory) (tarPath : Str) (c : Option Content) :
    (w.set tarPath c).files tarPath = c := Function.update_self ..

omit [Runtime] in
theorem Only.trans {w w₁ w₂ : Directory} {tarPath : Str} (h : Only w w₁ tarPath)
    (h' : Only w₁ w₂ tarPath) : Only w w₂ tarPath :=
  ⟨fun path hne => (h'.files path hne).trans (h.files path hne), h'.listed.trans h.listed⟩

omit [Runtime] in
theorem ends_call {w w' : Directory} {c : Cmd} {out : Except Raised c.Ans} :
    Ends handle w (call c) out w' ↔ handle w c out w' := ends_perform_iff

omit [Runtime] in
theorem ends_print {w w' : Directory} {line : Line} {out : Except Raised Unit}
    (h : Ends handle w (call (.print line)) out w') : w' = w := by
  have h := ends_call.mp h
  cases out with
  | ok | error => exact h

/-- A tar of plain members that was rewritten has them redacted. -/
theorem ends_redactStorageTar {w w' : Directory} {tarPath : Str} {out : Except Raised ℕ}
    (h : Ends handle w (redactStorageTar dumpsLimit tarPath) out w') :
    Only w w' tarPath ∧ ∀ n, out = .ok n → PlainAt w tarPath → Left w w' tarPath := by
  rcases ends_bind_iff.mp h with ⟨ms, w₁, hread, h₁⟩ | ⟨e, hread, rfl⟩
  · obtain ⟨htar, hwf, rfl⟩ := ends_call.mp hread
    rcases ends_bind_iff.mp h₁ with ⟨⟨entries, total⟩, w₂, hredact, h₂⟩ | ⟨e, hredact, rfl⟩
    · obtain ⟨hmembers, rfl⟩ := ends_ofExcept_iff.mp hredact
      rcases ends_bind_iff.mp h₂ with ⟨_, w₃, hwrite, h₃⟩ | ⟨e, hwrite, rfl⟩
      · obtain ⟨c, rfl, hwritten⟩ := ends_call.mp hwrite
        obtain ⟨-, rfl⟩ := ends_ret_iff.mp h₃
        refine ⟨only_set _ _ _, fun _ _ hplain => ?_⟩
        obtain ⟨stored, hstored, rfl⟩ :=
          hwritten (isPlain_of_redactMembers (hplain ms htar) hmembers.symm)
        refine .inr ⟨ms, stored, htar, files_set _ _ _, ?_⟩
        exact redacted_of_redactMembers hwf hmembers.symm hstored
      · obtain ⟨c, rfl⟩ := ends_call.mp hwrite
        exact ⟨only_set _ _ _, nofun⟩
    · obtain ⟨-, rfl⟩ := ends_ofExcept_iff.mp hredact
      exact ⟨.refl _ _, nofun⟩
  · obtain rfl : w' = w := ends_call.mp hread
    exact ⟨.refl _ _, nofun⟩

/-- One tar is rewritten, or deleted, or the run is over; the others are not touched. -/
theorem ends_redactOne {w w' : Directory} {tarPath : Str} {out : Except Raised Unit}
    (h : Ends handle w (redactOne dumpsLimit tarPath) out w') :
    Only w w' tarPath ∧ (out = .ok () → PlainAt w tarPath → Left w w' tarPath) := by
  rcases ends_bind_iff.mp h with ⟨result, w₁, htry, h⟩ | ⟨e, htry, rfl⟩
  · obtain ⟨r, htry, hr⟩ := ends_attempt_iff.mp htry
    obtain rfl := Except.ok.inj hr
    -- what the guarded part has done, however it ended
    have hguarded : Only w w₁ tarPath ∧
        (result = .ok () → PlainAt w tarPath → Left w w₁ tarPath) := by
      rcases ends_bind_iff.mp htry with ⟨n, w₂, htar, hprint⟩ | ⟨e, htar, rfl⟩
      · obtain rfl := ends_print hprint
        exact ⟨(ends_redactStorageTar htar).1, fun _ => (ends_redactStorageTar htar).2 n rfl⟩
      · exact ⟨(ends_redactStorageTar htar).1, nofun⟩
    cases result with
    | ok =>
      obtain ⟨-, rfl⟩ := ends_ret_iff.mp h
      exact ⟨hguarded.1, fun _ => hguarded.2 rfl⟩
    | error e =>
      cases e with
      | exit =>
        obtain ⟨rfl, rfl⟩ := ends_raise_iff.mp h
        exact ⟨hguarded.1, nofun⟩
      | exception =>
        rcases ends_bind_iff.mp h with ⟨_, w₂, hunlink, hprint⟩ | ⟨e, hunlink, rfl⟩
        · obtain rfl := ends_call.mp hunlink
          obtain rfl := ends_print hprint
          exact ⟨hguarded.1.trans (only_set _ _ _), fun _ _ => .inl (files_set _ _ _)⟩
        · obtain rfl := ends_call.mp hunlink
          exact ⟨hguarded.1, nofun⟩
  · obtain ⟨r, -, hr⟩ := ends_attempt_iff.mp htry
    cases hr

/-- The loop leaves every tar it was given, and only these. -/
theorem ends_redactEach {w w' : Directory} {tarPaths : List Str} {out : Except Raised Unit}
    (hdistinct : tarPaths.Nodup) (h : Ends handle w (redactEach dumpsLimit tarPaths) out w') :
    (∀ path, path ∉ tarPaths → w'.files path = w.files path) ∧ w'.listed = w.listed ∧
      (out = .ok () → ∀ path ∈ tarPaths, PlainAt w path → Left w w' path) := by
  induction tarPaths generalizing w with
  | nil =>
    obtain ⟨-, rfl⟩ := ends_ret_iff.mp h
    simp
  | cons tarPath tarPaths ih =>
    rw [List.nodup_cons] at hdistinct
    rcases ends_bind_iff.mp h with ⟨_, w₁, hone, hrest⟩ | ⟨e, hone, rfl⟩
    · obtain ⟨honly, hleft⟩ := ends_redactOne hone
      obtain ⟨hothers, hlisted, hall⟩ := ih hdistinct.2 hrest
      refine ⟨fun path hpath => ?_, hlisted.trans honly.listed, fun hout path hpath hplain => ?_⟩
      · rw [List.mem_cons, not_or] at hpath
        rw [hothers path hpath.2, honly.files path hpath.1]
      · rcases List.mem_cons.mp hpath with rfl | hpath
        · have hkept := hothers path hdistinct.1
          unfold Left
          rw [hkept]
          exact hleft rfl hplain
        · have hsame := honly.files path fun heq => hdistinct.1 (heq ▸ hpath)
          have hleft := hall hout path hpath (by rwa [PlainAt, hsame])
          unfold Left at hleft ⊢
          rwa [hsame] at hleft
    · refine ⟨fun path hpath => ?_, (ends_redactOne hone).1.listed, nofun⟩
      rw [List.mem_cons, not_or] at hpath
      exact (ends_redactOne hone).1.files path hpath.1

/-- When the script has returned, whatever failed on the way, every `storage.tar` of plain members
that was listed and is still there has its members as they were, but for its config-entries files,
which read as their documents without a credential. What was not listed is as it was. -/
theorem main_redacts {w w' : Directory} {script root : Str} {code : ℤ} (hdir : w.isDir = true)
    (h : Ends handle w (main dumpsLimit [script, root]) (.ok code) w') (path : Str) :
    (path ∈ w'.listed → PlainAt w path → Left w w' path) ∧
      (path ∉ w'.listed → w'.files path = w.files path) := by
  rcases ends_bind_iff.mp h with ⟨isDir, w₁, hisDir, h₁⟩ | ⟨e, -, herr⟩
  · obtain ⟨rfl, rfl⟩ := ends_call.mp hisDir
    rw [hdir] at h₁
    rcases ends_bind_iff.mp h₁ with ⟨tarPaths, w₂, hglob, h₂⟩ | ⟨e, -, herr⟩
    · obtain ⟨hdistinct, rfl⟩ := ends_call.mp hglob
      rcases ends_bind_iff.mp h₂ with ⟨_, w₃, heach, h₃⟩ | ⟨e, -, herr⟩
      · obtain ⟨-, rfl⟩ := ends_ret_iff.mp h₃
        obtain ⟨hothers, hlisted, hall⟩ := ends_redactEach hdistinct heach
        rw [hlisted]
        exact ⟨hall rfl path, hothers path⟩
      · cases herr
    · cases herr
  · cases herr

end

/-- A config-entries file with a token in it. -/
def tokenMember : Member :=
  let doc : Json := .dict [("data", .dict [("entries",
    .arr [.dict [("data", .dict [("token", .lit "abc")])]])])]
  ⟨⟨str "./core.config_entries", .regular, (dumpsBytes .compact doc).length, none⟩,
    dumpsBytes .compact doc⟩

/-- A tar with that file is rewritten. -/
theorem main_redacts_token :
    letI := asciiRuntime
    let w := Directory.set ⟨true, fun _ => none, []⟩ (str "storage.tar") (some (.tar [tokenMember]))
    ∃ w', Ends handle w (main 100 [str "redact", str "."]) (.ok 0) w' ∧
      (w'.files (str "storage.tar")).isSome = true ∧ Left w w' (str "storage.tar") := by
  let := asciiRuntime
  intro w
  have hfile : w.files (str "storage.tar") = some (.tar [tokenMember]) := files_set _ _ _
  have hstored : ((redactMembers 100 [tokenMember]).toOption.bind fun p =>
      p.1.mapM fun e => addfile e.1 e.2).isSome = true := by decide +kernel
  obtain ⟨stored, hstored⟩ := Option.isSome_iff_exists.mp hstored
  obtain ⟨⟨entries, total⟩, hmembers, hadd⟩ := Option.bind_eq_some_iff.mp hstored
  have hmembers : redactMembers 100 [tokenMember] = .ok (entries, total) := by
    cases h : redactMembers 100 [tokenMember] with
    | error e => simp [h, Except.toOption] at hmembers
    | ok p => simpa [h, Except.toOption] using hmembers
  set listed : Directory := { w with listed := [str "storage.tar"] }
  have hone : Ends handle listed (redactOne 100 (str "storage.tar")) (.ok ())
      (listed.set (str "storage.tar") (some (.tar stored))) := by
    refine ends_bind_iff.mpr (.inl ⟨.ok (), _, ends_attempt_iff.mpr ⟨.ok (), ?_, rfl⟩, .ret _ _⟩)
    refine ends_bind_iff.mpr (.inl ⟨total, _, ?_, ends_call.mpr rfl⟩)
    refine ends_bind_iff.mpr (.inl ⟨[tokenMember], listed, ends_call.mpr ⟨hfile, ?_, rfl⟩, ?_⟩)
    · intro m hm
      rw [List.mem_singleton.mp hm]
      exact fun _ => rfl
    · refine ends_bind_iff.mpr (.inl ⟨(entries, total), listed,
        ends_ofExcept_iff.mpr ⟨hmembers.symm, rfl⟩, ?_⟩)
      exact ends_bind_iff.mpr (.inl ⟨(), _, ends_call.mpr ⟨_, rfl, fun _ => ⟨stored, hadd, rfl⟩⟩,
        .ret _ _⟩)
  have hends : Ends handle w (main 100 [str "redact", str "."]) (.ok 0)
      (listed.set (str "storage.tar") (some (.tar stored))) := by
    refine ends_bind_iff.mpr (.inl ⟨true, w, ends_call.mpr ⟨rfl, rfl⟩, ?_⟩)
    refine ends_bind_iff.mpr (.inl ⟨[str "storage.tar"], listed, ends_call.mpr ⟨?_, rfl⟩, ?_⟩)
    · exact List.nodup_singleton _
    · exact ends_bind_iff.mpr (.inl ⟨(), _, ends_bind_iff.mpr (.inl ⟨(), _, hone, .ret _ _⟩),
        .ret _ _⟩)
  refine ⟨_, hends, by rw [files_set]; rfl, ?_⟩
  refine (main_redacts rfl hends (str "storage.tar")).1 (List.mem_singleton_self _) ?_
  intro ms hms m hm
  rw [hfile, Option.some.injEq, Content.tar.injEq] at hms
  rw [← hms, List.mem_singleton] at hm
  rw [hm]
  exact ⟨.inl rfl, rfl⟩

end EsphomeMcp.Diagnostics
