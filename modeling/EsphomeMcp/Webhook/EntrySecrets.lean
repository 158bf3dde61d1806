import EsphomeMcp.Python.Base64
import EsphomeMcp.Python.JsonText
import EsphomeMcp.Python.Lines
import Mathlib.Data.List.ReduceOption

/-!
# The secrets of the entry

`_ensure_secrets` and `_normalize`: the webhook id, the secret path and the key for client ids,
which a setup fills in, replaces by an override or draws anew, over any run of option edits and
setups from the empty entry. What `secrets` draws is a parameter of each setup.
-/

namespace EsphomeMcp.Webhook

open Py

/-! ## Definitions -/

/-- What `secrets` returns for `n` bytes. -/
abbrev RandomBytes (n : ℕ) := {raw : Bytes // raw.length = n}

/-- What one setup draws, if it draws. -/
structure Draws where
  webhook : RandomBytes 16
  path : RandomBytes 16
  key : RandomBytes 32

/-- `raw.hex()`, which is `token_hex` of the bytes it draws. -/
def hexText (raw : Bytes) : Str := raw.flatMap fun b => [hexDigit (b.val / 16), hexDigit b.val]

/-- `token_urlsafe` of the bytes it draws. -/
def tokenUrlsafe (raw : Bytes) : Str := rstrip (· = ch '=') (urlsafeB64encode raw)

def Draws.webhookId (draws : Draws) : Str := str "esp_mcp_" ++ hexText draws.webhook.val

def Draws.secretPath (draws : Draws) : Str := str "/private_" ++ tokenUrlsafe draws.path.val

def Draws.dcrSigningKey (draws : Draws) : Str := hexText draws.key.val

/-- `entry.data`, as far as `_ensure_secrets` reads it. -/
structure SecretData where
  webhookId : Option Str
  secretPath : Option Str
  dcrSigningKey : Option Str
deriving DecidableEq

/-- `entry.options` and the input of the options form, less the settings `_normalize` carries
over. -/
structure Options where
  externalUrl : Option Str
  webhookIdOverride : Option Str
  secretPathOverride : Option Str
  regenerateSecrets : Option Bool
  pipSpec : Option Str
deriving DecidableEq

/-- The config entry. -/
structure Entry where
  data : SecretData
  options : Options
deriving DecidableEq

/-- `async_create_entry(data={}, options={})`. -/
def emptyEntry : Entry := ⟨⟨none, none, none⟩, ⟨none, none, none, none, none⟩⟩

/-- `not data.get(key)`. -/
def isMissing (value : Option Str) : Bool := value.getD [] = []

/-- `str(options.get(key) or "").strip()`. -/
def cleaned (value : Option Str) : Str := strip (value.getD [])

/-- `EspHomeMcpOptionsFlow._normalize`. -/
def normalize (userInput : Options) : Options where
  externalUrl := some (rstrip (· = ch '/') (cleaned userInput.externalUrl))
  webhookIdOverride := some (cleaned userInput.webhookIdOverride)
  secretPathOverride := some (cleaned userInput.secretPathOverride)
  regenerateSecrets := userInput.regenerateSecrets
  pipSpec := none

/-- `webhook_override`. -/
def Options.webhookOverride (options : Options) : Str := cleaned options.webhookIdOverride

/-- `path_override`. -/
def Options.pathOverride (options : Options) : Str :=
  let override := cleaned options.secretPathOverride
  if override ≠ [] ∧ !startsWith override (str "/") then ch '/' :: override else override

/-- `options.get(OPT_REGENERATE_SECRETS)`, as a condition. -/
def Options.regenerates (options : Options) : Bool := options.regenerateSecrets.getD false

/-- The local `data` and `changed`. -/
structure Pending where
  data : SecretData
  changed : Bool

def Pending.overrideWebhookId (options : Options) (p : Pending) : Pending :=
  if options.webhookOverride ≠ [] ∧ p.data.webhookId ≠ some options.webhookOverride then
    ⟨{ p.data with webhookId := some options.webhookOverride }, true⟩
  else p

def Pending.overrideSecretPath (options : Options) (p : Pending) : Pending :=
  if options.pathOverride ≠ [] then
    if p.data.secretPath ≠ some options.pathOverride then
      ⟨{ p.data with secretPath := some options.pathOverride }, true⟩
    else p
  else p

def Pending.fillWebhookId (draws : Draws) (p : Pending) : Pending :=
  if isMissing p.data.webhookId then
    ⟨{ p.data with webhookId := some draws.webhookId }, true⟩
  else p

def Pending.fillSecretPath (draws : Draws) (p : Pending) : Pending :=
  if isMissing p.data.secretPath then
    ⟨{ p.data with secretPath := some draws.secretPath }, true⟩
  else p

def Pending.fillDcrSigningKey (draws : Draws) (p : Pending) : Pending :=
  if isMissing p.data.dcrSigningKey then
    ⟨{ p.data with dcrSigningKey := some draws.dcrSigningKey }, true⟩
  else p

/-- The overrides, then what is missing. -/
def Pending.of (draws : Draws) (entry : Entry) : Pending :=
  let p : Pending := ⟨entry.data, false⟩
  let p := (p.overrideWebhookId entry.options).overrideSecretPath entry.options
  ((p.fillWebhookId draws).fillSecretPath draws).fillDcrSigningKey draws

/-- The branch of `_ensure_secrets` that regenerates. -/
def regenerate (draws : Draws) (entry : Entry) : Entry where
  data := ⟨some draws.webhookId, some draws.secretPath, some draws.dcrSigningKey⟩
  options := { entry.options with
    regenerateSecrets := some false, webhookIdOverride := some [], secretPathOverride := some [] }

/-- `_ensure_secrets`. -/
def ensureSecrets (draws : Draws) (entry : Entry) : Entry :=
  if entry.options.regenerates then regenerate draws entry
  else if (Pending.of draws entry).changed then
    { entry with data := (Pending.of draws entry).data }
  else entry

/-- A step of the entry's life. -/
inductive EntryEvent where
  /-- The options form, submitted. -/
  | edit (userInput : Options)
  /-- `async_setup_server_entry`. -/
  | setup (draws : Draws)

def EntryEvent.apply (entry : Entry) : EntryEvent → Entry
  | edit userInput => { entry with options := normalize userInput }
  | setup draws => ensureSecrets draws entry

/-- The entry after a run. -/
def entryAfter (events : List EntryEvent) : Entry := events.foldl EntryEvent.apply emptyEntry

/-! ## What a setup is to do -/

/-- The three secrets are there, and nothing is left to regenerate. -/
structure IsComplete (entry : Entry) : Prop where
  webhookId : ∃ id, entry.data.webhookId = some id ∧ id ≠ []
  secretPath : ∃ rest, entry.data.secretPath = some (ch '/' :: rest)
  dcrSigningKey : ∃ key, entry.data.dcrSigningKey = some key ∧ key ≠ []
  settled : entry.options.regenerates = false

/-- The string is one of the three secrets. -/
def Entry.InForce (entry : Entry) (s : Str) : Prop :=
  entry.data.webhookId = some s ∨ entry.data.secretPath = some s ∨
    entry.data.dcrSigningKey = some s

/-- The strings the entry holds, secrets and overrides. -/
def Entry.strings (entry : Entry) : List Str :=
  [entry.data.webhookId, entry.data.secretPath, entry.data.dcrSigningKey,
    entry.options.webhookIdOverride, entry.options.secretPathOverride].reduceOption

/-- What a regeneration is to put out of force: the old values, and the overrides as they would
be applied. -/
def Entry.revoked (entry : Entry) : List Str :=
  [entry.data.webhookId, entry.data.secretPath, entry.data.dcrSigningKey].reduceOption ++
    [entry.options.webhookOverride, entry.options.pathOverride]

/-- What is drawn is nowhere in the strings the entry holds already. -/
structure IsFresh (draws : Draws) (entry : Entry) : Prop where
  webhook : ∀ s ∈ entry.strings, ¬hexText draws.webhook.val <:+: s
  path : ∀ s ∈ entry.strings, ¬tokenUrlsafe draws.path.val <:+: s
  key : ∀ s ∈ entry.strings, ¬hexText draws.key.val <:+: s

/-- Setups without an edit between them. -/
def setups (entry : Entry) (later : List Draws) : Entry :=
  later.foldl (fun entry draws => ensureSecrets draws entry) entry

/-- A setup of the entry does what it is to do. -/
structure SetupSpec (draws : Draws) (before : Entry) : Prop where
  complete : IsComplete (ensureSecrets draws before)
  again : ∀ other, ensureSecrets other (ensureSecrets draws before) = ensureSecrets draws before
  webhookId : (ensureSecrets draws before).data.webhookId ≠ before.data.webhookId →
    isMissing before.data.webhookId = true ∨ before.options.regenerates = true ∨
      (before.options.webhookOverride ≠ [] ∧
        before.data.webhookId ≠ some before.options.webhookOverride)
  secretPath : (ensureSecrets draws before).data.secretPath ≠ before.data.secretPath →
    isMissing before.data.secretPath = true ∨ before.options.regenerates = true ∨
      (before.options.pathOverride ≠ [] ∧
        before.data.secretPath ≠ some before.options.pathOverride)
  dcrSigningKey : (ensureSecrets draws before).data.dcrSigningKey ≠ before.data.dcrSigningKey →
    isMissing before.data.dcrSigningKey = true ∨ before.options.regenerates = true
  revoked : before.options.regenerates = true → IsFresh draws before →
    ∀ later, ∀ s ∈ before.revoked, ¬(setups (ensureSecrets draws before) later).InForce s

/-! ## What is generated -/

theorem hexText_ne_nil {raw : Bytes} (h : raw ≠ []) : hexText raw ≠ [] := by
  cases raw with
  | nil => exact absurd rfl h
  | cons b raw => exact List.cons_ne_nil _ _

theorem RandomBytes.ne_nil {n : ℕ} (hn : 0 < n) (raw : RandomBytes n) : raw.val ≠ [] := by
  apply List.ne_nil_of_length_pos
  rw [raw.property]
  exact hn

theorem hexDigit_ne_slash (n : ℕ) : hexDigit n ≠ ch '/' := by
  have h : ∀ k : Fin 16, hexDigit k.val ≠ ch '/' := by decide
  have hmod : hexDigit (n % 16) = hexDigit n := by rw [hexDigit, Nat.mod_mod, hexDigit]
  rw [← hmod]
  exact h ⟨n % 16, Nat.mod_lt n (by decide)⟩

theorem slash_notMem_hexText (raw : Bytes) : ch '/' ∉ hexText raw := by
  intro h
  obtain ⟨b, -, hb⟩ := List.mem_flatMap.mp h
  rw [List.mem_pair] at hb
  exact hb.elim (hexDigit_ne_slash _ ·.symm) (hexDigit_ne_slash _ ·.symm)

theorem slash_notMem_tokenUrlsafe (raw : Bytes) : ch '/' ∉ tokenUrlsafe raw := by
  intro h
  rw [tokenUrlsafe, rstrip_urlsafeB64encode] at h
  exact absurd (isB64urlDigit_b64Text raw _ h) (by decide)

theorem tokenUrlsafe_ne_nil {raw : Bytes} (h : raw ≠ []) : tokenUrlsafe raw ≠ [] := by
  rw [tokenUrlsafe, rstrip_urlsafeB64encode]
  intro hnil
  exact h (b64Text_injective (hnil.trans rfl))

theorem Draws.webhookId_ne_nil (draws : Draws) : draws.webhookId ≠ [] := by
  rw [Draws.webhookId, str]
  exact List.append_ne_nil_of_left_ne_nil (by decide) _

theorem Draws.exists_secretPath (draws : Draws) : ∃ rest, draws.secretPath = ch '/' :: rest :=
  ⟨_, rfl⟩

theorem Draws.secretPath_ne_nil (draws : Draws) : draws.secretPath ≠ [] := List.cons_ne_nil _ _

theorem Draws.dcrSigningKey_ne_nil (draws : Draws) : draws.dcrSigningKey ≠ [] :=
  hexText_ne_nil (draws.key.ne_nil (by decide))

/-! ## One setup -/

/-- A value after a setup that regenerates nothing. -/
def settledValue (old : Option Str) (override generated : Str) : Option Str :=
  if override ≠ [] then some override else if isMissing old then some generated else old

/-- `changed` records whether the local `data` is still the entry's. -/
def Pending.Tracks (data : SecretData) (p : Pending) : Prop := p.changed = false → p.data = data

/-- A write under a condition keeps the record of changes. -/
theorem Pending.Tracks.ite {data data' : SecretData} {p : Pending} (h : p.Tracks data)
    (c : Prop) [Decidable c] : Tracks data (if c then ⟨data', true⟩ else p) := by
  split_ifs
  · intro hchanged
    exact absurd hchanged (Bool.false_ne_true ∘ Eq.symm)
  · exact h

/-- Nothing is written without `changed`. -/
theorem Pending.tracks_of (draws : Draws) (entry : Entry) :
    (Pending.of draws entry).Tracks entry.data := by
  have hstart : Pending.Tracks entry.data ⟨entry.data, false⟩ := fun _ => rfl
  have hwebhook : (overrideWebhookId entry.options ⟨entry.data, false⟩).Tracks entry.data :=
    hstart.ite _
  have hpath : (overrideSecretPath entry.options
      (overrideWebhookId entry.options ⟨entry.data, false⟩)).Tracks entry.data := by
    rw [overrideSecretPath]
    split
    · exact hwebhook.ite _
    · exact hwebhook
  exact ((hpath.ite _).ite _).ite _

theorem Pending.data_overrideWebhookId (options : Options) (p : Pending) :
    (p.overrideWebhookId options).data = { p.data with
      webhookId := if options.webhookOverride ≠ [] then some options.webhookOverride
        else p.data.webhookId } := by
  rw [overrideWebhookId]
  by_cases hgiven : options.webhookOverride ≠ []
  · by_cases hsame : p.data.webhookId = some options.webhookOverride
    · rw [if_neg (fun h => h.2 hsame), if_pos hgiven, ← hsame]
    · rw [if_pos ⟨hgiven, hsame⟩, if_pos hgiven]
  · rw [if_neg (fun h => hgiven h.1), if_neg hgiven]

theorem Pending.data_overrideSecretPath (options : Options) (p : Pending) :
    (p.overrideSecretPath options).data = { p.data with
      secretPath := if options.pathOverride ≠ [] then some options.pathOverride
        else p.data.secretPath } := by
  rw [overrideSecretPath]
  by_cases hgiven : options.pathOverride ≠ []
  · rw [if_pos hgiven, if_pos hgiven]
    by_cases hsame : p.data.secretPath = some options.pathOverride
    · rw [if_neg (fun h => h hsame), ← hsame]
    · rw [if_pos hsame]
  · rw [if_neg hgiven, if_neg hgiven]

theorem Pending.data_fillWebhookId (draws : Draws) (p : Pending) :
    (p.fillWebhookId draws).data = { p.data with
      webhookId := if isMissing p.data.webhookId then some draws.webhookId
        else p.data.webhookId } := by
  rw [fillWebhookId]
  split_ifs <;> rfl

theorem Pending.data_fillSecretPath (draws : Draws) (p : Pending) :
    (p.fillSecretPath draws).data = { p.data with
      secretPath := if isMissing p.data.secretPath then some draws.secretPath
        else p.data.secretPath } := by
  rw [fillSecretPath]
  split_ifs <;> rfl

theorem Pending.data_fillDcrSigningKey (draws : Draws) (p : Pending) :
    (p.fillDcrSigningKey draws).data = { p.data with
      dcrSigningKey := if isMissing p.data.dcrSigningKey then some draws.dcrSigningKey
        else p.data.dcrSigningKey } := by
  rw [fillDcrSigningKey]
  split_ifs <;> rfl

/-- An override that is given is never missing, so nothing is filled in over it. -/
theorem fill_override (old : Option Str) (override generated : Str) :
    (if isMissing (if override ≠ [] then some override else old) then some generated
      else if override ≠ [] then some override else old) =
      settledValue old override generated := by
  rw [settledValue]
  by_cases hgiven : override ≠ []
  · have hpresent : isMissing (some override) = false := decide_eq_false hgiven
    rw [if_pos hgiven, if_pos hgiven, hpresent]
    rfl
  · rw [if_neg hgiven, if_neg hgiven]

/-- Without regeneration every value is its override, or is filled in, or stays. -/
theorem ensureSecrets_eq {draws : Draws} {entry : Entry}
    (h : entry.options.regenerates = false) :
    ensureSecrets draws entry = { entry with data := {
      webhookId :=
        settledValue entry.data.webhookId entry.options.webhookOverride draws.webhookId
      secretPath :=
        settledValue entry.data.secretPath entry.options.pathOverride draws.secretPath
      dcrSigningKey := settledValue entry.data.dcrSigningKey [] draws.dcrSigningKey } } := by
  have hdata : (Pending.of draws entry).data = {
      webhookId :=
        settledValue entry.data.webhookId entry.options.webhookOverride draws.webhookId
      secretPath :=
        settledValue entry.data.secretPath entry.options.pathOverride draws.secretPath
      dcrSigningKey := settledValue entry.data.dcrSigningKey [] draws.dcrSigningKey } := by
    rw [Pending.of, Pending.data_fillDcrSigningKey, Pending.data_fillSecretPath,
      Pending.data_fillWebhookId, Pending.data_overrideSecretPath,
      Pending.data_overrideWebhookId]
    simp only [fill_override]
    rfl
  rw [ensureSecrets, h, if_neg Bool.false_ne_true, ← hdata]
  split_ifs with hchanged
  · rfl
  · rw [Pending.tracks_of draws entry (Bool.eq_false_of_not_eq_true hchanged)]

section

variable {old : Option Str} {override generated : Str}

theorem exists_settledValue (h : generated ≠ []) :
    ∃ v, settledValue old override generated = some v ∧ v ≠ [] := by
  rw [settledValue]
  split_ifs with hgiven hmissing
  · exact ⟨override, rfl, hgiven⟩
  · exact ⟨generated, rfl, h⟩
  · cases old with
    | none => exact absurd rfl hmissing
    | some v => exact ⟨v, rfl, fun hnil => hmissing (decide_eq_true hnil)⟩

/-- A value is an override that was given, was generated or was there. -/
theorem settledValue_cases {v : Str} (h : settledValue old override generated = some v) :
    (v = override ∧ override ≠ []) ∨ v = generated ∨ old = some v := by
  rw [settledValue] at h
  split_ifs at h with hgiven hmissing
  · exact .inl ⟨(Option.some.inj h).symm, hgiven⟩
  · exact .inr (.inl (Option.some.inj h).symm)
  · exact .inr (.inr h)

theorem settledValue_changes (h : settledValue old override generated ≠ old) :
    isMissing old = true ∨ (override ≠ [] ∧ old ≠ some override) := by
  rw [settledValue] at h
  split_ifs at h with hgiven hmissing
  · exact .inr ⟨hgiven, h.symm⟩
  · exact .inl hmissing
  · exact absurd rfl h

/-- A value that is there, with no override or its own, stays. -/
theorem settledValue_some {v : Str} (hv : v ≠ []) (h : override = [] ∨ override = v) :
    settledValue (some v) override generated = some v := by
  rw [settledValue]
  split_ifs with hgiven hmissing
  · rw [h.resolve_left hgiven]
  · exact absurd (of_decide_eq_true hmissing) hv
  · rfl

theorem settledValue_again {other : Str} (h : generated ≠ []) :
    settledValue (settledValue old override generated) override other =
      settledValue old override generated := by
  obtain ⟨v, hv, hne⟩ : ∃ v, settledValue old override generated = some v ∧ v ≠ [] :=
    exists_settledValue h
  rw [hv]
  apply settledValue_some hne
  rw [or_iff_not_imp_left]
  intro hgiven
  rw [settledValue, if_pos hgiven] at hv
  exact Option.some.inj hv

end

/-- A path that is stored starts with a slash. -/
def Entry.HasSlash (entry : Entry) : Prop :=
  ∀ path, entry.data.secretPath = some path → ∃ rest, path = ch '/' :: rest

theorem Options.exists_pathOverride {options : Options} (h : options.pathOverride ≠ []) :
    ∃ rest, options.pathOverride = ch '/' :: rest := by
  rw [pathOverride] at h ⊢
  split_ifs at h ⊢ with hcond
  · exact ⟨_, rfl⟩
  · have hstarts : startsWith (cleaned options.secretPathOverride) (str "/") = true := by
      by_contra hnot
      rw [Bool.not_eq_true] at hnot
      exact hcond ⟨h, by rw [hnot]; rfl⟩
    obtain ⟨rest, hrest⟩ := startsWith_iff.mp hstarts
    exact ⟨rest, hrest⟩

theorem ensureSecrets_eq_self {draws : Draws} {entry : Entry}
    (h : entry.options.regenerates = false)
    (hwebhook : settledValue entry.data.webhookId entry.options.webhookOverride draws.webhookId =
      entry.data.webhookId)
    (hpath : settledValue entry.data.secretPath entry.options.pathOverride draws.secretPath =
      entry.data.secretPath)
    (hkey : settledValue entry.data.dcrSigningKey [] draws.dcrSigningKey =
      entry.data.dcrSigningKey) : ensureSecrets draws entry = entry := by
  rw [ensureSecrets_eq h, hwebhook, hpath, hkey]

theorem ensureSecrets_of_regenerates {draws : Draws} {entry : Entry}
    (h : entry.options.regenerates = true) : ensureSecrets draws entry = regenerate draws entry :=
  if_pos h

theorem isComplete_ensureSecrets (draws : Draws) {entry : Entry} (hslash : entry.HasSlash) :
    IsComplete (ensureSecrets draws entry) := by
  cases h : entry.options.regenerates with
  | true =>
    rw [ensureSecrets_of_regenerates h]
    exact ⟨⟨_, rfl, draws.webhookId_ne_nil⟩, ⟨_, rfl⟩, ⟨_, rfl, draws.dcrSigningKey_ne_nil⟩, rfl⟩
  | false =>
    rw [ensureSecrets_eq h]
    have hkey : ∃ key, settledValue entry.data.dcrSigningKey [] draws.dcrSigningKey = some key ∧
        key ≠ [] := exists_settledValue draws.dcrSigningKey_ne_nil
    refine ⟨exists_settledValue draws.webhookId_ne_nil, ?_, hkey, h⟩
    obtain ⟨path, hpath, -⟩ : ∃ path, settledValue entry.data.secretPath
        entry.options.pathOverride draws.secretPath = some path ∧ path ≠ [] :=
      exists_settledValue draws.secretPath_ne_nil
    have hrest : ∃ rest, path = ch '/' :: rest := by
      obtain ⟨rfl, hgiven⟩ | rfl | hold := settledValue_cases hpath
      · exact Options.exists_pathOverride hgiven
      · exact draws.exists_secretPath
      · exact hslash path hold
    obtain ⟨rest, rfl⟩ := hrest
    exact ⟨rest, hpath⟩

/-- A second setup, whatever it would draw, finds nothing to do. -/
theorem ensureSecrets_again (draws other : Draws) (entry : Entry) :
    ensureSecrets other (ensureSecrets draws entry) = ensureSecrets draws entry := by
  cases h : entry.options.regenerates with
  | true =>
    rw [ensureSecrets_of_regenerates h]
    -- the overrides are gone, and each value is there
    apply ensureSecrets_eq_self rfl
    · show settledValue (some draws.webhookId) [] _ = some draws.webhookId
      exact settledValue_some draws.webhookId_ne_nil (.inl rfl)
    · show settledValue (some draws.secretPath) [] _ = some draws.secretPath
      exact settledValue_some draws.secretPath_ne_nil (.inl rfl)
    · show settledValue (some draws.dcrSigningKey) [] _ = some draws.dcrSigningKey
      exact settledValue_some draws.dcrSigningKey_ne_nil (.inl rfl)
  | false =>
    have heq : ensureSecrets draws entry = _ := ensureSecrets_eq h
    rw [heq]
    apply ensureSecrets_eq_self
    · exact h
    · exact settledValue_again draws.webhookId_ne_nil
    · exact settledValue_again draws.secretPath_ne_nil
    · exact settledValue_again draws.dcrSigningKey_ne_nil

/-! ## Every run -/

theorem IsComplete.hasSlash {entry : Entry} (h : IsComplete entry) : entry.HasSlash := by
  obtain ⟨rest, hrest⟩ := h.secretPath
  intro path hpath
  exact ⟨rest, Option.some.inj (hpath.symm.trans hrest)⟩

theorem hasSlash_apply {entry : Entry} (h : entry.HasSlash) (event : EntryEvent) :
    (event.apply entry).HasSlash := by
  cases event with
  | edit userInput => exact h
  | setup draws => exact (isComplete_ensureSecrets draws h).hasSlash

theorem hasSlash_entryAfter (events : List EntryEvent) : (entryAfter events).HasSlash := by
  have hrun : ∀ entry : Entry, entry.HasSlash → (events.foldl EntryEvent.apply entry).HasSlash := by
    induction events with
    | nil => exact fun _ h => h
    | cons event events ih => exact fun entry h => ih _ (hasSlash_apply h event)
  exact hrun emptyEntry fun path hpath => absurd hpath (Option.some_ne_none path).symm

theorem setups_ensureSecrets (draws : Draws) (entry : Entry) (later : List Draws) :
    setups (ensureSecrets draws entry) later = ensureSecrets draws entry := by
  induction later with
  | nil => rfl
  | cons other later ih =>
    rw [setups, List.foldl_cons, ensureSecrets_again]
    exact ih

/-! ## What was in force before -/

theorem isInfix_cleaned (value : Option Str) : cleaned value <:+: value.getD [] := by
  have hright : cleaned value <+: lstrip isSpace (value.getD []) := List.rdropWhile_prefix _ _
  have hleft : lstrip isSpace (value.getD []) <:+ value.getD [] := List.dropWhile_suffix _
  exact hright.isInfix.trans hleft.isInfix

/-- A token that is in no string of the entry is in none of the strings revoked: trimming an
override and putting a slash before it adds nothing a token could be in. -/
theorem not_infix_revoked {token : Str} {entry : Entry} (hne : token ≠ [])
    (hslash : ch '/' ∉ token) (hfresh : ∀ s ∈ entry.strings, ¬token <:+: s) :
    ∀ s ∈ entry.revoked, ¬token <:+: s := by
  have hheld : ∀ value : Option Str, (∀ s, value = some s → s ∈ entry.strings) →
      ¬token <:+: cleaned value := by
    intro value hmem htoken
    have hinfix := htoken.trans <| isInfix_cleaned value
    cases value with
    | none => exact hne (List.infix_nil.mp hinfix)
    | some s => exact hfresh s (hmem s rfl) hinfix
  have hwebhook : ¬token <:+: entry.options.webhookOverride := by
    apply hheld
    intro s hs
    simp [Entry.strings, List.reduceOption_mem_iff, hs]
  have hpath : ¬token <:+: cleaned entry.options.secretPathOverride := by
    apply hheld
    intro s hs
    simp [Entry.strings, List.reduceOption_mem_iff, hs]
  intro s hs
  rw [Entry.revoked, List.mem_append, List.mem_pair] at hs
  rcases hs with hs | rfl | rfl
  · apply hfresh
    rw [List.reduceOption_mem_iff] at hs
    rw [Entry.strings, List.reduceOption_mem_iff]
    exact List.mem_append_left [_, _] hs
  · exact hwebhook
  · rw [Options.pathOverride]
    split_ifs
    · rw [List.infix_cons_iff]
      rintro (hstart | hinside)
      · cases token with
        | nil => exact hne rfl
        | cons c token =>
          have hhead : c = ch '/' := (List.cons_prefix_cons.mp hstart).1
          exact hslash (hhead ▸ List.mem_cons_self)
      · exact hpath hinside
    · exact hpath

/-- After a regeneration no old value is in force, whatever setups follow. -/
theorem not_inForce_of_regenerates {draws : Draws} {before : Entry}
    (h : before.options.regenerates = true) (hfresh : IsFresh draws before)
    (later : List Draws) {s : Str} (hs : s ∈ before.revoked) :
    ¬(setups (ensureSecrets draws before) later).InForce s := by
  have hwebhook : ¬hexText draws.webhook.val <:+: s :=
    not_infix_revoked (hexText_ne_nil (draws.webhook.ne_nil (by decide)))
      (slash_notMem_hexText _) hfresh.webhook s hs
  have hpath : ¬tokenUrlsafe draws.path.val <:+: s :=
    not_infix_revoked (tokenUrlsafe_ne_nil (draws.path.ne_nil (by decide)))
      (slash_notMem_tokenUrlsafe _) hfresh.path s hs
  have hkey : ¬hexText draws.key.val <:+: s :=
    not_infix_revoked (hexText_ne_nil (draws.key.ne_nil (by decide)))
      (slash_notMem_hexText _) hfresh.key s hs
  rw [setups_ensureSecrets, ensureSecrets_of_regenerates h]
  -- each value in force ends in its token
  rintro (heq | heq | heq)
  · apply hwebhook
    rw [← Option.some.inj heq]
    exact (List.suffix_append _ _).isInfix
  · apply hpath
    rw [← Option.some.inj heq]
    exact (List.suffix_append _ _).isInfix
  · apply hkey
    rw [← Option.some.inj heq]
    exact List.infix_rfl

/-- In every run of option edits and setups from the empty entry every setup leaves the secrets
complete, changes none without a reason and leaves a second setup nothing to do, and what a
regeneration revokes stays out of force. -/
theorem entrySecrets_spec (events : List EntryEvent) (draws : Draws) :
    SetupSpec draws (entryAfter events) := by
  generalize hbefore : entryAfter events = before
  have hslash : before.HasSlash := hbefore ▸ hasSlash_entryAfter events
  refine ⟨isComplete_ensureSecrets draws hslash, fun other => ensureSecrets_again draws other _,
    ?_, ?_, ?_, fun h hfresh later s hs => not_inForce_of_regenerates h hfresh later hs⟩
  · intro hchanged
    cases h : before.options.regenerates with
    | true => exact .inr (.inl rfl)
    | false =>
      rw [ensureSecrets_eq h] at hchanged
      exact (settledValue_changes hchanged).imp_right .inr
  · intro hchanged
    cases h : before.options.regenerates with
    | true => exact .inr (.inl rfl)
    | false =>
      rw [ensureSecrets_eq h] at hchanged
      exact (settledValue_changes hchanged).imp_right .inr
  · intro hchanged
    cases h : before.options.regenerates with
    | true => exact .inr rfl
    | false =>
      rw [ensureSecrets_eq h] at hchanged
      have hkey : settledValue before.data.dcrSigningKey [] draws.dcrSigningKey ≠
          before.data.dcrSigningKey := hchanged
      exact .inl ((settledValue_changes hkey).resolve_right fun hgiven => hgiven.1 rfl)

/-- Every byte drawn is the same. -/
def constantDraws (b : Byte) : Draws where
  webhook := ⟨List.replicate 16 b, List.length_replicate⟩
  path := ⟨List.replicate 16 b, List.length_replicate⟩
  key := ⟨List.replicate 32 b, List.length_replicate⟩

/-- A setup, and then an edit that both overrides the webhook id and regenerates. -/
def rotatingRun : List EntryEvent :=
  [.setup (constantDraws 0), .edit ⟨none, some (str " kitchen "), none, some true, none⟩]

theorem entrySecrets_spec_rotatingRun :
    str "kitchen" ∈ (entryAfter rotatingRun).revoked ∧
      ¬(setups (ensureSecrets (constantDraws 255) (entryAfter rotatingRun))
        [constantDraws 1]).InForce (str "kitchen") := by
  have hfresh : IsFresh (constantDraws 255) (entryAfter rotatingRun) :=
    ⟨by decide +kernel, by decide +kernel, by decide +kernel⟩
  have hrevoked : str "kitchen" ∈ (entryAfter rotatingRun).revoked := by decide +kernel
  exact ⟨hrevoked, (entrySecrets_spec rotatingRun (constantDraws 255)).revoked
    (by decide +kernel) hfresh _ _ hrevoked⟩

end EsphomeMcp.Webhook
