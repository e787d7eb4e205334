import ZshStartup.Configuration.Normal
import ZshStartup.Proofs.Json.RoundTrip

/-! Decoding undoes encoding, record by record, and reading a stored text gives the configuration that
was stored. What encoding leaves out is what decoding puts in the place of an absent field.
-/

namespace ZshStartup

open Json (Fields)

-----------------------------------------------------------------------------------------
-- Single fields
-----------------------------------------------------------------------------------------

namespace Json

@[simp]
theorem bind_string?_map_string (text : Option String)
    : (text.map Json.string).bind Json.string? = text := by
  cases text <;> rfl

@[simp]
theorem bind_natural?_map_natural (number : Option UInt64)
    : (number.map Json.natural).bind Json.natural? = number := by
  cases number <;> rfl

@[simp]
theorem any_isTrue_ofFlag (on : Bool) : (Json.ofFlag on).any Json.isTrue = on := by
  cases on <;> rfl

@[simp]
theorem string?_string (text : String) : (Json.string text).string? = some text :=
  rfl

end Json

-----------------------------------------------------------------------------------------
-- Records
-----------------------------------------------------------------------------------------

theorem Bootstrap.ofFields_toFields (bootstrap : Bootstrap)
    : ofFields bootstrap.toFields = bootstrap := by
  simp [ofFields, toFields, Fields.text, Fields.string?, Fields.get?, List.lookup_cons]

theorem Alias.ofFields_toFields (entry : Alias) : ofFields entry.toFields = entry := by
  simp (disch := simp) [ofFields, toFields, Fields.text, Fields.string?, Fields.get?_ofOptional,
    List.lookup_cons]

theorem PathEntry.ofFields_toFields (entry : PathEntry) : ofFields entry.toFields = entry := by
  simp [ofFields, toFields, Fields.text, Fields.string?, Fields.get?, List.lookup_cons]

/-- A variable as it comes back from the fields it was written as: an empty owner is none. -/
def EnvVar.reread (entry : EnvVar) : EnvVar :=
  { entry with owner := entry.owner.filter (· != "") }

theorem EnvVar.ofFields_toFields (entry : EnvVar) : ofFields entry.toFields = entry.reread := by
  simp (disch := simp) [ofFields, toFields, reread, Fields.text, Fields.string?,
    Fields.get?_ofOptional, List.lookup_cons]

theorem EnvVar.reread_eq_self_iff (entry : EnvVar) : entry.reread = entry ↔ entry.owner ≠ some "" := by
  obtain ⟨key, value, group, owner⟩ := entry
  cases owner with
  | none => simp [reread]
  | some id => by_cases empty : id = "" <;> simp [reread, empty]

theorem Ice.ofFields_toFields (ice : Ice) : ofFields ice.toFields = ice := by
  simp (disch := simp) [ofFields, toFields, Fields.string?, Fields.natural?, Fields.flag,
    Fields.get?_ofOptional, List.lookup_cons]

/-- An id that is still to be assigned comes back so. -/
theorem Plugin.ofFields_toFields (plugin : Plugin) : ofFields plugin.toFields = plugin := by
  have ice : ((plugin.ice.map fun ice => Json.object ice.toFields).bind Json.record?).map
      Ice.ofFields = plugin.ice := by
    cases plugin.ice with
    | none => rfl
    | some ice => simp [Json.record?, Ice.ofFields_toFields]
  have id : ((if plugin.id = "" then none else some (Json.string plugin.id)).bind
      Json.string?).getD "" = plugin.id := by
    by_cases empty : plugin.id = "" <;> simp [empty]
  simp (disch := simp) [ofFields, toFields, Fields.text, Fields.string?, Fields.record?,
    Fields.get?_ofOptional, List.lookup_cons, ice, id]

theorem ShellOption.ofFields_toFields (entry : ShellOption)
    : ofFields entry.toFields = entry := by
  simp (disch := simp) [ofFields, toFields, Fields.text, Fields.string?, Fields.get?_ofOptional,
    List.lookup_cons]

/-- The entries of a list are decoded one by one from the objects they were written as. -/
theorem Json.map_records_ofRecords {α β : Type} (toFields : α → Fields) (ofFields : Fields → β)
    (entries : List α)
    : (Json.ofRecords toFields entries).records.map ofFields
      = entries.map fun entry => ofFields (toFields entry) := by
  induction entries with
  | nil => rfl
  | cons entry entries ih =>
      simpa [Json.ofRecords, Json.records, Json.record?] using ih

/-- What was written of a configuration is decoded as that configuration, brought up to date: it
declares the current version, has no empty paths, and no variable of it names an empty owner.
-/
theorem Configuration.ofFields_toFields (config : Configuration)
    : ofFields config.toFields
      = { config with
          version := schemaVersion
          bootstrap := config.bootstrap.orDefaults
          envVars := config.envVars.map EnvVar.reread } := by
  simp [ofFields, toFields, Fields.text, Fields.string?, Fields.record?, Fields.records, Fields.get?,
    List.lookup_cons, Json.record?, Json.map_records_ofRecords, Bootstrap.ofFields_toFields,
    Alias.ofFields_toFields, PathEntry.ofFields_toFields, EnvVar.ofFields_toFields,
    Plugin.ofFields_toFields, ShellOption.ofFields_toFields]

theorem map_eq_self_iff {α : Type} {f : α → α} {items : List α}
    : items.map f = items ↔ ∀ item ∈ items, f item = item := by
  simpa using List.map_inj_left (f := f) (g := id) (l := items)

/-- The built-in paths replace nothing exactly where no path is empty. -/
theorem Bootstrap.orDefaults_eq_self_iff (bootstrap : Bootstrap)
    : bootstrap.orDefaults = bootstrap
      ↔ bootstrap.brewPath ≠ "" ∧ bootstrap.zinitHome ≠ "" := by
  obtain ⟨brewPath, zinitHome⟩ := bootstrap
  have builtin : builtin.brewPath ≠ "" ∧ builtin.zinitHome ≠ "" := by decide
  have path (path default : String) (nonempty : default ≠ "")
      : (if path.isEmpty then default else path) = path ↔ path ≠ "" := by
    by_cases empty : path = "" <;> simp [empty, nonempty]
  simp only [orDefaults, Bootstrap.mk.injEq]
  rw [path brewPath _ builtin.1, path zinitHome _ builtin.2]

/-- No path is empty once the built-in ones were put in. -/
theorem Bootstrap.orDefaults_ne_empty (bootstrap : Bootstrap)
    : bootstrap.orDefaults.brewPath ≠ "" ∧ bootstrap.orDefaults.zinitHome ≠ "" := by
  have builtin : builtin.brewPath ≠ "" ∧ builtin.zinitHome ≠ "" := by decide
  simp only [orDefaults]
  constructor <;> split <;> simp_all

/-- The configurations that decoding gets back are those that some text can describe. -/
theorem Configuration.ofFields_toFields_iff (config : Configuration)
    : ofFields config.toFields = config
      ↔ config.version = schemaVersion
        ∧ (config.bootstrap.brewPath ≠ "" ∧ config.bootstrap.zinitHome ≠ "")
        ∧ ∀ entry ∈ config.envVars, entry.owner ≠ some "" := by
  have owners : config.envVars.map EnvVar.reread = config.envVars
      ↔ ∀ entry ∈ config.envVars, entry.owner ≠ some "" :=
    map_eq_self_iff.trans (forall₂_congr fun entry _ => entry.reread_eq_self_iff)
  rw [ofFields_toFields, ← config.bootstrap.orDefaults_eq_self_iff, ← owners]
  obtain ⟨version, bootstrap, aliases, pathEntries, envVars, plugins, options, initScript⟩ := config
  simp only [Configuration.mk.injEq, and_true, true_and, eq_comm (a := schemaVersion)]

-----------------------------------------------------------------------------------------
-- Stored texts
-----------------------------------------------------------------------------------------

namespace Json

/-- Optional fields can be stored if their keys are distinct and those present can be stored. -/
theorem storable_ofOptional {depth : Nat} {fields : List (String × Option Json)}
    (distinct : (fields.map Prod.fst).Nodup)
    (each : ∀ field ∈ fields, ∀ value ∈ field.2, Storable depth value)
    : Storable (depth + 1) (.object (Fields.ofOptional fields)) := by
  refine .object ?_ ?_
  · have kept : ((Fields.ofOptional fields).map Prod.fst).Sublist (fields.map Prod.fst) := by
      clear distinct each
      induction fields with
      | nil => simp [Fields.ofOptional]
      | cons field fields ih =>
          obtain ⟨key, value⟩ := field
          rw [Fields.ofOptional] at ih ⊢
          cases value with
          | none => exact ih.cons key
          | some value => exact ih.cons_cons key
    exact kept.nodup distinct
  · intro field member
    obtain ⟨⟨key, value⟩, source, found⟩ := List.mem_filterMap.mp member
    obtain ⟨json, present, rfl⟩ := Option.map_eq_some_iff.mp found
    exact each (key, value) source json present

theorem storable_ofRecords {α : Type} {depth : Nat} {toFields : α → Fields}
    (each : ∀ entry, Storable depth (.object (toFields entry))) (entries : List α)
    : Storable (depth + 1) (Json.ofRecords toFields entries) := by
  refine .array ?_
  intro item member
  obtain ⟨entry, -, rfl⟩ := List.mem_map.mp member
  exact each entry

theorem storable_string (depth : Nat) (text : String)
    : ∀ value ∈ some (Json.string text), Storable depth value := by
  rintro value ⟨⟩
  exact .string text

theorem storable_map_string (depth : Nat) (text : Option String)
    : ∀ value ∈ text.map Json.string, Storable depth value := by
  intro value present
  obtain ⟨text, -, rfl⟩ := Option.map_eq_some_iff.mp present
  exact .string text

theorem storable_map_natural (depth : Nat) (number : Option UInt64)
    : ∀ value ∈ number.map Json.natural, Storable depth value := by
  intro value present
  obtain ⟨number, -, rfl⟩ := Option.map_eq_some_iff.mp present
  exact .natural number

theorem storable_ofFlag (depth : Nat) (on : Bool)
    : ∀ value ∈ ofFlag on, Storable depth value := by
  intro value present
  cases on with
  | false => cases present
  | true => cases present; exact .bool true

end Json

open Json (Storable)

theorem Bootstrap.storable_toFields (depth : Nat) (bootstrap : Bootstrap)
    : Storable (depth + 1) (.object bootstrap.toFields) := by
  refine .object (by simp [toFields]) ?_
  simp only [toFields, List.forall_mem_cons]
  exact ⟨.string _, .string _, by simp⟩

theorem Alias.storable_toFields (depth : Nat) (entry : Alias)
    : Storable (depth + 1) (.object entry.toFields) := by
  refine Json.storable_ofOptional (by simp) ?_
  simp only [List.forall_mem_cons]
  exact ⟨Json.storable_string _ _, Json.storable_string _ _, Json.storable_map_string _ _, by simp⟩

theorem PathEntry.storable_toFields (depth : Nat) (entry : PathEntry)
    : Storable (depth + 1) (.object entry.toFields) := by
  refine .object (by simp [toFields]) ?_
  simp only [toFields, List.forall_mem_cons]
  exact ⟨.string _, .string _, by simp⟩

theorem EnvVar.storable_toFields (depth : Nat) (entry : EnvVar)
    : Storable (depth + 1) (.object entry.toFields) := by
  refine Json.storable_ofOptional (by simp) ?_
  simp only [List.forall_mem_cons]
  exact ⟨Json.storable_string _ _, Json.storable_string _ _, Json.storable_map_string _ _,
    Json.storable_map_string _ _, by simp⟩

theorem Ice.storable_toFields (depth : Nat) (ice : Ice)
    : Storable (depth + 1) (.object ice.toFields) := by
  have text := Json.storable_map_string depth
  have number := Json.storable_map_natural depth
  have switch := Json.storable_ofFlag depth
  refine Json.storable_ofOptional (by simp) ?_
  simp only [List.forall_mem_cons]
  exact ⟨text _, text _, text _, text _, text _, text _, number _, switch _, switch _, number _,
    switch _, switch _, text _, text _, text _, text _, text _, text _, text _, by simp⟩

theorem Plugin.storable_toFields (depth : Nat) (plugin : Plugin)
    : Storable (depth + 2) (.object plugin.toFields) := by
  refine Json.storable_ofOptional (by simp) ?_
  simp only [List.forall_mem_cons]
  refine ⟨?_, Json.storable_string _ _, Json.storable_map_string _ _, ?_, by simp⟩
  · split
    · simp
    · exact Json.storable_string _ plugin.id
  · intro value present
    obtain ⟨ice, -, rfl⟩ := Option.map_eq_some_iff.mp present
    exact ice.storable_toFields depth

theorem ShellOption.storable_toFields (depth : Nat) (entry : ShellOption)
    : Storable (depth + 1) (.object entry.toFields) := by
  refine Json.storable_ofOptional (by simp) ?_
  simp only [List.forall_mem_cons]
  exact ⟨Json.storable_string _ _, Json.storable_map_string _ _, by simp⟩

namespace Configuration

/-- Four levels of nesting hold a configuration: its own, its lists, their entries, and modifiers. -/
theorem storable_toJson (depth : Nat) (config : Configuration)
    : Storable (depth + 4) config.toJson := by
  refine .object (by simp [toFields]) ?_
  simp only [toFields, List.forall_mem_cons]
  exact ⟨.natural _, config.bootstrap.storable_toFields _,
    Json.storable_ofRecords (Alias.storable_toFields _) _,
    Json.storable_ofRecords (PathEntry.storable_toFields _) _,
    Json.storable_ofRecords (EnvVar.storable_toFields _) _,
    Json.storable_ofRecords (Plugin.storable_toFields _) _,
    Json.storable_ofRecords (ShellOption.storable_toFields _) _, .string _, by simp⟩

/-- The stored text of a configuration is read as the document that the configuration was written as. -/
theorem read_serialize (config : Configuration) : Json.read config.serialize = .ok config.toJson :=
  Json.read_pretty (config.storable_toJson 123)

/-- Nothing of a configuration is lost in its stored text, provided that it is of the current version
and has no empty paths, and that no variable names an empty owner.
-/
theorem ofFields_read_serialize (config : Configuration) (current : config.version = schemaVersion)
    (brewPath : config.bootstrap.brewPath ≠ "") (zinitHome : config.bootstrap.zinitHome ≠ "")
    (owners : ∀ entry ∈ config.envVars, entry.owner ≠ some "")
    : ∃ fields,
        Json.read config.serialize = .ok (.object fields)
        ∧ Configuration.ofFields fields = config :=
  ⟨config.toFields, config.read_serialize,
    config.ofFields_toFields_iff.mpr ⟨current, ⟨brewPath, zinitHome⟩, owners⟩⟩

/-- A configuration with texts that need escapes, texts that are empty but present, an id that is still
to be assigned, an empty bag of modifiers and the largest number.
-/
def escapeSample : Configuration where
  aliases := [{ name := "say \"hi\"", command := "\\ \n\t\x00\x1f\x7f/é😀", description := some "" }]
  envVars := [{ key := "KEY", group := some "", owner := some "gone" }]
  plugins :=
    [
      { name := "a/b", ice := some {} },
      { id := "p", ice := some { depth := some 18446744073709551615, wait := some 0, pick := some "" } }
    ]
  initScript := "echo '\\'\r\n"

theorem ofFields_read_serialize_escapeSample
    : escapeSample.version = schemaVersion
      ∧ escapeSample.bootstrap.brewPath ≠ ""
      ∧ escapeSample.bootstrap.zinitHome ≠ ""
      ∧ (∀ entry ∈ escapeSample.envVars, entry.owner ≠ some "")
      ∧ ∃ fields,
          Json.read escapeSample.serialize = .ok (.object fields)
          ∧ Configuration.ofFields fields = escapeSample := by
  have current : escapeSample.version = schemaVersion := rfl
  have brewPath : escapeSample.bootstrap.brewPath ≠ "" := by decide
  have zinitHome : escapeSample.bootstrap.zinitHome ≠ "" := by decide
  have owners : ∀ entry ∈ escapeSample.envVars, entry.owner ≠ some "" := by decide
  exact ⟨current, brewPath, zinitHome, owners,
    ofFields_read_serialize escapeSample current brewPath zinitHome owners⟩

end Configuration

end ZshStartup
