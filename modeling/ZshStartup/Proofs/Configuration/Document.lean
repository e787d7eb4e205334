import ZshStartup.Proofs.Configuration.Migration
import ZshStartup.Proofs.Configuration.RoundTrip

/-! What a document says, field by field. The defaults that stand in for missing fields are those that
decoding puts there anyway, and of the other fields migration reaches the plugins alone.
-/

namespace ZshStartup

open Json (Fields)

-----------------------------------------------------------------------------------------
-- Defaults
-----------------------------------------------------------------------------------------

namespace Json.Fields

/-- A base that says nothing of a text does not show. -/
theorem text_overlay {base : Fields} {key : String} (silent : base.text key = "")
    (upper : Fields)
    : (base.overlay upper).text key = upper.text key := by
  unfold text string? at *
  rw [get?_overlay]
  cases upper.get? key with
  | none => simpa using silent
  | some value => simp

/-- A base that has no records under a key does not show. -/
theorem records_overlay {base : Fields} {key : String} (silent : base.records key = [])
    (upper : Fields)
    : (base.overlay upper).records key = upper.records key := by
  unfold records at *
  rw [get?_overlay]
  cases upper.get? key with
  | none => simpa using silent
  | some value => simp

end Json.Fields

/-- The default configuration does not show in what is decoded over it. -/
theorem Configuration.ofFields_overlay (fields : Fields)
    : ofFields ((toFields {}).overlay fields) = ofFields fields := by
  have bootstrap
      : (((Fields.overlay (toFields {}) fields).record? "zinitInit").map
            Bootstrap.ofFields).getD .builtin
        = ((fields.record? "zinitInit").map Bootstrap.ofFields).getD .builtin := by
    unfold Fields.record?
    rw [Fields.get?_overlay]
    cases fields.get? "zinitInit" with
    | none => exact Bootstrap.ofFields_toFields .builtin
    | some value => rfl
  have silent : ∀ key ∈ ["aliases", "pathVars", "envVars", "plugins", "zshOptions"],
      (toFields {}).records key = [] := by
    simp only [List.forall_mem_cons]
    exact ⟨rfl, rfl, rfl, rfl, rfl, by simp⟩
  have records : ∀ key ∈ ["aliases", "pathVars", "envVars", "plugins", "zshOptions"],
      ((toFields {}).overlay fields).records key = fields.records key :=
    fun key member => Fields.records_overlay (silent key member) fields
  have initScript := Fields.text_overlay (show (toFields {}).text "initScript" = "" from rfl) fields
  simp only [List.forall_mem_cons] at records
  obtain ⟨aliases, pathEntries, envVars, plugins, options, -⟩ := records
  simp only [ofFields, bootstrap, aliases, pathEntries, envVars, plugins, options, initScript]

-----------------------------------------------------------------------------------------
-- Migration
-----------------------------------------------------------------------------------------

/-- Migration stamps the version and restates the plugins of an old document. -/
theorem Legacy.get?_migrate (root : Fields) (key : String)
    : (migrate root).get? key
      = if key = "version" then
          some (.natural schemaVersion.toUInt64)
        else if key = "plugins" ∧ version root < 2 then
          (root.get? "plugins").map migratePlugins
        else
          root.get? key := by
  simp only [migrate, Fields.get?_insert]
  by_cases stamp : key = "version"
  · simp [stamp]
  · rw [if_neg stamp, if_neg stamp]
    cases plugins : root.get? "plugins" with
    | none =>
        by_cases same : key = "plugins" <;> simp [same, plugins]
    | some value =>
        by_cases old : version root < 2
        · by_cases same : key = "plugins" <;> simp [same, old]
        · by_cases same : key = "plugins" <;> simp [same, old, plugins]

theorem Legacy.records_migratePlugins (plugins : Json)
    : (migratePlugins plugins).records = plugins.records.map migratePlugin := by
  cases plugins with
  | array items =>
      induction items with
      | nil => rfl
      | cons item items ih =>
          simp only [migratePlugins, Json.records, List.map_cons, List.filterMap_cons] at ih ⊢
          cases item <;> simp [Json.record?, ih]
  | _ => rfl

/-- The plugin that an object describes in a document of a version. -/
def Plugin.ofVersion (version : UInt64) (fields : Fields) : Plugin :=
  if version < 2 then
    { ofFields fields with ice := (Legacy.ice? fields).map Ice.ofFields }
  else
    ofFields fields

/-- A document describes what its fields do, save for the modifiers of old plugins. -/
theorem Configuration.ofDocument_eq (raw : Json)
    : ofDocument raw
      = { ofFields raw.fields with
          plugins :=
            (raw.fields.records "plugins").map (Plugin.ofVersion (Legacy.version raw.fields)) } := by
  have same : ∀ key ∈ ["zinitInit", "aliases", "pathVars", "envVars", "zshOptions", "initScript"],
      (Legacy.migrate raw.fields).get? key = raw.fields.get? key := by
    simp [Legacy.get?_migrate]
  have plugins : ((Legacy.migrate raw.fields).records "plugins").map Plugin.ofFields
      = (raw.fields.records "plugins").map (Plugin.ofVersion (Legacy.version raw.fields)) := by
    unfold Fields.records
    rw [Legacy.get?_migrate, if_neg (by decide)]
    by_cases old : Legacy.version raw.fields < 2
    · have restate (value : Json)
          : (Legacy.migratePlugins value).records.map Plugin.ofFields
            = value.records.map (Plugin.ofVersion (Legacy.version raw.fields)) := by
        simp [Legacy.records_migratePlugins, Plugin.ofVersion, old, Legacy.ofFields_migratePlugin]
      cases raw.fields.get? "plugins" with
      | none => simp
      | some value => simp [old, restate]
    · have keep : Plugin.ofVersion (Legacy.version raw.fields) = Plugin.ofFields := by
        funext fields
        simp [Plugin.ofVersion, old]
      simp [old, keep]
  simp only [List.forall_mem_cons] at same
  obtain ⟨bootstrap, aliases, pathEntries, envVars, options, initScript, -⟩ := same
  rw [ofDocument, ofFields_overlay]
  unfold ofFields
  rw [plugins]
  simp only [Fields.record?, Fields.records, Fields.text, Fields.string?, bootstrap, aliases,
    pathEntries, envVars, options, initScript]

/-- A document that was written of a configuration has no older fields, so all that decoding sees of it
is what was written.
-/
theorem Configuration.ofDocument_toJson (config : Configuration)
    : ofDocument config.toJson = ofFields config.toFields := by
  have plain (version : UInt64) (plugin : Plugin)
      : Plugin.ofVersion version plugin.toFields = Plugin.ofFields plugin.toFields := by
    have older : Legacy.modifiers plugin.toFields = [] := by
      have absent : ∀ key ∈ ["loadType", "waitTime", "conditions"],
          plugin.toFields.get? key = Fields.get? [] key := by
        simp (disch := simp) [Plugin.toFields, Fields.get?_ofOptional, List.lookup_cons]
      rw [Legacy.modifiers_congr absent]
      rfl
    unfold Plugin.ofVersion
    split
    · rw [Legacy.ice?_of_modifiers_eq_nil older]
      rfl
    · rfl
  rw [ofDocument_eq, show config.toJson.fields = config.toFields from rfl]
  have plugins (decode : Fields → Plugin)
      : (config.toFields.records "plugins").map decode
        = config.plugins.map fun plugin => decode plugin.toFields := by
    simp [Fields.records, toFields, Fields.get?, List.lookup_cons, Json.map_records_ofRecords]
  rw [plugins]
  simp only [plain]
  rw [← plugins]
  rfl

end ZshStartup
