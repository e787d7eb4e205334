import ZshStartup.Proofs.Configuration.Normalization
import ZshStartup.Script.Section

/-! What a script does not show. Ids, owners and groups leave no trace in any of its sections, so a
configuration that was stored and read back still describes the same script.
-/

namespace ZshStartup

-----------------------------------------------------------------------------------------
-- Lines
-----------------------------------------------------------------------------------------

theorem EnvVar.line_link (plugins : List Plugin) (entry : EnvVar)
    : (entry.link plugins).line = entry.line := by
  unfold line
  rw [key_link, value_link]

theorem EnvVar.line_reread (entry : EnvVar) : entry.reread.line = entry.line :=
  rfl

theorem Plugin.map_directive_assignIds (plugins : List Plugin)
    : (assignIds plugins).map directive = plugins.map directive :=
  map_assignIds directive (fun _ _ => rfl) plugins

-----------------------------------------------------------------------------------------
-- Sections
-----------------------------------------------------------------------------------------

namespace Script.Section

/-- Assigned ids show in no section. -/
@[simp]
theorem entries_assignIds (part : Section) (config : Configuration)
    : part.entries config.assignIds = part.entries config := by
  cases part with
  | plugins => exact Plugin.map_directive_assignIds config.plugins
  | boot | envVars | path | aliases | options | initScript => rfl

/-- Settled owners show in no section. -/
@[simp]
theorem entries_linkOwners (part : Section) (config : Configuration)
    : part.entries config.linkOwners = part.entries config := by
  cases part with
  | envVars =>
      simp only [entries, Configuration.linkOwners, List.map_map]
      exact List.map_congr_left fun entry _ => entry.line_link config.plugins
  | boot | path | aliases | options | plugins | initScript => rfl

/-- A document shows in no section that a configuration was read back from it, unless a path of the
configuration was empty.
-/
theorem entries_normalize_toJson (part : Section) {config : Configuration}
    (brewPath : config.bootstrap.brewPath ≠ "") (zinitHome : config.bootstrap.zinitHome ≠ "")
    : part.entries (.normalize config.toJson) = part.entries config := by
  have bootstrap := config.bootstrap.orDefaults_eq_self_iff.mpr ⟨brewPath, zinitHome⟩
  rw [Configuration.normalize, entries_linkOwners, entries_assignIds,
    Configuration.ofDocument_toJson, Configuration.ofFields_toFields, bootstrap]
  cases part with
  | envVars =>
      simp only [entries, List.map_map]
      exact List.map_congr_left fun entry _ => entry.line_reread
  | boot | path | aliases | options | plugins | initScript => rfl

end Script.Section

-----------------------------------------------------------------------------------------
-- Scripts
-----------------------------------------------------------------------------------------

namespace Configuration

/-- Configurations describe the same script if they have the same entries in every section. -/
theorem render_congr {config next : Configuration}
    (same : ∀ part : Script.Section, part.entries next = part.entries config)
    : next.render = config.render := by
  simp only [render, Script.Section.render, Script.Section.lines, same]

theorem render_normalize_toJson {config : Configuration}
    (brewPath : config.bootstrap.brewPath ≠ "") (zinitHome : config.bootstrap.zinitHome ≠ "")
    : (normalize config.toJson).render = config.render :=
  render_congr fun part => part.entries_normalize_toJson brewPath zinitHome

theorem parse_serialize (config : Configuration)
    : parse config.serialize = .ok (normalize config.toJson) := by
  rw [parse, read_serialize]
  rfl

/-- A stored text is read as a configuration with the same script, whatever the ids, owners and groups
of the configuration that was stored, provided that it has no empty paths.
-/
theorem exists_parse_serialize_render (config : Configuration)
    (brewPath : config.bootstrap.brewPath ≠ "") (zinitHome : config.bootstrap.zinitHome ≠ "")
    : ∃ reread, parse config.serialize = .ok reread ∧ reread.render = config.render :=
  ⟨_, config.parse_serialize, render_normalize_toJson brewPath zinitHome⟩

/-- A configuration in which ids are missing and repeated, a variable names an owner that is gone, and
another one is grouped under a plugin that does not own it.
-/
def looseSample : Configuration where
  plugins := [{ name := "a/b" }, { id := "p", name := "c" }, { id := "p", name := "d" }]
  envVars :=
    [
      { key := "K", value := "1", group := some "a/b", owner := some "gone" },
      { key := "L", value := "2", group := some "a/b" },
      { key := "M", value := "3", owner := some "" }
    ]

theorem exists_parse_serialize_render_looseSample
    : looseSample.bootstrap.brewPath ≠ ""
      ∧ looseSample.bootstrap.zinitHome ≠ ""
      ∧ normalize looseSample.toJson ≠ looseSample
      ∧ ∃ reread,
          parse looseSample.serialize = .ok reread ∧ reread.render = looseSample.render := by
  have brewPath : looseSample.bootstrap.brewPath ≠ "" := by decide
  have zinitHome : looseSample.bootstrap.zinitHome ≠ "" := by decide
  exact ⟨brewPath, zinitHome, by decide,
    exists_parse_serialize_render looseSample brewPath zinitHome⟩

end Configuration

end ZshStartup
