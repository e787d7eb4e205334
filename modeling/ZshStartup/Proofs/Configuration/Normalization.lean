import ZshStartup.Proofs.Configuration.Document
import ZshStartup.Proofs.Configuration.Identity

/-! Normal configurations. Those that normalization leaves alone are the linked ones, and one pass
reaches them unless a variable names a missing owner under the name of a plugin that is there: the
pass drops the owner, and only the next one finds the plugin.
-/

namespace ZshStartup

-----------------------------------------------------------------------------------------
-- Owners
-----------------------------------------------------------------------------------------

namespace EnvVar

variable {plugins : List Plugin} {entry : EnvVar}

/-- A variable that is grouped under its owner or, if it has none, under no plugin. -/
structure Linked (plugins : List Plugin) (entry : EnvVar) : Prop where
  owned
    : ∀ id, entry.owner = some id →
        ∃ plugin ∈ plugins, plugin.id = id ∧ entry.group = some plugin.name
  unowned : entry.owner = none → ∀ plugin ∈ plugins, entry.group ≠ some plugin.name

/-- A variable that names an owner which is missing, under the name of a plugin which is not. -/
def Stray (plugins : List Plugin) (entry : EnvVar) : Prop :=
  (∃ id, entry.owner = some id ∧ ∀ plugin ∈ plugins, plugin.id ≠ id)
  ∧ ∃ plugin ∈ plugins, entry.group = some plugin.name

/-- What linking makes of a variable, one case for each of its rules. -/
inductive LinksTo (plugins : List Plugin) (entry : EnvVar) : EnvVar → Prop
  | refreshed {plugin} (member : plugin ∈ plugins) (owner : entry.owner = some plugin.id)
    (first : plugins.find? (·.id == plugin.id) = some plugin)
    : LinksTo plugins entry { entry with group := some plugin.name }
  | dropped {id} (owner : entry.owner = some id) (missing : ∀ plugin ∈ plugins, plugin.id ≠ id)
    : LinksTo plugins entry { entry with owner := none }
  | adopted {plugin} (member : plugin ∈ plugins) (owner : entry.owner = none)
    (group : entry.group = some plugin.name)
    (first : plugins.find? (·.name == plugin.name) = some plugin)
    : LinksTo plugins entry { entry with owner := some plugin.id }
  | kept (owner : entry.owner = none) (apart : ∀ plugin ∈ plugins, entry.group ≠ some plugin.name)
    : LinksTo plugins entry entry

theorem linksTo_link (plugins : List Plugin) (entry : EnvVar)
    : LinksTo plugins entry (entry.link plugins) := by
  unfold link
  cases owner : entry.owner with
  | some id =>
      cases found : plugins.find? (·.id == id) with
      | some plugin =>
          have same : plugin.id = id := by simpa using List.find?_some found
          subst same
          simpa [found, owner] using LinksTo.refreshed (List.mem_of_find?_eq_some found) owner found
      | none =>
          have missing : ∀ plugin ∈ plugins, plugin.id ≠ id := by
            simpa using List.find?_eq_none.mp found
          simpa [found] using LinksTo.dropped owner missing
  | none =>
      cases found : entry.group.bind fun group => plugins.find? (·.name == group) with
      | some plugin =>
          obtain ⟨group, grouped, first⟩ := Option.bind_eq_some_iff.mp found
          have same : plugin.name = group := by simpa using List.find?_some first
          subst same
          exact .adopted (List.mem_of_find?_eq_some first) owner grouped first
      | none =>
          refine .kept owner fun plugin member grouped => ?_
          rw [grouped, Option.bind_some] at found
          simpa using List.find?_eq_none.mp found plugin member

/-- Where ids are distinct, linking leaves the linked variables alone and no others. -/
theorem link_eq_self_iff (distinct : (plugins.map Plugin.id).Nodup) (entry : EnvVar)
    : entry.link plugins = entry ↔ entry.Linked plugins := by
  have step := linksTo_link plugins entry
  generalize entry.link plugins = linked at step ⊢
  cases step with
  | @refreshed plugin member owner first =>
      constructor
      · intro same
        have grouped : entry.group = some plugin.name := (congrArg EnvVar.group same).symm
        exact ⟨fun id owned => ⟨plugin, member, by simp_all, grouped⟩, by simp [owner]⟩
      · intro linked
        obtain ⟨other, otherMember, same, grouped⟩ := linked.owned plugin.id owner
        obtain rfl := List.inj_on_of_nodup_map distinct otherMember member same
        cases entry
        simp_all
  | @dropped id owner missing =>
      constructor
      · intro same
        have gone := congrArg EnvVar.owner same
        simp [owner] at gone
      · intro linked
        obtain ⟨plugin, member, same, -⟩ := linked.owned id owner
        exact absurd same (missing plugin member)
  | @adopted plugin member owner group first =>
      constructor
      · intro same
        have gained := congrArg EnvVar.owner same
        simp [owner] at gained
      · exact fun linked => absurd group (linked.unowned owner plugin member)
  | kept owner apart => exact iff_of_true rfl ⟨by simp [owner], fun _ => apart⟩

/-- Linking ends in a linked variable unless it drops the owner of a stray one. -/
theorem linked_link_iff (plugins : List Plugin) (entry : EnvVar)
    : (entry.link plugins).Linked plugins ↔ ¬entry.Stray plugins := by
  have step := linksTo_link plugins entry
  generalize entry.link plugins = linked at step ⊢
  cases step with
  | @refreshed plugin member owner first =>
      refine iff_of_true ⟨?_, by simp [owner]⟩ ?_
      · intro id owned
        exact ⟨plugin, member, by simp_all, rfl⟩
      · rintro ⟨⟨id, owned, missing⟩, -⟩
        exact missing plugin member (by simp_all)
  | @dropped id owner missing =>
      constructor
      · rintro linked ⟨-, plugin, member, grouped⟩
        exact linked.unowned rfl plugin member grouped
      · intro calm
        refine ⟨by simp, fun _ plugin member grouped => calm ?_⟩
        exact ⟨⟨id, owner, missing⟩, plugin, member, grouped⟩
  | @adopted plugin member owner group first =>
      refine iff_of_true ⟨?_, by simp⟩ (by simp [Stray, owner])
      intro id owned
      exact ⟨plugin, member, Option.some.inj owned, group⟩
  | kept owner apart =>
      exact iff_of_true ⟨by simp [owner], fun _ => apart⟩ (by simp [Stray, owner])

/-- No variable is stray once it was linked. -/
theorem not_stray_link (plugins : List Plugin) (entry : EnvVar)
    : ¬(entry.link plugins).Stray plugins := by
  have step := linksTo_link plugins entry
  generalize entry.link plugins = linked at step ⊢
  rintro ⟨⟨id, owned, missing⟩, -⟩
  cases step with
  | @refreshed plugin member owner first => exact missing plugin member (by simp_all)
  | dropped => cases owned
  | @adopted plugin member => exact missing plugin member (Option.some.inj owned)
  | kept owner => simp [owner] at owned

theorem owner_link_ne_empty (identified : Plugin.Identified plugins) (entry : EnvVar)
    : (entry.link plugins).owner ≠ some "" := by
  have step := linksTo_link plugins entry
  generalize entry.link plugins = linked at step ⊢
  cases step with
  | @refreshed plugin member owner first =>
      simpa [owner] using identified.assigned plugin member
  | dropped => simp
  | @adopted plugin member => simpa using identified.assigned plugin member
  | kept owner => simp [owner]

end EnvVar

-----------------------------------------------------------------------------------------
-- Configurations
-----------------------------------------------------------------------------------------

namespace Configuration

/-- A configuration as normalization leaves it: it is of the current version and has no empty paths,
every plugin has an id of its own, and every variable is linked.
-/
structure Linked (config : Configuration) : Prop where
  current : config.version = schemaVersion
  brewPath : config.bootstrap.brewPath ≠ ""
  zinitHome : config.bootstrap.zinitHome ≠ ""
  identified : Plugin.Identified config.plugins
  linked : ∀ entry ∈ config.envVars, entry.Linked config.plugins

/-- What was decoded is of the current version and has no empty paths. -/
theorem ofFields_complete (fields : Json.Fields)
    : (ofFields fields).version = schemaVersion
      ∧ (ofFields fields).bootstrap.brewPath ≠ ""
      ∧ (ofFields fields).bootstrap.zinitHome ≠ "" :=
  ⟨rfl, Bootstrap.orDefaults_ne_empty _⟩

/-- One pass over what a document says ends in a linked configuration exactly when no variable is
stray.
-/
theorem linked_normalize_iff (raw : Json)
    : (normalize raw).Linked
      ↔ ∀ entry ∈ (ofDocument raw).envVars,
          ¬entry.Stray (Plugin.assignIds (ofDocument raw).plugins) := by
  obtain ⟨current, brewPath, zinitHome⟩ :=
    ofFields_complete ((toFields {}).overlay (Legacy.migrate raw.fields))
  constructor
  · intro linked entry member
    exact (EnvVar.linked_link_iff _ entry).mp (linked.linked _ (List.mem_map_of_mem member))
  · intro calm
    refine ⟨current, brewPath, zinitHome, Plugin.identified_assignIds _, ?_⟩
    intro entry member
    obtain ⟨source, described, rfl⟩ := List.mem_map.mp member
    exact (EnvVar.linked_link_iff _ source).mpr (calm source described)

/-- A configuration that was written as a document and read back. -/
def reloaded (config : Configuration) : Configuration :=
  let plugins := Plugin.assignIds config.plugins
  { config with
    version := schemaVersion
    bootstrap := config.bootstrap.orDefaults
    plugins := plugins
    envVars := config.envVars.map fun entry => entry.reread.link plugins }

theorem normalize_toJson_eq_reloaded (config : Configuration)
    : normalize config.toJson = config.reloaded := by
  rw [normalize, ofDocument_toJson, ofFields_toFields]
  simp [assignIds, linkOwners, reloaded]

/-- Writing and reading back leaves the linked configurations alone and no others. -/
theorem reloaded_eq_self_iff (config : Configuration)
    : config.reloaded = config ↔ config.Linked := by
  constructor
  · intro same
    have identified := (Plugin.assignIds_eq_self_iff _).mp (congrArg Configuration.plugins same)
    obtain ⟨brewPath, zinitHome⟩ :=
      config.bootstrap.orDefaults_eq_self_iff.mp (congrArg Configuration.bootstrap same)
    refine ⟨(congrArg Configuration.version same).symm, brewPath, zinitHome, identified, ?_⟩
    intro entry member
    have fixed := map_eq_self_iff.mp (congrArg Configuration.envVars same) entry member
    rw [(Plugin.assignIds_eq_self_iff _).mpr identified] at fixed
    have owned : entry.owner ≠ some "" := fixed ▸ EnvVar.owner_link_ne_empty identified _
    rw [entry.reread_eq_self_iff.mpr owned] at fixed
    exact (EnvVar.link_eq_self_iff identified.distinct entry).mp fixed
  · intro linked
    have envVars : config.envVars.map (fun entry => entry.reread.link config.plugins)
        = config.envVars := by
      refine map_eq_self_iff.mpr fun entry member => ?_
      have owned : entry.owner ≠ some "" := by
        intro empty
        obtain ⟨plugin, found, same, -⟩ := (linked.linked entry member).owned "" empty
        exact linked.identified.assigned plugin found same
      rw [entry.reread_eq_self_iff.mpr owned]
      exact (EnvVar.link_eq_self_iff linked.identified.distinct entry).mpr
        (linked.linked entry member)
    have plugins := (Plugin.assignIds_eq_self_iff _).mpr linked.identified
    have bootstrap :=
      config.bootstrap.orDefaults_eq_self_iff.mpr ⟨linked.brewPath, linked.zinitHome⟩
    simp only [reloaded, plugins, bootstrap, envVars, ← linked.current]

-----------------------------------------------------------------------------------------
-- Fixed points
-----------------------------------------------------------------------------------------

/-- Normalization leaves the document of a configuration as it is exactly when the configuration is
linked.
-/
theorem normalize_toJson_eq_self_iff (config : Configuration)
    : normalize config.toJson = config ↔ config.Linked := by
  rw [normalize_toJson_eq_reloaded, reloaded_eq_self_iff]

/-- What is normal stays so unless the document left a variable stray: one that names an owner which no
plugin has after ids are assigned, under the name of a plugin.
-/
theorem normalize_toJson_normalize_iff (raw : Json)
    : normalize (normalize raw).toJson = normalize raw
      ↔ ∀ entry ∈ (ofDocument raw).envVars,
          ¬entry.Stray (Plugin.assignIds (ofDocument raw).plugins) := by
  rw [normalize_toJson_eq_reloaded, reloaded_eq_self_iff, linked_normalize_iff]

/-- A document with a stray variable. -/
def strayDocument : Json :=
  .object
    [
      ("plugins", .array [.object [("id", .string "p"), ("name", .string "a")]]),
      ("envVars",
        .array
          [
            .object
              [("key", .string "K"), ("value", .string "v"), ("group", .string "a"),
                ("plugin", .string "gone")]
          ])
    ]

theorem normalize_toJson_normalize_strayDocument
    : normalize (normalize strayDocument).toJson ≠ normalize strayDocument := by
  decide

/-- A second pass settles every document, since the first leaves no variable stray. -/
theorem linked_normalize_toJson_normalize (raw : Json)
    : (normalize (normalize raw).toJson).Linked := by
  have identified : Plugin.Identified (normalize raw).plugins := Plugin.identified_assignIds _
  rw [linked_normalize_iff, ofDocument_toJson, ofFields_toFields]
  simp only [(Plugin.assignIds_eq_self_iff _).mpr identified]
  intro entry member
  obtain ⟨source, normal, rfl⟩ := List.mem_map.mp member
  obtain ⟨described, -, rfl⟩ := List.mem_map.mp normal
  have owned := EnvVar.owner_link_ne_empty identified described
  have same := (EnvVar.reread_eq_self_iff _).mpr owned
  exact fun stray => EnvVar.not_stray_link _ described (same ▸ stray)

end Configuration

end ZshStartup
