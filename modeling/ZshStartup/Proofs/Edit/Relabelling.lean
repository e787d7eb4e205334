import ZshStartup.Proofs.Edit.Identity
import Mathlib.Data.List.Basic

/-! What renaming a plugin changes in a linked configuration: the name of the plugin, the group of the
variables that it owns and, where a variable without an owner is grouped under the new name already, the
owner of that one.
-/

namespace ZshStartup

/-- Gives a name to the plugin with an id. -/
def Plugin.rename (id name : String) (plugin : Plugin) : Plugin :=
  if plugin.id = id then { plugin with name } else plugin

@[simp]
theorem Plugin.id_rename (id name : String) (plugin : Plugin)
    : (plugin.rename id name).id = plugin.id := by
  unfold rename
  split <;> rfl

-----------------------------------------------------------------------------------------
-- Single variables
-----------------------------------------------------------------------------------------

namespace EnvVar

/-- Groups a variable under a name if a plugin owns it. -/
def relabel (id name : String) (entry : EnvVar) : EnvVar :=
  if entry.owner = some id then { entry with group := some name } else entry

/-- A variable that has no owner and is grouped under a name. -/
def Loose (name : String) (entry : EnvVar) : Prop :=
  entry.owner = none ∧ entry.group = some name

instance (name : String) (entry : EnvVar) : Decidable (entry.Loose name) :=
  inferInstanceAs (Decidable (_ ∧ _))

/-- Gives a variable to a plugin if it is loose under a name. -/
def adopt (id name : String) (entry : EnvVar) : EnvVar :=
  if entry.Loose name then { entry with owner := some id } else entry

variable {plugins : List Plugin} {entry : EnvVar} {id : String}

/-- In a linked configuration, a rename regroups the variables of the plugin, and the plugin takes those that
are loose under its new name. All other variables are linked as they were.
-/
theorem link_map_rename (distinct : (plugins.map Plugin.id).Nodup)
    (known : id ∈ plugins.map Plugin.id) (linked : entry.Linked plugins) (name : String)
    : entry.link (plugins.map (Plugin.rename id name)) = (entry.relabel id name).adopt id name := by
  have step := linksTo_link (plugins.map (Plugin.rename id name)) entry
  generalize entry.link _ = next at step ⊢
  cases step with
  | @refreshed plugin member owner =>
      obtain ⟨source, listed, rfl⟩ := List.mem_map.mp member
      rw [Plugin.id_rename] at owner
      obtain ⟨holder, held, same, grouped⟩ := linked.owned _ owner
      obtain rfl := List.inj_on_of_nodup_map distinct held listed same
      unfold relabel adopt Loose Plugin.rename
      cases entry
      by_cases own : holder.id = id <;> simp_all
  | @dropped other owner missing =>
      obtain ⟨holder, held, rfl, -⟩ := linked.owned other owner
      exact absurd (Plugin.id_rename id name holder) (missing _ (List.mem_map_of_mem held))
  | @adopted plugin member owner group =>
      obtain ⟨source, listed, rfl⟩ := List.mem_map.mp member
      have own : source.id = id := by
        by_contra other
        rw [Plugin.rename, if_neg other] at group
        exact linked.unowned owner source listed group
      rw [Plugin.rename, if_pos own] at group
      simp [relabel, adopt, Loose, owner, group, own]
  | kept owner apart =>
      obtain ⟨plugin, listed, own⟩ := List.mem_map.mp known
      have other := apart _ (List.mem_map_of_mem listed)
      rw [Plugin.rename, if_pos own] at other
      simp [relabel, adopt, Loose, owner, other]

theorem relabel_of_loose (id : String) {name : String} (loose : entry.Loose name)
    : entry.relabel id name = entry :=
  if_neg (by simp [loose.1])

/-- Relabelling leaves no loose variables behind that were not there. -/
theorem loose_relabel_iff (id name : String) (entry : EnvVar)
    : (entry.relabel id name).Loose name ↔ entry.Loose name := by
  unfold relabel Loose
  split <;> simp_all

theorem owner_relabel (id name : String) (entry : EnvVar)
    : (entry.relabel id name).owner = entry.owner := by
  unfold relabel
  split <;> rfl

theorem adopt_eq_self_iff (id name : String) (entry : EnvVar)
    : entry.adopt id name = entry ↔ ¬entry.Loose name := by
  unfold adopt
  split
  · next loose =>
      refine iff_of_false (fun same => ?_) (not_not_intro loose)
      have gained := congrArg EnvVar.owner same
      simp [loose.1] at gained
  · next loose => exact iff_of_true rfl loose

end EnvVar

-----------------------------------------------------------------------------------------
-- Configurations
-----------------------------------------------------------------------------------------

namespace Configuration

/-- The indices of the variables that a plugin owns. -/
def ownedAt (config : Configuration) (id : String) : List Nat :=
  config.envVars.findIdxs (·.owner == some id)

/-- The variables at these indices are those of the plugin, in order. -/
theorem map_getElem?_ownedAt (config : Configuration) (id : String)
    : (config.ownedAt id).map (config.envVars[·]?) = (config.envVarsOf id).map some := by
  unfold ownedAt envVarsOf
  induction config.envVars with
  | nil => rfl
  | cons entry entries ih =>
      rw [List.findIdxs_cons, List.findIdxs_start, List.filter_cons]
      split <;> simpa [Function.comp_def] using ih

/-- A configuration in which a plugin has another name, and its variables are grouped under it. -/
def relabelled (config : Configuration) (id name : String) : Configuration :=
  { config with
    plugins := config.plugins.map (Plugin.rename id name)
    envVars := config.envVars.map (EnvVar.relabel id name) }

/-- A configuration in which a plugin owns the variables that are loose under a name. -/
def adopted (config : Configuration) (id name : String) : Configuration :=
  { config with envVars := config.envVars.map (EnvVar.adopt id name) }

variable {config : Configuration} {id : String}

theorem linkOwners_renameIn (linked : config.Linked) (known : id ∈ config.plugins.map Plugin.id)
    (name : String)
    : { config with plugins := renameIn config.plugins id name }.linkOwners
      = (config.relabelled id name).adopted id name := by
  have plugins : renameIn config.plugins id name = config.plugins.map (Plugin.rename id name) :=
    renameIn_eq_map linked.identified.distinct id name
  have envVars : config.envVars.map (EnvVar.link (config.plugins.map (Plugin.rename id name)))
      = (config.envVars.map (EnvVar.relabel id name)).map (EnvVar.adopt id name) := by
    rw [List.map_map]
    exact List.map_congr_left fun entry member =>
      EnvVar.link_map_rename linked.identified.distinct known (linked.linked entry member) name
  simp only [linkOwners, plugins, envVars, relabelled, adopted]

theorem adopted_relabelled_eq_iff (config : Configuration) (id name : String)
    : (config.relabelled id name).adopted id name = config.relabelled id name
      ↔ ∀ entry ∈ config.envVars, ¬entry.Loose name := by
  have settled
      : (config.relabelled id name).adopted id name = config.relabelled id name
        ↔ (config.relabelled id name).envVars.map (EnvVar.adopt id name)
          = (config.relabelled id name).envVars :=
    ⟨congrArg Configuration.envVars,
      fun same => congrArg (fun envVars => { config.relabelled id name with envVars }) same⟩
  rw [settled, map_eq_self_iff]
  simp only [relabelled, List.forall_mem_map, EnvVar.adopt_eq_self_iff, EnvVar.loose_relabel_iff]

theorem ownedAt_adopted_relabelled_iff (config : Configuration) (id name : String)
    : (∀ other, ((config.relabelled id name).adopted id name).ownedAt other = config.ownedAt other)
      ↔ ∀ entry ∈ config.envVars, ¬entry.Loose name := by
  constructor
  · intro same entry member loose
    obtain ⟨index, within, rfl⟩ := List.mem_iff_getElem.mp member
    have gained : index ∈ ((config.relabelled id name).adopted id name).ownedAt id := by
      have adopted : (config.envVars[index].relabel id name).adopt id name
          = { config.envVars[index] with owner := some id } := by
        rw [EnvVar.relabel_of_loose id loose, EnvVar.adopt, if_pos loose]
      simp [ownedAt, Configuration.adopted, relabelled, within, adopted]
    rw [same, ownedAt, List.mem_findIdxs_iff_pos_getElem within] at gained
    simp [loose.1] at gained
  · intro calm other
    rw [(adopted_relabelled_eq_iff config id name).mpr calm]
    simp only [ownedAt, relabelled, List.findIdxs_map]
    simp [Function.comp_def, EnvVar.owner_relabel]

end Configuration

namespace Edit

/-- Renaming a plugin of a linked configuration changes its name and groups its variables under it. Nothing
else changes, and every plugin owns the variables that it owned, exactly if no variable is loose under the
new name; such a variable falls to the renamed plugin. A rename that finds no plugin changes nothing.
-/
theorem perform_rename_of_normal {config : Configuration}
    (normal : Configuration.normalize config.toJson = config) (id name : String)
    : (id ∉ config.plugins.map Plugin.id → (rename id name).perform config = (config, .flag false))
      ∧ (id ∈ config.plugins.map Plugin.id →
          ∃ renamed,
            (rename id name).perform config = (renamed, .flag true)
            ∧ renamed = (config.relabelled id name).adopted id name
            ∧ (renamed = config.relabelled id name ↔ ∀ entry ∈ config.envVars, ¬entry.Loose name)
            ∧ ((∀ other, renamed.ownedAt other = config.ownedAt other)
              ↔ ∀ entry ∈ config.envVars, ¬entry.Loose name)) := by
  rw [Configuration.normalize_toJson_eq_reloaded, Configuration.reloaded_eq_self_iff] at normal
  have steps := stepsTo_perform config (rename id name)
  generalize (rename id name).perform config = result at steps ⊢
  cases steps with
  | renamed _ known =>
      refine ⟨fun missing => absurd known missing, fun _ => ⟨_, rfl, ?_⟩⟩
      rw [Configuration.linkOwners_renameIn normal known]
      exact ⟨rfl, Configuration.adopted_relabelled_eq_iff config id name,
        Configuration.ownedAt_adopted_relabelled_iff config id name⟩
  | unknown _ missing => exact ⟨fun _ => rfl, fun known => absurd known missing⟩
  | arranged _ within => cases within

/-- A linked configuration with two plugins, the variable of one of them, and one that has no owner. -/
def labelledSetup : Configuration where
  plugins := [{ id := "p", name := "a" }, { id := "q", name := "b" }]
  envVars :=
    [{ key := "K", group := some "a", owner := some "p" }, { key := "L", group := some "tools" }]

/-- Two plugins of one name keep their variables apart. -/
theorem perform_rename_of_normal_labelledSetup
    : Configuration.normalize labelledSetup.toJson = labelledSetup
      ∧ "q" ∈ labelledSetup.plugins.map Plugin.id
      ∧ "r" ∉ labelledSetup.plugins.map Plugin.id
      ∧ (rename "q" "a").perform labelledSetup = (labelledSetup.relabelled "q" "a", .flag true)
      ∧ (rename "r" "a").perform labelledSetup = (labelledSetup, .flag false) := by
  have normal : Configuration.normalize labelledSetup.toJson = labelledSetup := by decide
  have known : "q" ∈ labelledSetup.plugins.map Plugin.id := by decide
  have missing : "r" ∉ labelledSetup.plugins.map Plugin.id := by decide
  have calm : ∀ entry ∈ labelledSetup.envVars, ¬entry.Loose "a" := by decide
  obtain ⟨renamed, performed, -, same, -⟩ := (perform_rename_of_normal normal "q" "a").2 known
  rw [same.mpr calm] at performed
  exact ⟨normal, known, missing, performed, (perform_rename_of_normal normal "r" "a").1 missing⟩

/-- A plugin that takes the name of a group takes the variables in it that have no owner. -/
theorem perform_rename_labelledSetup_tools
    : Configuration.normalize labelledSetup.toJson = labelledSetup
      ∧ "p" ∈ labelledSetup.plugins.map Plugin.id
      ∧ (rename "p" "tools").perform labelledSetup
        ≠ (labelledSetup.relabelled "p" "tools", .flag true)
      ∧ labelledSetup.ownedAt "p" = [0]
      ∧ ((rename "p" "tools").perform labelledSetup).1.ownedAt "p" = [0, 1] := by
  decide

end Edit

end ZshStartup
