import ZshStartup.Proofs.Configuration.Assignment
import ZshStartup.Proofs.Edit.Ownership

/-! What becomes of owned variables when a patch replaces the plugins of a linked configuration. A variable
follows the id of its owner. If no plugin of the patch has it, the variable loses its owner and keeps its
group, unless the patch leads to a new plugin that is given just this id.
-/

namespace ZshStartup

namespace Plugin

variable {plugins : List Plugin} {plugin : Plugin} {id : String}

/-- The plugin with an id is found where ids are distinct. -/
theorem find?_id_eq_some (distinct : (plugins.map Plugin.id).Nodup) (member : plugin ∈ plugins)
    : plugins.find? (·.id == plugin.id) = some plugin := by
  rw [← List.head?_filter, filter_id_eq_singleton distinct member]
  rfl

/-- The first plugin with an id still has it when ids are assigned, and no other one has. -/
theorem find?_assignIds (assigned : id ≠ "") (first : plugins.find? (·.id == id) = some plugin)
    : (assignIds plugins).find? (·.id == id) = some plugin := by
  obtain ⟨same, index, within, rfl, before⟩ := List.find?_eq_some_iff_getElem.mp first
  obtain rfl : plugins[index].id = id := by simpa using same
  have keeps : KeepsId plugins index plugins[index] := by
    refine ⟨assigned, fun repeated => ?_⟩
    obtain ⟨other, member, same⟩ := List.mem_map.mp repeated
    obtain ⟨place, earlier, rfl⟩ := List.mem_take_iff_getElem.mp member
    simpa [same] using before place (by omega)
  have kept := getElem?_assignIds_of_keepsId (List.getElem?_eq_getElem within) keeps
  exact find?_id_eq_some (identified_assignIds plugins).distinct (List.mem_of_getElem? kept)

end Plugin

-----------------------------------------------------------------------------------------
-- Owned variables
-----------------------------------------------------------------------------------------

namespace EnvVar

variable {plugins : List Plugin} {plugin : Plugin} {entry : EnvVar} {id : String}

theorem link_of_find?_eq_some (owned : entry.owner = some id)
    (found : plugins.find? (·.id == id) = some plugin)
    : entry.link plugins = { entry with group := some plugin.name } := by
  simp only [link, owned, found]

theorem link_of_find?_eq_none (owned : entry.owner = some id)
    (missing : plugins.find? (·.id == id) = none)
    : entry.link plugins = { entry with owner := none } := by
  simp only [link, owned, missing]

/-- A variable stays under a name: its owner has the name or, if it has no owner, its group is the name. -/
structure StaysUnder (plugins : List Plugin) (name : String) (entry : EnvVar) : Prop where
  owned
    : ∀ id, entry.owner = some id →
        ∃ plugin, plugins.find? (·.id == id) = some plugin ∧ plugin.name = name
  unowned : entry.owner = none → entry.group = some name

/-- A variable stays under the name of its owner unless there is a plugin with the owner's id that has
another name.
-/
theorem staysUnder_link_iff (distinct : (plugins.map Plugin.id).Nodup) {name : String}
    (owned : entry.owner = some id) (grouped : entry.group = some name)
    : (entry.link plugins).StaysUnder plugins name
      ↔ ∀ plugin ∈ plugins, plugin.id = id → plugin.name = name := by
  cases found : plugins.find? (·.id == id) with
  | none =>
      have missing : ∀ plugin ∈ plugins, plugin.id ≠ id := by
        simpa using List.find?_eq_none.mp found
      rw [link_of_find?_eq_none owned found]
      refine iff_of_true ⟨fun _ gone => (by cases gone), fun _ => grouped⟩ ?_
      exact fun plugin member same => absurd same (missing plugin member)
  | some plugin =>
      have same : plugin.id = id := by simpa using List.find?_some found
      rw [link_of_find?_eq_some owned found]
      constructor
      · intro stays other member repeated
        obtain ⟨first, again, named⟩ := stays.owned id owned
        obtain rfl : first = plugin := Option.some.inj (again.symm.trans found)
        obtain rfl := List.inj_on_of_nodup_map distinct member (List.mem_of_find?_eq_some found)
          (repeated.trans same.symm)
        exact named
      · intro named
        refine ⟨fun other holds => ?_, fun gone => by simp [owned] at gone⟩
        obtain rfl : id = other := Option.some.inj (owned.symm.trans holds)
        exact ⟨plugin, found, named plugin (List.mem_of_find?_eq_some found) same⟩

end EnvVar

-----------------------------------------------------------------------------------------
-- Patches
-----------------------------------------------------------------------------------------

namespace Configuration

/-- A patch that brings plugins along but no variables leaves each owned variable of a linked configuration
with its owner, under the name that this one has in the patch. If no plugin of the patch has the owner's id,
the variable stays under its group exactly as long as no plugin of another name is given that id.
-/
theorem patch_plugins_of_normal {config : Configuration} (normal : normalize config.toJson = config)
    {change : Patch} {plugins : List Plugin} (brings : change.plugins = some plugins)
    (spares : change.envVars = none) {index : Nat} {entry : EnvVar} {id group : String}
    (found : config.envVars[index]? = some entry) (owned : entry.owner = some id)
    (grouped : entry.group = some group)
    : ∃ next,
        (config.patch change).envVars[index]? = some next
        ∧ (∀ first,
            plugins.find? (·.id == id) = some first →
            next = { entry with group := some first.name }
            ∧ (config.patch change).plugin? id = some first)
        ∧ ((∀ plugin ∈ plugins, plugin.id ≠ id) →
            (next.StaysUnder (config.patch change).plugins group
              ↔ ∀ plugin ∈ (config.patch change).plugins, plugin.id = id → plugin.name = group)) := by
  rw [normalize_toJson_eq_reloaded, reloaded_eq_self_iff] at normal
  have assigned : id ≠ "" := by
    obtain ⟨plugin, member, rfl, -⟩ :=
      (normal.linked entry (List.mem_of_getElem? found)).owned id owned
    exact normal.identified.assigned plugin member
  have settled : (config.patch change).plugins = Plugin.assignIds plugins := by simp [brings]
  refine ⟨entry.link (Plugin.assignIds plugins), ?_, ?_, ?_⟩
  · rw [envVars_patch, settled, spares, Option.getD_none, List.getElem?_map, found, Option.map_some]
  · intro first listed
    have still := Plugin.find?_assignIds assigned listed
    exact ⟨EnvVar.link_of_find?_eq_some owned still, by rw [plugin?, settled, still]⟩
  · intro _
    rw [settled]
    exact EnvVar.staysUnder_link_iff (Plugin.identified_assignIds plugins).distinct owned grouped

/-- A variable of the plugin that was added as `a` and is now named `b`. -/
def keptVariable : EnvVar where
  key := "K"
  group := some "b"
  owner := some "a"

/-- A linked configuration with that plugin and its variable. -/
def renamedSetup : Configuration where
  plugins := [{ id := "a", name := "b" }]
  envVars := [keptVariable]

/-- A patch that has the id twice, behind a plugin that would be given it otherwise. -/
def repeatingPlugins : Patch where
  plugins := some [{ name := "a" }, { id := "a", name := "x" }, { id := "a", name := "y" }]

/-- A patch that has another plugin in the place of the owner. -/
def foreignPlugins : Patch where
  plugins := some [{ name := "c" }]

theorem patch_plugins_of_normal_renamedSetup
    : normalize renamedSetup.toJson = renamedSetup
      ∧ renamedSetup.envVars[0]? = some keptVariable
      ∧ keptVariable.owner = some "a"
      ∧ keptVariable.group = some "b"
      ∧ (renamedSetup.patch repeatingPlugins).envVars[0]?
        = some { keptVariable with group := some "x" }
      ∧ ∃ next,
          (renamedSetup.patch foreignPlugins).envVars[0]? = some next
          ∧ next.StaysUnder (renamedSetup.patch foreignPlugins).plugins "b" := by
  have normal : normalize renamedSetup.toJson = renamedSetup := by decide
  have found : renamedSetup.envVars[0]? = some keptVariable := rfl
  have repeating : repeatingPlugins.plugins = some _ := rfl
  have foreign : foreignPlugins.plugins = some _ := rfl
  obtain ⟨kept, keptAt, follows, -⟩ := patch_plugins_of_normal normal repeating rfl found rfl rfl
  obtain ⟨left, leftAt, -, stays⟩ := patch_plugins_of_normal normal foreign rfl found rfl rfl
  refine ⟨normal, found, rfl, rfl, ?_, left, leftAt, (stays (by simp)).mpr (by decide)⟩
  rw [keptAt, (follows _ rfl).1]

/-- A patch that adds a plugin by the name that the owner was added with, and leaves out the owner. -/
def reusingPlugins : Patch where
  plugins := some [{ name := "a" }]

/-- An id can be given anew while a variable still names it: the new plugin takes the variable. -/
theorem patch_plugins_renamedSetup_reused
    : normalize renamedSetup.toJson = renamedSetup
      ∧ renamedSetup.envVars[0]? = some keptVariable
      ∧ (∀ plugins ∈ reusingPlugins.plugins, ∀ plugin ∈ plugins, plugin.id ≠ "a")
      ∧ ∃ next,
          (renamedSetup.patch reusingPlugins).envVars[0]? = some next
          ∧ ¬next.StaysUnder (renamedSetup.patch reusingPlugins).plugins "b" := by
  have assigned : (renamedSetup.patch reusingPlugins).plugins = [{ id := "a", name := "a" }] := by
    decide
  refine ⟨by decide, rfl, by decide, { keptVariable with group := some "a" }, by decide, ?_⟩
  intro stays
  obtain ⟨plugin, found, named⟩ := stays.owned "a" rfl
  rw [assigned] at found
  cases found
  exact absurd named (by decide)

end Configuration

end ZshStartup
