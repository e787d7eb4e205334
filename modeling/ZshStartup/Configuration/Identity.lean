import ZshStartup.Configuration.Basic
import Std.Data.TreeSet.Basic

/-! Plugin ids and the ownership of environment variables. Every plugin gets an id of its own, and an
id that is already its own stays. A variable belongs to the plugin that it names by id or, failing
that, to the plugin whose name it is grouped under.
-/

namespace ZshStartup

namespace Plugin

/-- The `n`th id to try for a plugin: its own base, then the base with a number from two on. -/
def candidateId (base : String) : Nat → String
  | 0 => base
  | n + 1 => base ++ "#" ++ toString (n + 2)

/-- The first candidate that is not taken. One of the first `taken.size + 1` is free. -/
def freshId (taken : Std.TreeSet String) (base : String) : String :=
  let tried := (List.range (taken.size + 1)).find? fun n => candidateId base n ∉ taken
  candidateId base (tried.getD 0)

/-- What a plugin's id derives from. -/
def idBase (plugin : Plugin) : String :=
  if plugin.name.isEmpty then "plugin" else plugin.name

/-- Assigns ids to the plugins that follow. The ids in `kept` are those that earlier plugins keep,
and those in `taken` may not be given away.
-/
def assignIdsFrom (kept : List String) (taken : Std.TreeSet String) : List Plugin → List Plugin
  | [] => []
  | plugin :: plugins =>
      if plugin.id ≠ "" ∧ plugin.id ∉ kept then
        plugin :: assignIdsFrom (plugin.id :: kept) taken plugins
      else
        let id := freshId taken plugin.idBase
        { plugin with id } :: assignIdsFrom kept (taken.insert id) plugins

/-- Gives an id to every plugin that has none, or the id of an earlier plugin. -/
def assignIds (plugins : List Plugin) : List Plugin :=
  assignIdsFrom [] (.ofList ((plugins.map Plugin.id).filter (· != ""))) plugins

theorem map_assignIdsFrom {α : Type} (view : Plugin → α)
    (blind : ∀ (plugin : Plugin) (id : String), view { plugin with id } = view plugin)
    (kept : List String) (taken : Std.TreeSet String) (plugins : List Plugin)
    : (assignIdsFrom kept taken plugins).map view = plugins.map view := by
  induction plugins generalizing kept taken with
  | nil => rfl
  | cons plugin plugins ih =>
      unfold assignIdsFrom
      split <;> simp [ih, blind]

/-- What does not look at ids sees no change, plugin by plugin. -/
theorem map_assignIds {α : Type} (view : Plugin → α)
    (blind : ∀ (plugin : Plugin) (id : String), view { plugin with id } = view plugin)
    (plugins : List Plugin)
    : (assignIds plugins).map view = plugins.map view :=
  map_assignIdsFrom view blind [] _ plugins

@[simp]
theorem length_assignIds (plugins : List Plugin)
    : (assignIds plugins).length = plugins.length := by
  simpa using congrArg List.length (map_assignIds (fun _ => ()) (fun _ _ => rfl) plugins)

end Plugin

/-- Settles the owner of a variable. An owner that exists gives the variable its group, one that does
not is dropped, and a variable without an owner falls to the plugin that its group names.
-/
def EnvVar.link (plugins : List Plugin) (entry : EnvVar) : EnvVar :=
  match entry.owner with
  | some id =>
      match plugins.find? (·.id == id) with
      | some owner => { entry with group := some owner.name }
      | none => { entry with owner := none }
  | none =>
      match entry.group.bind fun group => plugins.find? (·.name == group) with
      | some owner => { entry with owner := some owner.id }
      | none => entry

@[simp]
theorem EnvVar.key_link (plugins : List Plugin) (entry : EnvVar)
    : (entry.link plugins).key = entry.key := by
  unfold link
  split <;> split <;> rfl

@[simp]
theorem EnvVar.value_link (plugins : List Plugin) (entry : EnvVar)
    : (entry.link plugins).value = entry.value := by
  unfold link
  split <;> split <;> rfl

namespace Configuration

def assignIds (config : Configuration) : Configuration :=
  { config with plugins := Plugin.assignIds config.plugins }

def linkOwners (config : Configuration) : Configuration :=
  { config with envVars := config.envVars.map (EnvVar.link config.plugins) }

/-- The plugin with an id. -/
def plugin? (config : Configuration) (id : String) : Option Plugin :=
  config.plugins.find? (·.id == id)

/-- The variables that a plugin owns, in order. -/
def envVarsOf (config : Configuration) (id : String) : List EnvVar :=
  config.envVars.filter (·.owner == some id)

/-- The label to list a variable under: the name of its owner, else its group. -/
def groupLabel (config : Configuration) (entry : EnvVar) : Option String :=
  ((entry.owner.bind config.plugin?).map Plugin.name).or entry.group

end Configuration

end ZshStartup
