import ZshStartup.Configuration.Decoding
import ZshStartup.Configuration.Identity

/-! Changes to a whole configuration: patches that replace some of its parts, and renamed plugins.
-/

namespace ZshStartup

/-- New values for some parts of a configuration. -/
structure Patch where
  bootstrap : Option Bootstrap := none
  aliases : Option (List Alias) := none
  pathEntries : Option (List PathEntry) := none
  envVars : Option (List EnvVar) := none
  plugins : Option (List Plugin) := none
  options : Option (List ShellOption) := none
  initScript : Option String := none
deriving DecidableEq, Repr, Inhabited

/-- The patch that a JSON object describes: a part for each field of the right type. -/
def Patch.ofFields (fields : Json.Fields) : Patch where
  bootstrap := (fields.record? "zinitInit").map Bootstrap.ofFields
  aliases := (fields.get? "aliases").map fun items => items.records.map Alias.ofFields
  pathEntries := (fields.get? "pathVars").map fun items => items.records.map PathEntry.ofFields
  envVars := (fields.get? "envVars").map fun items => items.records.map EnvVar.ofFields
  plugins := (fields.get? "plugins").map fun items => items.records.map Plugin.ofFields
  options := (fields.get? "zshOptions").map fun items => items.records.map ShellOption.ofFields
  initScript := fields.string? "initScript"

namespace Configuration

/-- Replaces the parts that a patch carries, and settles ids and owners anew. -/
def patch (config : Configuration) (change : Patch) : Configuration :=
  let replaced : Configuration :=
    {
      version := config.version
      bootstrap := (change.bootstrap.map Bootstrap.orDefaults).getD config.bootstrap
      aliases := change.aliases.getD config.aliases
      pathEntries := change.pathEntries.getD config.pathEntries
      envVars := change.envVars.getD config.envVars
      plugins := change.plugins.getD config.plugins
      options := change.options.getD config.options
      initScript := change.initScript.getD config.initScript
    }
  replaced.assignIds.linkOwners

/-- Renames the first plugin with an id. -/
def renameIn (plugins : List Plugin) (id name : String) : List Plugin :=
  match plugins with
  | [] => []
  | plugin :: rest =>
      if plugin.id = id then { plugin with name } :: rest else plugin :: renameIn rest id name

/-- Renames the plugin with an id, if there is one, and regroups the variables it owns. -/
def renamePlugin? (config : Configuration) (id name : String) : Option Configuration :=
  match config.plugin? id with
  | some _ => some { config with plugins := renameIn config.plugins id name }.linkOwners
  | none => none

end Configuration

end ZshStartup
