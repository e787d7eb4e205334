import ZshStartup.Configuration.Basic
import ZshStartup.Json.Basic

/-! Writing configurations as JSON values. Optional text that is absent, switches that are off and
ids that are still to be assigned are left out; everything else is written, empty or not.
-/

namespace ZshStartup

namespace Json

/-- A switch is written only when it is on. -/
def ofFlag (on : Bool) : Option Json :=
  if on then some (.bool true) else none

end Json

open Json (Fields)

def Bootstrap.toFields (bootstrap : Bootstrap) : Fields :=
  [("brewPath", .string bootstrap.brewPath), ("zinitHome", .string bootstrap.zinitHome)]

def Alias.toFields (entry : Alias) : Fields :=
  .ofOptional
    [
      ("name", some (.string entry.name)),
      ("alias", some (.string entry.command)),
      ("description", entry.description.map .string)
    ]

def PathEntry.toFields (entry : PathEntry) : Fields :=
  [("name", .string entry.name), ("path", .string entry.path)]

def EnvVar.toFields (entry : EnvVar) : Fields :=
  .ofOptional
    [
      ("key", some (.string entry.key)),
      ("value", some (.string entry.value)),
      ("group", entry.group.map .string),
      ("plugin", entry.owner.map .string)
    ]

def Ice.toFields (ice : Ice) : Fields :=
  .ofOptional
    [
      ("from", ice.fromSite.map .string),
      ("as", ice.asKind.map .string),
      ("pick", ice.pick.map .string),
      ("atinit", ice.atinit.map .string),
      ("atload", ice.atload.map .string),
      ("atclone", ice.atclone.map .string),
      ("depth", ice.depth.map .natural),
      ("blockf", Json.ofFlag ice.blockf),
      ("compile", Json.ofFlag ice.compile),
      ("wait", ice.wait.map .natural),
      ("lucid", Json.ofFlag ice.lucid),
      ("light_mode", Json.ofFlag ice.lightMode),
      ("if", ice.ifCondition.map .string),
      ("has", ice.hasCommand.map .string),
      ("on", ice.onCommand.map .string),
      ("bindmap", ice.bindmap.map .string),
      ("mv", ice.mv.map .string),
      ("bpick", ice.bpick.map .string),
      ("atpull", ice.atpull.map .string)
    ]

def Plugin.toFields (plugin : Plugin) : Fields :=
  .ofOptional
    [
      ("id", if plugin.id.isEmpty then none else some (.string plugin.id)),
      ("name", some (.string plugin.name)),
      ("description", plugin.description.map .string),
      ("ice", plugin.ice.map fun ice => .object ice.toFields)
    ]

def ShellOption.toFields (entry : ShellOption) : Fields :=
  .ofOptional
    [
      ("option", some (.string entry.option)),
      ("description", entry.description.map .string)
    ]

/-- A list of entries as an array of objects. -/
def Json.ofRecords {α : Type} (toFields : α → Fields) (entries : List α) : Json :=
  .array (entries.map fun entry => .object (toFields entry))

def Configuration.toFields (config : Configuration) : Fields :=
  [
    ("version", .natural config.version.toUInt64),
    ("zinitInit", .object config.bootstrap.toFields),
    ("aliases", .ofRecords Alias.toFields config.aliases),
    ("pathVars", .ofRecords PathEntry.toFields config.pathEntries),
    ("envVars", .ofRecords EnvVar.toFields config.envVars),
    ("plugins", .ofRecords Plugin.toFields config.plugins),
    ("zshOptions", .ofRecords ShellOption.toFields config.options),
    ("initScript", .string config.initScript)
  ]

/-- The document that a configuration is stored as. -/
def Configuration.toJson (config : Configuration) : Json :=
  .object config.toFields

end ZshStartup
