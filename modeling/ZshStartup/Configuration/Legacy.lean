import ZshStartup.Configuration.Decoding
import ZshStartup.Configuration.Basic
import ZshStartup.Text.Blank

/-! Documents of version 1. Their plugins say how they are loaded by a load type, a wait time and a
bag of conditions, all of which version 2 writes as modifiers. What a plugin says in the modifiers
themselves takes precedence over what the older fields say.
-/

namespace ZshStartup

namespace Json

/-- A condition that does not count: missing, false, empty or zero. -/
def isBlank : Json → Bool
  | .null => true
  | .bool b => !b
  | .number n => n.isZero
  | .string s => s.isEmpty
  | _ => false

end Json

namespace Legacy

open Json (Fields)

/-- The version that a document declares. One that declares none that can be read is of version 1. -/
def version (root : Fields) : UInt64 :=
  (root.natural? "version").getD 1

/-- The seconds that a wait time means. What is not a whole number of seconds means no delay. -/
def waitSeconds : Option Json → UInt64
  | some (.number (.natural n)) => n
  | some (.string s) => (Text.readUInt64? (Text.trim s.toList)).getD 0
  | _ => 0

/-- A condition that counts. -/
def condition? (conditions : Fields) (key : String) : Option Json :=
  (conditions.get? key).filter fun value => !value.isBlank

/-- The modifiers that the older fields of a plugin amount to. -/
def modifiers (plugin : Fields) : Fields :=
  let loadType := plugin.string? "loadType"
  let conditions := (plugin.record? "conditions").getD []
  let waits := loadType = some "wait" ∨ loadType = some "wait lucid"
  .ofOptional
    [
      ("wait",
        if waits then
          some (.natural (waitSeconds (plugin.get? "waitTime")))
        else
          (condition? conditions "wait").map fun value => .natural (waitSeconds (some value))),
      ("lucid",
        if loadType = some "wait lucid" ∨ conditions.flag "lucid" then
          some (.bool true)
        else
          none),
      ("light_mode", if loadType = some "light" then some (.bool true) else none),
      ("if", condition? conditions "if"),
      ("has", condition? conditions "has"),
      ("on", condition? conditions "on")
    ]

/-- Stores a modifier that is missing or null. -/
def supply (ice : Fields) (key : String) (value : Json) : Fields :=
  match ice.get? key with
  | none | some .null => ice.insert key value
  | some _ => ice

/-- Restates the older fields of a plugin as modifiers. -/
def migratePlugin (plugin : Fields) : Fields :=
  let legacy := modifiers plugin
  let rest := ((plugin.erase "loadType").erase "waitTime").erase "conditions"
  if legacy.isEmpty then
    rest
  else
    let ice := (rest.record? "ice").getD []
    rest.insert "ice" (.object (legacy.foldl (fun ice field => supply ice field.1 field.2) ice))

/-- Restates every plugin in a list. -/
def migratePlugins : Json → Json
  | .array items =>
      .array
        (items.map fun item =>
          match item with
          | .object plugin => .object (migratePlugin plugin)
          | other => other)
  | other => other

/-- Brings a document up to the current version. -/
def migrate (root : Fields) : Fields :=
  let root :=
    match root.get? "plugins" with
    | some plugins =>
        if version root < 2 then root.insert "plugins" (migratePlugins plugins) else root
    | none => root
  root.insert "version" (.natural schemaVersion.toUInt64)

end Legacy

end ZshStartup
