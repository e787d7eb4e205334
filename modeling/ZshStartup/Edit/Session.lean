import ZshStartup.Configuration.Normal
import ZshStartup.Edit.KeyedList
import ZshStartup.Edit.Patch

/-! Editing sessions: the steps that change a configuration, and what each of them answers. -/

namespace ZshStartup

/-- The lists whose entries have keys. -/
inductive KeyedListName where
  | aliases
  | pathEntries
  | envVars
  | options
deriving DecidableEq, Repr

/-- The lists whose entries can be moved. -/
inductive ListName where
  | keyed (name : KeyedListName)
  | plugins
deriving DecidableEq, Repr

/-- An entry of a list with keys. -/
inductive Entry where
  | ofAlias (entry : Alias)
  | ofPathEntry (entry : PathEntry)
  | ofEnvVar (entry : EnvVar)
  | ofOption (entry : ShellOption)
deriving DecidableEq, Repr

/-- A step that changes a configuration. -/
inductive Edit where
  /-- Replaces parts of the configuration. -/
  | patch (change : Patch)
  /-- Renames a plugin. -/
  | rename (id name : String)
  /-- Replaces the entry with the same key, or adds one. -/
  | insert (entry : Entry)
  /-- Removes the entry with a key. -/
  | erase (list : KeyedListName) (key : String)
  /-- Moves an entry within its list. -/
  | move (list : ListName) (source target : Nat)
  /-- Writes the configuration as a document and reads it back. -/
  | renormalize
deriving DecidableEq, Repr

/-- What a step answers besides the new configuration. -/
inductive Outcome where
  | done
  /-- Whether the step found what it asked for or, of a document read back, that nothing changed. -/
  | flag (holds : Bool)
  /-- The entry that the step replaced or removed. -/
  | entry (previous : Option Entry)
deriving DecidableEq, Repr

namespace Edit

/-- Moves an entry of one list of a configuration. -/
def moveIn (config : Configuration) (source target : Nat) : ListName → Option Configuration
  | .keyed .aliases =>
      (moveItem? config.aliases source target).map fun aliases => { config with aliases }
  | .keyed .pathEntries =>
      (moveItem? config.pathEntries source target).map fun pathEntries => { config with pathEntries }
  | .keyed .envVars =>
      (moveItem? config.envVars source target).map fun envVars => { config with envVars }
  | .keyed .options =>
      (moveItem? config.options source target).map fun options => { config with options }
  | .plugins =>
      (moveItem? config.plugins source target).map fun plugins => { config with plugins }

/-- Replaces an entry with the same key, or adds it at the end of its list. -/
def insertIn (config : Configuration) : Entry → Configuration × Option Entry
  | .ofAlias entry =>
      ({ config with aliases := KeyedList.insert config.aliases entry },
        (KeyedList.get? config.aliases entry.name).map .ofAlias)
  | .ofPathEntry entry =>
      ({ config with pathEntries := KeyedList.insert config.pathEntries entry },
        (KeyedList.get? config.pathEntries entry.name).map .ofPathEntry)
  | .ofEnvVar entry =>
      ({ config with envVars := KeyedList.insert config.envVars entry },
        (KeyedList.get? config.envVars entry.key).map .ofEnvVar)
  | .ofOption entry =>
      ({ config with options := KeyedList.insert config.options entry },
        (KeyedList.get? config.options entry.option).map .ofOption)

/-- Removes the entry with a key from a list. -/
def eraseIn (config : Configuration) (key : String) :
    KeyedListName → Configuration × Option Entry
  | .aliases =>
      ({ config with aliases := KeyedList.erase config.aliases key },
        (KeyedList.get? config.aliases key).map .ofAlias)
  | .pathEntries =>
      ({ config with pathEntries := KeyedList.erase config.pathEntries key },
        (KeyedList.get? config.pathEntries key).map .ofPathEntry)
  | .envVars =>
      ({ config with envVars := KeyedList.erase config.envVars key },
        (KeyedList.get? config.envVars key).map .ofEnvVar)
  | .options =>
      ({ config with options := KeyedList.erase config.options key },
        (KeyedList.get? config.options key).map .ofOption)

/-- Performs a step. A step that finds nothing to change leaves the configuration as it is. -/
def perform (config : Configuration) : Edit → Configuration × Outcome
  | .patch change => (config.patch change, .done)
  | .rename id name =>
      match config.renamePlugin? id name with
      | some renamed => (renamed, .flag true)
      | none => (config, .flag false)
  | .insert entry => (insertIn config entry).map id .entry
  | .erase list key => (eraseIn config key list).map id .entry
  | .move list source target =>
      match moveIn config source target list with
      | some moved => (moved, .flag true)
      | none => (config, .flag false)
  | .renormalize =>
      let next := Configuration.normalize config.toJson
      (next, .flag (next = config))

/-- The configuration after a sequence of steps. -/
def run (config : Configuration) (steps : List Edit) : Configuration :=
  steps.foldl (fun config step => (step.perform config).1) config

end Edit

/-- The keys of the entries of a list, in order. -/
def Configuration.keys (config : Configuration) : KeyedListName → List String
  | .aliases => KeyedList.keys config.aliases
  | .pathEntries => KeyedList.keys config.pathEntries
  | .envVars => KeyedList.keys config.envVars
  | .options => KeyedList.keys config.options

end ZshStartup
