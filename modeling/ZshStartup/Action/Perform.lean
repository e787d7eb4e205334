import ZshStartup.Script.Section
import ZshStartup.Store

/-! Performing actions. -/

namespace ZshStartup

open Effect (access)
open Files (MonadSystem)

variable {m : Type → Type} [Monad m] [MonadSystem m]

/-- The store of an invocation. -/
def Setup.store (setup : Setup) : ExceptT Error m Store := do
  Store.ofSettings (← setup.load)

namespace Action

/-- The configuration in a file. -/
def readConfig (path : String) : ExceptT Error m Configuration := do
  let text ← access path (Files.readText path)
  match Configuration.parse text with
  | .ok config => return config
  | .error error => throw (.invalidFormat error)

/-- The configuration in a file, if one is given, else the stored one. -/
def chosenConfig (store : Store) (input : Option String) : ExceptT Error m Configuration :=
  match input with
  | some path => readConfig path
  | none => store.loadConfig

/-- Writes a text to a file, if one is given, else reports the text itself. -/
def emit (text : String) (output : Option String) (backup : Bool) (report : String → Report)
    : ExceptT Error m Report := do
  match output with
  | some path => do
      Store.writeFile path text backup
      return .written path
  | none => return report text

/-- Performs an action. -/
def perform (setup : Setup) : Action → ExceptT Error m Report
  | .render input output => do
      let store ← setup.store
      let config ← chosenConfig store input
      emit config.render output store.backup .script
  | .apply input => do
      let store ← setup.store
      let config ← chosenConfig store input
      return .applied (← store.apply config.render config.serialize)
  | .importFile file => do
      let config ← readConfig file
      let store ← setup.store
      return .imported (← store.saveConfig config) config.plugins.length
  | .exportStored output => do
      let store ← setup.store
      let config ← store.loadConfig
      emit config.serialize output store.backup .document
  | .generate output => do
      let settings ← setup.load
      emit (Configuration.serialize {}) output settings.backup .document
  | .reset => do
      let store ← setup.store
      return .reset (← store.saveConfig {})
  | .summarize => do
      let store ← setup.store
      return .listing (← store.loadConfig).summary
  | .settingsTemplate => return .template Settings.template

end Action

end ZshStartup
