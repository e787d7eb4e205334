import ZshStartup.Action.Basic
import ZshStartup.Configuration.Normal
import ZshStartup.Settings

/-! The files that a configuration lives in: the script that the shell runs, and the document that it
was rendered from. A file that is overwritten can be kept beside the new one.
-/

namespace ZshStartup

open Effect (access ask)
open Files (MonadSystem)

/-- Where a script and a configuration are stored. -/
structure Store where
  scriptPath : String
  configPath : String
  /-- Whether a file that is about to be overwritten is copied first. -/
  backup : Bool := true
deriving DecidableEq, Repr, Inhabited

namespace Store

variable {m : Type → Type} [Monad m] [MonadSystem m]

/-- Makes the directories above a file. -/
def makeRoom (path : String) : ExceptT Error m Unit :=
  match Files.Path.parent? path with
  | some parent =>
      if parent.isEmpty then pure () else access parent (Files.makeDirectories parent)
  | none => pure ()

/-- Copies a file that is about to be replaced, and returns whether there was one. -/
def keepBackup (path : String) : ExceptT Error m Bool := do
  let present ← ask (Option.isSome <$> MonadSystem.kind? path)
  if present then
    access (Files.Path.backup path) (Files.copy path (Files.Path.backup path))
  return present

/-- Replaces the text of a file. If that fails, the copy that was kept is put back. -/
def replaceText (path text : String) (kept : Bool) : ExceptT Error m Unit := do
  match ← ask (Files.writeText path text) with
  | .ok () => pure ()
  | .error cause =>
      if kept then
        let _ ← ask (Files.copy (Files.Path.backup path) path)
      throw (.io path cause)

/-- Writes a file, after making the directories above it and, if wanted, copying what it replaces. -/
def writeFile (path text : String) (backup : Bool) : ExceptT Error m Unit := do
  makeRoom path
  let kept ← if backup then keepBackup path else pure false
  replaceText path text kept

/-- The store in the home directory. -/
def home : ExceptT Error m Store := do
  match ← ask Settings.home? with
  | none => throw .noHomeDirectory
  | some home =>
      return {
        scriptPath := Files.Path.join home ".zshrc"
        configPath := Files.Path.join (Files.Path.join home ".zsh_cfg") "zsh_config.json"
      }

/-- The store that settings describe. The home directory matters only for paths they leave open. -/
def ofSettings (settings : Settings) : ExceptT Error m Store := do
  match settings.scriptPath, settings.configPath with
  | some scriptPath, some configPath => return { scriptPath, configPath, backup := settings.backup }
  | scriptPath, configPath =>
      let default ← home
      return {
        scriptPath := scriptPath.getD default.scriptPath
        configPath := configPath.getD default.configPath
        backup := settings.backup
      }

/-- The text of the stored configuration, if there is one. -/
def load? (store : Store) : ExceptT Error m (Option String) := do
  match ← ask (Files.readText store.configPath) with
  | .ok text => return some text
  | .error .notFound => return none
  | .error cause => throw (.io store.configPath cause)

/-- The stored configuration. In the place of one that is missing or damaged stands the default. -/
def loadConfig (store : Store) : ExceptT Error m Configuration := do
  match ← store.load? with
  | none => return {}
  | some text =>
      match Configuration.parse text with
      | .ok config => return config
      | .error _ => return {}

/-- Stores a configuration, and returns where. -/
def saveConfig (store : Store) (config : Configuration) : ExceptT Error m String := do
  writeFile store.configPath config.serialize store.backup
  return store.configPath

/-- Stores a script and a document. An empty text is not written. -/
def apply (store : Store) (script document : String) : ExceptT Error m Applied := do
  if !script.isEmpty then
    writeFile store.scriptPath script store.backup
  if !document.isEmpty then
    writeFile store.configPath document store.backup
  return {
    script := if script.isEmpty then none else some store.scriptPath
    config := if document.isEmpty then none else some store.configPath
  }

end Store

end ZshStartup
