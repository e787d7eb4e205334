import ZshStartup.Action.Effect
import ZshStartup.Text.Blank
import ZshStartup.Toml.Reader

/-! The tool's own settings: where its files live, and whether it keeps backups. They are gathered in
layers: what an invocation gives wins over environment variables, these over the settings file, and
that over the defaults.
-/

namespace ZshStartup

open Effect (ask settle)
open Files (MonadSystem)

/-- The settings. A path that is not set is found in the home directory. -/
structure Settings where
  scriptPath : Option String := none
  configPath : Option String := none
  /-- Whether a file that is about to be overwritten is copied first. -/
  backup : Bool := true
deriving DecidableEq, Repr, Inhabited

namespace Settings

/-- One layer of settings, which need not give them all. -/
structure Layer where
  scriptPath : Option String := none
  configPath : Option String := none
  backup : Option Bool := none
deriving DecidableEq, Repr, Inhabited

/-- Two layers as one, in which the upper one wins. -/
def Layer.over (upper lower : Layer) : Layer where
  scriptPath := upper.scriptPath.or lower.scriptPath
  configPath := upper.configPath.or lower.configPath
  backup := upper.backup.or lower.backup

def override (settings : Settings) (layer : Layer) : Settings where
  scriptPath := layer.scriptPath.or settings.scriptPath
  configPath := layer.configPath.or settings.configPath
  backup := layer.backup.getD settings.backup

/-- The path that a settings document gives for a name, if it gives one at all. -/
def path? (document : Toml.Document) (name : String) : Except Error (Option String) :=
  match document.get? name with
  | none => .ok none
  | some (.string path) => .ok (some path)
  | some _ => .error .settings

/-- The switch that a settings document sets for a name, if it sets one at all. -/
def switch? (document : Toml.Document) (name : String) : Except Error (Option Bool) :=
  match document.get? name with
  | none => .ok none
  | some (.boolean on) => .ok (some on)
  | some _ => .error .settings

/-- The layer that a settings document describes. -/
def Layer.ofDocument (document : Toml.Document) : Except Error Layer := do
  let scriptPath ← path? document "script_path"
  let configPath ← path? document "config_path"
  let backup ← switch? document "backup"
  .ok { scriptPath, configPath, backup }

/-- The layer that the content of a settings file describes. -/
def Layer.ofContent (content : ByteArray) : Except Error Layer :=
  match (String.fromUTF8? content).bind Toml.Document.ofText? with
  | some document => Layer.ofDocument document
  | none => .error .settings

def foldCase (text : List Char) : List Char :=
  text.map Char.toLower

/-- The truth value that the text of an environment variable means. -/
def switchOfText? (text : String) : Option Bool :=
  let word := String.ofList (foldCase (Text.trim text.toList))
  if word ∈ ["1", "true", "yes"] then
    some true
  else if word ∈ ["0", "false", "no"] then
    some false
  else
    none

/-- The layer that environment variables give. An empty switch counts as unset, an empty path does
not.
-/
def Layer.ofVariables (scriptPath configPath backup : Option String) : Except Error Layer :=
  match backup with
  | none => .ok { scriptPath, configPath }
  | some "" => .ok { scriptPath, configPath }
  | some text =>
      match switchOfText? text with
      | some on => .ok { scriptPath, configPath, backup := some on }
      | none => .error .settings

variable {m : Type → Type} [Monad m] [MonadSystem m]

/-- The home directory: what the environment says or, if it says nothing, the account's. -/
def home? : m (Option String) := do
  match ← MonadSystem.lookupVariable "HOME" with
  | some home => if home.isEmpty then MonadSystem.accountHome? else return some home
  | none => MonadSystem.accountHome?

def defaultFile? : m (Option String) := do
  let some home ← home? | return none
  let shared ← MonadSystem.lookupVariable "XDG_CONFIG_HOME"
  let directory := (shared.filter Files.Path.isAbsolute).getD (Files.Path.join home ".config")
  return some (Files.Path.join (Files.Path.join directory "zinitcraft") "zinitcraft.toml")

/-- The layer of a settings file. A file that is asked for must be there, the default one need not. A
settings file's name ends in `.toml`.
-/
def fileLayer (file : Option String) : ExceptT Error m Layer := do
  match file with
  | some path =>
      if (← ask (MonadSystem.kind? path)) ≠ some .file then
        throw (.io path .settingsNotFound)
      else if Files.Path.extension? path ≠ some "toml" then
        throw .settings
      else
        load path
  | none =>
      match ← ask defaultFile? with
      | some path => load path
      | none => return {}
where
  /-- Reads a settings file, which may be missing. -/
  load (path : String) : ExceptT Error m Layer := do
    match ← ask (MonadSystem.read path) with
    | .ok content => settle (Layer.ofContent content)
    | .error .notFound => return {}
    | .error _ => throw .settings

def environmentLayer : ExceptT Error m Layer := do
  let scriptPath ← ask (MonadSystem.lookupVariable "ZINITCRAFT_SCRIPT_PATH")
  let configPath ← ask (MonadSystem.lookupVariable "ZINITCRAFT_CONFIG_PATH")
  let backup ← ask (MonadSystem.lookupVariable "ZINITCRAFT_BACKUP")
  settle (Layer.ofVariables scriptPath configPath backup)

end Settings

/-- How the settings of an invocation come about. -/
structure Setup where
  /-- The settings file to read in the place of the default one. -/
  file : Option String := none
  given : Settings.Layer := {}
  environment : Bool := true
  /-- Settings that take the place of file and environment. -/
  settings : Option Settings := none
deriving DecidableEq, Repr, Inhabited

def Setup.load {m : Type → Type} [Monad m] [MonadSystem m] (setup : Setup)
    : ExceptT Error m Settings := do
  match setup.settings with
  | some settings => return settings.override setup.given
  | none =>
      let file ← Settings.fileLayer setup.file
      let environment ← if setup.environment then Settings.environmentLayer else pure {}
      return (({} : Settings).override (environment.over file)).override setup.given

namespace Settings

def template : String :=
  "\n".intercalate
    [
      "# Where the rendered zsh script is written. Defaults to `~/.zshrc`.",
      "#",
      "# Can also be specified via environment variable `ZINITCRAFT_SCRIPT_PATH`.",
      "#script_path =",
      "",
      "# Where the JSON configuration is stored. Defaults to",
      "# `~/.zsh_cfg/zsh_config.json`.",
      "#",
      "# Can also be specified via environment variable `ZINITCRAFT_CONFIG_PATH`.",
      "#config_path =",
      "",
      "# Copy an existing file to `<file>.backup` before overwriting it.",
      "#",
      "# Can also be specified via environment variable `ZINITCRAFT_BACKUP`.",
      "#",
      "# Default value: true",
      "#backup = true",
      ""
    ]

end Settings

end ZshStartup
