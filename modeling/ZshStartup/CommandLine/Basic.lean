import ZshStartup.Action.Basic
import ZshStartup.Settings

/-! Command lines: what an argument list asks for, and the reasons for which it asks for nothing. -/

namespace ZshStartup.CommandLine

inductive Command where
  | render
  | apply
  | importFile
  | exportStored
  | generate
  | reset
  | summarize
  | settingsTemplate
deriving DecidableEq, Repr

/-- The arguments that have a value. All but the file are options. -/
inductive Slot where
  | settings
  | scriptPath
  | configPath
  | input
  | output
  | file
deriving DecidableEq, Repr

inductive Switch where
  | noBackup
  | verbose
  | help
  | version
deriving DecidableEq, Repr

/-- Why an argument list does not lead to an action. -/
inductive Stop where
  | help
  | version
  /-- Nothing at all was given. -/
  | helpOnNothing
  /-- Options were given, but no subcommand. -/
  | missingSubcommand
  /-- The word in the place of the subcommand is none. -/
  | invalidSubcommand
  /-- An argument that has no place here. -/
  | unknownArgument
  /-- An option that was given before. -/
  | argumentConflict
  /-- An option without its value, or with an empty one. -/
  | invalidValue
  /-- A value for an option that takes none. -/
  | tooManyValues
  /-- A subcommand without its file. -/
  | missingRequiredArgument
deriving DecidableEq, Repr

/-- What an argument list asks for. -/
structure Invocation where
  settings : Option String := none
  scriptPath : Option String := none
  configPath : Option String := none
  noBackup : Bool := false
  verbose : Bool := false
  action : Action
deriving DecidableEq, Repr

def Invocation.setup (invocation : Invocation) : Setup where
  file := invocation.settings
  given :=
    {
      scriptPath := invocation.scriptPath
      configPath := invocation.configPath
      backup := if invocation.noBackup then some false else none
    }

def Command.ofName? : String → Option Command
  | "render" => some .render
  | "apply" => some .apply
  | "import" => some .importFile
  | "export" => some .exportStored
  | "gen" => some .generate
  | "reset" => some .reset
  | "show" => some .summarize
  | "settings" => some .settingsTemplate
  | _ => none

def Command.takes : Command → Slot → Bool
  | .render, .input => true
  | .render, .output => true
  | .apply, .input => true
  | .exportStored, .output => true
  | .generate, .output => true
  | .importFile, .file => true
  | _, _ => false

/-- The option with a value that a long name means. Before the subcommand there are only the options
that all subcommands share.
-/
def Slot.ofName? (command : Option Command) (name : String) : Option Slot :=
  match name with
  | "settings" => some .settings
  | "script-path" => some .scriptPath
  | "config-path" => some .configPath
  | "input" => if command.any (·.takes .input) then some .input else none
  | "output" => if command.any (·.takes .output) then some .output else none
  | _ => none

def Slot.ofLetter? (command : Option Command) (letter : Char) : Option Slot :=
  match letter with
  | 'i' => if command.any (·.takes .input) then some .input else none
  | 'o' => if command.any (·.takes .output) then some .output else none
  | _ => none

/-- The switch that a long name means. The version is told only before the subcommand. -/
def Switch.ofName? (command : Option Command) (name : String) : Option Switch :=
  match name with
  | "no-backup" => some .noBackup
  | "verbose" => some .verbose
  | "help" => some .help
  | "version" => if command.isNone then some .version else none
  | _ => none

def Switch.ofLetter? (command : Option Command) (letter : Char) : Option Switch :=
  match letter with
  | 'v' => some .verbose
  | 'h' => some .help
  | 'V' => if command.isNone then some .version else none
  | _ => none

end ZshStartup.CommandLine
