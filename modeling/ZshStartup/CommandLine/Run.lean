import ZshStartup.Action.Perform
import ZshStartup.CommandLine.Reader

/-! Running the tool on a command line. -/

namespace ZshStartup.CommandLine

open Files (MonadSystem)

/-- What a run leaves behind: its exit code, and what it prints. -/
structure Exit where
  code : UInt32 := 0
  output : String := ""
  error : String := ""
deriving DecidableEq, Repr

/-- How the tool is called. -/
def usage : String :=
  "\n".intercalate
    [
      "Compile a structured zsh configuration into a zinit-ready script",
      "",
      "Usage: zinitcraft [OPTIONS] <COMMAND>",
      "",
      "Commands: render, apply, import, export, gen, reset, show, settings, help",
      "",
      "Options: --settings <FILE>, --script-path <PATH>, --config-path <PATH>, --no-backup,",
      "         -v/--verbose, -h/--help, -V/--version",
      ""
    ]

/-- The exit of a run that performs no action. -/
def Stop.exit : Stop → Exit
  | .help => { output := usage }
  | .version => { output := "zinitcraft 0.1.0\n" }
  | _ => { code := 2, error := usage }

/-- Performs what an argument list asks for. -/
def run {m : Type → Type} [Monad m] [MonadSystem m] (arguments : List String) : m Exit := do
  match parse arguments with
  | .error stop => return stop.exit
  | .ok invocation =>
      match ← (invocation.action.perform invocation.setup).run with
      | .ok report => return { output := report.output }
      | .error error => return { code := 1, error := "Error: " ++ error.message ++ "\n" }

end ZshStartup.CommandLine
