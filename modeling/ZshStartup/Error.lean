import ZshStartup.Files.Refusal
import ZshStartup.Json.ReadError

/-! What can go wrong in an action. -/

namespace ZshStartup

/-- Why an action fails. -/
inductive Error where
  /-- A document is not JSON. -/
  | invalidFormat (error : Json.ReadError)
  /-- A file cannot be read or written. -/
  | io (path : String) (cause : Files.Refusal)
  /-- The tool's own settings cannot be read. -/
  | settings
  /-- No place is given for the files, and there is no home directory to put them in. -/
  | noHomeDirectory
deriving DecidableEq, Repr

/-- The wording of an error. -/
def Error.message : Error → String
  | .invalidFormat error => "Invalid configuration format: " ++ error.message
  | .io path cause => "Failed to access " ++ path ++ ": " ++ cause.message
  | .settings => "Settings error"
  | .noHomeDirectory =>
      "No home directory found; pass --script-path and --config-path explicitly"

end ZshStartup
