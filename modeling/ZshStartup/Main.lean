import ZshStartup.CommandLine.Run

/-! The command line tool. -/

namespace ZshStartup.Files

/-- The cause of a refusal of the operating system. -/
def Refusal.ofError (error : IO.Error) : Refusal :=
  match error with
  | .noFileOrDirectory _ code details => ofCode code details
  | .alreadyExists _ code details => ofCode code details
  | .inappropriateType _ code details => ofCode code details
  | .invalidArgument _ code details => ofCode code details
  | .permissionDenied _ code details => ofCode code details
  | .resourceExhausted _ code details => ofCode code details
  | .noSuchThing _ code details => ofCode code details
  | .interrupted _ code details => ofCode code details
  | .otherError code details => ofCode code details
  | .resourceBusy code details => ofCode code details
  | .unsupportedOperation code details => ofCode code details
  | .illegalOperation code details => ofCode code details
  | .hardwareFault code details => ofCode code details
  | .unsatisfiedConstraints code details => ofCode code details
  | .protocolError code details => ofCode code details
  | .timeExpired code details => ofCode code details
  | .resourceVanished code details => ofCode code details
  | unspecified => .other (toString unspecified)
where
  /-- The cause that a system error code stands for. -/
  ofCode (code : UInt32) (details : String) : Refusal :=
    match code with
    | 2 => .notFound
    | 17 => .alreadyExists
    | 20 => .notDirectory
    | 21 => .isDirectory
    | 36 => .nameTooLong
    | code => .other (details ++ " (os error " ++ toString code ++ ")")

/-- The result of an operation on a path, which the operating system may refuse. -/
def attempt {α : Type} (path : String) (operation : IO α) : IO (Except Refusal α) := do
  if Path.hasNul path then
    return .error .nulCharacter
  try
    return .ok (← operation)
  catch error =>
    return .error (.ofError error)

/-- Whether a path can be opened for reading, as files and directories can. -/
def opens (path : String) : IO Bool := do
  match ← attempt path (IO.FS.Handle.mk path .read) with
  | .ok _ => return true
  | .error _ => return false

/-- The operations of the operating system. Only a directory holds itself under the name of a dot. -/
instance : MonadSystem IO where
  kind? path := do
    if !(← opens path) then
      return none
    else if ← opens (path ++ "/.") then
      return some .directory
    else
      return some .file
  read path := attempt path (IO.FS.readBinFile path)
  write path content := attempt path (IO.FS.writeBinFile path content)
  makeDirectory path := attempt path (IO.FS.createDir path)
  lookupVariable name := IO.getEnv name
  accountHome? := return none

end ZshStartup.Files

/-- Runs the tool on its arguments. -/
def main (arguments : List String) : IO UInt32 := do
  let exit ← ZshStartup.CommandLine.run arguments
  IO.print exit.output
  IO.eprint exit.error
  return exit.code
