import ZshStartup.Files.Path
import ZshStartup.Files.Refusal

/-! The system that actions run in. An action sees files by path and environment variables by name;
what it does is built from a few operations, each of which may be refused.
-/

namespace ZshStartup.Files

inductive Kind where
  | file
  | directory
deriving DecidableEq, Repr

class MonadSystem (m : Type → Type) where
  /-- What is at a path, if anything can be found there. -/
  kind? (path : String) : m (Option Kind)
  read (path : String) : m (Except Refusal ByteArray)
  /-- Replaces the content of a file, or makes the file. -/
  write (path : String) (content : ByteArray) : m (Except Refusal Unit)
  /-- Makes a directory within one that exists. -/
  makeDirectory (path : String) : m (Except Refusal Unit)
  lookupVariable (name : String) : m (Option String)
  /-- The home directory of the user's account, which counts where no variable names one. -/
  accountHome? : m (Option String)

variable {m : Type → Type} [Monad m] [MonadSystem m]

def readText (path : String) : m (Except Refusal String) := do
  match ← MonadSystem.read path with
  | .error cause => return .error cause
  | .ok content =>
      match String.fromUTF8? content with
      | some text => return .ok text
      | none => return .error .notUtf8

def writeText (path text : String) : m (Except Refusal Unit) :=
  MonadSystem.write path text.toUTF8

/-- Copies a file onto another one. A directory is not copied. -/
def copy (source target : String) : m (Except Refusal Unit) := do
  if (← MonadSystem.kind? source) = some .directory then
    return .error .notRegular
  else
    match ← MonadSystem.read source with
    | .error cause => return .error cause
    | .ok content => MonadSystem.write target content

/-- Makes the first of some directories, each of which lies in the next one; those that are missing
are made as well. A directory that is there already is no fault.
-/
def makeNested : List String → m (Except Refusal Unit)
  | [] => return .ok ()
  | path :: above => do
      match ← MonadSystem.makeDirectory path with
      | .ok () => return .ok ()
      | .error .notFound =>
          match ← makeNested above with
          | .error cause => return .error cause
          | .ok () => settled path (← MonadSystem.makeDirectory path)
      | .error cause => settled path (.error cause)
where
  /-- Forgives a refusal if there is a directory after all. -/
  settled (path : String) : Except Refusal Unit → m (Except Refusal Unit)
    | .ok () => return .ok ()
    | .error cause => do
        if (← MonadSystem.kind? path) = some .directory then
          return .ok ()
        else
          return .error cause

/-- Makes a directory and those above it that are missing. -/
def makeDirectories (path : String) : m (Except Refusal Unit) :=
  makeNested (Path.directories path)

end ZshStartup.Files
