import ZshStartup.Files.Disk
import ZshStartup.Files.System

/-! A machine held in memory: a disk, a current directory and environment variables. -/

namespace ZshStartup.Files

/-- The state of a machine. -/
structure Machine where
  disk : Disk := {}
  current : Location := []
  environment : List (String × String) := []
  accountHome : Option String := none

namespace Machine

/-- Sets or unsets an environment variable. -/
def setVariable (machine : Machine) (name : String) (value : Option String) : Machine :=
  let others := machine.environment.filter fun entry => entry.1 != name
  { machine with environment := (value.map fun value => (name, value)).toList ++ others }

/-- Changes the disk, unless the change is refused. -/
def change (operation : Machine → Except Refusal Disk) : StateM Machine (Except Refusal Unit) :=
  fun machine =>
    match operation machine with
    | .ok disk => (.ok (), { machine with disk })
    | .error cause => (.error cause, machine)

/-- The system operations, performed on the state of the machine. -/
instance : MonadSystem (StateM Machine) where
  kind? path := fun machine =>
    let kind := (machine.disk.node? machine.current path).map fun
      | .file _ => Kind.file
      | .directory => Kind.directory
    (kind, machine)
  read path := fun machine => (machine.disk.read machine.current path, machine)
  write path content := change fun machine => machine.disk.write machine.current path content
  makeDirectory path := change fun machine => machine.disk.makeDirectory machine.current path
  lookupVariable name := fun machine => (machine.environment.lookup name, machine)
  accountHome? := fun machine => (machine.accountHome, machine)

end Machine

end ZshStartup.Files
