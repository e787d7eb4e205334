import ZshStartup.CommandLine.Basic

/-! Reading argument lists from left to right, where the first thing that is wrong decides. The
arguments before the subcommand and those after it are two levels with options of their own. A value
that stands apart from its option is taken down only when the next argument has been understood.
-/

namespace ZshStartup.CommandLine

/-- What has been read on one side of the subcommand. -/
structure Level where
  values : List (Slot × String) := []
  switches : List Switch := []
  /-- An option or a file that is still to be taken down, with its value if that was read. -/
  pending : Option (Slot × Option String) := none
deriving DecidableEq, Repr

namespace Level

/-- The value that was taken down for an option. -/
def value? (level : Level) (slot : Slot) : Option String :=
  level.values.lookup slot

/-- Takes down a value. -/
def register (level : Level) (slot : Slot) (value : Option String) : Except Stop Level :=
  match value with
  | none => .error .invalidValue
  | some value =>
      if (level.value? slot).isSome then
        .error .argumentConflict
      else if value.isEmpty then
        .error .invalidValue
      else
        .ok { level with values := (slot, value) :: level.values }

/-- Takes down what is pending. -/
def settle (level : Level) : Except Stop Level :=
  match level.pending with
  | none => .ok level
  | some (slot, value) => { level with pending := none }.register slot value

/-- An option was read whose value is still to come. -/
def awaitsValue (level : Level) : Option Slot :=
  match level.pending with
  | some (slot, none) => some slot
  | _ => none

/-- A file was read, taken down or not. -/
def hasFile (level : Level) : Bool :=
  (level.value? .file).isSome || level.pending.any (·.1 = .file)

/-- Reads a switch. -/
def turnOn (level : Level) (switch : Switch) : Except Stop Level := do
  let level ← level.settle
  match switch with
  | .help => .error .help
  | .version => .error .version
  | switch =>
      if switch ∈ level.switches then
        .error .argumentConflict
      else
        .ok { level with switches := switch :: level.switches }

/-- Reads an option, with its value if that is attached. -/
def option (level : Level) (slot : Slot) (attached : Option String) : Except Stop Level := do
  let level ← level.settle
  match attached with
  | some value => level.register slot (some value)
  | none => .ok { level with pending := some (slot, none) }

/-- Reads an option by its long name. -/
def long (command : Option Command) (level : Level) (name : String) (attached : Option String)
    : Except Stop Level :=
  match Slot.ofName? command name with
  | some slot => level.option slot attached
  | none =>
      match Switch.ofName? command name with
      | some switch => if attached.isSome then .error .tooManyValues else level.turnOn switch
      | none => .error .unknownArgument

/-- The value that is attached to a letter, without the equals sign that may lead it. -/
def attachedValue : List Char → Option String
  | [] => none
  | '=' :: value => some (String.ofList value)
  | value => some (String.ofList value)

/-- Reads options by their letters. What follows the letter of an option with a value is its value. -/
def letters (command : Option Command) (level : Level) : List Char → Except Stop Level
  | [] => .ok level
  | letter :: rest =>
      match Slot.ofLetter? command letter with
      | some slot => level.option slot (attachedValue rest)
      | none =>
          match Switch.ofLetter? command letter with
          | some switch => do letters command (← level.turnOn switch) rest
          | none => .error .unknownArgument

end Level

/-- What an argument looks like. -/
inductive Word where
  /-- Two dashes, after which nothing is an option. -/
  | separator
  | long (name : String) (attached : Option String)
  | letters (letters : List Char)
  | plain
deriving DecidableEq, Repr

/-- What an argument looks like. A single dash is a plain word. -/
def Word.ofArgument (argument : String) : Word :=
  match argument.toList with
  | ['-', '-'] => .separator
  | '-' :: '-' :: rest =>
      let name := rest.takeWhile (· != '=')
      let attached :=
        if name.length < rest.length then
          some (String.ofList (rest.drop (name.length + 1)))
        else
          none
      .long (String.ofList name) attached
  | '-' :: c :: rest => .letters (c :: rest)
  | _ => .plain

/-- What the words after `help` lead to: help on a subcommand, or on the program. -/
def helpOn : List String → Stop
  | [] => .help
  | [name] => if name = "help" ∨ (Command.ofName? name).isSome then .help else .invalidSubcommand
  | _ => .invalidSubcommand

/-- Reads the arguments of one level; `trailing` says that the two dashes lie behind. The level before
the subcommand ends with it, and is returned with it and the arguments after it.
-/
def readLevel (command : Option Command) (trailing : Bool) (level : Level)
    : List String → Except Stop (Level × Option (Command × List String))
  | [] => .ok (level, none)
  | argument :: rest =>
      match if trailing then Word.plain else Word.ofArgument argument with
      | .separator => readLevel command true level rest
      | .long name attached => do
          readLevel command false (← level.long command name attached) rest
      | .letters letters => do
          readLevel command false (← level.letters command letters) rest
      | .plain =>
          match if trailing then none else level.awaitsValue with
          | some slot =>
              readLevel command false { level with pending := some (slot, some argument) } rest
          | none =>
              match command with
              | some command =>
                  if command.takes .file && !level.hasFile then do
                    let level ← level.settle
                    let level := { level with pending := some (.file, some argument) }
                    readLevel (some command) trailing level rest
                  else
                    .error .unknownArgument
              | none =>
                  match Command.ofName? argument with
                  | some subcommand =>
                      if trailing then .error .unknownArgument else .ok (level, some (subcommand, rest))
                  | none =>
                      if argument = "help" then
                        .error (if trailing then .unknownArgument else helpOn rest)
                      else
                        .error .invalidSubcommand

/-- The action that a subcommand means with the arguments after it. -/
def Command.action (command : Command) (level : Level) : Except Stop Action :=
  match command with
  | .render => .ok (.render (level.value? .input) (level.value? .output))
  | .apply => .ok (.apply (level.value? .input))
  | .importFile =>
      match level.value? .file with
      | some file => .ok (.importFile file)
      | none => .error .missingRequiredArgument
  | .exportStored => .ok (.exportStored (level.value? .output))
  | .generate => .ok (.generate (level.value? .output))
  | .reset => .ok .reset
  | .summarize => .ok .summarize
  | .settingsTemplate => .ok .settingsTemplate

/-- What an argument list asks for. Of a shared option on both sides of the subcommand, the one after
it counts.
-/
def parse (arguments : List String) : Except Stop Invocation := do
  let (outer, subcommand) ← readLevel none false {} arguments
  match subcommand with
  | none =>
      let outer ← outer.settle
      if outer.values.isEmpty && outer.switches.isEmpty then
        .error .helpOnNothing
      else
        .error .missingSubcommand
  | some (command, rest) =>
      let (inner, _) ← readLevel (some command) false {} rest
      let inner ← inner.settle
      let action ← command.action inner
      let outer ← outer.settle
      let shared := fun slot => (inner.value? slot).or (outer.value? slot)
      .ok
        {
          settings := shared .settings
          scriptPath := shared .scriptPath
          configPath := shared .configPath
          noBackup := .noBackup ∈ inner.switches ++ outer.switches
          verbose := .verbose ∈ inner.switches ++ outer.switches
          action
        }

end ZshStartup.CommandLine
