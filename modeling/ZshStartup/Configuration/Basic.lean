/-! The startup configuration of a shell: what the compiler turns into a script. Every record is a
plain value. Text that a document leaves out is empty, optional text that it leaves out is `none`.
-/

namespace ZshStartup

/-- Where the plugin manager's bootstrap code finds its tools. Both are fragments of shell code. -/
structure Bootstrap where
  brewPath : String
  zinitHome : String
deriving DecidableEq, Repr

namespace Bootstrap

def builtin : Bootstrap where
  brewPath := "/opt/homebrew/bin/brew"
  zinitHome := "$\x7bXDG_DATA_HOME:-$\x7bHOME\x7d/.local/share\x7d/zinit/zinit.git"

instance : Inhabited Bootstrap := ⟨builtin⟩

/-- Puts the built-in value in the place of an empty one. -/
def orDefaults (bootstrap : Bootstrap) : Bootstrap where
  brewPath := if bootstrap.brewPath.isEmpty then builtin.brewPath else bootstrap.brewPath
  zinitHome := if bootstrap.zinitHome.isEmpty then builtin.zinitHome else bootstrap.zinitHome

end Bootstrap

/-- A command name and the command that it stands for. -/
structure Alias where
  name : String := ""
  command : String := ""
  description : Option String := none
deriving DecidableEq, Repr, Inhabited

/-- A directory to search for commands. The name only labels it. -/
structure PathEntry where
  name : String := ""
  path : String := ""
deriving DecidableEq, Repr, Inhabited

/-- An environment variable. -/
structure EnvVar where
  key : String := ""
  value : String := ""
  /-- The label that the variable is listed under: its owner's name, if it has an owner. -/
  group : Option String := none
  /-- The id of the plugin that owns the variable. -/
  owner : Option String := none
deriving DecidableEq, Repr, Inhabited

/-- The modifiers that tell the plugin manager how to fetch and load a plugin, in the order in which
a directive lists them. A plugin without `wait` is loaded at once; one that waits `0` seconds is
loaded after the prompt.
-/
structure Ice where
  fromSite : Option String := none
  asKind : Option String := none
  pick : Option String := none
  atinit : Option String := none
  atload : Option String := none
  atclone : Option String := none
  depth : Option UInt64 := none
  blockf : Bool := false
  compile : Bool := false
  wait : Option UInt64 := none
  lucid : Bool := false
  lightMode : Bool := false
  ifCondition : Option String := none
  hasCommand : Option String := none
  onCommand : Option String := none
  bindmap : Option String := none
  mv : Option String := none
  bpick : Option String := none
  atpull : Option String := none
deriving DecidableEq, Repr, Inhabited

/-- A plugin. Its id does not change when it is renamed; an empty id is still to be assigned. -/
structure Plugin where
  id : String := ""
  name : String := ""
  description : Option String := none
  ice : Option Ice := none
deriving DecidableEq, Repr, Inhabited

/-- A command that sets or unsets an option of the shell. -/
structure ShellOption where
  option : String := ""
  description : Option String := none
deriving DecidableEq, Repr, Inhabited

/-- The version of the document format that configurations are written in. -/
def schemaVersion : UInt32 := 2

/-- A whole startup configuration. -/
structure Configuration where
  /-- The version of the document format, which is the current one of all that was read. -/
  version : UInt32 := schemaVersion
  bootstrap : Bootstrap := .builtin
  aliases : List Alias := []
  pathEntries : List PathEntry := []
  envVars : List EnvVar := []
  plugins : List Plugin := []
  options : List ShellOption := []
  /-- Shell code that ends the script. -/
  initScript : String := ""
deriving DecidableEq, Repr, Inhabited

end ZshStartup
