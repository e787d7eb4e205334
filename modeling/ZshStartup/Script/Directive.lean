import ZshStartup.Configuration.Basic
import ZshStartup.Shell.Quoting

/-! The line of a script that loads a plugin: the plugin manager's command, a word for each modifier
in a fixed order, and the plugin's name. Free text is quoted; numbers and switches are bare.
-/

namespace ZshStartup

/-- A modifier as a directive states it. -/
inductive Modifier where
  /-- A name and the text that belongs to it. -/
  | text (name value : String)
  /-- How many revisions to fetch. -/
  | depth (revisions : UInt64)
  /-- How long to wait before loading. -/
  | wait (seconds : UInt64)
  /-- A switch that is on. -/
  | flag (name : String)
deriving DecidableEq, Repr

namespace Modifier

/-- The digits of a number. -/
def digits (n : UInt64) : String :=
  toString n.toNat

/-- The word that states a modifier. -/
def token : Modifier → String
  | .text name value => name ++ Shell.singleQuote value
  | .depth revisions => "depth" ++ digits revisions
  | .wait seconds =>
      if seconds = 0 then "wait" else "wait" ++ Shell.singleQuote (digits seconds)
  | .flag name => name

/-- Text that is empty states nothing. -/
def text? (name : String) (value : Option String) : Option Modifier :=
  (value.filter (· != "")).map (.text name)

/-- A depth of zero states nothing. -/
def depth? (revisions : Option UInt64) : Option Modifier :=
  (revisions.filter (· != 0)).map .depth

def flag? (name : String) (on : Bool) : Option Modifier :=
  if on then some (.flag name) else none

end Modifier

/-- The modifiers that take effect, in the order in which a directive lists them. -/
def Ice.modifiers (ice : Ice) : List Modifier :=
  [
    Modifier.text? "from" ice.fromSite,
    Modifier.text? "as" ice.asKind,
    Modifier.text? "pick" ice.pick,
    Modifier.text? "atinit" ice.atinit,
    Modifier.text? "atload" ice.atload,
    Modifier.text? "atclone" ice.atclone,
    Modifier.depth? ice.depth,
    Modifier.flag? "blockf" ice.blockf,
    Modifier.flag? "compile" ice.compile,
    ice.wait.map .wait,
    Modifier.flag? "lucid" ice.lucid,
    Modifier.flag? "light-mode" ice.lightMode,
    Modifier.text? "if" ice.ifCondition,
    Modifier.text? "has" ice.hasCommand,
    Modifier.text? "on" ice.onCommand,
    Modifier.text? "bindmap" ice.bindmap,
    Modifier.text? "mv" ice.mv,
    Modifier.text? "bpick" ice.bpick,
    Modifier.text? "atpull" ice.atpull
  ].filterMap id

/-- The words of the modifiers that take effect. -/
def Ice.tokens (ice : Ice) : List String :=
  ice.modifiers.map Modifier.token

/-- A line of code, and behind it the comment, unless it is missing or empty. -/
def Script.withComment (code : String) (comment : Option String) : String :=
  match comment.filter (· != "") with
  | some comment => code ++ "  # " ++ comment
  | none => code

/-- The line that loads a plugin. -/
def Plugin.directive (plugin : Plugin) : String :=
  let tokens := (plugin.ice.map Ice.tokens).getD []
  Script.withComment
    ("zinit" ++ String.join (tokens.map (" " ++ ·)) ++ " for " ++ plugin.name)
    plugin.description

end ZshStartup
