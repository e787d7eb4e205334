import ZshStartup.Configuration.Basic
import ZshStartup.Json.Basic

/-! Reading configurations from JSON values. Decoding never fails: a field whose value has the wrong
type counts as absent, and so does an entry of a list that is not an object.
-/

namespace ZshStartup

namespace Json

/-- The text that a value is, if it is a string. -/
def string? : Json → Option String
  | .string s => some s
  | _ => none

/-- The number that a value is, if it is an unsigned 64-bit integer. -/
def natural? : Json → Option UInt64
  | .number (.natural n) => some n
  | _ => none

/-- The fields of a value, if it is an object. -/
def record? : Json → Option Fields
  | .object fields => some fields
  | _ => none

/-- A value that is the literal `true`. -/
def isTrue : Json → Bool
  | .bool true => true
  | _ => false

/-- The objects in an array, and none for any other value. -/
def records : Json → List Fields
  | .array items => items.filterMap record?
  | _ => []

namespace Fields

/-- The text of an optional field. -/
def string? (fields : Fields) (key : String) : Option String :=
  (fields.get? key).bind Json.string?

/-- The text of a required field, empty if it is missing. -/
def text (fields : Fields) (key : String) : String :=
  (fields.string? key).getD ""

/-- The number of an optional field. -/
def natural? (fields : Fields) (key : String) : Option UInt64 :=
  (fields.get? key).bind Json.natural?

/-- A switch, which only `true` turns on. -/
def flag (fields : Fields) (key : String) : Bool :=
  (fields.get? key).any Json.isTrue

/-- The fields of a nested object. -/
def record? (fields : Fields) (key : String) : Option Fields :=
  (fields.get? key).bind Json.record?

/-- The objects of a nested list, in order. -/
def records (fields : Fields) (key : String) : List Fields :=
  ((fields.get? key).map Json.records).getD []

section Insert

variable (fields : Fields) (key other : String) (value : Json)

@[simp]
theorem string?_insert
    : (fields.insert key value).string? other
      = if other = key then value.string? else fields.string? other := by
  unfold string?
  rw [get?_insert]
  split <;> rfl

@[simp]
theorem text_insert
    : (fields.insert key value).text other
      = if other = key then value.string?.getD "" else fields.text other := by
  unfold text
  rw [string?_insert]
  split <;> rfl

@[simp]
theorem natural?_insert
    : (fields.insert key value).natural? other
      = if other = key then value.natural? else fields.natural? other := by
  unfold natural?
  rw [get?_insert]
  split <;> rfl

@[simp]
theorem record?_insert
    : (fields.insert key value).record? other
      = if other = key then value.record? else fields.record? other := by
  unfold record?
  rw [get?_insert]
  split <;> rfl

@[simp]
theorem records_insert
    : (fields.insert key value).records other
      = if other = key then value.records else fields.records other := by
  unfold records
  rw [get?_insert]
  split <;> rfl

end Insert

end Fields

end Json

open Json (Fields)

/-- The paths as given, empty where they are missing. -/
def Bootstrap.ofFields (fields : Fields) : Bootstrap where
  brewPath := fields.text "brewPath"
  zinitHome := fields.text "zinitHome"

def Alias.ofFields (fields : Fields) : Alias where
  name := fields.text "name"
  command := fields.text "alias"
  description := fields.string? "description"

def PathEntry.ofFields (fields : Fields) : PathEntry where
  name := fields.text "name"
  path := fields.text "path"

/-- An empty owner counts as none. -/
def EnvVar.ofFields (fields : Fields) : EnvVar where
  key := fields.text "key"
  value := fields.text "value"
  group := fields.string? "group"
  owner := (fields.string? "plugin").filter (· != "")

def Ice.ofFields (fields : Fields) : Ice where
  fromSite := fields.string? "from"
  asKind := fields.string? "as"
  pick := fields.string? "pick"
  atinit := fields.string? "atinit"
  atload := fields.string? "atload"
  atclone := fields.string? "atclone"
  depth := fields.natural? "depth"
  blockf := fields.flag "blockf"
  compile := fields.flag "compile"
  wait := fields.natural? "wait"
  lucid := fields.flag "lucid"
  lightMode := fields.flag "light_mode"
  ifCondition := fields.string? "if"
  hasCommand := fields.string? "has"
  onCommand := fields.string? "on"
  bindmap := fields.string? "bindmap"
  mv := fields.string? "mv"
  bpick := fields.string? "bpick"
  atpull := fields.string? "atpull"

def Plugin.ofFields (fields : Fields) : Plugin where
  id := fields.text "id"
  name := fields.text "name"
  description := fields.string? "description"
  ice := (fields.record? "ice").map Ice.ofFields

def ShellOption.ofFields (fields : Fields) : ShellOption where
  option := fields.text "option"
  description := fields.string? "description"

/-- Decodes each field for itself; the built-in bootstrap paths stand in for missing ones. The version
that the fields declare does not count.
-/
def Configuration.ofFields (fields : Fields) : Configuration where
  version := schemaVersion
  bootstrap := (((fields.record? "zinitInit").map Bootstrap.ofFields).getD .builtin).orDefaults
  aliases := (fields.records "aliases").map Alias.ofFields
  pathEntries := (fields.records "pathVars").map PathEntry.ofFields
  envVars := (fields.records "envVars").map EnvVar.ofFields
  plugins := (fields.records "plugins").map Plugin.ofFields
  options := (fields.records "zshOptions").map ShellOption.ofFields
  initScript := fields.text "initScript"

end ZshStartup
