import ZshStartup.Proofs.Configuration.OlderPlugins
import Mathlib.Data.List.Forall2

/-! The entries that a document lists. Each object in a list describes one entry, whatever else is in
the document. If decoding could refuse a value at some depth, an entry would be lost or a default would
stand in for the whole configuration, but there is no value that it refuses.
-/

namespace ZshStartup

open Json (Fields)

-----------------------------------------------------------------------------------------
-- What an object says
-----------------------------------------------------------------------------------------

namespace Json

/-- The objects in the array under a key, in order. A value that is no array has none. -/
def elements (raw : Json) (key : String) : List Json :=
  match raw.fields.get? key with
  | some (.array items) => items.filter isObject
  | _ => []

theorem records_eq_map_elements (raw : Json) (key : String)
    : raw.fields.records key = (raw.elements key).map Json.fields := by
  have objects (items : List Json)
      : items.filterMap record? = (items.filter isObject).map Json.fields := by
    induction items with
    | nil => rfl
    | cons item items ih =>
        cases item <;> simp [List.filterMap_cons, List.filter_cons, record?, isObject, Json.fields, ih]
  unfold Fields.records elements
  cases raw.fields.get? key with
  | none => rfl
  | some value =>
      cases value with
      | array items => exact objects items
      | null | bool | number | string | object => rfl

namespace Fields

variable (fields : Fields) (key : String)

/-- Under the key is a string, which is the text, or no string, and the text is empty. -/
def SaysText (text : String) : Prop :=
  fields.get? key = some (.string text)
    ∨ text = "" ∧ ∀ other, fields.get? key ≠ some (.string other)

def SaysString (text? : Option String) : Prop :=
  ∀ text, text? = some text ↔ fields.get? key = some (.string text)

def SaysNatural (number? : Option UInt64) : Prop :=
  ∀ n, number? = some n ↔ fields.get? key = some (.natural n)

def SaysFlag (on : Bool) : Prop :=
  on = true ↔ fields.get? key = some (.bool true)

theorem saysString_string? : fields.SaysString key (fields.string? key) := by
  intro text
  unfold string?
  cases fields.get? key with
  | none => simp
  | some value => cases value <;> simp [Json.string?]

theorem saysText_text : fields.SaysText key (fields.text key) := by
  have given := fields.saysString_string? key
  unfold SaysText text
  cases shown : fields.string? key with
  | none =>
      refine .inr ⟨rfl, fun other stated => ?_⟩
      simpa [shown] using (given other).mpr stated
  | some text => exact .inl ((given text).mp shown)

theorem saysNatural_natural? : fields.SaysNatural key (fields.natural? key) := by
  intro n
  unfold natural? Json.natural
  rcases fields.get? key with _ | (_ | _ | (_ | _ | _) | _ | _ | _) <;> simp [Json.natural?]

end Fields

end Json

section Described

variable (fields : Fields)

structure Alias.DescribedBy (entry : Alias) : Prop where
  name : fields.SaysText "name" entry.name
  command : fields.SaysText "alias" entry.command
  description : fields.SaysString "description" entry.description

structure PathEntry.DescribedBy (entry : PathEntry) : Prop where
  name : fields.SaysText "name" entry.name
  path : fields.SaysText "path" entry.path

/-- The key and the value of a variable. Its group and its owner also depend on the plugins. -/
structure EnvVar.DescribedBy (entry : EnvVar) : Prop where
  key : fields.SaysText "key" entry.key
  value : fields.SaysText "value" entry.value

structure Ice.DescribedBy (ice : Ice) : Prop where
  fromSite : fields.SaysString "from" ice.fromSite
  asKind : fields.SaysString "as" ice.asKind
  pick : fields.SaysString "pick" ice.pick
  atinit : fields.SaysString "atinit" ice.atinit
  atload : fields.SaysString "atload" ice.atload
  atclone : fields.SaysString "atclone" ice.atclone
  depth : fields.SaysNatural "depth" ice.depth
  blockf : fields.SaysFlag "blockf" ice.blockf
  compile : fields.SaysFlag "compile" ice.compile
  wait : fields.SaysNatural "wait" ice.wait
  lucid : fields.SaysFlag "lucid" ice.lucid
  lightMode : fields.SaysFlag "light_mode" ice.lightMode
  ifCondition : fields.SaysString "if" ice.ifCondition
  hasCommand : fields.SaysString "has" ice.hasCommand
  onCommand : fields.SaysString "on" ice.onCommand
  bindmap : fields.SaysString "bindmap" ice.bindmap
  mv : fields.SaysString "mv" ice.mv
  bpick : fields.SaysString "bpick" ice.bpick
  atpull : fields.SaysString "atpull" ice.atpull

/-- A plugin but for its id, which also depends on the other plugins. It has modifiers if there is an
object that describes them.
-/
structure Plugin.DescribedBy (plugin : Plugin) : Prop where
  name : fields.SaysText "name" plugin.name
  description : fields.SaysString "description" plugin.description
  ice : ∀ modifiers, fields.get? "ice" = some (.object modifiers) →
    ∃ ice, plugin.ice = some ice ∧ ice.DescribedBy modifiers
  noIce : (∀ modifiers, fields.get? "ice" ≠ some (.object modifiers)) → plugin.ice = none

/-- A plugin without its id. -/
def Plugin.anonymous (plugin : Plugin) : Plugin :=
  { plugin with id := "" }

structure ShellOption.DescribedBy (entry : ShellOption) : Prop where
  option : fields.SaysText "option" entry.option
  description : fields.SaysString "description" entry.description

theorem Plugin.describedBy_anonymous_iff {fields : Fields} {plugin : Plugin}
    : DescribedBy fields plugin.anonymous ↔ DescribedBy fields plugin :=
  ⟨fun described => { described with }, fun described => { described with }⟩

end Described

section OfFields

variable (fields : Fields)

theorem Alias.describedBy_ofFields : DescribedBy fields (ofFields fields) where
  name := fields.saysText_text "name"
  command := fields.saysText_text "alias"
  description := fields.saysString_string? "description"

theorem PathEntry.describedBy_ofFields : DescribedBy fields (ofFields fields) where
  name := fields.saysText_text "name"
  path := fields.saysText_text "path"

theorem EnvVar.describedBy_ofFields : DescribedBy fields (ofFields fields) where
  key := fields.saysText_text "key"
  value := fields.saysText_text "value"

theorem Ice.describedBy_ofFields : DescribedBy fields (ofFields fields) where
  fromSite := fields.saysString_string? "from"
  asKind := fields.saysString_string? "as"
  pick := fields.saysString_string? "pick"
  atinit := fields.saysString_string? "atinit"
  atload := fields.saysString_string? "atload"
  atclone := fields.saysString_string? "atclone"
  depth := fields.saysNatural_natural? "depth"
  blockf := Fields.flag_iff
  compile := Fields.flag_iff
  wait := fields.saysNatural_natural? "wait"
  lucid := Fields.flag_iff
  lightMode := Fields.flag_iff
  ifCondition := fields.saysString_string? "if"
  hasCommand := fields.saysString_string? "has"
  onCommand := fields.saysString_string? "on"
  bindmap := fields.saysString_string? "bindmap"
  mv := fields.saysString_string? "mv"
  bpick := fields.saysString_string? "bpick"
  atpull := fields.saysString_string? "atpull"

theorem Plugin.describedBy_ofFields : DescribedBy fields (ofFields fields) where
  name := fields.saysText_text "name"
  description := fields.saysString_string? "description"
  ice modifiers given :=
    ⟨_, by simp [ofFields, Fields.record?, given, Json.record?], Ice.describedBy_ofFields modifiers⟩
  noIce missing := by
    unfold ofFields Fields.record?
    cases given : fields.get? "ice" with
    | none => rfl
    | some value =>
        cases value with
        | object modifiers => exact absurd given (missing modifiers)
        | null | bool | number | string | array => rfl

theorem ShellOption.describedBy_ofFields : DescribedBy fields (ofFields fields) where
  option := fields.saysText_text "option"
  description := fields.saysString_string? "description"

end OfFields

-----------------------------------------------------------------------------------------
-- Decoding that may refuse
-----------------------------------------------------------------------------------------

namespace Json

/-- Reads a value, or refuses it. -/
abbrev Decoder (α : Type) := Json → Option α

namespace Decoder

def string : Decoder (Option String) :=
  fun value => some value.string?

def text : Decoder String :=
  fun value => (string value).map fun given => given.getD ""

def integer : Decoder (Option UInt64) :=
  fun value => some value.natural?

def flag : Decoder Bool :=
  fun value => some value.isTrue

/-- Drops the objects that are refused, as well as what is no object. -/
def items {α : Type} (decode : Fields → Option α) : Decoder (List α) :=
  fun value => some (value.records.filterMap decode)

/-- Takes an object that is refused for a missing one. -/
def record {α : Type} (decode : Fields → Option α) : Decoder (Option α) :=
  fun value => some (value.record?.bind decode)

end Decoder

/-- Reads the value under a key, if there is one. An object is refused if the value is. -/
def Fields.decode {α : Type} (fields : Fields) (key : String) (missing : α) (decoder : Decoder α)
    : Option α :=
  match fields.get? key with
  | some value => decoder value
  | none => some missing

end Json

open Json (Decoder)

section Decode

variable (fields : Fields)

def Bootstrap.decode : Option Bootstrap := do
  let brewPath ← fields.decode "brewPath" "" .text
  let zinitHome ← fields.decode "zinitHome" "" .text
  return { brewPath, zinitHome }

def Alias.decode : Option Alias := do
  let name ← fields.decode "name" "" .text
  let command ← fields.decode "alias" "" .text
  let description ← fields.decode "description" none .string
  return { name, command, description }

def PathEntry.decode : Option PathEntry := do
  let name ← fields.decode "name" "" .text
  let path ← fields.decode "path" "" .text
  return { name, path }

def EnvVar.decode : Option EnvVar := do
  let key ← fields.decode "key" "" .text
  let value ← fields.decode "value" "" .text
  let group ← fields.decode "group" none .string
  let owner ← fields.decode "plugin" none fun value =>
    (Decoder.string value).map fun given => given.filter (· != "")
  return { key, value, group, owner }

def Ice.decode : Option Ice := do
  let string (key : String) := fields.decode key none .string
  let integer (key : String) := fields.decode key none .integer
  let flag (key : String) := fields.decode key false .flag
  return {
    fromSite := ← string "from"
    asKind := ← string "as"
    pick := ← string "pick"
    atinit := ← string "atinit"
    atload := ← string "atload"
    atclone := ← string "atclone"
    depth := ← integer "depth"
    blockf := ← flag "blockf"
    compile := ← flag "compile"
    wait := ← integer "wait"
    lucid := ← flag "lucid"
    lightMode := ← flag "light_mode"
    ifCondition := ← string "if"
    hasCommand := ← string "has"
    onCommand := ← string "on"
    bindmap := ← string "bindmap"
    mv := ← string "mv"
    bpick := ← string "bpick"
    atpull := ← string "atpull"
  }

def Plugin.decode : Option Plugin := do
  let id ← fields.decode "id" "" .text
  let name ← fields.decode "name" "" .text
  let description ← fields.decode "description" none .string
  let ice ← fields.decode "ice" none (.record Ice.decode)
  return { id, name, description, ice }

def ShellOption.decode : Option ShellOption := do
  let option ← fields.decode "option" "" .text
  let description ← fields.decode "description" none .string
  return { option, description }

def Configuration.decode : Option Configuration := do
  let bootstrap ← fields.decode "zinitInit" .builtin fun value =>
    (Decoder.record Bootstrap.decode value).map fun given => (given.getD .builtin).orDefaults
  let aliases ← fields.decode "aliases" [] (.items Alias.decode)
  let pathEntries ← fields.decode "pathVars" [] (.items PathEntry.decode)
  let envVars ← fields.decode "envVars" [] (.items EnvVar.decode)
  let plugins ← fields.decode "plugins" [] (.items Plugin.decode)
  let options ← fields.decode "zshOptions" [] (.items ShellOption.decode)
  let initScript ← fields.decode "initScript" "" .text
  return { bootstrap, aliases, pathEntries, envVars, plugins, options, initScript }

end Decode

namespace Json.Fields

variable (fields : Fields) (key : String)

@[simp]
theorem decode_string : fields.decode key none .string = some (fields.string? key) := by
  unfold decode string?
  cases fields.get? key <;> rfl

@[simp]
theorem decode_text : fields.decode key "" .text = some (fields.text key) := by
  unfold decode text string?
  cases fields.get? key <;> rfl

@[simp]
theorem decode_integer : fields.decode key none .integer = some (fields.natural? key) := by
  unfold decode natural?
  cases fields.get? key <;> rfl

@[simp]
theorem decode_flag : fields.decode key false .flag = some (fields.flag key) := by
  unfold decode flag
  cases fields.get? key <;> rfl

variable {α : Type} {decode : Fields → Option α} {read : Fields → α}

/-- A list loses no object if all are read. -/
theorem decode_items (total : ∀ fields, decode fields = some (read fields))
    : fields.decode key [] (.items decode) = some ((fields.records key).map read) := by
  obtain rfl : decode = some ∘ read := funext total
  unfold Fields.decode records
  cases fields.get? key <;> simp [Decoder.items]

theorem decode_record (total : ∀ fields, decode fields = some (read fields))
    : fields.decode key none (.record decode) = some ((fields.record? key).map read) := by
  obtain rfl : decode = some ∘ read := funext total
  unfold Fields.decode record?
  cases fields.get? key with
  | none => rfl
  | some value => cases given : value.record? <;> simp [Decoder.record, given]

end Json.Fields

section Total

variable (fields : Fields)

theorem Bootstrap.decode_eq : decode fields = some (ofFields fields) := by
  simp [decode, ofFields]

theorem Alias.decode_eq : decode fields = some (ofFields fields) := by
  simp [decode, ofFields]

theorem PathEntry.decode_eq : decode fields = some (ofFields fields) := by
  simp [decode, ofFields]

theorem EnvVar.decode_eq : decode fields = some (ofFields fields) := by
  have owner
      : (fields.decode "plugin" none fun value =>
            (Decoder.string value).map fun given => given.filter (· != ""))
        = some ((fields.string? "plugin").filter (· != "")) := by
    unfold Fields.decode Fields.string?
    cases fields.get? "plugin" <;> rfl
  simp [decode, ofFields, owner]

theorem Ice.decode_eq : decode fields = some (ofFields fields) := by
  simp [decode, ofFields]

theorem Plugin.decode_eq : decode fields = some (ofFields fields) := by
  simp [decode, ofFields, Fields.decode_record fields "ice" Ice.decode_eq]

theorem ShellOption.decode_eq : decode fields = some (ofFields fields) := by
  simp [decode, ofFields]

theorem Configuration.decode_eq : decode fields = some (ofFields fields) := by
  have bootstrap
      : (fields.decode "zinitInit" .builtin fun value =>
            (Decoder.record Bootstrap.decode value).map fun given =>
              (given.getD .builtin).orDefaults)
        = some
            (((fields.record? "zinitInit").map Bootstrap.ofFields).getD .builtin).orDefaults := by
    unfold Fields.decode Fields.record?
    cases fields.get? "zinitInit" with
    | none => rfl
    | some value => cases given : value.record? <;> simp [Decoder.record, given, Bootstrap.decode_eq]
  simp [decode, ofFields, bootstrap, Fields.decode_items fields _ Alias.decode_eq,
    Fields.decode_items fields _ PathEntry.decode_eq, Fields.decode_items fields _ EnvVar.decode_eq,
    Fields.decode_items fields _ Plugin.decode_eq, Fields.decode_items fields _ ShellOption.decode_eq]

end Total

-----------------------------------------------------------------------------------------
-- Documents
-----------------------------------------------------------------------------------------

/-- The fields of a plugin that are decoded in a document of a version. -/
def Legacy.current (version : UInt64) (fields : Fields) : Fields :=
  if version < 2 then migratePlugin fields else fields

theorem Plugin.ofVersion_eq_ofFields_current (version : UInt64) (fields : Fields)
    : ofVersion version fields = ofFields (Legacy.current version fields) := by
  unfold ofVersion Legacy.current
  split
  · exact (Legacy.ofFields_migratePlugin fields).symm
  · rfl

namespace Configuration

/-- The lists of a configuration have one entry for each object in the lists of a document, in the same
order, and each entry is what its object describes.
-/
structure Lists (config : Configuration) (raw : Json) : Prop where
  aliases
    : List.Forall₂ (fun element => Alias.DescribedBy element.fields)
        (raw.elements "aliases") config.aliases
  pathEntries
    : List.Forall₂ (fun element => PathEntry.DescribedBy element.fields)
        (raw.elements "pathVars") config.pathEntries
  envVars
    : List.Forall₂ (fun element => EnvVar.DescribedBy element.fields)
        (raw.elements "envVars") config.envVars
  plugins
    : List.Forall₂
        (fun element =>
          Plugin.DescribedBy (Legacy.current (Legacy.version raw.fields) element.fields))
        (raw.elements "plugins") config.plugins
  options
    : List.Forall₂ (fun element => ShellOption.DescribedBy element.fields)
        (raw.elements "zshOptions") config.options

theorem forall₂_map_records {α : Type} {describedBy : Fields → α → Prop} {read : Fields → α}
    (described : ∀ fields, describedBy fields (read fields)) (raw : Json) (key : String)
    : List.Forall₂ (fun element => describedBy element.fields)
        (raw.elements key) ((raw.fields.records key).map read) := by
  rw [Json.records_eq_map_elements, List.map_map, List.forall₂_map_right_iff, List.forall₂_same]
  exact fun element _ => described element.fields

variable {config : Configuration} {raw : Json}

theorem lists_ofDocument (raw : Json) : (ofDocument raw).Lists raw := by
  rw [ofDocument_eq]
  constructor
  case aliases => exact forall₂_map_records Alias.describedBy_ofFields raw "aliases"
  case pathEntries => exact forall₂_map_records PathEntry.describedBy_ofFields raw "pathVars"
  case envVars => exact forall₂_map_records EnvVar.describedBy_ofFields raw "envVars"
  case options => exact forall₂_map_records ShellOption.describedBy_ofFields raw "zshOptions"
  case plugins =>
    have described (fields : Fields)
        : Plugin.DescribedBy (Legacy.current (Legacy.version raw.fields) fields)
            (Plugin.ofVersion (Legacy.version raw.fields) fields) := by
      rw [Plugin.ofVersion_eq_ofFields_current]
      exact Plugin.describedBy_ofFields _
    exact forall₂_map_records described raw "plugins"

/-- Objects describe plugins without their ids, so that new ids do not matter. -/
theorem Lists.assignIds (lists : config.Lists raw) : config.assignIds.Lists raw where
  aliases := lists.aliases
  pathEntries := lists.pathEntries
  envVars := lists.envVars
  options := lists.options
  plugins := by
    have same : (Plugin.assignIds config.plugins).map Plugin.anonymous
        = config.plugins.map Plugin.anonymous :=
      Plugin.map_assignIds Plugin.anonymous (fun _ _ => rfl) config.plugins
    have described := lists.plugins.imp fun _ _ => Plugin.describedBy_anonymous_iff.mpr
    rw [← List.forall₂_map_right_iff, ← same, List.forall₂_map_right_iff] at described
    exact described.imp fun _ _ => Plugin.describedBy_anonymous_iff.mp

/-- Objects describe variables without their groups and owners, so that new links do not matter. -/
theorem Lists.linkOwners (lists : config.Lists raw) : config.linkOwners.Lists raw where
  aliases := lists.aliases
  pathEntries := lists.pathEntries
  plugins := lists.plugins
  options := lists.options
  envVars := by
    refine List.forall₂_map_right_iff.mpr (lists.envVars.imp fun element entry described => ?_)
    exact ⟨by simpa using described.key, by simpa using described.value⟩

/-- A configuration has one entry for each object that is listed, whatever is in the document, since
decoding refuses no object. The default that would replace a refused document is never used.
-/
theorem lists_normalize (raw : Json)
    : (normalize raw).Lists raw
      ∧ (∀ fields,
          Alias.decode fields ≠ none ∧ PathEntry.decode fields ≠ none
          ∧ EnvVar.decode fields ≠ none ∧ Plugin.decode fields ≠ none
          ∧ Ice.decode fields ≠ none ∧ ShellOption.decode fields ≠ none
          ∧ Bootstrap.decode fields ≠ none ∧ decode fields ≠ none)
      ∧ ∀ fallback,
          ((decode ((toFields {}).overlay (Legacy.migrate raw.fields))).getD
              fallback).assignIds.linkOwners
          = normalize raw := by
  refine ⟨(lists_ofDocument raw).assignIds.linkOwners, fun fields => ?_, fun fallback => ?_⟩
  · simp [Alias.decode_eq, PathEntry.decode_eq, EnvVar.decode_eq, Plugin.decode_eq, Ice.decode_eq,
      ShellOption.decode_eq, Bootstrap.decode_eq, decode_eq]
  · rw [decode_eq]
    rfl

/-- Other entries and lists may be malformed. -/
example
    : (normalize
        (.object
          [
            ("aliases",
              .array
                [
                  .null,
                  .object [("name", .natural 3), ("alias", .string "ls"), ("description", .null)],
                  .string "ll"
                ]),
            ("plugins", .bool true)
          ])).aliases
      = [{ command := "ls" }] :=
  rfl

end Configuration

end ZshStartup
