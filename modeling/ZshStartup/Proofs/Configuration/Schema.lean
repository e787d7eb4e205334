import ZshStartup.Configuration.Legacy
import ZshStartup.Proofs.Json.Path

/-! The fields that documents may have, and the type of each. Decoding sees no more of a field than its
value if that is of the field's type, so it cannot tell a value of another type from a missing one.
-/

namespace ZshStartup

open Json (Fields)

/-- The types of fields. -/
inductive Kind where
  | string
  | boolean
  | integer
  | array
  | object
deriving DecidableEq, Repr

/-- Whether a value is of a type. An integer is one of 64 bits without a sign. -/
def Kind.admits : Kind → Json → Bool
  | .string, .string _ => true
  | .boolean, .bool _ => true
  | .integer, .number (.natural _) => true
  | .array, .array _ => true
  | .object, .object _ => true
  | _, _ => false

/-- The fields of a record, each with its type. -/
abbrev Schema := List (String × Kind)

namespace Schema

def document : Schema :=
  [
    ("version", .integer), ("zinitInit", .object), ("aliases", .array), ("pathVars", .array),
    ("envVars", .array), ("plugins", .array), ("zshOptions", .array), ("initScript", .string)
  ]

def bootstrap : Schema :=
  [("brewPath", .string), ("zinitHome", .string)]

def aliasEntry : Schema :=
  [("name", .string), ("alias", .string), ("description", .string)]

def pathEntry : Schema :=
  [("name", .string), ("path", .string)]

def envVar : Schema :=
  [("key", .string), ("value", .string), ("group", .string), ("plugin", .string)]

def plugin : Schema :=
  [("id", .string), ("name", .string), ("description", .string), ("ice", .object)]

def option : Schema :=
  [("option", .string), ("description", .string)]

def ice : Schema :=
  [
    ("from", .string), ("as", .string), ("pick", .string), ("atinit", .string),
    ("atload", .string), ("atclone", .string), ("depth", .integer), ("blockf", .boolean),
    ("compile", .boolean), ("wait", .integer), ("lucid", .boolean), ("light_mode", .boolean),
    ("if", .string), ("has", .string), ("on", .string), ("bindmap", .string), ("mv", .string),
    ("bpick", .string), ("atpull", .string)
  ]

/-- The fields of the entries of a list. -/
def entry : String → Schema
  | "aliases" => aliasEntry
  | "pathVars" => pathEntry
  | "envVars" => envVar
  | "plugins" => plugin
  | "zshOptions" => option
  | _ => []

/-- The type of the field that belongs at a place of a document, if one does. -/
def kind? : Json.Path → Option Kind
  | [.key name] => document.lookup name
  | [.key "zinitInit", .key name] => bootstrap.lookup name
  | [.key list, .index _, .key name] => (entry list).lookup name
  | [.key "plugins", .index _, .key "ice", .key name] => ice.lookup name
  | _ => none

end Schema

-----------------------------------------------------------------------------------------
-- Fields of their types
-----------------------------------------------------------------------------------------

namespace Json.Fields

variable (fields : Fields) (key : String)

/-- The value of a field, if it is of a type. -/
def typed? (kind : Kind) : Option Json :=
  (fields.get? key).filter kind.admits

theorem string?_eq_typed? : fields.string? key = (fields.typed? key .string).bind Json.string? := by
  unfold string? typed?
  rcases fields.get? key with _ | (_ | _ | _ | _ | _ | _) <;> rfl

theorem natural?_eq_typed?
    : fields.natural? key = (fields.typed? key .integer).bind Json.natural? := by
  unfold natural? typed?
  rcases fields.get? key with _ | (_ | _ | (_ | _) | _ | _ | _) <;> rfl

theorem flag_eq_typed? : fields.flag key = (fields.typed? key .boolean).any Json.isTrue := by
  unfold flag typed?
  rcases fields.get? key with _ | (_ | _ | _ | _ | _ | _) <;> rfl

theorem record?_eq_typed? : fields.record? key = (fields.typed? key .object).bind Json.record? := by
  unfold record? typed?
  rcases fields.get? key with _ | (_ | _ | _ | _ | _ | _) <;> rfl

theorem records_eq_typed?
    : fields.records key = ((fields.typed? key .array).map Json.records).getD [] := by
  unfold records typed?
  rcases fields.get? key with _ | (_ | _ | _ | _ | _ | _) <;> rfl

end Json.Fields

/-- Two records in which every field of a schema has the same value of its type, or none. -/
def Schema.Agree (schema : Schema) (fields others : Fields) : Prop :=
  ∀ key kind, schema.lookup key = some kind → fields.typed? key kind = others.typed? key kind

/-- A field whose value is of another type may as well be missing. -/
theorem Schema.agree_erase {schema : Schema} {fields : Fields} {key : String} {kind : Kind}
    {value : Json} (known : schema.lookup key = some kind) (found : fields.get? key = some value)
    (wrong : kind.admits value = false)
    : schema.Agree (fields.erase key) fields := by
  intro other otherKind otherKnown
  unfold Fields.typed?
  rw [Fields.get?_erase]
  by_cases same : other = key
  · subst same
    obtain rfl := Option.some.inj (known.symm.trans otherKnown)
    simp [found, Option.filter, wrong]
  · rw [if_neg same]

-----------------------------------------------------------------------------------------
-- Decoding
-----------------------------------------------------------------------------------------

variable {fields others : Fields}

theorem Bootstrap.ofFields_congr (h : Schema.bootstrap.Agree fields others)
    : ofFields fields = ofFields others := by
  simp only [ofFields, Fields.text, Fields.string?_eq_typed?, h "brewPath" .string rfl,
    h "zinitHome" .string rfl]

theorem Alias.ofFields_congr (h : Schema.aliasEntry.Agree fields others)
    : ofFields fields = ofFields others := by
  simp only [ofFields, Fields.text, Fields.string?_eq_typed?, h "name" .string rfl,
    h "alias" .string rfl, h "description" .string rfl]

theorem PathEntry.ofFields_congr (h : Schema.pathEntry.Agree fields others)
    : ofFields fields = ofFields others := by
  simp only [ofFields, Fields.text, Fields.string?_eq_typed?, h "name" .string rfl,
    h "path" .string rfl]

theorem EnvVar.ofFields_congr (h : Schema.envVar.Agree fields others)
    : ofFields fields = ofFields others := by
  simp only [ofFields, Fields.text, Fields.string?_eq_typed?, h "key" .string rfl,
    h "value" .string rfl, h "group" .string rfl, h "plugin" .string rfl]

theorem Ice.ofFields_congr (h : Schema.ice.Agree fields others)
    : ofFields fields = ofFields others := by
  simp only [ofFields, Fields.string?_eq_typed?, Fields.natural?_eq_typed?, Fields.flag_eq_typed?,
    h "from" .string rfl, h "as" .string rfl, h "pick" .string rfl, h "atinit" .string rfl,
    h "atload" .string rfl, h "atclone" .string rfl, h "depth" .integer rfl,
    h "blockf" .boolean rfl, h "compile" .boolean rfl, h "wait" .integer rfl,
    h "lucid" .boolean rfl, h "light_mode" .boolean rfl, h "if" .string rfl,
    h "has" .string rfl, h "on" .string rfl, h "bindmap" .string rfl, h "mv" .string rfl,
    h "bpick" .string rfl, h "atpull" .string rfl]

theorem Plugin.ofFields_congr (h : Schema.plugin.Agree fields others)
    : ofFields fields = ofFields others := by
  simp only [ofFields, Fields.text, Fields.string?_eq_typed?, Fields.record?_eq_typed?,
    h "id" .string rfl, h "name" .string rfl, h "description" .string rfl, h "ice" .object rfl]

theorem ShellOption.ofFields_congr (h : Schema.option.Agree fields others)
    : ofFields fields = ofFields others := by
  simp only [ofFields, Fields.text, Fields.string?_eq_typed?, h "option" .string rfl,
    h "description" .string rfl]

theorem Configuration.ofFields_congr (h : Schema.document.Agree fields others)
    : ofFields fields = ofFields others := by
  simp only [ofFields, Fields.text, Fields.string?_eq_typed?, Fields.record?_eq_typed?,
    Fields.records_eq_typed?, h "zinitInit" .object rfl, h "aliases" .array rfl,
    h "pathVars" .array rfl, h "envVars" .array rfl, h "plugins" .array rfl,
    h "zshOptions" .array rfl, h "initScript" .string rfl]

end ZshStartup
