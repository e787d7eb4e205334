import ZshStartup.Json.Basic

/-! Places in a JSON value, what stands there, and the value without a field that stands there.
-/

namespace ZshStartup.Json

/-- A step from a value into one of its parts. -/
inductive Step where
  | key (name : String)
  | index (position : Nat)
deriving DecidableEq, Repr

/-- The steps that lead to a place. -/
abbrev Path := List Step

/-- The value at a place. -/
def at? : Json → Path → Option Json
  | json, [] => some json
  | .object fields, .key name :: path => (Fields.get? fields name).bind fun value => value.at? path
  | .array items, .index position :: path => items[position]?.bind fun item => item.at? path
  | _, _ :: _ => none

/-- The value without the field that a place leads to. -/
def eraseAt : Json → Path → Json
  | .object fields, [.key name] => .object (Fields.erase fields name)
  | .object fields, .key name :: path =>
      match Fields.get? fields name with
      | some value => .object (Fields.insert fields name (value.eraseAt path))
      | none => .object fields
  | .array items, .index position :: path =>
      .array (items.modify position fun item => item.eraseAt path)
  | json, _ => json

/-- A key leads on from an object that has a field with it. -/
theorem at?_key_cons {json found : Json} {name : String} {path : Path}
    (h : json.at? (.key name :: path) = some found)
    : ∃ (fields : Fields) (value : Json),
        json = .object fields ∧ fields.get? name = some value ∧ value.at? path = some found := by
  cases json with
  | object fields =>
      obtain ⟨value, stored, rest⟩ := Option.bind_eq_some_iff.mp h
      exact ⟨fields, value, rfl, stored, rest⟩
  | _ => cases h

/-- A position leads on from an array that is long enough. -/
theorem at?_index_cons {json found : Json} {position : Nat} {path : Path}
    (h : json.at? (.index position :: path) = some found)
    : ∃ items item,
        json = .array items ∧ items[position]? = some item ∧ item.at? path = some found := by
  cases json with
  | array items =>
      obtain ⟨item, stored, rest⟩ := Option.bind_eq_some_iff.mp h
      exact ⟨items, item, rfl, stored, rest⟩
  | _ => cases h

end ZshStartup.Json
