/-! Settings documents: tables of keys and values, as far as a program's own settings need them. A
document is a map from whole keys to what they stand for; a table is open to further keys or closed to
them by the way in which it came to be.
-/

namespace ZshStartup.Toml

/-- A key: the names of the tables it lies in, then its own. -/
abbrev Key := List String

/-- A value. Numbers, dates and what arrays and inline tables hold are not kept. -/
inductive Value where
  | string (s : String)
  | boolean (b : Bool)
  | number
  | dateTime
  | array
  | table
deriving DecidableEq, Repr

/-- How a table comes to be. -/
inductive Origin where
  /-- It has a header of its own. -/
  | header
  /-- The header of a table inside it leads through it. -/
  | implied
  /-- The key of an assignment leads through it. -/
  | dotted
deriving DecidableEq, Repr

inductive Node where
  | value (v : Value)
  | table (origin : Origin)
  /-- An array with a header for each of its tables. Longer keys lead into the last of them. -/
  | tables
deriving DecidableEq, Repr

/-- A document: what the keys in it stand for. -/
structure Document where
  nodes : List (Key × Node) := []
deriving DecidableEq, Repr

namespace Document

def find? (document : Document) (key : Key) : Option Node :=
  document.nodes.lookup key

def set (document : Document) (key : Key) (node : Node) : Document :=
  ⟨(key, node) :: document.nodes.filter fun entry => entry.1 != key⟩

def clear (document : Document) (key : Key) : Document :=
  ⟨document.nodes.filter fun entry => !(key.isPrefixOf entry.1 && key.length < entry.1.length)⟩

/-- Follows names from a table, and makes the tables that are missing on the way. A value ends the
way; so does, for the key of an assignment, a table with a header.
-/
def descend? (dotted : Bool) (document : Document) (table : Key) : List String → Option Document
  | [] => some document
  | name :: names =>
      let key := table ++ [name]
      match document.find? key with
      | none =>
          let made := Node.table (if dotted then .dotted else .implied)
          descend? dotted (document.set key made) key names
      | some (.value _) => none
      | some (.table .header) => if dotted then none else descend? dotted document key names
      | some (.table _) => descend? dotted document key names
      | some .tables => descend? dotted document key names

/-- Adds the header of a table. The table may have been implied before, but not more. -/
def addTable? (document : Document) (key : Key) : Option Document := do
  let document ← document.descend? false [] key.dropLast
  match document.find? key with
  | none => some (document.set key (.table .header))
  | some (.table .implied) => some (document.set key (.table .header))
  | some _ => none

/-- Adds the header of a table in an array of tables, the first or one more. -/
def addTables? (document : Document) (key : Key) : Option Document := do
  let document ← document.descend? false [] key.dropLast
  match document.find? key with
  | none => some (document.set key .tables)
  | some .tables => some (document.clear key)
  | some _ => none

/-- Assigns a value in a table. The key must be new, and if it has several names, those before the
last one must lead to a table that only such keys have made.
-/
def assign? (document : Document) (table names : Key) (value : Value) : Option Document := do
  let document ← document.descend? true table names.dropLast
  let parent := table ++ names.dropLast
  if parent ≠ table ∧ document.find? parent ≠ some (.table .dotted) then
    none
  else
    match document.find? (table ++ names) with
    | none => some (document.set (table ++ names) (.value value))
    | some _ => none

def get? (document : Document) (name : String) : Option Value :=
  (document.find? [name]).map fun
    | .value value => value
    | .table _ => .table
    | .tables => .array

end Document

end ZshStartup.Toml
