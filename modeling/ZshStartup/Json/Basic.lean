import ZshStartup.Json.Number

/-! JSON values. An object is the list of its fields, where the first field with a key counts. The
operations here keep every key unique, and a lemma for each tells what `get?` finds after it.
-/

namespace ZshStartup

inductive Json where
  | null
  | bool (b : Bool)
  | number (n : Number)
  | string (s : String)
  | array (items : List Json)
  | object (fields : List (String × Json))
deriving Inhabited

namespace Json

/-- The fields of an object, by key. -/
abbrev Fields := List (String × Json)

def natural (n : UInt64) : Json :=
  .number (.natural n)

/-- The fields of an object, and none for any other value. -/
def fields : Json → Fields
  | .object fields => fields
  | _ => []

def isObject : Json → Bool
  | .object _ => true
  | _ => false

namespace Fields

def get? (fields : Fields) (key : String) : Option Json :=
  fields.lookup key

/-- Stores a value under a key: in the place of an old value, else as the last field. -/
def insert (fields : Fields) (key : String) (value : Json) : Fields :=
  match fields with
  | [] => [(key, value)]
  | field :: rest =>
      if field.1 = key then (key, value) :: rest else field :: insert rest key value

def erase (fields : Fields) (key : String) : Fields :=
  fields.filter fun field => field.1 != key

/-- The fields of `upper`, and behind them those of `base` whose keys are not among them. -/
def overlay (base upper : Fields) : Fields :=
  upper ++ base.filter fun field => (upper.get? field.1).isNone

/-- The fields that entries amount to. A key stays where it first appears and takes the value that it
is given last.
-/
def ofEntries (entries : List (String × Json)) : Fields :=
  entries.foldl (fun fields entry => insert fields entry.1 entry.2) []

/-- The fields that are present, in the order given. -/
def ofOptional (fields : List (String × Option Json)) : Fields :=
  fields.filterMap fun field => field.2.map fun value => (field.1, value)

@[simp]
theorem get?_nil (key : String) : get? [] key = none :=
  rfl

theorem get?_cons (field : String × Json) (rest : Fields) (key : String)
    : get? (field :: rest) key = if key = field.1 then some field.2 else get? rest key := by
  obtain ⟨name, value⟩ := field
  by_cases h : key = name
  · simp [get?, h]
  · simp [get?, List.lookup_cons, h, beq_eq_false_iff_ne.mpr h]

/-- A stored value is found under its key, and under other keys nothing changes. -/
@[simp]
theorem get?_insert (fields : Fields) (key : String) (value : Json) (other : String)
    : (fields.insert key value).get? other
      = if other = key then some value else fields.get? other := by
  induction fields with
  | nil => simp [insert, get?_cons]
  | cons field rest ih =>
      by_cases h : field.1 = key
      · subst h
        by_cases ho : other = field.1 <;> simp [insert, get?_cons, ho]
      · by_cases ho : other = field.1
        · subst ho
          simp [insert, get?_cons, h]
        · simp [insert, get?_cons, h, ho, ih]

theorem get?_append (fields more : Fields) (key : String)
    : get? (fields ++ more) key = (fields.get? key).or (more.get? key) := by
  induction fields with
  | nil => simp [get?]
  | cons field rest ih =>
      rw [List.cons_append, get?_cons, get?_cons, ih]
      split <;> rfl

/-- A selection of fields by their keys keeps all or nothing of a key. -/
theorem get?_filter (fields : Fields) (keep : String → Bool) (key : String)
    : get? (fields.filter fun field => keep field.1) key
      = if keep key then fields.get? key else none := by
  induction fields with
  | nil => simp [get?]
  | cons field rest ih =>
      by_cases hk : keep field.1 <;> by_cases he : key = field.1
        <;> simp_all [get?_cons]

/-- Nothing is found under a key that was removed, and under other keys nothing changes. -/
@[simp]
theorem get?_erase (fields : Fields) (key other : String)
    : (fields.erase key).get? other = if other = key then none else fields.get? other := by
  rw [erase, get?_filter fields (· != key)]
  by_cases h : other = key <;> simp [h]

@[simp]
theorem get?_overlay (base upper : Fields) (key : String)
    : (base.overlay upper).get? key = (upper.get? key).or (base.get? key) := by
  rw [overlay, get?_append, get?_filter base fun key => (upper.get? key).isNone]
  cases upper.get? key <;> simp

/-- Of optional fields with distinct keys, those that are present are found. -/
theorem get?_ofOptional {fields : List (String × Option Json)}
    (distinct : (fields.map Prod.fst).Nodup) (key : String)
    : (ofOptional fields).get? key = (fields.lookup key).join := by
  induction fields with
  | nil => rfl
  | cons field rest ih =>
      obtain ⟨name, value⟩ := field
      obtain ⟨new, distinct⟩ := List.nodup_cons.mp distinct
      have missing : rest.lookup name = none := by
        rw [List.lookup_eq_none_iff]
        intro other member
        have different : name ≠ other.1 := fun same =>
          new (List.mem_map.mpr ⟨other, member, same.symm⟩)
        simpa using different
      have others := ih distinct
      rw [ofOptional] at others ⊢
      by_cases same : key = name
      · subst same
        cases value <;> simp [get?_cons, others, missing]
      · cases value <;> simp [get?_cons, List.lookup_cons, others, same, beq_eq_false_iff_ne.mpr same]

end Fields

end Json

end ZshStartup
