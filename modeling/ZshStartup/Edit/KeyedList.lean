import ZshStartup.Configuration.Basic

/-! Lists whose entries are told apart by a key, and moves within a list. An entry that replaces
another takes its place, and a new one goes to the end.
-/

namespace ZshStartup

/-- Entries with a key. -/
class Keyed (α : Type) where
  key : α → String

instance : Keyed Alias where
  key := Alias.name

instance : Keyed PathEntry where
  key := PathEntry.name

instance : Keyed EnvVar where
  key := EnvVar.key

instance : Keyed ShellOption where
  key := ShellOption.option

namespace KeyedList

variable {α : Type} [Keyed α]

/-- The keys of a list, in order. -/
def keys (entries : List α) : List String :=
  entries.map Keyed.key

/-- The first entry with a key. -/
def get? (entries : List α) (key : String) : Option α :=
  entries.find? (Keyed.key · == key)

/-- Puts an entry in the place of the first one with its key, or at the end. -/
def insert (entries : List α) (entry : α) : List α :=
  match entries with
  | [] => [entry]
  | first :: rest =>
      if Keyed.key first = Keyed.key entry then entry :: rest else first :: insert rest entry

/-- Removes the first entry with a key. -/
def erase (entries : List α) (key : String) : List α :=
  entries.eraseP (Keyed.key · == key)

theorem get?_cons (first : α) (rest : List α) (key : String)
    : get? (first :: rest) key = if Keyed.key first = key then some first else get? rest key := by
  by_cases h : Keyed.key first = key <;> simp [get?, h]

/-- An entry that was put in is found under its key, and under other keys nothing changes. -/
@[simp]
theorem get?_insert (entries : List α) (entry : α) (key : String)
    : get? (insert entries entry) key
      = if Keyed.key entry = key then some entry else get? entries key := by
  induction entries with
  | nil => simp [insert, get?]
  | cons first rest ih =>
      by_cases h : Keyed.key first = Keyed.key entry
        <;> by_cases hk : Keyed.key entry = key
        <;> simp_all [insert, get?_cons]

/-- Under other keys than the one removed nothing changes. -/
theorem get?_erase_of_ne (entries : List α) {key other : String} (h : other ≠ key)
    : get? (erase entries key) other = get? entries other := by
  induction entries with
  | nil => rfl
  | cons first rest ih =>
      by_cases hk : Keyed.key first = key
      · simp [erase, get?_cons, hk, h.symm]
      · simp_all [erase, get?_cons]

/-- A new key goes to the end, and one that is there stays where it is. -/
theorem keys_insert (entries : List α) (entry : α)
    : keys (insert entries entry)
      = if Keyed.key entry ∈ keys entries then keys entries
        else keys entries ++ [Keyed.key entry] := by
  induction entries with
  | nil => simp [insert, keys]
  | cons first rest ih =>
      by_cases h : Keyed.key first = Keyed.key entry
      · simp [insert, keys, h]
      · unfold keys at ih ⊢
        by_cases hm : Keyed.key entry ∈ rest.map Keyed.key <;> simp_all [insert, eq_comm]

theorem keys_erase (entries : List α) (key : String)
    : keys (erase entries key) = (keys entries).erase key := by
  induction entries with
  | nil => rfl
  | cons first rest ih =>
      unfold keys erase at ih ⊢
      by_cases h : Keyed.key first = key <;> simp_all

end KeyedList

/-- Moves the element at one index to another, if the list has both. The second index counts in the
list that results.
-/
def moveItem? {α : Type} (items : List α) (source target : Nat) : Option (List α) :=
  if h : source < items.length ∧ target < items.length then
    some ((items.eraseIdx source).insertIdx target items[source])
  else
    none

/-- Items move exactly if both indices are below their number. -/
theorem isSome_moveItem? {α : Type} (items : List α) (source target : Nat)
    : (moveItem? items source target).isSome
      ↔ source < items.length ∧ target < items.length := by
  unfold moveItem?
  split <;> simp_all

end ZshStartup
