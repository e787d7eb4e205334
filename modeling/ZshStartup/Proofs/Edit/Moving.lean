import ZshStartup.Proofs.Edit.Steps
import Mathlib.Data.List.InsertIdx

/-! Moves within a list. A move takes one item out of a list and puts it back in elsewhere: no item is lost,
the other items keep their order, and a move the other way round undoes it.
-/

namespace ZshStartup

-----------------------------------------------------------------------------------------
-- Lists
-----------------------------------------------------------------------------------------

section Lists

variable {α : Type} {items moved : List α} {source target : Nat}

/-- An item that moves is taken out, and put in so that it stands at the target. -/
theorem moveItem?_eq_some_iff
    : moveItem? items source target = some moved
      ↔ ∃ inside : source < items.length,
          target < items.length
          ∧ moved = (items.eraseIdx source).insertIdx target items[source] := by
  unfold moveItem?
  split
  · next bounds => simp [bounds, eq_comm]
  · next outside =>
      constructor
      · intro moves
        cases moves
      · rintro ⟨inside, within, -⟩
        exact absurd ⟨inside, within⟩ outside

section Found

variable (found : moveItem? items source target = some moved)

include found

theorem getElem?_target_of_moveItem?_eq_some : moved[target]? = items[source]? := by
  obtain ⟨inside, within, rfl⟩ := moveItem?_eq_some_iff.mp found
  have room : target ≤ (items.eraseIdx source).length := by
    rw [List.length_eraseIdx_of_lt inside]
    omega
  rw [List.getElem?_insertIdx_self, if_pos room, List.getElem?_eq_getElem inside]

theorem eraseIdx_target_of_moveItem?_eq_some
    : moved.eraseIdx target = items.eraseIdx source := by
  obtain ⟨-, -, rfl⟩ := moveItem?_eq_some_iff.mp found
  apply List.eraseIdx_insertIdx_self

/-- The way back: the item is taken out where it was put in, and put in where it was taken out. -/
theorem moveItem?_back : moveItem? moved target source = some items := by
  have length := (moveItem?_perm found).length_eq
  have arrived := getElem?_target_of_moveItem?_eq_some found
  have others := eraseIdx_target_of_moveItem?_eq_some found
  obtain ⟨inside, within, -⟩ := moveItem?_eq_some_iff.mp found
  rw [← length] at inside within
  apply moveItem?_eq_some_iff.mpr
  refine ⟨within, inside, ?_⟩
  rw [List.getElem?_eq_getElem within, List.getElem?_eq_getElem (length ▸ inside)] at arrived
  rw [others, Option.some.inj arrived, List.insertIdx_eraseIdx_getElem]

end Found

/-- What a move leaves of a list, and whether it took place. -/
def moveItem (items : List α) (source target : Nat) : List α × Bool :=
  match moveItem? items source target with
  | some moved => (moved, true)
  | none => (items, false)

theorem moveItem_of_eq_some (found : moveItem? items source target = some moved)
    : moveItem items source target = (moved, true) := by
  rw [moveItem, found]

/-- A move takes place exactly if the list has both indices, and otherwise it changes nothing. Where it
takes place, the item goes to the target, the others stay in order, and the move back restores the list.
-/
theorem moveItem_exact (items : List α) (source target : Nat)
    : let (moved, done) := moveItem items source target
      (done = true ↔ source < items.length ∧ target < items.length)
      ∧ (done = true →
          moved.Perm items
          ∧ moved[target]? = items[source]?
          ∧ moved.eraseIdx target = items.eraseIdx source
          ∧ moveItem moved target source = (items, true))
      ∧ (done = false → moved = items) := by
  have bounds := isSome_moveItem? items source target
  cases found : moveItem? items source target with
  | none =>
      rw [found] at bounds
      simpa [moveItem, found] using bounds
  | some moved =>
      rw [found] at bounds
      rw [moveItem_of_eq_some found]
      refine ⟨bounds, fun _ => ⟨?_, ?_, ?_, ?_⟩, Bool.noConfusion⟩
      · exact moveItem?_perm found
      · exact getElem?_target_of_moveItem?_eq_some found
      · exact eraseIdx_target_of_moveItem?_eq_some found
      · exact moveItem_of_eq_some (moveItem?_back found)

end Lists

-----------------------------------------------------------------------------------------
-- Steps
-----------------------------------------------------------------------------------------

/-- What a list of a configuration consists of. -/
def ListName.Item : ListName → Type
  | .keyed .aliases => Alias
  | .keyed .pathEntries => PathEntry
  | .keyed .envVars => EnvVar
  | .keyed .options => ShellOption
  | .plugins => Plugin

namespace Configuration

/-- The items of one of the lists. -/
def items (config : Configuration) : (list : ListName) → List list.Item
  | .keyed .aliases => config.aliases
  | .keyed .pathEntries => config.pathEntries
  | .keyed .envVars => config.envVars
  | .keyed .options => config.options
  | .plugins => config.plugins

/-- A configuration with other items in one of its lists. -/
def withItems (config : Configuration) : (list : ListName) → List list.Item → Configuration
  | .keyed .aliases, aliases => { config with aliases }
  | .keyed .pathEntries, pathEntries => { config with pathEntries }
  | .keyed .envVars, envVars => { config with envVars }
  | .keyed .options, options => { config with options }
  | .plugins, plugins => { config with plugins }

section WithItems

variable (config : Configuration) (list : ListName) (items others : List list.Item)

@[simp]
theorem withItems_items : config.withItems list (config.items list) = config := by
  rcases list with (_ | _ | _ | _) | _ <;> rfl

@[simp]
theorem items_withItems : (config.withItems list items).items list = items := by
  rcases list with (_ | _ | _ | _) | _ <;> rfl

@[simp]
theorem withItems_withItems
    : (config.withItems list items).withItems list others = config.withItems list others := by
  rcases list with (_ | _ | _ | _) | _ <;> rfl

end WithItems

end Configuration

/-- A step that moves an item leaves of its list what the move leaves, and nothing else changes. -/
theorem Edit.perform_move (config : Configuration) (list : ListName) (source target : Nat)
    : (move list source target).perform config
      = let (items, done) := moveItem (config.items list) source target
        (config.withItems list items, .flag done) := by
  have moves : moveIn config source target list
      = (moveItem? (config.items list) source target).map (config.withItems list) := by
    rcases list with (_ | _ | _ | _) | _ <;> rfl
  rw [perform, moves, moveItem]
  cases moveItem? (config.items list) source target with
  | none => simp
  | some items => rfl

end ZshStartup
