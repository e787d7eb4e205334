import ZshStartup.Proofs.Edit.Moving

/-! Lists with keys as maps. As long as its keys are distinct, a list is a map from keys to entries that
remembers an order of its keys, and a sequence of calls leaves and answers what it does on such a map.
-/

namespace ZshStartup

-----------------------------------------------------------------------------------------
-- Maps
-----------------------------------------------------------------------------------------

/-- A map from keys to items, and an order of its keys. -/
structure OrderedMap (α : Type) where
  order : List String
  item? : String → Option α
  distinct : order.Nodup
  mem_order_iff (key : String) : key ∈ order ↔ (item? key).isSome

namespace OrderedMap

variable {α : Type}

/-- An order in which a key stands behind as many of the others as the target says. -/
def placed (order : List String) (key : String) (target : Nat) : List String :=
  (order.erase key).take target ++ key :: (order.erase key).drop target

theorem placed_perm {order : List String} {key : String} (member : key ∈ order) (target : Nat)
    : (placed order key target).Perm order := by
  have others := List.take_append_drop target (order.erase key)
  calc
    (placed order key target).Perm (key :: order.erase key) := by
      unfold placed
      nth_rewrite 3 [← others]
      exact List.perm_middle
    _ |>.Perm order := (List.perm_cons_erase member).symm

section Operations

variable (map : OrderedMap α)

/-- The items in the order of their keys. -/
def items : List α :=
  map.order.filterMap map.item?

/-- Maps a key to an item. A new key becomes the last one. -/
def insert (key : String) (item : α) : OrderedMap α where
  order := if key ∈ map.order then map.order else map.order ++ [key]
  item? := Function.update map.item? key (some item)
  distinct := by
    have distinct := map.distinct
    split
    · exact distinct
    · grind
  mem_order_iff other := by
    have known := map.mem_order_iff other
    by_cases same : other = key <;> split <;> simp_all

/-- Forgets a key. -/
def erase (key : String) : OrderedMap α where
  order := map.order.erase key
  item? := Function.update map.item? key none
  distinct := map.distinct.erase key
  mem_order_iff other := by
    have known := map.mem_order_iff other
    by_cases same : other = key <;> simp_all [map.distinct.mem_erase_iff]

/-- Gives a key another place in the order. -/
def move? (source target : Nat) : Option (OrderedMap α) :=
  if h : source < map.order.length ∧ target < map.order.length then
    have perm := placed_perm (List.getElem_mem h.1) target
    some
      {
        map with
        order := placed map.order map.order[source] target
        distinct := perm.nodup_iff.mpr map.distinct
        mem_order_iff := fun key => perm.mem_iff.trans (map.mem_order_iff key)
      }
  else
    none

theorem exists_move?_eq_some {source target : Nat}
    (bounds : source < map.order.length ∧ target < map.order.length)
    : ∃ moved,
        map.move? source target = some moved
        ∧ moved.order = placed map.order map.order[source] target
        ∧ moved.item? = map.item? :=
  ⟨_, dif_pos bounds, rfl, rfl⟩

end Operations

end OrderedMap

namespace KeyedList

-----------------------------------------------------------------------------------------
-- Calls
-----------------------------------------------------------------------------------------

/-- A call that changes a collection of items with keys. -/
inductive Call (α : Type) where
  | insert (entry : α)
  | erase (key : String)
  | move (source target : Nat)

/-- What a call answers: the item that it replaced or removed, or whether it moved one. -/
inductive Answer (α : Type) where
  | entry (previous : Option α)
  | flag (done : Bool)
deriving DecidableEq

/-- A sequence of calls, with the answers to all of them. -/
def replay {α σ : Type} (perform : σ → Call α → σ × Answer α) (state : σ)
    : List (Call α) → σ × List (Answer α)
  | [] => (state, [])
  | call :: calls =>
      let (next, answer) := perform state call
      let (final, answers) := replay perform next calls
      (final, answer :: answers)

variable {α : Type} [Keyed α]

/-- A call on a list. -/
def perform (entries : List α) : Call α → List α × Answer α
  | .insert entry => (insert entries entry, .entry (get? entries (Keyed.key entry)))
  | .erase key => (erase entries key, .entry (get? entries key))
  | .move source target => (moveItem entries source target).map id .flag

/-- A call on a map. -/
def performOn (map : OrderedMap α) : Call α → OrderedMap α × Answer α
  | .insert entry =>
      (map.insert (Keyed.key entry) entry, .entry (map.item? (Keyed.key entry)))
  | .erase key => (map.erase key, .entry (map.item? key))
  | .move source target =>
      match map.move? source target with
      | some moved => (moved, .flag true)
      | none => (map, .flag false)

-----------------------------------------------------------------------------------------
-- Look-up under distinct keys
-----------------------------------------------------------------------------------------

section Distinct

variable {entries : List α} {key : String}

theorem isSome_get?_iff : (get? entries key).isSome ↔ key ∈ keys entries := by
  simp [get?, keys]

/-- Of distinct keys, each belongs to a single entry, which is the one that is found. -/
theorem get?_eq_some_iff (distinct : (keys entries).Nodup) {entry : α}
    : get? entries key = some entry ↔ entry ∈ entries ∧ Keyed.key entry = key := by
  induction entries with
  | nil => simp [get?]
  | cons first rest ih =>
      obtain ⟨new, distinct⟩ := List.nodup_cons.mp distinct
      have other : entry ∈ rest → Keyed.key entry ≠ Keyed.key first := fun member same =>
        new (List.mem_map.mpr ⟨entry, member, same⟩)
      rw [get?_cons, List.mem_cons]
      split
      · next same =>
          subst same
          grind
      · next different =>
          rw [ih distinct]
          grind

theorem get?_perm {others : List α} (perm : others.Perm entries)
    (distinct : (keys entries).Nodup) (key : String)
    : get? others key = get? entries key := by
  have others : (keys others).Nodup := (perm.map Keyed.key).nodup_iff.mpr distinct
  ext entry
  rw [get?_eq_some_iff others, get?_eq_some_iff distinct, perm.mem_iff]

theorem erase_eq_filter (distinct : (keys entries).Nodup) (key : String)
    : erase entries key = entries.filter (Keyed.key · != key) := by
  induction entries with
  | nil => rfl
  | cons first rest ih =>
      obtain ⟨new, distinct⟩ := List.nodup_cons.mp distinct
      by_cases same : Keyed.key first = key
      · subst same
        have kept : ∀ entry ∈ rest, (Keyed.key entry != Keyed.key first) = true := by
          intro entry member
          rw [bne_iff_ne]
          exact fun same => new (List.mem_map.mpr ⟨entry, member, same⟩)
        simp [erase, List.filter_eq_self.mpr kept]
      · simpa [erase, same] using ih distinct

/-- A list is what its keys are mapped to, in order. -/
theorem filterMap_get?_keys (distinct : (keys entries).Nodup)
    : (keys entries).filterMap (get? entries) = entries := by
  induction entries with
  | nil => rfl
  | cons first rest ih =>
      obtain ⟨new, distinct⟩ := List.nodup_cons.mp distinct
      have later : (keys rest).filterMap (get? (first :: rest)) = (keys rest).filterMap (get? rest) := by
        apply List.filterMap_congr
        intro key member
        have different : Keyed.key first ≠ key := fun same => new (same ▸ member)
        rw [get?_cons, if_neg different]
      have head : get? (first :: rest) (Keyed.key first) = some first := by
        rw [get?_cons, if_pos rfl]
      change (Keyed.key first :: keys rest).filterMap (get? (first :: rest)) = first :: rest
      rw [List.filterMap_cons_some head, later, ih distinct]

end Distinct

-----------------------------------------------------------------------------------------
-- What single calls do
-----------------------------------------------------------------------------------------

/-- An entry is put in. -/
structure Inserts (entries : List α) (entry : α) (next : List α) (previous : Option α) : Prop where
  /-- The answer is the entry that was stored under the key. -/
  previous (other : α)
    : previous = some other ↔ other ∈ entries ∧ Keyed.key other = Keyed.key entry
  stored : get? next (Keyed.key entry) = some entry
  others (key : String) : key ≠ Keyed.key entry → get? next key = get? entries key
  order
    : keys next
      = if Keyed.key entry ∈ keys entries then
          keys entries
        else
          keys entries ++ [Keyed.key entry]

/-- The entry with a key is taken out. -/
structure Erases (entries : List α) (key : String) (next : List α) (previous : Option α)
    : Prop where
  /-- The answer is the entry that was stored under the key. -/
  previous (other : α) : previous = some other ↔ other ∈ entries ∧ Keyed.key other = key
  absent : key ∉ keys next
  others : next = entries.filter (Keyed.key · != key)

/-- What a call makes of a list whose keys are distinct, and what it answers. -/
inductive Performs (entries : List α) : Call α → List α × Answer α → Prop
  | inserted {entry : α} {next : List α} {previous : Option α}
    (inserts : Inserts entries entry next previous)
    : Performs entries (.insert entry) (next, .entry previous)
  | erased {key : String} {next : List α} {previous : Option α}
    (erases : Erases entries key next previous)
    : Performs entries (.erase key) (next, .entry previous)
  | moved {source target : Nat} {next : List α} {done : Bool} (perm : next.Perm entries)
    (items : ∀ key, get? next key = get? entries key)
    : Performs entries (.move source target) (next, .flag done)

theorem performs_perform {entries : List α} (distinct : (keys entries).Nodup) (call : Call α)
    : Performs entries call (perform entries call) := by
  cases call with
  | insert entry =>
      apply Performs.inserted
      constructor
      case previous => exact fun other => get?_eq_some_iff distinct
      case stored => simp
      case others =>
        intro key other
        rw [get?_insert, if_neg other.symm]
      case order => exact keys_insert entries entry
  | erase key =>
      apply Performs.erased
      constructor
      case previous => exact fun other => get?_eq_some_iff distinct
      case absent =>
        rw [keys_erase]
        exact distinct.not_mem_erase
      case others => exact erase_eq_filter distinct key
  | move source target =>
      have perm : (moveItem entries source target).1.Perm entries := by
        cases found : moveItem? entries source target with
        | none => simp [moveItem, found]
        | some moved => simpa [moveItem, found] using moveItem?_perm found
      exact .moved perm (get?_perm perm distinct)

-----------------------------------------------------------------------------------------
-- Lists as maps
-----------------------------------------------------------------------------------------

/-- The map that a list with distinct keys stands for. -/
def toMap (entries : List α) (distinct : (keys entries).Nodup) : OrderedMap α where
  order := keys entries
  item? := get? entries
  distinct := distinct
  mem_order_iff _ := isSome_get?_iff.symm

/-- A list stands for a map. -/
structure Represents (entries : List α) (map : OrderedMap α) : Prop where
  keys_eq : keys entries = map.order
  get?_eq (key : String) : get? entries key = map.item? key

theorem insertIdx_eq_append {β : Type} {items : List β} {index : Nat} (inside : index ≤ items.length)
    (item : β)
    : items.insertIdx index item = items.take index ++ item :: items.drop index := by
  induction items generalizing index with
  | nil => simp_all
  | cons first rest ih =>
      cases index with
      | zero => rfl
      | succ index => simpa using ih (Nat.le_of_succ_le_succ inside)

/-- When an entry moves, its key moves. -/
theorem keys_of_moveItem?_eq_some {entries moved : List α} {source target : Nat}
    (distinct : (keys entries).Nodup) (found : moveItem? entries source target = some moved)
    (inside : source < (keys entries).length)
    : keys moved = OrderedMap.placed (keys entries) (keys entries)[source] target := by
  obtain ⟨-, within, rfl⟩ := moveItem?_eq_some_iff.mp found
  have room : target ≤ ((keys entries).eraseIdx source).length := by
    rw [List.length_eraseIdx_of_lt inside]
    simp only [keys, List.length_map]
    omega
  rw [OrderedMap.placed, distinct.erase_getElem source inside, ← insertIdx_eq_append room]
  simp [keys, List.map_insertIdx, List.eraseIdx_map]

namespace Represents

variable {entries : List α} {map : OrderedMap α} (represents : Represents entries map)

include represents

theorem distinct : (keys entries).Nodup := by
  rw [represents.keys_eq]
  exact map.distinct

theorem eq_items : entries = map.items := by
  have same : get? entries = map.item? := funext represents.get?_eq
  rw [OrderedMap.items, ← represents.keys_eq, ← same, filterMap_get?_keys represents.distinct]

/-- A call has the same answer on a list and on the map that it stands for, and they stay together. -/
theorem perform (call : Call α)
    : Represents (KeyedList.perform entries call).1 (performOn map call).1
      ∧ (KeyedList.perform entries call).2 = (performOn map call).2 := by
  have distinct := represents.distinct
  obtain ⟨keys_eq, get?_eq⟩ := represents
  cases call with
  | insert entry =>
      refine ⟨⟨?_, fun key => ?_⟩, congrArg Answer.entry (get?_eq _)⟩
      · change keys (insert entries entry) = _
        rw [keys_insert, keys_eq]
        rfl
      · change get? (insert entries entry) key = Function.update map.item? _ _ key
        rw [get?_insert, get?_eq, Function.update_apply]
        simp only [eq_comm]
  | erase key =>
      refine ⟨⟨?_, fun other => ?_⟩, congrArg Answer.entry (get?_eq _)⟩
      · change keys (erase entries key) = _
        rw [keys_erase, keys_eq]
        rfl
      · change get? (erase entries key) other = Function.update map.item? key none other
        rw [Function.update_apply, ← get?_eq]
        split
        · next same =>
            have absent : key ∉ keys (erase entries key) := by
              rw [keys_erase]
              exact distinct.not_mem_erase
            subst same
            exact Option.not_isSome_iff_eq_none.mp (mt isSome_get?_iff.mp absent)
        · next different => exact get?_erase_of_ne entries different
  | move source target =>
      have length : map.order.length = entries.length := by
        rw [← keys_eq, keys, List.length_map]
      have bounds := isSome_moveItem? entries source target
      cases found : moveItem? entries source target with
      | none =>
          have outside : map.move? source target = none := by
            rw [found, ← length] at bounds
            exact dif_neg (by simpa using bounds)
          simp only [KeyedList.perform, performOn, moveItem, found, outside]
          exact ⟨⟨keys_eq, get?_eq⟩, rfl⟩
      | some moved =>
          have inside : source < map.order.length ∧ target < map.order.length := by
            rw [found, ← length] at bounds
            exact bounds.mp rfl
          obtain ⟨reordered, next, order, same⟩ := map.exists_move?_eq_some inside
          have keys_moved := keys_of_moveItem?_eq_some distinct found (keys_eq ▸ inside.1)
          simp only [KeyedList.perform, performOn, moveItem, found, next]
          refine ⟨⟨?_, fun key => ?_⟩, rfl⟩
          · change keys moved = reordered.order
            rw [keys_moved, order]
            simp only [keys_eq]
          · rw [same, ← get?_eq]
            exact get?_perm (moveItem?_perm found) distinct key

end Represents

/-- A sequence of calls has the same answers on a list and on the map that it stands for. -/
theorem Represents.replay {entries : List α} {map : OrderedMap α}
    (represents : Represents entries map) (calls : List (Call α))
    : Represents (KeyedList.replay KeyedList.perform entries calls).1
        (KeyedList.replay performOn map calls).1
      ∧ (KeyedList.replay KeyedList.perform entries calls).2
        = (KeyedList.replay performOn map calls).2 := by
  induction calls generalizing entries map with
  | nil => exact ⟨represents, rfl⟩
  | cons call calls ih =>
      obtain ⟨next, answer⟩ := represents.perform call
      obtain ⟨final, answers⟩ := ih next
      exact ⟨final, congrArg₂ List.cons answer answers⟩

theorem represents_toMap {entries : List α} (distinct : (keys entries).Nodup)
    : Represents entries (toMap entries distinct) :=
  ⟨rfl, fun _ => rfl⟩

/-- However a list with distinct keys is changed, its keys stay distinct, each call does and answers what
it should, and contents and answers are those of the same calls on a map.
-/
theorem replay_eq_replay_toMap {entries : List α} (distinct : (keys entries).Nodup)
    (calls : List (Call α))
    : let (final, answers) := replay perform entries calls
      let (map, expected) := replay performOn (toMap entries distinct) calls
      (keys final).Nodup
      ∧ (∀ call, Performs final call (perform final call))
      ∧ final = map.items
      ∧ answers = expected := by
  obtain ⟨represents, answers⟩ := (represents_toMap distinct).replay calls
  exact ⟨represents.distinct, performs_perform represents.distinct, represents.eq_items, answers⟩

/-- Aliases with distinct names. -/
def listedAliases : List Alias :=
  [{ name := "l", command := "ls" }, { name := "g", command := "git" }, { name := "v" }]

/-- Calls that replace an entry, add one, look for one in vain, move one there and not, and remove one. -/
def mixedCalls : List (Call Alias) :=
  [.insert { name := "g", command := "git status" }, .insert { name := "k" }, .erase "x", .move 3 0,
    .move 0 4, .erase "l"]

theorem replay_eq_replay_toMap_listedAliases
    : ∃ distinct : (keys listedAliases).Nodup,
        let map := (replay performOn (toMap listedAliases distinct) mixedCalls).1
        map.items = [{ name := "k" }, { name := "g", command := "git status" }, { name := "v" }]
        ∧ (replay performOn (toMap listedAliases distinct) mixedCalls).2
          = [.entry (some { name := "g", command := "git" }), .entry none, .entry none, .flag true,
              .flag false, .entry (some { name := "l", command := "ls" })] := by
  have distinct : (keys listedAliases).Nodup := by decide
  obtain ⟨-, -, contents, answers⟩ := replay_eq_replay_toMap distinct mixedCalls
  exact ⟨distinct, contents.symm.trans (by decide), answers.symm.trans (by decide)⟩

end KeyedList

-----------------------------------------------------------------------------------------
-- Sessions
-----------------------------------------------------------------------------------------

open KeyedList (Call Answer)

instance : (name : KeyedListName) → Keyed (ListName.keyed name).Item
  | .aliases => inferInstanceAs (Keyed Alias)
  | .pathEntries => inferInstanceAs (Keyed PathEntry)
  | .envVars => inferInstanceAs (Keyed EnvVar)
  | .options => inferInstanceAs (Keyed ShellOption)

/-- An entry of a list, with the list that it is from. -/
def Entry.ofItem : (name : KeyedListName) → (ListName.keyed name).Item → Entry
  | .aliases => .ofAlias
  | .pathEntries => .ofPathEntry
  | .envVars => .ofEnvVar
  | .options => .ofOption

namespace Edit

variable (name : KeyedListName)

/-- The step of a session that makes a call on a list. -/
def ofCall : Call (ListName.keyed name).Item → Edit
  | .insert entry => .insert (.ofItem name entry)
  | .erase key => .erase name key
  | .move source target => .move (.keyed name) source target

/-- The answer of a call as that of a step. -/
def outcome : Answer (ListName.keyed name).Item → Outcome
  | .entry previous => .entry (previous.map (Entry.ofItem name))
  | .flag done => .flag done

theorem perform_ofCall (config : Configuration) (call : Call (ListName.keyed name).Item)
    : (ofCall name call).perform config
      = let (items, answer) := KeyedList.perform (config.items (.keyed name)) call
        (config.withItems (.keyed name) items, outcome name answer) := by
  cases call with
  | insert | erase => cases name <;> rfl
  | move source target => exact perform_move config (.keyed name) source target

/-- The steps of a session on one list are calls on that list, and leave all others alone. -/
theorem run_map_ofCall (config : Configuration) (calls : List (Call (ListName.keyed name).Item))
    : run config (calls.map (ofCall name))
      = config.withItems (.keyed name)
          (KeyedList.replay KeyedList.perform (config.items (.keyed name)) calls).1 := by
  induction calls generalizing config with
  | nil => exact (config.withItems_items (.keyed name)).symm
  | cons call calls ih =>
      change run ((ofCall name call).perform config).1 (calls.map (ofCall name)) = _
      rw [ih, perform_ofCall]
      simp [KeyedList.replay]

end Edit

end ZshStartup
