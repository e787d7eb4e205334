import ZshStartup.Proofs.Configuration.Identity

/-! How ids are assigned. A plugin keeps the id that it is the first to have, and any other is given the
first of its candidates that neither a plugin keeps nor an earlier plugin was given.
-/

namespace ZshStartup

namespace Plugin

-----------------------------------------------------------------------------------------
-- The rules
-----------------------------------------------------------------------------------------

/-- A plugin at an index keeps its id: it has one, and no earlier plugin has the same. -/
def KeepsId (plugins : List Plugin) (index : Nat) (plugin : Plugin) : Prop :=
  plugin.id ≠ "" ∧ plugin.id ∉ (plugins.take index).map Plugin.id

instance (plugins : List Plugin) (index : Nat) (plugin : Plugin)
    : Decidable (KeepsId plugins index plugin) :=
  inferInstanceAs (Decidable (_ ∧ _))

/-- The ids that a plugin at an index cannot be given: those that plugins keep, wherever they stand, and
those that plugins before it were given.
-/
inductive Taken (plugins assigned : List Plugin) (index : Nat) : String → Prop
  | kept {other : Nat} {plugin : Plugin} (listed : plugins[other]? = some plugin)
    (keeps : KeepsId plugins other plugin)
    : Taken plugins assigned index plugin.id
  | given {earlier : Nat} {plugin next : Plugin} (before : earlier < index)
    (listed : plugins[earlier]? = some plugin) (gives : ¬KeepsId plugins earlier plugin)
    (result : assigned[earlier]? = some next)
    : Taken plugins assigned index next.id

/-- The first candidate that is not taken: the base or, where that is taken, the base with the least
number from two on. A limit to the number bounds the search.
-/
inductive FirstFree (taken : String → Prop) (base : String) (limit : Nat) : String → Prop
  | plain (free : ¬taken base) : FirstFree taken base limit base
  | numbered {n : Nat} (occupied : taken base) (fromTwo : 2 ≤ n) (bounded : n ≤ limit)
    (free : ¬taken (base ++ "#" ++ toString n))
    (least : ∀ m, 2 ≤ m → m < n → taken (base ++ "#" ++ toString m))
    : FirstFree taken base limit (base ++ "#" ++ toString n)

/-- What becomes of plugins when ids are assigned. -/
structure AssignedIds (plugins assigned : List Plugin) : Prop where
  /-- Plugin by plugin, nothing but the id changes. -/
  others
    : assigned.map (fun plugin => { plugin with id := "" })
      = plugins.map fun plugin => { plugin with id := "" }
  identified : Identified assigned
  /-- Plugins have the ids that they had before if they keep them, and no others have. -/
  keeps_iff
    : ∀ index plugin next,
        plugins[index]? = some plugin →
        assigned[index]? = some next →
        (next.id = plugin.id ↔ KeepsId plugins index plugin)
  /-- Every other plugin gets the first candidate that is not taken. The search for it ends, at a number
  that is not above the number of plugins.
  -/
  given
    : ∀ index plugin next,
        plugins[index]? = some plugin →
        assigned[index]? = some next →
        ¬KeepsId plugins index plugin →
        FirstFree (Taken plugins assigned index) plugin.idBase plugins.length next.id

-----------------------------------------------------------------------------------------
-- One plugin of many
-----------------------------------------------------------------------------------------

/-- After some plugins, the assignment goes on with their ids among those that earlier plugins keep, as far
as these are ids at all, and with the ids that they ended up with among those that are taken.
-/
theorem exists_assignIdsFrom_append {kept : List String} {taken : Std.TreeSet String}
    {before after : List Plugin} (reserved : Reserved kept taken (before ++ after))
    : ∃ keptNext takenNext,
        assignIdsFrom kept taken (before ++ after)
            = assignIdsFrom kept taken before ++ assignIdsFrom keptNext takenNext after
        ∧ (∀ id ≠ "", id ∈ keptNext ↔ id ∈ kept ∨ id ∈ before.map Plugin.id)
        ∧ ∀ id,
            id ∈ takenNext
            ↔ id ∈ taken ∨ id ∈ (assignIdsFrom kept taken before).map Plugin.id := by
  induction before generalizing kept taken with
  | nil => exact ⟨kept, taken, by simp [assignIdsFrom]⟩
  | cons head before ih =>
      rw [List.cons_append] at reserved
      by_cases keeps : head.id ≠ "" ∧ head.id ∉ kept
      · obtain ⟨keptNext, takenNext, rest, sameKept, sameTaken⟩ := ih (reserved.keep keeps.1)
        have known : head.id ∈ taken := reserved.later head (by simp) keeps.1
        refine ⟨keptNext, takenNext, by simp [assignIdsFrom, keeps, rest], ?_, ?_⟩
        · intro id assigned
          rw [sameKept id assigned]
          simp only [List.mem_cons, List.map_cons]
          tauto
        · intro id
          rw [sameTaken, assignIdsFrom, if_pos keeps]
          simp only [List.map_cons, List.mem_cons]
          constructor
          · tauto
          · rintro (old | rfl | later)
            · exact .inl old
            · exact .inl known
            · exact .inr later
      · obtain ⟨keptNext, takenNext, rest, sameKept, sameTaken⟩ :=
          ih (reserved.insert (freshId taken head.idBase))
        refine ⟨keptNext, takenNext, by simp [assignIdsFrom, keeps, rest], ?_, ?_⟩
        · intro id assigned
          rw [sameKept id assigned]
          simp only [List.map_cons, List.mem_cons]
          constructor
          · tauto
          · rintro (old | rfl | later)
            · exact .inl old
            · exact .inl (by_contra fun new => keeps ⟨assigned, new⟩)
            · exact .inr later
        · intro id
          rw [sameTaken, assignIdsFrom, if_neg keeps]
          simp only [Std.TreeSet.mem_insert, List.map_cons, List.mem_cons]
          grind

variable {plugins : List Plugin} {index : Nat} {plugin : Plugin}

theorem length_assignIdsFrom (kept : List String) (taken : Std.TreeSet String) (plugins : List Plugin)
    : (assignIdsFrom kept taken plugins).length = plugins.length := by
  simpa using congrArg List.length
    (map_assignIdsFrom (fun _ => ()) (fun _ _ => rfl) kept taken plugins)

/-- What a plugin becomes depends on the ids of all plugins, and on what earlier ones became. -/
theorem exists_getElem?_assignIds (listed : plugins[index]? = some plugin)
    : ∃ taken : Std.TreeSet String,
        (∀ id,
          id ∈ taken
          ↔ id ≠ "" ∧ id ∈ plugins.map Plugin.id
            ∨ id ∈ ((assignIds plugins).take index).map Plugin.id)
        ∧ (assignIds plugins)[index]?
          = some
              (if KeepsId plugins index plugin then
                plugin
              else
                { plugin with id := freshId taken plugin.idBase }) := by
  obtain ⟨within, rfl⟩ := List.getElem?_eq_some_iff.mp listed
  have split : plugins.take index ++ plugins[index] :: plugins.drop (index + 1) = plugins := by
    rw [← List.drop_eq_getElem_cons within, List.take_append_drop]
  have reserved := reserved_ofList plugins
  generalize start : Std.TreeSet.ofList ((plugins.map Plugin.id).filter (· != "")) = initial
    at reserved
  obtain ⟨kept, taken, result, sameKept, sameTaken⟩ :=
    exists_assignIdsFrom_append (split.symm ▸ reserved)
  have whole : assignIds plugins
      = assignIdsFrom [] initial (plugins.take index)
        ++ assignIdsFrom kept taken (plugins[index] :: plugins.drop (index + 1)) := by
    rw [← result, split, ← start, assignIds]
  have places : (assignIdsFrom [] initial (plugins.take index)).length = index := by
    rw [length_assignIdsFrom, List.length_take_of_le within.le]
  refine ⟨taken, fun id => ?_, ?_⟩
  · rw [sameTaken, whole, List.take_left' places, ← start, Std.TreeSet.mem_ofList]
    simp [and_comm]
  · have keeps
        : KeepsId plugins index plugins[index]
          ↔ plugins[index].id ≠ "" ∧ plugins[index].id ∉ kept := by
      refine and_congr_right fun assigned => ?_
      simp [sameKept _ assigned]
    rw [whole, List.getElem?_append_right places.le, places, Nat.sub_self, assignIdsFrom]
    simp only [keeps]
    split <;> rfl

theorem getElem?_assignIds_of_keepsId (listed : plugins[index]? = some plugin)
    (keeps : KeepsId plugins index plugin)
    : (assignIds plugins)[index]? = some plugin := by
  obtain ⟨taken, -, result⟩ := exists_getElem?_assignIds listed
  rw [result, if_pos keeps]

/-- Of the plugins with an id, the first keeps it. -/
theorem exists_keepsId {id : String} (assigned : id ≠ "") (known : id ∈ plugins.map Plugin.id)
    : ∃ first plugin,
        plugins[first]? = some plugin ∧ KeepsId plugins first plugin ∧ plugin.id = id := by
  have found := List.getElem?_idxOf known
  rw [List.getElem?_map] at found
  obtain ⟨plugin, listed, rfl⟩ := Option.map_eq_some_iff.mp found
  refine ⟨_, plugin, listed, ⟨assigned, ?_⟩, rfl⟩
  rw [List.map_take, List.mem_take_iff_idxOf_lt known]
  exact Nat.lt_irrefl _

/-- The ids that a plugin cannot be given are those that plugins have, and those that earlier ones ended up
with.
-/
theorem taken_iff (plugins : List Plugin) (index : Nat) (id : String)
    : Taken plugins (assignIds plugins) index id
      ↔ id ≠ "" ∧ id ∈ plugins.map Plugin.id
        ∨ id ∈ ((assignIds plugins).take index).map Plugin.id := by
  constructor
  · rintro (⟨listed, keeps⟩ | ⟨before, -, -, result⟩)
    · exact .inl ⟨keeps.1, List.mem_map_of_mem (List.mem_of_getElem? listed)⟩
    · rw [← List.getElem?_take_of_lt before] at result
      exact .inr (List.mem_map_of_mem (List.mem_of_getElem? result))
  · rintro (⟨assigned, known⟩ | earlier)
    · obtain ⟨first, plugin, listed, keeps, rfl⟩ := exists_keepsId assigned known
      exact .kept listed keeps
    · obtain ⟨next, member, rfl⟩ := List.mem_map.mp earlier
      obtain ⟨place, before, rfl⟩ := List.mem_iff_getElem.mp member
      rw [List.length_take, length_assignIds] at before
      have within : place < plugins.length := by omega
      have listed := List.getElem?_eq_getElem within
      by_cases keeps : KeepsId plugins place plugins[place]
      · have result := getElem?_assignIds_of_keepsId listed keeps
        obtain ⟨_, same⟩ := List.getElem?_eq_some_iff.mp result
        rw [List.getElem_take, same]
        exact .kept listed keeps
      · refine .given (by omega) listed keeps ?_
        rw [List.getElem_take, List.getElem?_eq_getElem]

/-- Every id that a plugin cannot be given belongs to some plugin in the end. -/
theorem mem_ids_of_taken {id : String} (taken : Taken plugins (assignIds plugins) index id)
    : id ∈ (assignIds plugins).map Plugin.id := by
  rcases taken with ⟨listed, keeps⟩ | ⟨-, -, -, result⟩
  · exact List.mem_map_of_mem
      (List.mem_of_getElem? (getElem?_assignIds_of_keepsId listed keeps))
  · exact List.mem_map_of_mem (List.mem_of_getElem? result)

/-- A plugin that does not keep its id is given the first candidate that is not taken. -/
theorem firstFree_assignIds {next : Plugin} (listed : plugins[index]? = some plugin)
    (result : (assignIds plugins)[index]? = some next)
    (gives : ¬KeepsId plugins index plugin)
    : FirstFree (Taken plugins (assignIds plugins) index) plugin.idBase plugins.length next.id := by
  obtain ⟨taken, members, becomes⟩ := exists_getElem?_assignIds listed
  rw [if_neg gives, result] at becomes
  have same : ∀ id, Taken plugins (assignIds plugins) index id ↔ id ∈ taken := fun id =>
    (taken_iff plugins index id).trans (members id).symm
  obtain ⟨n, chosen, free, before⟩ := freshId_eq_candidateId taken plugin.idBase
  have chosen : next.id = candidateId plugin.idBase n :=
    (congrArg Plugin.id (Option.some.inj becomes)).trans chosen
  -- All candidates that are tried end up as ids of plugins, so there are no more of them.
  have tried : ∀ m ≤ n, candidateId plugin.idBase m ∈ (assignIds plugins).map Plugin.id := by
    intro m upTo
    rcases Nat.lt_or_eq_of_le upTo with earlier | rfl
    · exact mem_ids_of_taken ((same _).mpr (before m earlier))
    · exact chosen ▸ List.mem_map_of_mem (List.mem_of_getElem? result)
  have bounded : n < plugins.length := by
    simpa using lt_length_of_candidates plugin.idBase tried
  simp only [← same] at free before
  rw [chosen]
  cases n with
  | zero => exact .plain free
  | succ n =>
      refine .numbered (before 0 (by omega)) (by omega) bounded free fun m fromTwo less => ?_
      obtain ⟨m, rfl⟩ := Nat.exists_eq_add_of_le' fromTwo
      exact before (m + 1) (by omega)

/-- A plugin has the id that it had before exactly if it keeps it. -/
theorem id_eq_iff_keepsId {next : Plugin} (listed : plugins[index]? = some plugin)
    (result : (assignIds plugins)[index]? = some next)
    : next.id = plugin.id ↔ KeepsId plugins index plugin := by
  obtain ⟨taken, members, becomes⟩ := exists_getElem?_assignIds listed
  rw [result] at becomes
  by_cases keeps : KeepsId plugins index plugin
  · rw [if_pos keeps] at becomes
    exact iff_of_true (congrArg Plugin.id (Option.some.inj becomes)) keeps
  · rw [if_neg keeps] at becomes
    refine iff_of_false (fun same => ?_) keeps
    have fresh : freshId taken plugin.idBase = plugin.id :=
      (congrArg Plugin.id (Option.some.inj becomes)).symm.trans same
    have assigned : plugin.id ≠ "" := fresh ▸ freshId_ne_empty taken plugin
    have isTaken : plugin.id ∈ taken :=
      (members _).mpr (.inl ⟨assigned, List.mem_map_of_mem (List.mem_of_getElem? listed)⟩)
    exact freshId_not_mem taken plugin.idBase (fresh ▸ isTaken)

theorem assignedIds_assignIds (plugins : List Plugin)
    : AssignedIds plugins (assignIds plugins) where
  others := map_assignIds (fun plugin => { plugin with id := "" }) (fun _ _ => rfl) plugins
  identified := identified_assignIds plugins
  keeps_iff _ _ _ := id_eq_iff_keepsId
  given _ _ _ := firstFree_assignIds

end Plugin

namespace Configuration

/-- Assigning ids changes nothing of a configuration but the ids of its plugins, and these by the rules,
whatever ids and names the plugins have.
-/
theorem exists_assignedIds (config : Configuration)
    : ∃ plugins,
        config.assignIds = { config with plugins } ∧ Plugin.AssignedIds config.plugins plugins :=
  ⟨_, rfl, Plugin.assignedIds_assignIds config.plugins⟩

example
    : (Plugin.assignIds
          [{ name := "a/b" }, { name := "a/b" }, {}, { id := "a/b", name := "x/y" }]).map Plugin.id
      = ["a/b#2", "a/b#3", "plugin", "a/b"] := by
  decide

end Configuration

end ZshStartup
