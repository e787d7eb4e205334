import ZshStartup.Configuration.Identity
import Std.Data.TreeSet.Lemmas
import Mathlib.Data.List.Nodup
import Mathlib.Data.List.Range

/-! The laws of plugin ids. Every plugin ends up with an id, no two with the same, and a list of plugins
that is already so stays as it is.
-/

namespace ZshStartup.Plugin

-----------------------------------------------------------------------------------------
-- Fresh ids
-----------------------------------------------------------------------------------------

theorem toString_nat_injective : Function.Injective (toString : Nat → String) := by
  intro m n same
  have digits : Nat.toDigits 10 m = Nat.toDigits 10 n := by
    simpa [Nat.toString_eq_ofList_toDigits] using congrArg String.toList same
  simpa using congrArg (Nat.ofDigitChars 10 · 0) digits

/-- The candidates for one plugin differ from each other. -/
theorem candidateId_injective (base : String) : Function.Injective (candidateId base) := by
  have longer (n : Nat) : base ≠ base ++ "#" ++ toString n := by
    intro same
    have lengths := congrArg (fun text => text.toList.length) same
    simp at lengths
  intro m n same
  cases m with
  | zero =>
      cases n with
      | zero => rfl
      | succ n => exact absurd same (longer (n + 2))
  | succ m =>
      cases n with
      | zero => exact absurd same.symm (longer (m + 2))
      | succ n =>
          have suffixes : (toString (m + 2)).toList = (toString (n + 2)).toList := by
            simpa [candidateId] using congrArg String.toList same
          have numbers := toString_nat_injective (String.toList_injective suffixes)
          omega

theorem candidateId_ne_empty {base : String} (nonempty : base ≠ "") (n : Nat)
    : candidateId base n ≠ "" := by
  cases n with
  | zero => exact nonempty
  | succ n =>
      intro empty
      have := congrArg String.toList empty
      simp [candidateId] at this

theorem idBase_ne_empty (plugin : Plugin) : plugin.idBase ≠ "" := by
  unfold idBase
  split
  · decide
  · simp_all

/-- Candidates that are all among some ids are no more than these, as they differ. -/
theorem lt_length_of_candidates (base : String) {ids : List String} {n : Nat}
    (known : ∀ m ≤ n, candidateId base m ∈ ids)
    : n < ids.length := by
  have distinct : ((List.range (n + 1)).map (candidateId base)).Nodup :=
    List.nodup_range.map (candidateId_injective base)
  have included : (List.range (n + 1)).map (candidateId base) ⊆ ids := by
    intro id member
    obtain ⟨m, tried, rfl⟩ := List.mem_map.mp member
    exact known m (Nat.lt_succ_iff.mp (List.mem_range.mp tried))
  have bound := distinct.length_le_of_subset included
  rw [List.length_map, List.length_range] at bound
  exact Nat.lt_of_succ_le bound

/-- Among one more candidates than ids are taken, one is free. -/
theorem exists_candidateId_not_mem (taken : Std.TreeSet String) (base : String)
    : ∃ n ∈ List.range (taken.size + 1), candidateId base n ∉ taken := by
  by_contra none
  have all : ∀ n ≤ taken.size, candidateId base n ∈ taken.toList := by
    intro n bounded
    by_contra free
    refine none ⟨n, List.mem_range.mpr (Nat.lt_succ_of_le bounded), fun member => free ?_⟩
    exact Std.TreeSet.mem_toList.mpr member
  have bound := lt_length_of_candidates base all
  rw [Std.TreeSet.length_toList] at bound
  omega

/-- A fresh id is the first candidate that is not taken. -/
theorem freshId_eq_candidateId (taken : Std.TreeSet String) (base : String)
    : ∃ n, freshId taken base = candidateId base n
        ∧ candidateId base n ∉ taken
        ∧ ∀ m < n, candidateId base m ∈ taken := by
  unfold freshId
  cases tried : (List.range (taken.size + 1)).find? fun n => candidateId base n ∉ taken with
  | none =>
      obtain ⟨n, inRange, free⟩ := exists_candidateId_not_mem taken base
      exact absurd free (by simpa using List.find?_eq_none.mp tried n inRange)
  | some n =>
      obtain ⟨free, -, before⟩ := List.find?_range_eq_some.mp tried
      refine ⟨n, rfl, by simpa using free, fun m earlier => ?_⟩
      simpa using before m earlier

theorem freshId_not_mem (taken : Std.TreeSet String) (base : String)
    : freshId taken base ∉ taken := by
  obtain ⟨n, eq, free, -⟩ := freshId_eq_candidateId taken base
  exact eq ▸ free

theorem freshId_ne_empty (taken : Std.TreeSet String) (plugin : Plugin)
    : freshId taken plugin.idBase ≠ "" := by
  obtain ⟨n, eq, -⟩ := freshId_eq_candidateId taken plugin.idBase
  exact eq ▸ candidateId_ne_empty plugin.idBase_ne_empty n

-----------------------------------------------------------------------------------------
-- Assigned ids
-----------------------------------------------------------------------------------------

/-- Every plugin has an id of its own. -/
structure Identified (plugins : List Plugin) : Prop where
  assigned : ∀ plugin ∈ plugins, plugin.id ≠ ""
  distinct : (plugins.map Plugin.id).Nodup

/-- What the assignment knows of the ids that it may not give away: among them are those of the
earlier plugins and those that the plugins still to come bring along.
-/
structure Reserved (kept : List String) (taken : Std.TreeSet String) (plugins : List Plugin)
    : Prop where
  earlier : ∀ id ∈ kept, id ∈ taken
  later : ∀ plugin ∈ plugins, plugin.id ≠ "" → plugin.id ∈ taken

variable {kept : List String} {taken : Std.TreeSet String} {plugin : Plugin}
  {plugins : List Plugin}

theorem Reserved.keep (reserved : Reserved kept taken (plugin :: plugins))
    (assigned : plugin.id ≠ "")
    : Reserved (plugin.id :: kept) taken plugins where
  earlier := by
    intro id member
    rcases List.mem_cons.mp member with rfl | member
    · exact reserved.later plugin (by simp) assigned
    · exact reserved.earlier id member
  later other member := reserved.later other (List.mem_cons_of_mem plugin member)

theorem Reserved.insert (reserved : Reserved kept taken (plugin :: plugins)) (id : String)
    : Reserved kept (taken.insert id) plugins where
  earlier other member := Std.TreeSet.mem_insert.mpr (Or.inr (reserved.earlier other member))
  later other member assigned :=
    Std.TreeSet.mem_insert.mpr
      (Or.inr (reserved.later other (List.mem_cons_of_mem plugin member) assigned))

theorem reserved_ofList (plugins : List Plugin)
    : Reserved [] (.ofList ((plugins.map Plugin.id).filter (· != ""))) plugins where
  earlier := by simp
  later plugin member assigned := by
    have given : plugin.id ∈ (plugins.map Plugin.id).filter (· != "") :=
      List.mem_filter.mpr ⟨List.mem_map_of_mem member, by simpa using assigned⟩
    simpa [Std.TreeSet.mem_ofList] using given

theorem ne_empty_of_mem_assignIdsFrom (kept : List String) (taken : Std.TreeSet String)
    (plugins : List Plugin)
    : ∀ plugin ∈ assignIdsFrom kept taken plugins, plugin.id ≠ "" := by
  induction plugins generalizing kept taken with
  | nil => simp [assignIdsFrom]
  | cons head plugins ih =>
      rw [assignIdsFrom]
      split
      · rename_i keep
        exact List.forall_mem_cons.mpr ⟨keep.1, ih _ _⟩
      · exact List.forall_mem_cons.mpr ⟨freshId_ne_empty taken head, ih _ _⟩

/-- An id that is taken is not given away again, by induction on the plugins to come. -/
theorem ne_of_mem_assignIdsFrom (kept : List String) {taken : Std.TreeSet String} {id : String}
    (isTaken : id ∈ taken) (absent : ∀ plugin ∈ plugins, plugin.id ≠ id)
    : ∀ plugin ∈ assignIdsFrom kept taken plugins, plugin.id ≠ id := by
  induction plugins generalizing kept taken with
  | nil => simp [assignIdsFrom]
  | cons head plugins ih =>
      obtain ⟨other, absent⟩ := List.forall_mem_cons.mp absent
      rw [assignIdsFrom]
      split
      · exact List.forall_mem_cons.mpr ⟨other, ih _ isTaken absent⟩
      · have new : freshId taken head.idBase ≠ id := fun same =>
          freshId_not_mem taken head.idBase (same ▸ isTaken)
        exact List.forall_mem_cons.mpr
          ⟨new, ih _ (Std.TreeSet.mem_insert.mpr (Or.inr isTaken)) absent⟩

/-- No plugin gets the id of an earlier one, by induction on the plugins to come. -/
theorem not_mem_kept_of_mem_assignIdsFrom (reserved : Reserved kept taken plugins)
    : ∀ plugin ∈ assignIdsFrom kept taken plugins, plugin.id ∉ kept := by
  induction plugins generalizing kept taken with
  | nil => simp [assignIdsFrom]
  | cons head plugins ih =>
      rw [assignIdsFrom]
      split
      · rename_i keep
        refine List.forall_mem_cons.mpr ⟨keep.2, fun plugin member old => ?_⟩
        exact ih (reserved.keep keep.1) plugin member (List.mem_cons_of_mem head.id old)
      · refine List.forall_mem_cons.mpr ⟨fun old => ?_, ih (reserved.insert _)⟩
        exact freshId_not_mem taken head.idBase (reserved.earlier _ old)

/-- The ids that result differ. A kept id stays clear of those of later plugins, which know of it, and
a fresh one was not among those that later plugins bring along.
-/
theorem nodup_assignIdsFrom (reserved : Reserved kept taken plugins)
    : ((assignIdsFrom kept taken plugins).map Plugin.id).Nodup := by
  induction plugins generalizing kept taken with
  | nil => simp [assignIdsFrom]
  | cons head plugins ih =>
      rw [assignIdsFrom]
      split
      · rename_i keep
        have later := not_mem_kept_of_mem_assignIdsFrom (reserved.keep keep.1)
        refine List.nodup_cons.mpr ⟨?_, ih (reserved.keep keep.1)⟩
        intro repeated
        obtain ⟨plugin, member, same⟩ := List.mem_map.mp repeated
        exact later plugin member (by simp [same])
      · have absent : ∀ plugin ∈ plugins, plugin.id ≠ freshId taken head.idBase := by
          intro plugin member same
          have assigned : plugin.id ≠ "" := same ▸ freshId_ne_empty taken head
          exact freshId_not_mem taken head.idBase
            (same ▸ reserved.later plugin (List.mem_cons_of_mem head member) assigned)
        have later := ne_of_mem_assignIdsFrom kept
          (Std.TreeSet.mem_insert_self : freshId taken head.idBase ∈ taken.insert _) absent
        refine List.nodup_cons.mpr ⟨?_, ih (reserved.insert _)⟩
        intro repeated
        obtain ⟨plugin, member, same⟩ := List.mem_map.mp repeated
        exact later plugin member same

/-- After the assignment every plugin has an id of its own. -/
theorem identified_assignIds (plugins : List Plugin) : Identified (assignIds plugins) where
  assigned := ne_empty_of_mem_assignIdsFrom _ _ plugins
  distinct := nodup_assignIdsFrom (reserved_ofList plugins)

theorem assignIdsFrom_eq_self (taken : Std.TreeSet String) (identified : Identified plugins)
    (separate : ∀ plugin ∈ plugins, plugin.id ∉ kept)
    : assignIdsFrom kept taken plugins = plugins := by
  induction plugins generalizing kept with
  | nil => rfl
  | cons head plugins ih =>
      obtain ⟨assigned, laterAssigned⟩ := List.forall_mem_cons.mp identified.assigned
      obtain ⟨new, distinct⟩ := List.nodup_cons.mp identified.distinct
      obtain ⟨fresh, laterFresh⟩ := List.forall_mem_cons.mp separate
      rw [assignIdsFrom, if_pos ⟨assigned, fresh⟩]
      refine congrArg (head :: ·) (ih ⟨laterAssigned, distinct⟩ ?_)
      intro plugin member old
      rcases List.mem_cons.mp old with same | old
      · exact new (same ▸ List.mem_map_of_mem member)
      · exact laterFresh plugin member old

/-- The assignment leaves a list alone exactly when every plugin has an id of its own. -/
theorem assignIds_eq_self_iff (plugins : List Plugin)
    : assignIds plugins = plugins ↔ Identified plugins :=
  ⟨fun same => same ▸ identified_assignIds plugins,
    fun identified => assignIdsFrom_eq_self _ identified (by simp)⟩

end ZshStartup.Plugin
