import ZshStartup.Proofs.Edit.Steps

/-! Plugin ids over whole editing sessions. From any document on, in every configuration that steps lead
to, each plugin has an id of its own, and only a patch that brings plugins along changes ids.
-/

namespace ZshStartup

-----------------------------------------------------------------------------------------
-- Plugins under renaming and moving
-----------------------------------------------------------------------------------------

namespace Plugin

/-- Plugins have ids of their own if their ids are those of plugins that have, in whatever order. -/
theorem Identified.of_perm {plugins next : List Plugin} (identified : Identified plugins)
    (same : (next.map Plugin.id).Perm (plugins.map Plugin.id))
    : Identified next where
  assigned plugin member := by
    obtain ⟨other, known, eq⟩ := List.mem_map.mp (same.mem_iff.mp (List.mem_map_of_mem member))
    exact eq ▸ identified.assigned other known
  distinct := same.nodup_iff.mpr identified.distinct

end Plugin

namespace Configuration

/-- Where ids are distinct, renaming the first plugin with an id renames just the plugin with it. -/
theorem renameIn_eq_map {plugins : List Plugin} (distinct : (plugins.map Plugin.id).Nodup)
    (id name : String)
    : renameIn plugins id name
      = plugins.map fun plugin => if plugin.id = id then { plugin with name } else plugin := by
  induction plugins with
  | nil => rfl
  | cons plugin rest ih =>
      obtain ⟨new, distinct⟩ := List.nodup_cons.mp distinct
      rw [renameIn, List.map_cons]
      split
      · next same =>
          have others : ∀ other ∈ rest, other.id ≠ id := fun other member repeated =>
            new (List.mem_map.mpr ⟨other, member, repeated.trans same.symm⟩)
          refine congrArg ({ plugin with name } :: ·) (map_eq_self_iff.mpr ?_).symm
          exact fun other member => if_neg (others other member)
      · rw [ih distinct]

/-- A configuration of the current version, without empty paths, in which every plugin has an id of its
own.
-/
structure Sound (config : Configuration) : Prop where
  current : config.version = schemaVersion
  brewPath : config.bootstrap.brewPath ≠ ""
  zinitHome : config.bootstrap.zinitHome ≠ ""
  identified : Plugin.Identified config.plugins

theorem sound_normalize (raw : Json) : (normalize raw).Sound := by
  obtain ⟨current, brewPath, zinitHome⟩ :=
    ofFields_complete ((toFields {}).overlay (Legacy.migrate raw.fields))
  exact ⟨current, brewPath, zinitHome, Plugin.identified_assignIds _⟩

theorem Sound.assignIds_plugins {config : Configuration} (sound : config.Sound)
    : Plugin.assignIds config.plugins = config.plugins :=
  (Plugin.assignIds_eq_self_iff _).mpr sound.identified

end Configuration

-----------------------------------------------------------------------------------------
-- Steps
-----------------------------------------------------------------------------------------

namespace Edit

/-- The plugins that a step brings along. -/
def plugins? : Edit → Option (List Plugin)
  | .patch change => change.plugins
  | _ => none

/-- What a step leaves of the plugins unless it brings plugins along: a rename gives one of them another
name, a move of plugins reorders them, and any other step leaves them as they are.
-/
def Preserves (plugins next : List Plugin) : Edit → Prop
  | .rename id name =>
      next = plugins.map fun plugin => if plugin.id = id then { plugin with name } else plugin
  | .move .plugins _ _ => next.Perm plugins
  | _ => next = plugins

variable {config : Configuration} {step : Edit}

theorem Preserves.perm_ids {plugins next : List Plugin} (preserves : step.Preserves plugins next)
    : (next.map Plugin.id).Perm (plugins.map Plugin.id) := by
  unfold Preserves at preserves
  split at preserves
  · rw [preserves, List.map_map]
    refine .of_eq (List.map_congr_left fun plugin _ => ?_)
    rw [Function.comp_apply]
    split <;> rfl
  · exact preserves.map Plugin.id
  · rw [preserves]

/-- A step without plugins of its own preserves those that are there. -/
theorem preserves_perform (sound : config.Sound) (plain : step.plugins? = none)
    : step.Preserves config.plugins (step.perform config).1.plugins := by
  have steps := stepsTo_perform config step
  generalize step.perform config = result at steps ⊢
  cases steps with
  | patched change =>
      have none : change.plugins = none := plain
      simp [Preserves, none, sound.assignIds_plugins]
  | renamed name known => exact Configuration.renameIn_eq_map sound.identified.distinct _ name
  | @unknown id name missing =>
      refine (map_eq_self_iff.mpr fun plugin member => if_neg fun same => ?_).symm
      exact missing (same ▸ List.mem_map_of_mem member)
  | reloaded => exact sound.assignIds_plugins
  | inserted => rfl
  | @arranged _ place next outcome within others plugins =>
      have kept {name : KeyedListName}
          (others : next.without (.keyed name) = config.without (.keyed name))
          : next.plugins = config.plugins := by
        simpa using congrArg Configuration.plugins others
      cases step with
      | patch | rename | renormalize => cases within
      | insert entry => cases entry <;> cases within <;> exact kept others
      | erase list key =>
          cases within
          exact kept others
      | move list source target =>
          obtain rfl : list = place := Option.some.inj within
          cases list with
          | keyed name => exact kept others
          | plugins => exact plugins

/-- A step keeps the version and leaves no path empty. -/
theorem perform_complete (sound : config.Sound) (step : Edit)
    : (step.perform config).1.version = schemaVersion
      ∧ (step.perform config).1.bootstrap.brewPath ≠ ""
      ∧ (step.perform config).1.bootstrap.zinitHome ≠ "" := by
  have steps := stepsTo_perform config step
  generalize step.perform config = result at steps ⊢
  cases steps with
  | patched change =>
      refine ⟨sound.current, ?_⟩
      cases given : change.bootstrap with
      | none => simpa [given] using And.intro sound.brewPath sound.zinitHome
      | some bootstrap => simpa [given] using bootstrap.orDefaults_ne_empty
  | renamed | unknown | inserted => exact ⟨sound.current, sound.brewPath, sound.zinitHome⟩
  | reloaded => exact ⟨rfl, config.bootstrap.orDefaults_ne_empty⟩
  | @arranged _ place next _ _ others =>
      have version : next.version = config.version := by
        simpa using congrArg Configuration.version others
      have bootstrap : next.bootstrap = config.bootstrap := by
        simpa using congrArg Configuration.bootstrap others
      rw [version, bootstrap]
      exact ⟨sound.current, sound.brewPath, sound.zinitHome⟩

/-- Every plugin has an id of its own after a step: a patch assigns ids, and other steps keep them. -/
theorem identified_perform (sound : config.Sound) (step : Edit)
    : Plugin.Identified (step.perform config).1.plugins := by
  cases step with
  | patch change => exact Plugin.identified_assignIds _
  | rename | insert | erase | move | renormalize =>
      exact sound.identified.of_perm (preserves_perform sound rfl).perm_ids

theorem sound_perform (sound : config.Sound) (step : Edit) : (step.perform config).1.Sound := by
  obtain ⟨current, brewPath, zinitHome⟩ := perform_complete sound step
  exact ⟨current, brewPath, zinitHome, identified_perform sound step⟩

-----------------------------------------------------------------------------------------
-- Sessions
-----------------------------------------------------------------------------------------

theorem sound_run (sound : config.Sound) (steps : List Edit) : (run config steps).Sound :=
  run_induction (fun _ sound step _ => sound_perform sound step) sound

/-- Plugins keep their identity throughout a session. Whatever document it started from and whatever
steps led there, a configuration is of the current version, has no empty paths, and gives every plugin
an id of its own. From there, no step changes the id of a plugin unless it brings plugins along: a rename
changes one name, a move reorders the plugins, and other steps leave them as they are.
-/
theorem sound_run_normalize (raw : Json) (steps : List Edit)
    : (run (.normalize raw) steps).Sound
      ∧ ∀ step : Edit,
          step.plugins? = none →
            step.Preserves (run (.normalize raw) steps).plugins
                (run (.normalize raw) (steps ++ [step])).plugins
            ∧ ((run (.normalize raw) (steps ++ [step])).plugins.map Plugin.id).Perm
                ((run (.normalize raw) steps).plugins.map Plugin.id) := by
  have sound := sound_run (Configuration.sound_normalize raw) steps
  refine ⟨sound, fun step plain => ?_⟩
  have preserves := preserves_perform sound plain
  rw [run_append_singleton]
  exact ⟨preserves, preserves.perm_ids⟩

/-- A document in which one id repeats, and the name of a plugin without an id is the id of another. -/
def repeatedDocument : Json :=
  .object
    [
      ("plugins",
        .array
          [
            .object [("id", .string "a"), ("name", .string "x")],
            .object [("id", .string "a"), ("name", .string "y")],
            .object [("name", .string "a")]
          ])
    ]

/-- Steps that reorder the plugins, and bring along plugins without ids. -/
def replacingSteps : List Edit :=
  [.move .plugins 2 0, .patch { plugins := some [{ name := "x" }, { name := "x" }] }, .renormalize]

theorem sound_run_normalize_repeatedDocument
    : (run (.normalize repeatedDocument) replacingSteps).Sound
      ∧ (rename "x#2" "y").plugins? = none
      ∧ (rename "x#2" "y").Preserves (run (.normalize repeatedDocument) replacingSteps).plugins
          (run (.normalize repeatedDocument) (replacingSteps ++ [rename "x#2" "y"])).plugins := by
  obtain ⟨sound, preserves⟩ := sound_run_normalize repeatedDocument replacingSteps
  have plain : (rename "x#2" "y").plugins? = none := rfl
  exact ⟨sound, plain, (preserves _ plain).1⟩

end Edit

end ZshStartup
