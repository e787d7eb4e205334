import ZshStartup.Edit.Session
import ZshStartup.Proofs.Configuration.Normalization
import Mathlib.Data.List.Perm.Basic

/-! What a single step of an editing session can do. A step either settles ids and owners anew, or it
puts in, takes out or moves an entry of one list and leaves all other lists alone.
-/

namespace ZshStartup

-----------------------------------------------------------------------------------------
-- Lists
-----------------------------------------------------------------------------------------

/-- A move only reorders a list. -/
theorem moveItem?_perm {α : Type} {items moved : List α} {source target : Nat}
    (h : moveItem? items source target = some moved)
    : moved.Perm items := by
  unfold moveItem? at h
  split at h
  · next inside =>
      cases h
      have shorter : target ≤ (items.eraseIdx source).length := by
        rw [List.length_eraseIdx_of_lt inside.1]
        omega
      exact (List.perm_insertIdx items[source] _ shorter).trans
        (List.getElem_cons_eraseIdx_perm inside.1)
  · cases h

namespace Configuration

section Patch

variable (config : Configuration) (change : Patch)

@[simp]
theorem bootstrap_patch
    : (config.patch change).bootstrap
      = (change.bootstrap.map Bootstrap.orDefaults).getD config.bootstrap :=
  rfl

@[simp]
theorem plugins_patch
    : (config.patch change).plugins
      = Plugin.assignIds (change.plugins.getD config.plugins) :=
  rfl

/-- A patch settles the owners of all variables. -/
theorem envVars_patch
    : (config.patch change).envVars
      = (change.envVars.getD config.envVars).map (EnvVar.link (config.patch change).plugins) :=
  rfl

end Patch

/-- A configuration with one of its lists emptied. -/
def without (config : Configuration) : ListName → Configuration
  | .keyed .aliases => { config with aliases := [] }
  | .keyed .pathEntries => { config with pathEntries := [] }
  | .keyed .envVars => { config with envVars := [] }
  | .keyed .options => { config with options := [] }
  | .plugins => { config with plugins := [] }

section Without

variable (config : Configuration)

@[simp]
theorem version_without (list : ListName) : (config.without list).version = config.version := by
  unfold without
  split <;> rfl

@[simp]
theorem bootstrap_without (list : ListName)
    : (config.without list).bootstrap = config.bootstrap := by
  unfold without
  split <;> rfl

@[simp]
theorem plugins_without (name : KeyedListName)
    : (config.without (.keyed name)).plugins = config.plugins := by
  cases name <;> rfl

theorem envVars_without {list : ListName} (other : list ≠ .keyed .envVars)
    : (config.without list).envVars = config.envVars := by
  unfold without
  split
  case h_3 => exact absurd rfl other
  all_goals rfl

end Without

end Configuration

-----------------------------------------------------------------------------------------
-- Steps
-----------------------------------------------------------------------------------------

namespace Edit

/-- The list that a step is about, if it is about entries of a single list. -/
def list? : Edit → Option ListName
  | .insert (.ofAlias _) => some (.keyed .aliases)
  | .insert (.ofPathEntry _) => some (.keyed .pathEntries)
  | .insert (.ofEnvVar _) => some (.keyed .envVars)
  | .insert (.ofOption _) => some (.keyed .options)
  | .erase list _ => some (.keyed list)
  | .move list _ _ => some list
  | _ => none

/-- What a step makes of a configuration, and what it answers. Only a variable that is put in can bring
a new owner or group into a configuration without owners being settled.
-/
inductive StepsTo (config : Configuration) : Edit → Configuration × Outcome → Prop
  | patched (change : Patch) : StepsTo config (.patch change) (config.patch change, .done)
  | renamed {id : String} (name : String) (known : id ∈ config.plugins.map Plugin.id)
    : StepsTo config (.rename id name)
        ({ config with
            plugins := Configuration.renameIn config.plugins id name }.linkOwners, .flag true)
  | unknown {id : String} (name : String) (missing : id ∉ config.plugins.map Plugin.id)
    : StepsTo config (.rename id name) (config, .flag false)
  | reloaded
    : StepsTo config .renormalize
        (config.reloaded, .flag (config.reloaded = config))
  | inserted (entry : EnvVar) (outcome : Outcome)
    : StepsTo config (.insert (.ofEnvVar entry))
        ({ config with envVars := KeyedList.insert config.envVars entry }, outcome)
  | arranged {step : Edit} {list : ListName} {next : Configuration} (outcome : Outcome)
    (within : step.list? = some list) (others : next.without list = config.without list)
    (plugins : next.plugins.Perm config.plugins) (envVars : next.envVars ⊆ config.envVars)
    : StepsTo config step (next, outcome)

theorem moveIn_eq_some {config next : Configuration} {source target : Nat} {list : ListName}
    (moved : moveIn config source target list = some next)
    : next.without list = config.without list
      ∧ next.plugins.Perm config.plugins
      ∧ next.envVars.Perm config.envVars := by
  cases list with
  | keyed name =>
      cases name <;> obtain ⟨items, found, rfl⟩ := Option.map_eq_some_iff.mp moved
      case envVars => exact ⟨rfl, .rfl, moveItem?_perm found⟩
      all_goals exact ⟨rfl, .rfl, .rfl⟩
  | plugins =>
      obtain ⟨items, found, rfl⟩ := Option.map_eq_some_iff.mp moved
      exact ⟨rfl, moveItem?_perm found, .rfl⟩

theorem stepsTo_perform (config : Configuration) (step : Edit)
    : StepsTo config step (step.perform config) := by
  cases step with
  | patch change => exact .patched change
  | rename id name =>
      cases found : config.plugin? id with
      | none =>
          have missing : id ∉ config.plugins.map Plugin.id := by
            simpa [Configuration.plugin?] using found
          simpa [perform, Configuration.renamePlugin?, found] using StepsTo.unknown name missing
      | some plugin =>
          have known : id ∈ config.plugins.map Plugin.id :=
            List.mem_map.mpr
              ⟨plugin, List.mem_of_find?_eq_some found, by simpa using List.find?_some found⟩
          simpa [perform, Configuration.renamePlugin?, found] using StepsTo.renamed name known
  | insert entry =>
      cases entry with
      | ofEnvVar entry => exact .inserted entry _
      | ofAlias | ofPathEntry | ofOption => exact .arranged _ rfl rfl .rfl (List.Subset.refl _)
  | erase list key =>
      cases list with
      | envVars => exact .arranged _ rfl rfl .rfl List.eraseP_subset
      | aliases | pathEntries | options => exact .arranged _ rfl rfl .rfl (List.Subset.refl _)
  | move list source target =>
      cases moved : moveIn config source target list with
      | none =>
          simp only [perform, moved]
          exact .arranged _ rfl rfl .rfl (List.Subset.refl _)
      | some next =>
          simp only [perform, moved]
          obtain ⟨others, plugins, envVars⟩ := moveIn_eq_some moved
          exact .arranged _ rfl others plugins envVars.subset
  | renormalize =>
      unfold perform
      rw [Configuration.normalize_toJson_eq_reloaded]
      exact .reloaded

-----------------------------------------------------------------------------------------
-- Sessions
-----------------------------------------------------------------------------------------

variable {config : Configuration} {steps : List Edit}

theorem run_append_singleton (config : Configuration) (steps : List Edit) (step : Edit)
    : run config (steps ++ [step]) = (step.perform (run config steps)).1 := by
  simp [run]

/-- What each step keeps holds after all of them, by induction on the steps. -/
theorem run_induction {holds : Configuration → Prop}
    (keep : ∀ config, holds config → ∀ step ∈ steps, holds (step.perform config).1)
    (start : holds config)
    : holds (run config steps) := by
  induction steps generalizing config with
  | nil => exact start
  | cons step steps ih =>
      refine ih (fun config kept later member => ?_) (keep config start step (by simp))
      exact keep config kept later (List.mem_cons_of_mem step member)

end Edit

end ZshStartup
