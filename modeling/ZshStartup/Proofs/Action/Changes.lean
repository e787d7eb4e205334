import ZshStartup.Proofs.Action.Applying

/-! What actions change. An action that fails before it has read all that it needs changes nothing, nor
does one that only reports. Any other action changes the files that it is to write and, with backups,
the backups of those that were there when it wrote them.
-/

namespace ZshStartup

open Files (Location Machine)
open Files.Machine

-----------------------------------------------------------------------------------------
-- Places
-----------------------------------------------------------------------------------------

/-- The places of files that writing to some paths in turn may change: those of the paths themselves
and, with backups, those of the backups of files that were there, be it before all writing or because
an earlier one of the writes had put them there.
-/
inductive Files.Machine.Touches (machine : Machine) (backup : Bool) : List String → Location → Prop
  | target {targets : List String} {path : String} (member : path ∈ targets)
    : Touches machine backup targets (machine.place path)
  | kept {targets : List String} {path : String} (wanted : backup = true) (member : path ∈ targets)
    (present : (machine.file? (machine.place path)).isSome)
    : Touches machine backup targets (machine.place (Path.backup path))
  | again {before after : List String} {path : String} (wanted : backup = true)
    (made : Touches machine backup before (machine.place path))
    : Touches machine backup (before ++ path :: after) (machine.place (Path.backup path))

namespace Files.Machine

variable {machine between : Machine} {backup : Bool} {path text : String} {place : Location}

/-- Writing a file changes nothing but what it touches. -/
theorem Replaced.touches (replaced : machine.Replaced path text backup between)
    (changed : between.file? place ≠ machine.file? place)
    : machine.Touches backup [path] place := by
  rw [replaced.files] at changed
  split at changed
  · next target =>
      rw [target]
      exact .target List.mem_cons_self
  · split at changed
    · next copied =>
        obtain ⟨wanted, copy⟩ := copied
        cases present : machine.file? (machine.place path) with
        | none => simp [present] at changed
        | some content =>
            rw [copy]
            exact .kept wanted List.mem_cons_self (by simp [present])
    · exact absurd rfl changed

/-- A file that is there after another one was written was there before or was touched. -/
theorem Replaced.isSome_or_touches (replaced : machine.Replaced path text backup between)
    (present : (between.file? place).isSome)
    : (machine.file? place).isSome ∨ machine.Touches backup [path] place := by
  by_cases same : between.file? place = machine.file? place
  · exact .inl (same ▸ present)
  · exact .inr (replaced.touches same)

theorem Touches.append {targets : List String} (touches : machine.Touches backup targets place)
    (more : List String)
    : machine.Touches backup (targets ++ more) place := by
  cases touches with
  | target member => exact .target (List.mem_append_left more member)
  | kept wanted member present => exact .kept wanted (List.mem_append_left more member) present
  | again wanted made =>
      rw [List.append_assoc]
      exact .again wanted made

/-- What is touched after a file was written is touched by writing that file as well. -/
theorem Touches.cons {rest : List String} (touches : between.Touches backup rest place)
    (replaced : machine.Replaced path text backup between)
    : machine.Touches backup (path :: rest) place := by
  induction touches with
  | target member =>
      rw [place_congr replaced.current]
      exact .target (List.mem_cons_of_mem path member)
  | @kept targets other wanted member present =>
      rw [place_congr replaced.current] at present ⊢
      cases replaced.isSome_or_touches present with
      | inl present => exact .kept wanted (List.mem_cons_of_mem path member) present
      | inr made =>
          -- The first write put the file there, so that its own write finds it.
          obtain ⟨before, after, rfl⟩ := List.append_of_mem member
          exact .again wanted (made.append before)
  | @again before after other wanted _ ih =>
      rw [place_congr replaced.current] at ih ⊢
      exact .again wanted ih

theorem not_touches_nil : ¬ machine.Touches backup [] place := by
  generalize named : [] = targets
  intro touches
  cases touches with
  | target member | kept _ member => simp [← named] at member
  | again => simp at named

/-- Targets none of which an earlier write touches. -/
def Fresh (machine : Machine) (backup : Bool) (targets : List String) : Prop :=
  ∀ before path after, targets = before ++ path :: after →
    ¬ machine.Touches backup before (machine.place path)

/-- Of fresh targets, only those that were there before all writing have their backups touched. -/
theorem Touches.exists_mem {targets : List String} (touches : machine.Touches backup targets place)
    (fresh : machine.Fresh backup targets)
    : ∃ path ∈ targets,
        place = machine.place path
        ∨ backup = true
          ∧ (machine.file? (machine.place path)).isSome
          ∧ place = machine.place (Path.backup path) := by
  cases touches with
  | target member => exact ⟨_, member, .inl rfl⟩
  | kept wanted member present => exact ⟨_, member, .inr ⟨wanted, present, rfl⟩⟩
  | again wanted made => exact absurd made (fresh _ _ _ rfl)

theorem fresh_of_length_le_one {targets : List String} (few : targets.length ≤ 1)
    : machine.Fresh backup targets := by
  intro before path after split
  rw [split] at few
  cases before with
  | nil => exact not_touches_nil
  | cons first before => simp at few

end Files.Machine

theorem Store.Apart.fresh {store : Store} {machine : Machine} {backup : Bool}
    (apart : store.Apart machine)
    : machine.Fresh backup [store.scriptPath, store.configPath] := by
  intro before path after split
  match before, split with
  | [], _ => exact not_touches_nil
  | [_], rfl =>
      intro touches
      obtain ⟨path, member, places⟩ := touches.exists_mem (fresh_of_length_le_one (by simp))
      obtain rfl := List.mem_singleton.mp member
      obtain file | ⟨-, -, copy⟩ := places
      · exact apart.files file.symm
      · exact apart.scriptBackup copy.symm
  | _ :: _ :: _, split => simp at split

/-- Writing texts to files changes nothing but what it touches. -/
theorem Plan.touches_of_writeAll_eq_ok {writes : List (String × String)} {backup : Bool}
    {machine next : Machine} {place : Location}
    (written : machine.run (writeAll backup writes) = (.ok (), next))
    (changed : next.file? place ≠ machine.file? place)
    : machine.Touches backup (writes.map Prod.fst) place := by
  induction writes generalizing machine with
  | nil =>
      cases written
      exact absurd rfl changed
  | cons write rest ih =>
      obtain ⟨between, replaced, written⟩ := exists_replaced_of_writeAll_cons written
      by_cases later : next.file? place = between.file? place
      · exact (replaced.touches (later ▸ changed)).append (rest.map Prod.fst)
      · exact (ih written later).cons replaced

-----------------------------------------------------------------------------------------
-- Changes
-----------------------------------------------------------------------------------------

namespace Action

variable {machine next : Machine} {setup : Setup} {action : Action}

theorem eq_of_idle
    (idle : ∀ plan, (machine.run (action.plan setup)).1 = .ok plan → plan.writes = [])
    : (machine.run (perform setup action)).2 = machine := by
  rw [run_perform]
  cases planned : (machine.run (action.plan setup)).1 with
  | error error => rfl
  | ok plan => simp [Plan.carryOut, Plan.writeAll, idle plan planned]

/-- Every error but one of the system comes before the first write. -/
theorem eq_of_not_isIo {error : Error}
    (failed : (machine.run (perform setup action)).1 = .error error) (refused : ¬ error.IsIo)
    : (machine.run (perform setup action)).2 = machine := by
  rw [run_perform] at failed ⊢
  cases planned : (machine.run (action.plan setup)).1 with
  | error cause => rfl
  | ok plan =>
      rw [planned] at failed
      exact absurd (plan.failsByIo_carryOut machine error failed) refused

theorem eq_of_unsettled {error : Error} (failed : (machine.run setup.load).1 = .error error)
    : (machine.run (perform setup action)).2 = machine := by
  refine eq_of_idle fun plan planned => ?_
  by_contra writes
  obtain ⟨settings, loaded, -⟩ := (planned_of_plan_eq_ok planned).settled writes
  rw [loaded] at failed
  cases failed

theorem eq_of_reports (reports : action.Reports)
    : (machine.run (perform setup action)).2 = machine := by
  refine eq_of_idle fun plan planned => ?_
  have targets := (planned_of_plan_eq_ok planned).targets
  rw [reports.targets_eq_nil] at targets
  exact List.map_eq_nil_iff.mp targets

theorem touches_of_perform_eq_ok {report : Report} {place : Location}
    (done : machine.run (perform setup action) = (.ok report, next))
    (changed : next.file? place ≠ machine.file? place)
    : ∃ settings,
        (machine.run setup.load).1 = .ok settings
        ∧ machine.Touches settings.backup (action.targets (machine.run setup.store).1.toOption)
            place := by
  rw [run_perform] at done
  cases planned : (machine.run (action.plan setup)).1 with
  | error error =>
      rw [planned] at done
      cases done
  | ok plan =>
      rw [planned] at done
      have written := Plan.writeAll_of_carryOut done
      obtain ⟨targets, settled⟩ := planned_of_plan_eq_ok planned
      have writes : plan.writes ≠ [] := by
        intro nothing
        rw [nothing] at written
        cases written
        exact changed rfl
      obtain ⟨settings, loaded, backup⟩ := settled writes
      refine ⟨settings, loaded, ?_⟩
      rw [← targets, ← backup]
      exact Plan.touches_of_writeAll_eq_ok written changed

theorem fresh_targets {backup : Bool}
    (apart : ∀ store, (machine.run setup.store).1 = .ok store → store.Apart machine)
    : machine.Fresh backup (action.targets (machine.run setup.store).1.toOption) := by
  cases stored : (machine.run setup.store).1 with
  | error error =>
      show machine.Fresh backup (action.targets none)
      exact fresh_of_length_le_one (by cases action <;> simp [targets, Option.length_toList_le])
  | ok store =>
      show machine.Fresh backup (action.targets (some store))
      cases action with
      | apply input => exact (apart store stored).fresh
      | _ => exact fresh_of_length_le_one (by simp [targets, Option.length_toList_le])

/-- An action whose files lie apart changes, with backups, those of targets that were there before. -/
theorem exists_target_of_perform_eq_ok {report : Report} {place : Location}
    (apart : ∀ store, (machine.run setup.store).1 = .ok store → store.Apart machine)
    (done : machine.run (perform setup action) = (.ok report, next))
    (changed : next.file? place ≠ machine.file? place)
    : ∃ settings,
        (machine.run setup.load).1 = .ok settings
        ∧ ∃ path ∈ action.targets (machine.run setup.store).1.toOption,
            place = machine.place path
            ∨ settings.backup = true
              ∧ (machine.file? (machine.place path)).isSome
              ∧ place = machine.place (Files.Path.backup path) := by
  obtain ⟨settings, loaded, touches⟩ := touches_of_perform_eq_ok done changed
  exact ⟨settings, loaded, touches.exists_mem (fresh_targets apart)⟩

/-- What performing an action may have done to a machine. -/
structure Contained (setup : Setup) (action : Action) (machine : Machine)
    (outcome : Except Error Report) (next : Machine)
    : Prop where
  refused : ∀ error, outcome = .error error → ¬ error.IsIo → next = machine
  unsettled : ∀ error, (machine.run setup.load).1 = .error error → next = machine
  reported : action.Reports → next = machine
  changed
    : ∀ report, outcome = .ok report →
        ∀ place, next.file? place ≠ machine.file? place →
          ∃ settings,
            (machine.run setup.load).1 = .ok settings
            ∧ machine.Touches settings.backup (action.targets (machine.run setup.store).1.toOption)
                place

/-- Actions change no files but their own. A document that cannot be read and settings that cannot be
found leave the machine as it is, and so do the actions that only report, however they end. An action
that succeeds changes its targets and, with backups, the backups of those targets that were there
before or that it had itself put there.
-/
theorem contained_perform (setup : Setup) (action : Action) (machine : Machine)
    : Contained setup action machine (machine.run (perform setup action)).1
        (machine.run (perform setup action)).2 where
  refused _ failed refused := eq_of_not_isIo failed refused
  unsettled _ failed := eq_of_unsettled failed
  reported reports := eq_of_reports reports
  changed _ done _ changed := touches_of_perform_eq_ok (Prod.ext done rfl) changed

/-- Both files of this setup are one and the same. -/
def sharedSetup : Setup where
  settings := some { scriptPath := some "/f", configPath := some "/f" }

/-- Where script and document share a file, that file need not be there for its backup to be made: the
document is written after the script.
-/
theorem backup_perform_sharedSetup
    : let machine : Machine := {}
      let targets := Action.targets (machine.run sharedSetup.store).1.toOption (.apply none)
      ∃ report next,
        machine.run (perform sharedSetup (.apply none)) = (.ok report, next)
        ∧ ¬ ∀ place, next.file? place ≠ machine.file? place →
              ∃ path ∈ targets,
                place = machine.place path
                ∨ (machine.file? (machine.place path)).isSome
                  ∧ place = machine.place (Files.Path.backup path) := by
  intro machine targets
  have resolved : (machine.run sharedSetup.store).1 = .ok ⟨"/f", "/f", true⟩ := rfl
  have done : (machine.run (perform sharedSetup (.apply none))).1
      = .ok (.applied { script := some "/f", config := some "/f" }) := by
    rw [perform_eq_plan_bind]
    decide +kernel
  generalize ran : machine.run (perform sharedSetup (.apply none)) = applied at done
  obtain ⟨outcome, next⟩ := applied
  obtain rfl := done
  obtain ⟨config, between, -, first, second⟩ := exists_replaced_of_apply_eq_ok resolved ran
  have file : machine.place "/f" = ["f"] := by decide
  have backup : machine.place (Files.Path.backup "/f") = ["f.backup"] := by decide
  have copied : next.file? ["f.backup"] = some config.render.toUTF8 := by
    rw [second.files, place_congr first.current, place_congr first.current, file, backup,
      first.files, file]
    simp
  refine ⟨_, next, rfl, fun contained => ?_⟩
  have absent : machine.file? ["f.backup"] = none := rfl
  have named : targets = ["/f", "/f"] := rfl
  obtain ⟨path, member, places⟩ := contained ["f.backup"] (by simp [copied, absent])
  obtain rfl : path = "/f" := by simpa [named] using member
  rw [file] at places
  obtain own | ⟨present, -⟩ := places
  · simp at own
  · cases present

end Action

end ZshStartup
