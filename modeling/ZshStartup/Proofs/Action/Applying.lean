import ZshStartup.Proofs.Action.Plan
import ZshStartup.Proofs.Action.Reading
import ZshStartup.Proofs.Script.Reloading

/-! Applying a configuration. The script and the document that are written stand for the same
configuration: whoever loads the document renders the script again, byte by byte.
-/

namespace ZshStartup

open Files (Machine)
open Files.Machine

-----------------------------------------------------------------------------------------
-- Loading
-----------------------------------------------------------------------------------------

/-- A configuration that was stored is loaded as it is read back from its document. -/
theorem Store.run_loadConfig {machine : Machine} {store : Store} {config : Configuration}
    (held : machine.Holds store.configPath config.serialize)
    : machine.run store.loadConfig = (.ok (.normalize config.toJson), machine) := by
  rw [(reads_loadConfig store).run_eq,
    Action.loadConfig_eq_ok_iff.mpr (.stored held config.read_serialize)]

/-- No configuration that an action works on has empty paths. -/
theorem Action.Chosen.paths_ne_empty {machine : Machine} {store : Store} {input : Option String}
    {config : Configuration} (chosen : Chosen machine store input config)
    : config.bootstrap.brewPath ≠ "" ∧ config.bootstrap.zinitHome ≠ "" := by
  cases chosen with
  | given | stored => exact (Configuration.ofFields_complete _).2
  | damaged | missing => decide

-----------------------------------------------------------------------------------------
-- Applying
-----------------------------------------------------------------------------------------

/-- A store whose script and document lie at different places, neither of them where the backup of the
other one goes.
-/
structure Store.Apart (store : Store) (machine : Machine) : Prop where
  files : machine.place store.scriptPath ≠ machine.place store.configPath
  scriptBackup
    : machine.place (Files.Path.backup store.scriptPath) ≠ machine.place store.configPath
  configBackup
    : machine.place (Files.Path.backup store.configPath) ≠ machine.place store.scriptPath

namespace Action

variable {machine next : Machine} {setup : Setup} {store : Store} {input : Option String}
  {report : Report}

/-- Applying a configuration that can be read writes its script and then its document. -/
theorem exists_replaced_of_apply_eq_ok
    (resolved : (machine.run setup.store).1 = .ok store)
    (done : machine.run (perform setup (.apply input)) = (.ok report, next))
    : ∃ config between,
        Chosen machine store input config
        ∧ machine.Replaced store.scriptPath config.render store.backup between
        ∧ between.Replaced store.configPath config.serialize store.backup next := by
  rw [perform_eq_plan_bind] at done
  obtain ⟨plan, planned, plans, carried⟩ := run_bind_eq_ok_iff.mp done
  obtain ⟨_, _, stored, plans⟩ := run_bind_eq_ok_iff.mp plans
  rw [(reads_setup_store setup).run_eq, resolved] at stored
  cases stored
  obtain ⟨config, _, chosen, plans⟩ := run_bind_eq_ok_iff.mp plans
  obtain rfl := (reads_chosenConfig store input).of_run_eq chosen
  cases plans
  obtain ⟨between, first, rest⟩ :=
    Plan.exists_replaced_of_writeAll_cons (Plan.writeAll_of_carryOut carried)
  obtain ⟨_, second, ended⟩ := Plan.exists_replaced_of_writeAll_cons rest
  cases ended
  exact ⟨config, between, chosenConfig_eq_ok_iff.mp (congrArg Prod.fst chosen), first, second⟩

/-- Script and document agree once a configuration was applied. Whatever the machine held before, the files
hold the script and the document of the configuration that the text read describes, or of the default in
the place of a stored document that is missing or damaged; loading the document succeeds, and yields a
configuration whose script is exactly what the script file holds; and with backups, each of the two files
that was there before is kept beside the new one.
-/
theorem files_apply
    (resolved : (machine.run setup.store).1 = .ok store) (apart : store.Apart machine)
    (done : machine.run (perform setup (.apply input)) = (.ok report, next))
    : ∃ config,
        Chosen machine store input config
        ∧ next.file? (machine.place store.scriptPath) = some config.render.toUTF8
        ∧ next.file? (machine.place store.configPath) = some config.serialize.toUTF8
        ∧ (∃ loaded,
            next.run store.loadConfig = (.ok loaded, next)
            ∧ next.file? (machine.place store.scriptPath) = some loaded.render.toUTF8)
        ∧ (store.backup = true →
            ∀ path ∈ [store.scriptPath, store.configPath],
            ∀ previous, machine.file? (machine.place path) = some previous →
              next.file? (machine.place (Files.Path.backup path)) = some previous) := by
  obtain ⟨config, between, chosen, first, second⟩ := exists_replaced_of_apply_eq_ok resolved done
  have place_eq := place_congr first.current
  have script : next.file? (machine.place store.scriptPath) = some config.render.toUTF8 := by
    simp [second.files, first.files, place_eq, apart.files, apart.configBackup.symm]
  refine ⟨config, chosen, script, ?_, ⟨_, Store.run_loadConfig second.read, ?_⟩, ?_⟩
  · simp [second.files, place_eq]
  · obtain ⟨brewPath, zinitHome⟩ := chosen.paths_ne_empty
    rw [Configuration.render_normalize_toJson brewPath zinitHome, script]
  · have names : machine.Names store.configPath := by
      simpa [Names, place_eq] using second.names
    have backups : machine.place (Files.Path.backup store.scriptPath)
        ≠ machine.place (Files.Path.backup store.configPath) :=
      fun same => apart.files (first.names.place_eq_of_backup names same)
    intro kept path member previous held
    rcases List.mem_pair.mp member with rfl | rfl
    · simp [second.files, first.files, place_eq, kept, held, backups, apart.scriptBackup,
        first.names.place_backup_ne]
    · simp [second.files, first.files, place_eq, kept, held, apart.files.symm,
        apart.scriptBackup.symm, names.place_backup_ne]

/-- A document of the first version. -/
def waitingText : String :=
  "\x7b\"plugins\": [\x7b\"name\": \"a/b\", \"loadType\": \"wait\"\x7d]\x7d"

/-- What the document describes. -/
def waitingSetup : Configuration where
  plugins := [{ id := "a/b", name := "a/b", ice := some { wait := some 0 } }]

/-- A machine with a script of its own, and with a stored document of the first version. -/
def usedMachine : Machine where
  disk.nodes := [(["z"], .file "echo old".toUTF8), (["c"], .file waitingText.toUTF8)]

def rootSetup : Setup where
  settings := some { scriptPath := some "/z", configPath := some "/c" }

theorem files_apply_usedMachine
    : let store : Store := { scriptPath := "/z", configPath := "/c" }
      let report : Report := .applied { script := some "/z", config := some "/c" }
      (usedMachine.run rootSetup.store).1 = .ok store
      ∧ store.Apart usedMachine
      ∧ ∃ next,
          usedMachine.run (perform rootSetup (.apply none)) = (.ok report, next)
          ∧ next.file? ["z"] = some waitingSetup.render.toUTF8
          ∧ next.file? ["c"] = some waitingSetup.serialize.toUTF8
          ∧ (∃ loaded,
              next.run store.loadConfig = (.ok loaded, next)
              ∧ next.file? ["z"] = some loaded.render.toUTF8)
          ∧ next.file? ["z.backup"] = some "echo old".toUTF8
          ∧ next.file? ["c.backup"] = some waitingText.toUTF8 := by
  intro store report
  have resolved : (usedMachine.run rootSetup.store).1 = .ok store := rfl
  have apart : store.Apart usedMachine := ⟨by decide, by decide, by decide⟩
  have done : (usedMachine.run (perform rootSetup (.apply none))).1 = .ok report := by
    rw [perform_eq_plan_bind]
    decide +kernel
  -- The run is given a name before its result is used, so that it is not computed again.
  generalize ran : usedMachine.run (perform rootSetup (.apply none)) = applied at done
  obtain ⟨outcome, next⟩ := applied
  obtain rfl : outcome = .ok report := done
  have script : usedMachine.place store.scriptPath = ["z"] := by decide
  have document : usedMachine.place store.configPath = ["c"] := by decide
  have scriptBackup : usedMachine.place (Files.Path.backup store.scriptPath) = ["z.backup"] := by
    decide
  have documentBackup : usedMachine.place (Files.Path.backup store.configPath) = ["c.backup"] := by
    decide
  obtain ⟨config, chosen, rendered, stored, reloaded, backups⟩ := files_apply resolved apart ran
  have described : (usedMachine.run (chosenConfig store none)).1 = .ok waitingSetup := by
    decide +kernel
  have same : config = waitingSetup :=
    Except.ok.inj ((chosenConfig_eq_ok_iff.mpr chosen).symm.trans described)
  have scriptKept := backups rfl store.scriptPath List.mem_cons_self
  have documentKept := backups rfl store.configPath (List.mem_pair.mpr (.inr rfl))
  rw [script] at rendered reloaded scriptKept
  rw [document] at stored documentKept
  rw [scriptBackup] at scriptKept
  rw [documentBackup] at documentKept
  rw [same] at rendered stored
  exact ⟨resolved, apart, next, rfl, rendered, stored, reloaded, scriptKept _ rfl,
    documentKept _ rfl⟩

end Action

end ZshStartup
