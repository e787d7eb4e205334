import ZshStartup.Proofs.Configuration.RoundTrip
import ZshStartup.Proofs.Files.Writing

/-! Actions in two parts. Every action first reads all that it needs, and no file is changed before it
is known which texts are to be written where.
-/

namespace ZshStartup

open Files (Machine)
open Files.Machine

-----------------------------------------------------------------------------------------
-- Plans
-----------------------------------------------------------------------------------------

/-- What is left to do for an action that has read what it needs: texts to write to files, and what to
report then.
-/
structure Plan where
  writes : List (String × String) := []
  backup : Bool
  report : Report

namespace Plan

/-- Writes a text to a file, if one is given, else reports the text itself. -/
def emit (text : String) (output : Option String) (backup : Bool) (report : String → Report)
    : Plan :=
  match output with
  | some path => { writes := [(path, text)], backup, report := .written path }
  | none => { backup, report := report text }

/-- Writes texts to files, one after the other. -/
def writeAll (backup : Bool) : List (String × String) → Machine.Task Unit
  | [] => pure ()
  | (path, text) :: rest => do
      Store.writeFile path text backup
      writeAll backup rest

def carryOut (plan : Plan) : Machine.Task Report := do
  writeAll plan.backup plan.writes
  return plan.report

variable {machine next : Machine}

/-- The first of several files is written first. -/
theorem exists_replaced_of_writeAll_cons {backup : Bool} {path text : String}
    {rest : List (String × String)}
    (written : machine.run (writeAll backup ((path, text) :: rest)) = (.ok (), next))
    : ∃ between,
        machine.Replaced path text backup between
        ∧ between.run (writeAll backup rest) = (.ok (), next) := by
  obtain ⟨_, between, first, rest⟩ := Machine.run_bind_eq_ok_iff.mp written
  exact ⟨between, Machine.replaced_of_writeFile_eq_ok first, rest⟩

/-- A plan that is carried out has written all its texts. -/
theorem writeAll_of_carryOut {plan : Plan} {report : Report}
    (done : machine.run plan.carryOut = (.ok report, next))
    : machine.run (writeAll plan.backup plan.writes) = (.ok (), next) := by
  obtain ⟨_, between, written, ended⟩ := Machine.run_bind_eq_ok_iff.mp done
  cases ended
  exact written

theorem failsByIo_writeAll (backup : Bool) (writes : List (String × String))
    : FailsByIo (writeAll backup writes) := by
  induction writes with
  | nil => exact .pure _
  | cons write rest ih => exact .bind (failsByIo_writeFile write.1 write.2 backup) fun _ => ih

theorem failsByIo_carryOut (plan : Plan) : FailsByIo plan.carryOut :=
  .bind (failsByIo_writeAll plan.backup plan.writes) fun _ => .pure _

end Plan

namespace Action

/-- What an action reads, which is all that it needs to plan what it writes. -/
def plan (setup : Setup) : Action → Machine.Task Plan
  | .render input output => do
      let store ← setup.store
      let config ← chosenConfig store input
      return .emit config.render output store.backup .script
  | .apply input => do
      let store ← setup.store
      let config ← chosenConfig store input
      return {
        writes := [(store.scriptPath, config.render), (store.configPath, config.serialize)]
        backup := store.backup
        report := .applied { script := store.scriptPath, config := store.configPath }
      }
  | .importFile file => do
      let config ← readConfig file
      let store ← setup.store
      return {
        writes := [(store.configPath, config.serialize)]
        backup := store.backup
        report := .imported store.configPath config.plugins.length
      }
  | .exportStored output => do
      let store ← setup.store
      let config ← store.loadConfig
      return .emit config.serialize output store.backup .document
  | .generate output => do
      let settings ← setup.load
      return .emit (Configuration.serialize {}) output settings.backup .document
  | .reset => do
      let store ← setup.store
      return {
        writes := [(store.configPath, Configuration.serialize {})]
        backup := store.backup
        report := .reset store.configPath
      }
  | .summarize => do
      let store ← setup.store
      let config ← store.loadConfig
      return { backup := store.backup, report := .listing config.summary }
  | .settingsTemplate => return { backup := true, report := .template Settings.template }

/-- The paths of the files that an action is to write, in this order, given the store of its invocation
if there is one.
-/
def targets (store : Option Store) : Action → List String
  | .render _ output | .exportStored output | .generate output => output.toList
  | .apply _ => store.elim [] fun store => [store.scriptPath, store.configPath]
  | .importFile _ | .reset => store.elim [] fun store => [store.configPath]
  | .summarize | .settingsTemplate => []

/-- An action that only reports, and is not to write any file. -/
inductive Reports : Action → Prop
  | render (input : Option String) : Reports (.render input none)
  | exportStored : Reports (.exportStored none)
  | generate : Reports (.generate none)
  | summarize : Reports .summarize
  | settingsTemplate : Reports .settingsTemplate

theorem Reports.targets_eq_nil {action : Action} (reports : action.Reports) (store : Option Store)
    : action.targets store = [] := by
  cases reports <;> rfl

end Action

-----------------------------------------------------------------------------------------
-- Texts
-----------------------------------------------------------------------------------------

namespace Configuration

theorem render_ne_empty (config : Configuration) : config.render ≠ "" := by
  simp [render, Script.Section.order, String.intercalate_cons_cons]

theorem serialize_ne_empty (config : Configuration) : config.serialize ≠ "" := by
  simp [serialize, Json.pretty, toJson, toFields, Json.Printer.value]

end Configuration

-----------------------------------------------------------------------------------------
-- Actions
-----------------------------------------------------------------------------------------

namespace Action

theorem emit_eq_carryOut (text : String) (output : Option String) (backup : Bool)
    (report : String → Report)
    : (emit text output backup report : Machine.Task Report)
      = (Plan.emit text output backup report).carryOut := by
  cases output <;> simp [emit, Plan.emit, Plan.carryOut, Plan.writeAll]

theorem apply_eq_writeAll (store : Store) (config : Configuration)
    : (store.apply config.render config.serialize : Machine.Task Applied)
      = do
          Plan.writeAll store.backup
            [(store.scriptPath, config.render), (store.configPath, config.serialize)]
          return { script := store.scriptPath, config := store.configPath } := by
  simp [Store.apply, Plan.writeAll, config.render_ne_empty, config.serialize_ne_empty]

/-- Every action plans first and then carries out its plan. -/
theorem perform_eq_plan_bind (setup : Setup) (action : Action)
    : (perform setup action : Machine.Task Report) = plan setup action >>= Plan.carryOut := by
  cases action with
  | render input output => simp [perform, plan, emit_eq_carryOut]
  | apply input => simp [perform, plan, apply_eq_writeAll, Plan.carryOut]
  | importFile file => simp [perform, plan, Store.saveConfig, Plan.carryOut, Plan.writeAll]
  | exportStored output => simp [perform, plan, emit_eq_carryOut]
  | generate output => simp [perform, plan, emit_eq_carryOut]
  | reset => simp [perform, plan, Store.saveConfig, Plan.carryOut, Plan.writeAll]
  | summarize => simp [perform, plan, Plan.carryOut, Plan.writeAll]
  | settingsTemplate => simp [perform, plan, Plan.carryOut, Plan.writeAll]

end Action

-----------------------------------------------------------------------------------------
-- Planning
-----------------------------------------------------------------------------------------

namespace Action

variable {machine : Machine} {setup : Setup} {action : Action} {store : Store} {plan : Plan}

theorem reads_plan (setup : Setup) (action : Action) : Reads (action.plan setup) := by
  have stored {α : Type} {rest : Store → Machine.Task α} (reads : ∀ store, Reads (rest store))
      : Reads (setup.store >>= rest) :=
    .bind (reads_setup_store setup) reads
  cases action with
  | render input output => exact stored fun _ => .bind (reads_chosenConfig _ input) fun _ => .pure _
  | apply input => exact stored fun _ => .bind (reads_chosenConfig _ input) fun _ => .pure _
  | importFile file => exact .bind (reads_readConfig file) fun _ => stored fun _ => .pure _
  | exportStored output => exact stored fun _ => .bind (reads_loadConfig _) fun _ => .pure _
  | generate output => exact .bind (reads_setup_load setup) fun _ => .pure _
  | reset => exact stored fun _ => .pure _
  | summarize => exact stored fun _ => .bind (reads_loadConfig _) fun _ => .pure _
  | settingsTemplate => exact .pure _

/-- The store of an invocation comes from its settings. -/
theorem exists_settings_of_store_eq_ok (stored : (machine.run setup.store).1 = .ok store)
    : ∃ settings,
        (machine.run setup.load).1 = .ok settings ∧ store.backup = settings.backup := by
  obtain ⟨settings, loaded, made⟩ := (reads_setup_load setup).result_bind_eq_ok_iff.mp stored
  refine ⟨settings, loaded, ?_⟩
  unfold Store.ofSettings at made
  split at made
  · cases made
    rfl
  · rw [run_bind] at made
    split at made
    · cases made
      rfl
    · cases made

/-- What an action plans to write goes to its targets, with backups as the settings say. -/
structure Planned (setup : Setup) (action : Action) (machine : Machine) (plan : Plan) : Prop where
  targets : plan.writes.map Prod.fst = action.targets (machine.run setup.store).1.toOption
  settled
    : plan.writes ≠ [] →
        ∃ settings, (machine.run setup.load).1 = .ok settings ∧ plan.backup = settings.backup

theorem Planned.of_store (stored : (machine.run setup.store).1 = .ok store)
    (targets : plan.writes.map Prod.fst = action.targets (some store))
    (backup : plan.backup = store.backup)
    : Planned setup action machine plan where
  targets := by
    rw [targets, stored]
    rfl
  settled := fun _ => by
    rw [backup]
    exact exists_settings_of_store_eq_ok stored

theorem planned_of_plan_eq_ok (planned : (machine.run (action.plan setup)).1 = .ok plan)
    : Planned setup action machine plan := by
  have stores := reads_setup_store setup
  cases action with
  | render input output =>
      obtain ⟨store, stored, planned⟩ := stores.result_bind_eq_ok_iff.mp planned
      obtain ⟨config, -, planned⟩ := (reads_chosenConfig store input).result_bind_eq_ok_iff.mp planned
      cases planned
      cases output <;> exact .of_store stored rfl rfl
  | apply input =>
      obtain ⟨store, stored, planned⟩ := stores.result_bind_eq_ok_iff.mp planned
      obtain ⟨config, -, planned⟩ := (reads_chosenConfig store input).result_bind_eq_ok_iff.mp planned
      cases planned
      exact .of_store stored rfl rfl
  | importFile file =>
      obtain ⟨config, -, planned⟩ := (reads_readConfig file).result_bind_eq_ok_iff.mp planned
      obtain ⟨store, stored, planned⟩ := stores.result_bind_eq_ok_iff.mp planned
      cases planned
      exact .of_store stored rfl rfl
  | exportStored output =>
      obtain ⟨store, stored, planned⟩ := stores.result_bind_eq_ok_iff.mp planned
      obtain ⟨config, -, planned⟩ := (reads_loadConfig store).result_bind_eq_ok_iff.mp planned
      cases planned
      cases output <;> exact .of_store stored rfl rfl
  | generate output =>
      obtain ⟨settings, loaded, planned⟩ := (reads_setup_load setup).result_bind_eq_ok_iff.mp planned
      cases planned
      cases output <;> exact ⟨rfl, fun _ => ⟨settings, loaded, rfl⟩⟩
  | reset =>
      obtain ⟨store, stored, planned⟩ := stores.result_bind_eq_ok_iff.mp planned
      cases planned
      exact .of_store stored rfl rfl
  | summarize =>
      obtain ⟨store, stored, planned⟩ := stores.result_bind_eq_ok_iff.mp planned
      obtain ⟨config, -, planned⟩ := (reads_loadConfig store).result_bind_eq_ok_iff.mp planned
      cases planned
      exact .of_store stored rfl rfl
  | settingsTemplate =>
      cases planned
      exact ⟨rfl, fun writes => absurd rfl writes⟩

/-- How an action ends is decided when it is known what it plans. -/
theorem run_perform (setup : Setup) (action : Action) (machine : Machine)
    : machine.run (perform setup action)
      = match (machine.run (action.plan setup)).1 with
        | .ok plan => machine.run plan.carryOut
        | .error error => (.error error, machine) := by
  rw [perform_eq_plan_bind, (reads_plan setup action).run_bind]
  cases (machine.run (action.plan setup)).1 <;> rfl

end Action

end ZshStartup
