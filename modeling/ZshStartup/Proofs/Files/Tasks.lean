import ZshStartup.Action.Perform
import ZshStartup.Proofs.Files.Places
import Mathlib.Order.Defs.Unbundled

/-! Tasks on a machine. A task ends in a result or an error and leaves the machine in some state. Those
that only look leave it as it is, whatever they find.
-/

namespace ZshStartup

/-- An error that the system gave rise to. -/
inductive Error.IsIo : Error → Prop
  | io (path : String) (cause : Files.Refusal) : IsIo (.io path cause)

namespace Files

open Effect (ask access settle)

namespace Machine

/-- A sequence of system operations that stops at the first error. -/
abbrev Task (α : Type) : Type :=
  ExceptT Error (StateM Machine) α

variable {α β : Type} {machine : Machine}

/-- Performs a task. -/
def run (machine : Machine) (task : Task α) : Except Error α × Machine :=
  task.run.run machine

-----------------------------------------------------------------------------------------
-- Runs
-----------------------------------------------------------------------------------------

@[simp]
theorem run_pure (result : α) : machine.run (pure result) = (.ok result, machine) :=
  rfl

@[simp]
theorem run_throw (error : Error)
    : machine.run (throw error : Task α) = (.error error, machine) :=
  rfl

@[simp]
theorem run_ask (operation : StateM Machine α)
    : machine.run (ask operation) = (.ok (operation machine).1, (operation machine).2) :=
  rfl

@[simp]
theorem run_access (path : String) (operation : StateM Machine (Except Refusal α))
    : machine.run (access path operation)
      = ((operation machine).1.mapError (.io path), (operation machine).2) :=
  rfl

/-- A task goes on with the result of its first part, where that part left the machine. -/
theorem run_bind (task : Task α) (next : α → Task β)
    : machine.run (task >>= next)
      = match machine.run task with
        | (.ok result, between) => between.run (next result)
        | (.error error, between) => (.error error, between) := by
  simp only [run, ExceptT.run_bind, StateT.run_bind]
  generalize task.run.run machine = ran
  obtain ⟨outcome, between⟩ := ran
  cases outcome <;> rfl

theorem run_bind_eq_ok_iff {task : Task α} {next : α → Task β} {result : β} {after : Machine}
    : machine.run (task >>= next) = (.ok result, after)
      ↔ ∃ first between,
          machine.run task = (.ok first, between)
          ∧ between.run (next first) = (.ok result, after) := by
  rw [run_bind]
  generalize machine.run task = ran
  obtain ⟨outcome, between⟩ := ran
  cases outcome <;> simp

theorem run_access_eq_ok_iff {path : String} {operation : StateM Machine (Except Refusal α)}
    {result : α} {after : Machine}
    : machine.run (access path operation) = (.ok result, after)
      ↔ operation machine = (.ok result, after) := by
  rw [run_access]
  generalize operation machine = ran
  obtain ⟨outcome, between⟩ := ran
  cases outcome with
  | ok found => constructor <;> rintro ⟨⟩ <;> rfl
  | error cause => constructor <;> rintro ⟨⟩

theorem result_access_eq_ok_iff {path : String} {operation : StateM Machine (Except Refusal α)}
    {result : α}
    : (machine.run (access path operation)).1 = .ok result ↔ (operation machine).1 = .ok result := by
  rw [run_access]
  cases (operation machine).1 <;> simp [Except.mapError]

/-- An operation goes on where its first part left the machine. -/
theorem bind_apply (operation : StateM Machine α) (next : α → StateM Machine β)
    (machine : Machine)
    : (operation >>= next) machine = next (operation machine).1 (operation machine).2 :=
  rfl

-----------------------------------------------------------------------------------------
-- Guarantees
-----------------------------------------------------------------------------------------

/-- The machine after an operation is related to the machine before, whatever the result. -/
def Guarantees (relation : Machine → Machine → Prop) (operation : StateM Machine α) : Prop :=
  ∀ machine, relation machine (operation machine).2

theorem Guarantees.pure {relation : Machine → Machine → Prop} [Std.Refl relation] (result : α)
    : Guarantees relation (Pure.pure result) :=
  fun machine => Std.Refl.refl machine

theorem Guarantees.bind {relation : Machine → Machine → Prop} [IsTrans Machine relation]
    {operation : StateM Machine α} {next : α → StateM Machine β}
    (first : Guarantees relation operation) (rest : ∀ result, Guarantees relation (next result))
    : Guarantees relation (operation >>= next) :=
  fun machine => IsTrans.trans _ _ _ (first machine) (rest _ _)

/-- The wording of an error does not matter to what the machine is like then. -/
theorem Guarantees.access {relation : Machine → Machine → Prop} {path : String}
    {operation : StateM Machine (Except Refusal α)} (guaranteed : Guarantees relation operation)
    : Guarantees relation (Effect.access path operation).run :=
  guaranteed

theorem Guarantees.of_run_eq {relation : Machine → Machine → Prop} {task : Task α}
    {outcome : Except Error α} {next : Machine} (guaranteed : Guarantees relation task.run)
    (ran : machine.run task = (outcome, next))
    : relation machine next := by
  have related := guaranteed machine
  rwa [show (task.run machine).2 = next from congrArg Prod.snd ran] at related

/-- An operation that leaves the machine as it is. -/
abbrev Looks (operation : StateM Machine α) : Prop :=
  Guarantees Eq operation

/-- A task that leaves the machine as it is. -/
def Reads (task : Task α) : Prop :=
  Looks task.run

namespace Reads

theorem run_eq {task : Task α} (reads : Reads task) (machine : Machine)
    : machine.run task = ((machine.run task).1, machine) :=
  Prod.ext rfl (reads machine).symm

theorem pure (result : α) : Reads (Pure.pure result) :=
  fun _ => rfl

theorem throw (error : Error) : Reads (MonadExcept.throw error : Task α) :=
  fun _ => rfl

theorem ask {operation : StateM Machine α} (looks : Looks operation)
    : Reads (Effect.ask operation) :=
  looks

theorem access {path : String} {operation : StateM Machine (Except Refusal α)}
    (looks : Looks operation)
    : Reads (Effect.access path operation) :=
  Guarantees.access looks

theorem settle (result : Except Error α) : Reads (Effect.settle result) :=
  fun _ => rfl

theorem bind {task : Task α} {next : α → Task β} (first : Reads task)
    (rest : ∀ result, Reads (next result))
    : Reads (task >>= next) := by
  unfold Reads
  rw [ExceptT.run_bind]
  refine Guarantees.bind first fun outcome => ?_
  cases outcome with
  | ok result => exact rest result
  | error error => exact fun _ => rfl

/-- What a task only reads decides how it goes on. -/
theorem run_bind {task : Task α} (reads : Reads task) (next : α → Task β)
    : machine.run (task >>= next)
      = match (machine.run task).1 with
        | .ok result => machine.run (next result)
        | .error error => (.error error, machine) := by
  rw [Machine.run_bind, reads.run_eq]
  cases (machine.run task).1 <;> rfl

theorem result_bind_eq_ok_iff {task : Task α} (reads : Reads task) {next : α → Task β} {result : β}
    : (machine.run (task >>= next)).1 = .ok result
      ↔ ∃ first,
          (machine.run task).1 = .ok first ∧ (machine.run (next first)).1 = .ok result := by
  rw [reads.run_bind]
  cases (machine.run task).1 <;> simp

end Reads

-----------------------------------------------------------------------------------------
-- Errors
-----------------------------------------------------------------------------------------

/-- Whatever fails in a task, the system refused it. -/
def FailsByIo (task : Task α) : Prop :=
  ∀ machine error, (Machine.run machine task).1 = .error error → error.IsIo

namespace FailsByIo

theorem pure (result : α) : FailsByIo (Pure.pure result) := by
  intro machine error failed
  cases failed

theorem ask (operation : StateM Machine α) : FailsByIo (Effect.ask operation) := by
  intro machine error failed
  cases failed

theorem access (path : String) (operation : StateM Machine (Except Refusal α))
    : FailsByIo (Effect.access path operation) := by
  intro machine error failed
  rw [run_access] at failed
  generalize (operation machine).1 = outcome at failed
  cases outcome with
  | ok result => cases failed
  | error cause =>
      cases failed
      exact .io path cause

theorem throw (path : String) (cause : Refusal)
    : FailsByIo (MonadExcept.throw (.io path cause) : Task α) := by
  intro machine error failed
  cases failed
  exact .io path cause

theorem bind {task : Task α} {next : α → Task β} (first : FailsByIo task)
    (rest : ∀ result, FailsByIo (next result))
    : FailsByIo (task >>= next) := by
  intro machine error failed
  rw [run_bind] at failed
  have refused := first machine
  generalize machine.run task = ran at failed refused
  obtain ⟨outcome, between⟩ := ran
  cases outcome with
  | ok result => exact rest result between error failed
  | error cause =>
      cases failed
      exact refused error rfl

end FailsByIo

-----------------------------------------------------------------------------------------
-- Readers
-----------------------------------------------------------------------------------------

theorem looks_readText (path : String) : Looks (readText path) := by
  refine .bind (fun _ => rfl) fun content => ?_
  split
  · exact .pure _
  · split <;> exact .pure _

theorem looks_home? : Looks Settings.home? := by
  refine .bind (fun _ => rfl) fun home => ?_
  split
  · split
    · exact fun _ => rfl
    · exact .pure _
  · exact fun _ => rfl

theorem looks_defaultFile? : Looks Settings.defaultFile? := by
  refine .bind looks_home? fun home => ?_
  split
  · exact .bind (fun _ => rfl) fun shared => .pure _
  · exact .pure _

theorem reads_load (path : String) : Reads (Settings.fileLayer.load path) := by
  refine .bind (.ask fun _ => rfl) fun content => ?_
  split
  · exact .settle _
  · exact .pure _
  · exact .throw _

theorem reads_fileLayer (file : Option String) : Reads (Settings.fileLayer file) := by
  cases file with
  | some path =>
      refine .bind (.ask fun _ => rfl) fun kind => ?_
      split
      · exact .throw _
      · split
        · exact .throw _
        · exact reads_load path
  | none =>
      refine .bind (.ask looks_defaultFile?) fun path => ?_
      split
      · exact reads_load _
      · exact .pure _

theorem reads_environmentLayer : Reads Settings.environmentLayer :=
  .bind (.ask fun _ => rfl) fun _ =>
    .bind (.ask fun _ => rfl) fun _ => .bind (.ask fun _ => rfl) fun _ => .settle _

theorem reads_setup_load (setup : Setup) : Reads setup.load := by
  unfold Setup.load
  split
  · exact .pure _
  · refine .bind (reads_fileLayer _) fun file => ?_
    split
    · exact .bind reads_environmentLayer fun _ => .pure _
    · exact .bind (.pure _) fun _ => .pure _

theorem reads_ofSettings (settings : Settings) : Reads (Store.ofSettings settings) := by
  have home : Reads Store.home := by
    refine .bind (.ask looks_home?) fun home => ?_
    split
    · exact .throw _
    · exact .pure _
  unfold Store.ofSettings
  split
  · exact .pure _
  · exact .bind home fun _ => .pure _

theorem reads_setup_store (setup : Setup) : Reads setup.store :=
  .bind (reads_setup_load setup) reads_ofSettings

theorem reads_load? (store : Store) : Reads store.load? := by
  refine .bind (.ask (looks_readText _)) fun text => ?_
  split
  · exact .pure _
  · exact .pure _
  · exact .throw _

theorem reads_loadConfig (store : Store) : Reads store.loadConfig := by
  refine .bind (reads_load? store) fun text => ?_
  split
  · exact .pure _
  · split <;> exact .pure _

theorem reads_readConfig (path : String) : Reads (Action.readConfig path) := by
  refine .bind (.access (looks_readText path)) fun text => ?_
  split
  · exact .pure _
  · exact .throw _

theorem reads_chosenConfig (store : Store) (input : Option String)
    : Reads (Action.chosenConfig store input) := by
  cases input with
  | some path => exact reads_readConfig path
  | none => exact reads_loadConfig store

end Machine

end Files

end ZshStartup
