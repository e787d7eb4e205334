import ZshStartup.Proofs.Files.Tasks

/-! Writing files. Seen as a map from places to contents, a machine changes in two places when a file
is written: the place of the file and, if a backup is wanted and there was a file, that of its backup.
-/

namespace ZshStartup.Files

namespace Disk

/-- A directory that is made changes no file. -/
theorem file?_of_makeDirectory_eq_ok {disk next : Disk} {current : Location} {path : String}
    (made : disk.makeDirectory current path = .ok next) (place : Location)
    : next.file? place = disk.file? place := by
  unfold makeDirectory at made
  cases found : disk.slot current path with
  | error cause => simp [found, bind, Except.bind] at made
  | ok slot =>
      simp only [found, bind, Except.bind] at made
      split at made
      · cases made
      · split at made
        · cases made
        · split at made
          · cases made
          · next free =>
              cases made
              exact file?_insert_directory (by simp [Slot.place]) free place

end Disk

namespace Machine

/-- Where a path leads on a machine. -/
def place (machine : Machine) (path : String) : Location :=
  placeOf machine.current path

theorem place_congr {machine next : Machine} (same : next.current = machine.current) (path : String)
    : next.place path = machine.place path := by
  rw [place, place, same]

/-- The content of the file at a place. -/
def file? (machine : Machine) (place : Location) : Option ByteArray :=
  machine.disk.file? place

-----------------------------------------------------------------------------------------
-- Directories
-----------------------------------------------------------------------------------------

/-- A machine that differs from another one in its directories at most. -/
structure SameFiles (machine next : Machine) : Prop where
  current : next.current = machine.current
  files : ∀ place, next.file? place = machine.file? place

instance : Std.Refl SameFiles :=
  ⟨fun _ => ⟨rfl, fun _ => rfl⟩⟩

instance : IsTrans Machine SameFiles :=
  ⟨fun _ _ _ first second =>
    ⟨second.current.trans first.current,
      fun place => (second.files place).trans (first.files place)⟩⟩

theorem guarantees_makeDirectory (path : String)
    : Guarantees SameFiles (MonadSystem.makeDirectory path) := by
  intro machine
  show SameFiles machine
    (change (fun machine => machine.disk.makeDirectory machine.current path) machine).2
  unfold change
  split
  · next disk made => exact ⟨rfl, Disk.file?_of_makeDirectory_eq_ok made⟩
  · exact Std.Refl.refl machine

theorem guarantees_settled (path : String) (outcome : Except Refusal Unit)
    : Guarantees SameFiles (makeNested.settled path outcome) := by
  cases outcome with
  | ok => exact .pure _
  | error cause =>
      refine .bind (fun machine => Std.Refl.refl machine) fun kind => ?_
      split <;> exact .pure _

theorem guarantees_makeNested (paths : List String)
    : Guarantees SameFiles (makeNested paths : StateM Machine _) := by
  induction paths with
  | nil => exact .pure _
  | cons path above ih =>
      refine .bind (guarantees_makeDirectory path) fun outcome => ?_
      split
      · exact .pure _
      · refine .bind ih fun outcome => ?_
        split
        · exact .pure _
        · exact .bind (guarantees_makeDirectory path) fun outcome => guarantees_settled path outcome
      · exact guarantees_settled path _

theorem guarantees_makeDirectories (path : String)
    : Guarantees SameFiles (makeDirectories path : StateM Machine _) :=
  guarantees_makeNested (Path.directories path)

/-- Making room for a file changes no file. -/
theorem guarantees_makeRoom (path : String) : Guarantees SameFiles (Store.makeRoom path).run := by
  unfold Store.makeRoom
  split
  · split
    · exact .pure _
    · exact .access (guarantees_makeDirectories _)
  · exact .pure _

-----------------------------------------------------------------------------------------
-- Single files
-----------------------------------------------------------------------------------------

variable {machine next : Machine} {path text : String}

/-- What a file operation does that is not refused. -/
theorem change_eq_ok {operation : Machine → Except Refusal Disk}
    (changed : change operation machine = (.ok (), next))
    : operation machine = .ok next.disk ∧ next.current = machine.current := by
  unfold change at changed
  split at changed
  · next disk done =>
      cases changed
      exact ⟨done, rfl⟩
  · cases changed

/-- A machine with the content of one file replaced. -/
structure Wrote (machine : Machine) (path : String) (content : ByteArray) (next : Machine) : Prop where
  current : next.current = machine.current
  target
    : ∃ directory name,
        machine.disk.Target machine.current path directory name
        ∧ next.disk = machine.disk.insert (directory ++ [name]) (.file content)

theorem wrote_of_write_eq_ok {content : ByteArray}
    (written : (MonadSystem.write path content : StateM Machine _) machine = (.ok (), next))
    : machine.Wrote path content next := by
  obtain ⟨done, current⟩ := change_eq_ok written
  exact ⟨current, Disk.exists_target_of_write_eq_ok done⟩

namespace Wrote

variable {content : ByteArray}

theorem file?_eq (wrote : machine.Wrote path content next) (place : Location)
    : next.file? place = if place = machine.place path then some content else machine.file? place := by
  obtain ⟨directory, name, target, same⟩ := wrote.target
  rw [file?, same, Machine.place, target.placeOf_eq]
  exact Disk.file?_insert_file (by simp) content place

theorem read_eq (wrote : machine.Wrote path content next)
    : next.disk.read next.current path = .ok content := by
  obtain ⟨directory, name, target, same⟩ := wrote.target
  rw [same, wrote.current]
  exact target.read_insert content

end Wrote

/-- A copy has the content of the file that was copied. -/
theorem exists_wrote_of_copy_eq_ok {source target : String}
    (copied : (copy source target : StateM Machine _) machine = (.ok (), next))
    : ∃ content,
        machine.file? (machine.place source) = some content
        ∧ machine.Wrote target content next := by
  unfold copy at copied
  rw [bind_apply] at copied
  split at copied
  · cases copied
  · have read_apply : (MonadSystem.read source : StateM Machine _) machine
        = (machine.disk.read machine.current source, machine) :=
      rfl
    have kind_apply : ((MonadSystem.kind? source : StateM Machine _) machine).2 = machine := rfl
    rw [bind_apply, kind_apply, read_apply] at copied
    cases found : machine.disk.read machine.current source with
    | error cause =>
        rw [found] at copied
        cases copied
    | ok content =>
        rw [found] at copied
        exact ⟨content, Disk.file?_of_read_eq_ok found, wrote_of_write_eq_ok copied⟩

-----------------------------------------------------------------------------------------
-- Backups
-----------------------------------------------------------------------------------------

/-- What is done for a file that is about to be replaced: nothing if no backup is wanted or there is no
such file, else its content is copied to the place of its backup.
-/
inductive Kept (machine : Machine) (path : String) : Bool → Machine → Prop
  | unwanted : Kept machine path false machine
  | absent (absent : machine.disk.node? machine.current path = none) : Kept machine path true machine
  | copied {content : ByteArray} {next : Machine}
    (present : machine.file? (machine.place path) = some content)
    (wrote : machine.Wrote (Path.backup path) content next)
    : Kept machine path true next

theorem kept_of_keepBackup_eq_ok {kept : Bool}
    (done : machine.run (Store.keepBackup path) = (.ok kept, next))
    : machine.Kept path true next := by
  have present_apply : (Option.isSome <$> MonadSystem.kind? path : StateM Machine Bool) machine
      = ((machine.disk.node? machine.current path).isSome, machine) :=
    Prod.ext Option.isSome_map rfl
  unfold Store.keepBackup at done
  rw [run_bind, run_ask, present_apply] at done
  cases found : machine.disk.node? machine.current path with
  | none =>
      rw [found] at done
      cases done
      exact .absent found
  | some node =>
      rw [found] at done
      obtain ⟨_, between, copied, rest⟩ := run_bind_eq_ok_iff.mp done
      cases rest
      obtain ⟨content, present, wrote⟩ :=
        exists_wrote_of_copy_eq_ok (run_access_eq_ok_iff.mp copied)
      exact .copied present wrote

namespace Kept

variable {backup : Bool} {held : Machine}

theorem current (kept : machine.Kept path backup held) : held.current = machine.current := by
  cases kept with
  | unwanted | absent => rfl
  | copied _ wrote => exact wrote.current

/-- A backup has the content of the file at the path, if that can be written afterwards. -/
theorem file?_eq (kept : machine.Kept path backup held) {content : ByteArray}
    (wrote : held.Wrote path content next) (place : Location)
    : held.file? place
      = if backup ∧ place = machine.place (Path.backup path) then
          (machine.file? (machine.place path)).or (machine.file? place)
        else
          machine.file? place := by
  cases kept with
  | unwanted => simp
  | absent absent =>
      obtain ⟨directory, name, target, -⟩ := wrote.target
      rw [target.node?_eq] at absent
      have none : machine.file? (machine.place path) = none := by
        simp [file?, Disk.file?, Machine.place, target.placeOf_eq, absent]
      simp [none]
  | copied present copied =>
      rw [copied.file?_eq]
      simp [present]

end Kept

theorem wrote_of_replaceText_eq_ok {kept : Bool}
    (replaced : machine.run (Store.replaceText path text kept) = (.ok (), next))
    : machine.Wrote path text.toUTF8 next := by
  unfold Store.replaceText at replaced
  rw [run_bind, run_ask] at replaced
  generalize ran : (writeText path text : StateM Machine _) machine = result at replaced
  obtain ⟨outcome, between⟩ := result
  cases outcome with
  | ok =>
      cases replaced
      exact wrote_of_write_eq_ok ran
  | error cause =>
      dsimp only at replaced
      split at replaced
      · obtain ⟨_, _, -, thrown⟩ := run_bind_eq_ok_iff.mp replaced
        cases thrown
      · cases replaced

-----------------------------------------------------------------------------------------
-- Written files
-----------------------------------------------------------------------------------------

/-- A path that names a file, so that the path of its backup leads to a place beside it. -/
def Names (machine : Machine) (path : String) : Prop :=
  ∃ directory name,
    machine.place path = directory ++ [name]
    ∧ machine.place (Path.backup path) = directory ++ [name ++ ".backup"]

/-- No file is its own backup. -/
theorem Names.place_backup_ne (names : machine.Names path)
    : machine.place (Path.backup path) ≠ machine.place path := by
  obtain ⟨directory, name, file, backup⟩ := names
  simp [file, backup]

/-- Files at different places have backups at different places. -/
theorem Names.place_eq_of_backup {other : String} (names : machine.Names path)
    (named : machine.Names other)
    (same : machine.place (Path.backup path) = machine.place (Path.backup other))
    : machine.place path = machine.place other := by
  obtain ⟨directory, name, file, backup⟩ := names
  obtain ⟨directory', name', file', backup'⟩ := named
  rw [backup, backup'] at same
  obtain ⟨rfl, longer⟩ := List.append_inj' same rfl
  rw [file, file', (String.append_left_inj ".backup").mp (List.singleton_inj.mp longer)]

/-- A machine on which a text was written to a file, after what the file held was kept if a backup was
wanted.
-/
structure Replaced (machine : Machine) (path text : String) (backup : Bool) (next : Machine)
    : Prop where
  current : next.current = machine.current
  names : machine.Names path
  files
    : ∀ place,
        next.file? place
        = if place = machine.place path then
            some text.toUTF8
          else if backup ∧ place = machine.place (Path.backup path) then
            (machine.file? (machine.place path)).or (machine.file? place)
          else
            machine.file? place
  read : next.disk.read next.current path = .ok text.toUTF8

theorem replaced_of_writeFile_eq_ok {backup : Bool}
    (written : machine.run (Store.writeFile path text backup) = (.ok (), next))
    : machine.Replaced path text backup next := by
  unfold Store.writeFile at written
  obtain ⟨_, room, made, written⟩ := run_bind_eq_ok_iff.mp written
  have same : SameFiles machine room := by
    exact (guarantees_makeRoom path).of_run_eq made
  obtain ⟨held, kept, wrote⟩
      : ∃ held, room.Kept path backup held ∧ held.Wrote path text.toUTF8 next := by
    cases backup with
    | false =>
        obtain ⟨_, held, done, written⟩ := run_bind_eq_ok_iff.mp written
        cases done
        exact ⟨room, .unwanted, wrote_of_replaceText_eq_ok written⟩
    | true =>
        obtain ⟨_, held, done, written⟩ := run_bind_eq_ok_iff.mp written
        exact ⟨held, kept_of_keepBackup_eq_ok done, wrote_of_replaceText_eq_ok written⟩
  have current : held.current = machine.current := kept.current.trans same.current
  obtain ⟨directory, name, target, -⟩ := wrote.target
  refine ⟨wrote.current.trans current, ⟨directory, name, ?_, ?_⟩, fun place => ?_, wrote.read_eq⟩
  · exact place_congr current path ▸ target.placeOf_eq
  · exact place_congr current _ ▸ target.placeOf_backup
  · rw [wrote.file?_eq, kept.file?_eq wrote, place_congr current, place_congr same.current,
      place_congr same.current, same.files, same.files]

-----------------------------------------------------------------------------------------
-- Refused writes
-----------------------------------------------------------------------------------------

theorem failsByIo_makeRoom (path : String) : FailsByIo (Store.makeRoom path) := by
  unfold Store.makeRoom
  split
  · split
    · exact .pure _
    · exact .access _ _
  · exact .pure _

theorem failsByIo_keepBackup (path : String) : FailsByIo (Store.keepBackup path) := by
  refine .bind (.ask _) fun present => ?_
  split
  · exact .bind (.access _ _) fun _ => .pure _
  · exact .pure _

theorem failsByIo_replaceText (path text : String) (kept : Bool)
    : FailsByIo (Store.replaceText path text kept) := by
  refine .bind (.ask _) fun outcome => ?_
  split
  · exact .pure _
  · split
    · exact .bind (.ask _) fun _ => .throw _ _
    · exact .throw _ _

theorem failsByIo_writeFile (path text : String) (backup : Bool)
    : FailsByIo (Store.writeFile path text backup) := by
  refine .bind (failsByIo_makeRoom path) fun _ => ?_
  split
  · exact .bind (failsByIo_keepBackup path) fun kept => failsByIo_replaceText path text kept
  · exact .bind (.pure _) fun kept => failsByIo_replaceText path text kept

end Machine

end ZshStartup.Files
