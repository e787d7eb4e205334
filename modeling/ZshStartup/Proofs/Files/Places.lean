import ZshStartup.Files.Machine
import Mathlib.Data.List.DropRight

/-! Where paths lead. A disk has no links, so the place of a path can be read off the path itself, and
the files of a disk are a map from places to contents. A path under which a file can be written names
that file last, and the path of its backup leads to a place beside it.
-/

namespace ZshStartup.Files

-----------------------------------------------------------------------------------------
-- Names
-----------------------------------------------------------------------------------------

/-- A text without slashes only extends the last name of a path. -/
theorem exists_splitSlashes_append {suffix : List Char} (plain : '/' ∉ suffix) (text : List Char)
    : ∃ names last,
        splitSlashes text = names ++ [last]
        ∧ splitSlashes (text ++ suffix) = names ++ [last ++ suffix] := by
  induction text with
  | nil => exact ⟨[], [], rfl, List.splitOn_eq_singleton plain⟩
  | cons c text ih =>
      obtain ⟨names, last, split, extended⟩ := ih
      unfold splitSlashes at split extended ⊢
      rw [List.splitOn_eq_splitOnP] at split extended
      simp only [List.splitOn_eq_splitOnP, List.cons_append, List.splitOnP_cons_eq_if_modifyHead,
        split, extended]
      by_cases slash : c = '/'
      · exact ⟨[] :: names, last, by simp [slash], by simp [slash]⟩
      · cases names with
        | nil => exact ⟨[], c :: last, by simp [slash], by simp [slash]⟩
        | cons first names => exact ⟨(c :: first) :: names, last, by simp [slash], by simp [slash]⟩

/-- A name that leads to something else than the directory it is in and the one above. -/
def Ordinary (name : String) : Prop :=
  name ≠ "" ∧ name ≠ "." ∧ name ≠ ".."

/-- The names of a backup are those of the file but for the last one, which gets longer. -/
theorem exists_names_backup (path : String)
    : ∃ before name,
        Disk.names path = before ++ [name]
        ∧ Disk.names (Path.backup path) = before ++ [name ++ ".backup"] := by
  have plain : '/' ∉ ".backup".toList := by decide
  obtain ⟨names, last, split, extended⟩ := exists_splitSlashes_append plain path.toList
  refine ⟨names.map String.ofList, String.ofList last, by simp [Disk.names, split], ?_⟩
  rw [Disk.names, Path.backup, String.toList_append, extended]
  simp

theorem ordinary_backup (name : String) : Ordinary (name ++ ".backup") := by
  have longer {text : String} (short : text.length < 7) : name ++ ".backup" ≠ text := by
    intro same
    have length := congrArg String.length same
    rw [String.length_append, show ".backup".length = 7 from rfl] at length
    omega
  exact ⟨longer (by decide), longer (by decide), longer (by decide)⟩

/-- Where a name leads from a place. -/
def enter (place : Location) (name : String) : Location :=
  if name = "" ∨ name = "." then
    place
  else if name = ".." then
    place.dropLast
  else
    place ++ [name]

theorem enter_of_ordinary {name : String} (ordinary : Ordinary name) (place : Location)
    : enter place name = place ++ [name] := by
  obtain ⟨filled, other, below⟩ := ordinary
  simp [enter, filled, other, below]

/-- Where a path leads, whatever the disk holds. -/
def placeOf (current : Location) (path : String) : Location :=
  (Disk.names path).foldl enter (Disk.start current path)

namespace Disk

-----------------------------------------------------------------------------------------
-- Files
-----------------------------------------------------------------------------------------

/-- The content of the file at a place, if there is one. -/
def file? (disk : Disk) (place : Location) : Option ByteArray :=
  match disk.get? place with
  | some (.file content) => some content
  | _ => none

section Insert

variable {disk : Disk} {place : Location}

/-- A file that is put at a place is there, and no other file changes. -/
theorem file?_insert_file (inside : place ≠ []) (content : ByteArray) (other : Location)
    : (disk.insert place (.file content)).file? other
      = if other = place then some content else disk.file? other := by
  unfold file?
  rw [get?_insert disk inside]
  by_cases same : other = place <;> simp [same]

/-- A directory that is put where nothing was changes no file. -/
theorem file?_insert_directory (inside : place ≠ []) (free : disk.get? place = none)
    (other : Location)
    : (disk.insert place .directory).file? other = disk.file? other := by
  unfold file?
  rw [get?_insert disk inside]
  by_cases same : other = place <;> simp [same, free]

end Insert

-----------------------------------------------------------------------------------------
-- Walks
-----------------------------------------------------------------------------------------

/-- What a walk needs at each of its names. -/
theorem walk_cons_eq_ok_iff {disk : Disk} {place result : Location} {name : String}
    {names : List String}
    : disk.walk place (name :: names) = .ok result
      ↔ disk.get? place = some .directory
        ∧ (Ordinary name →
            name.utf8ByteSize ≤ maxNameLength ∧ (disk.get? (place ++ [name])).isSome)
        ∧ disk.walk (enter place name) names = .ok result := by
  rw [walk]
  cases disk.get? place with
  | none => simp
  | some node =>
      cases node with
      | file content => simp
      | directory =>
          by_cases idle : name = "" ∨ name = "."
          · have plain : ¬Ordinary name := fun ordinary => idle.elim ordinary.1 ordinary.2.1
            simp [enter, idle, plain]
          · by_cases below : name = ".."
            · have plain : ¬Ordinary name := fun ordinary => ordinary.2.2 below
              simp [enter, below, Ordinary]
            · have ordinary : Ordinary name :=
                ⟨fun empty => idle (.inl empty), fun dot => idle (.inr dot), below⟩
              by_cases long : maxNameLength < name.utf8ByteSize
              · simp [idle, below, long, ordinary, Nat.not_le.mpr long]
              · have short := Nat.not_lt.mp long
                cases disk.get? (place ++ [name]) with
                | none => simp [idle, below, long, ordinary]
                | some node => simp [idle, below, long, short, ordinary, enter_of_ordinary]

/-- A walk that succeeds leads where its names lead on any disk. -/
theorem eq_foldl_of_walk_eq_ok {disk : Disk} {place result : Location} {names : List String}
    (walked : disk.walk place names = .ok result)
    : result = names.foldl enter place := by
  induction names generalizing place with
  | nil => exact (Except.ok.inj walked).symm
  | cons name names ih => exact ih (walk_cons_eq_ok_iff.mp walked).2.2

theorem walk_append_eq_ok_iff {disk : Disk} {place result : Location} {names more : List String}
    : disk.walk place (names ++ more) = .ok result
      ↔ ∃ middle, disk.walk place names = .ok middle ∧ disk.walk middle more = .ok result := by
  induction names generalizing place with
  | nil => simp [walk]
  | cons name names ih => simp [walk_cons_eq_ok_iff, ih, and_assoc]

/-- A walk to a directory starts at one. -/
theorem get?_of_walk_eq_ok {disk : Disk} {place result : Location} {names : List String}
    (walked : disk.walk place names = .ok result) (ends : disk.get? result = some .directory)
    : disk.get? place = some .directory := by
  cases names with
  | nil => exact Except.ok.inj walked ▸ ends
  | cons name names => exact (walk_cons_eq_ok_iff.mp walked).1

/-- A walk to a directory can be made on any disk that has all the directories of this one. -/
theorem walk_eq_ok_of_directories {disk next : Disk} {place result : Location}
    {names : List String}
    (kept : ∀ other, disk.get? other = some .directory → next.get? other = some .directory)
    (walked : disk.walk place names = .ok result) (ends : disk.get? result = some .directory)
    : next.walk place names = .ok result := by
  induction names generalizing place with
  | nil => exact walked
  | cons name names ih =>
      obtain ⟨starts, present, rest⟩ := walk_cons_eq_ok_iff.mp walked
      refine walk_cons_eq_ok_iff.mpr ⟨kept _ starts, fun ordinary => ?_, ih rest⟩
      have entered := get?_of_walk_eq_ok rest ends
      rw [enter_of_ordinary ordinary] at entered
      exact ⟨(present ordinary).1, by simp [kept _ entered]⟩

theorem locate_eq_ok_iff {disk : Disk} {current place : Location} {path : String}
    : disk.locate current path = .ok place
      ↔ checkPath path = .ok ()
        ∧ disk.walk (start current path) (names path) = .ok place
        ∧ (disk.get? place).isSome := by
  unfold locate
  cases checkPath path with
  | error cause => simp [bind, Except.bind]
  | ok =>
      cases disk.walk (start current path) (names path) with
      | error cause => simp [bind, Except.bind]
      | ok found => cases present : disk.get? found <;> simp [bind, Except.bind] <;> grind

theorem placeOf_of_locate_eq_ok {disk : Disk} {current place : Location} {path : String}
    (located : disk.locate current path = .ok place)
    : place = placeOf current path :=
  eq_foldl_of_walk_eq_ok (locate_eq_ok_iff.mp located).2.1

/-- What is read is what the file at the place of the path holds. -/
theorem file?_of_read_eq_ok {disk : Disk} {current : Location} {path : String}
    {content : ByteArray} (read : disk.read current path = .ok content)
    : disk.file? (placeOf current path) = some content := by
  unfold Disk.read at read
  cases located : disk.locate current path with
  | error cause => simp [located, bind, Except.bind] at read
  | ok place =>
      rw [located] at read
      rw [← placeOf_of_locate_eq_ok located, file?]
      cases found : disk.get? place with
      | none => simp [found, bind, Except.bind] at read
      | some node => cases node <;> simp_all [bind, Except.bind]

-----------------------------------------------------------------------------------------
-- Targets
-----------------------------------------------------------------------------------------

/-- A path that names a file, be it there or not, in a directory that is there. -/
structure Target (disk : Disk) (current : Location) (path : String) (directory : Location)
    (name : String) : Prop where
  checked : checkPath path = .ok ()
  reached
    : ∃ before,
        names path = before ++ [name] ∧ disk.walk (start current path) before = .ok directory
  ordinary : Ordinary name
  short : name.utf8ByteSize ≤ maxNameLength
  inside : disk.get? directory = some .directory
  free : disk.get? (directory ++ [name]) ≠ some .directory

/-- The slot of a path: without slashes behind it, the path ends in the name of the slot. -/
theorem reached_of_slot_eq_ok {disk : Disk} {current : Location} {path : String} {slot : Slot}
    (found : disk.slot current path = .ok slot)
    : checkPath path = .ok ()
      ∧ disk.get? slot.directory = some .directory
      ∧ (slot.name ≠ "" →
          slot.slashed = false →
          ∃ before,
            names path = before ++ [slot.name]
            ∧ disk.walk (start current path) before = .ok slot.directory) := by
  unfold Disk.slot at found
  simp only [← List.rdropWhile.eq_1] at found
  generalize trimmed : (names path).rdropWhile (· == "") = named at found
  cases checked : checkPath path with
  | error cause => simp [checked, bind, Except.bind] at found
  | ok =>
      cases walked : disk.walk (start current path) named.dropLast with
      | error cause => simp [checked, walked, bind, Except.bind] at found
      | ok directory =>
          simp only [checked, walked, bind, Except.bind] at found
          split at found
          case h_1 inside =>
            cases found
            refine ⟨rfl, inside, fun filled bare => ⟨named.dropLast, ?_, walked⟩⟩
            have all : named = names path := by
              refine List.IsPrefix.eq_of_length_le (trimmed ▸ List.rdropWhile_prefix _ _) ?_
              simpa using bare
            cases last : named.getLast? with
            | none => simp [last] at filled
            | some name => rw [← all, Option.getD_some, List.dropLast_append_getLast? name last]
          all_goals cases found

/-- A file is written where its path leads, and only to a target. -/
theorem exists_target_of_write_eq_ok {disk next : Disk} {current : Location} {path : String}
    {content : ByteArray} (written : disk.write current path content = .ok next)
    : ∃ directory name,
        disk.Target current path directory name
        ∧ next = disk.insert (directory ++ [name]) (.file content) := by
  unfold Disk.write at written
  cases found : disk.slot current path with
  | error cause => simp [found, bind, Except.bind] at written
  | ok slot =>
      simp only [found, bind, Except.bind] at written
      split at written
      · cases written
      · next proper =>
          split at written
          · cases written
          · next short =>
              obtain ⟨checked, inside, reached⟩ := reached_of_slot_eq_ok found
              obtain ⟨active, bare⟩ : slot.isIdle = false ∧ slot.slashed = false := by
                simpa using proper
              have ordinary : Ordinary slot.name := by
                simpa [Slot.isIdle, Ordinary, and_assoc] using active
              split at written
              · cases written
              · next free =>
                  exact ⟨slot.directory, slot.name, ⟨checked, reached ordinary.1 bare, ordinary,
                    Nat.not_lt.mp short, inside, free⟩, (Except.ok.inj written).symm⟩

namespace Target

variable {disk : Disk} {current directory : Location} {path name : String}

theorem placeOf_eq (target : disk.Target current path directory name)
    : placeOf current path = directory ++ [name] := by
  obtain ⟨before, split, walked⟩ := target.reached
  rw [placeOf, split, List.foldl_append, ← eq_foldl_of_walk_eq_ok walked]
  exact enter_of_ordinary target.ordinary directory

/-- The path of a backup leads to a place beside the file. -/
theorem placeOf_backup (target : disk.Target current path directory name)
    : placeOf current (Path.backup path) = directory ++ [name ++ ".backup"] := by
  obtain ⟨before, split, walked⟩ := target.reached
  obtain ⟨others, last, same, extended⟩ := exists_names_backup path
  obtain ⟨rfl, rfl⟩ : before = others ∧ name = last := by
    simpa using (split.symm.trans same)
  have start : start current (Path.backup path) = start current path := by
    have filled : path.toList ≠ [] := by
      intro empty
      have checked := target.checked
      rw [String.toList_eq_nil_iff.mp empty] at checked
      cases checked
    unfold Disk.start Path.isAbsolute Path.backup
    rw [String.toList_append, List.head?_append_of_ne_nil _ filled]
  rw [placeOf, extended, start, List.foldl_append, ← eq_foldl_of_walk_eq_ok walked]
  exact enter_of_ordinary (ordinary_backup name) directory

/-- What is at the place of a target is found by following its path. -/
theorem locate_eq_ok (target : disk.Target current path directory name)
    (present : (disk.get? (directory ++ [name])).isSome)
    : disk.locate current path = .ok (directory ++ [name]) := by
  obtain ⟨before, split, walked⟩ := target.reached
  refine locate_eq_ok_iff.mpr ⟨target.checked, ?_, present⟩
  rw [split]
  refine walk_append_eq_ok_iff.mpr ⟨directory, walked, walk_cons_eq_ok_iff.mpr ?_⟩
  refine ⟨target.inside, fun _ => ⟨target.short, present⟩, ?_⟩
  rw [enter_of_ordinary target.ordinary, walk]

theorem node?_eq (target : disk.Target current path directory name)
    : disk.node? current path = disk.get? (directory ++ [name]) := by
  cases present : disk.get? (directory ++ [name]) with
  | some node => simp [node?, target.locate_eq_ok (by simp [present]), present]
  | none =>
      unfold node?
      cases located : disk.locate current path with
      | error cause => rfl
      | ok place =>
          rw [placeOf_of_locate_eq_ok located, target.placeOf_eq]
          exact present

/-- A path is a target still on a disk with more in it. -/
theorem mono {next : Disk} (target : disk.Target current path directory name)
    (kept : ∀ other, disk.get? other = some .directory → next.get? other = some .directory)
    (free : next.get? (directory ++ [name]) ≠ some .directory)
    : next.Target current path directory name := by
  obtain ⟨before, split, walked⟩ := target.reached
  exact ⟨target.checked, ⟨before, split, walk_eq_ok_of_directories kept walked target.inside⟩,
    target.ordinary, target.short, kept _ target.inside, free⟩

/-- What is written to a target can be read back. -/
theorem read_insert (target : disk.Target current path directory name) (content : ByteArray)
    : (disk.insert (directory ++ [name]) (.file content)).read current path = .ok content := by
  have inserted := get?_insert disk (List.append_ne_nil_of_right_ne_nil directory
    (List.cons_ne_nil name [])) (.file content)
  have still : (disk.insert (directory ++ [name]) (.file content)).Target current path directory
      name := by
    refine target.mono (fun other found => ?_) (by simp [inserted])
    have apart : other ≠ directory ++ [name] := fun same => target.free (same ▸ found)
    rw [inserted, if_neg apart, found]
  unfold Disk.read
  rw [still.locate_eq_ok (by simp [inserted])]
  simp [bind, Except.bind, inserted]

end Target

end Disk

end ZshStartup.Files
