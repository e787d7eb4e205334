import ZshStartup.Files.Path
import ZshStartup.Files.Refusal

/-! Directory trees held in memory. A disk maps places to what is there; a path leads to a place, from
the root or from a current directory, if everything on the way to it is a directory.
-/

namespace ZshStartup.Files

/-- The names on the way from the root to a place. -/
abbrev Location := List String

inductive Node where
  | file (content : ByteArray)
  | directory

/-- The places below the root that hold something. -/
structure Disk where
  nodes : List (Location × Node) := []

namespace Disk

/-- What is at a place. The root is a directory. -/
def get? (disk : Disk) (place : Location) : Option Node :=
  if place.isEmpty then some .directory else disk.nodes.lookup place

def insert (disk : Disk) (place : Location) (node : Node) : Disk :=
  ⟨(place, node) :: disk.nodes.filter fun entry => entry.1 != place⟩

def erase (disk : Disk) (place : Location) : Disk :=
  ⟨disk.nodes.filter fun entry => !place.isPrefixOf entry.1⟩

theorem lookup_filter (nodes : List (Location × Node)) (keep : Location → Bool) (place : Location)
    : (nodes.filter fun entry => keep entry.1).lookup place
      = if keep place then nodes.lookup place else none := by
  induction nodes with
  | nil => simp
  | cons entry rest ih =>
      obtain ⟨kept, node⟩ := entry
      by_cases he : place = kept
      · subst he
        by_cases hk : keep place
        · simp [hk]
        · simp only [List.filter_cons, hk, Bool.false_eq_true, if_false] at ih ⊢
          exact ih
      · by_cases hk : keep kept
          <;> simp [List.lookup_cons, hk, beq_eq_false_iff_ne.mpr he, ih]

/-- What was put at a place is there, and at other places nothing changes. -/
theorem get?_insert (disk : Disk) {place : Location} (h : place ≠ []) (node : Node)
    (other : Location)
    : (disk.insert place node).get? other
      = if other = place then some node else disk.get? other := by
  unfold get? insert
  by_cases he : other = place
  · subst he
    simp [h]
  · simp [he, List.lookup_cons, beq_eq_false_iff_ne.mpr he, lookup_filter disk.nodes (· != place)]

def maxNameLength : Nat := 255

def maxPathLength : Nat := 4095

/-- Follows names from a place. Every place on the way but the last must be a directory. -/
def walk (disk : Disk) (place : Location) : List String → Except Refusal Location
  | [] => .ok place
  | name :: names =>
      match disk.get? place with
      | none => .error .notFound
      | some (.file _) => .error .notDirectory
      | some .directory =>
          if name = "" ∨ name = "." then
            walk disk place names
          else if name = ".." then
            walk disk place.dropLast names
          else if name.utf8ByteSize > maxNameLength then
            .error .nameTooLong
          else
            match disk.get? (place ++ [name]) with
            | none => .error .notFound
            | some _ => walk disk (place ++ [name]) names

/-- The names in a path, from the place where it starts. -/
def names (path : String) : List String :=
  (splitSlashes path.toList).map String.ofList

/-- Where a path starts, seen from a current directory. -/
def start (current : Location) (path : String) : Location :=
  if Path.isAbsolute path then [] else current

/-- Refuses a path that cannot be followed whatever the disk holds. -/
def checkPath (path : String) : Except Refusal Unit :=
  if path.isEmpty then
    .error .notFound
  else if Path.hasNul path then
    .error .nulCharacter
  else if path.utf8ByteSize > maxPathLength then
    .error .nameTooLong
  else
    .ok ()

/-- The place that a path leads to, which holds something. -/
def locate (disk : Disk) (current : Location) (path : String) : Except Refusal Location := do
  checkPath path
  let place ← disk.walk (start current path) (names path)
  match disk.get? place with
  | some _ => .ok place
  | none => .error .notFound

/-- What is at a path. -/
def node? (disk : Disk) (current : Location) (path : String) : Option Node :=
  match disk.locate current path with
  | .ok place => disk.get? place
  | .error _ => none

/-- The content of the file at a path. -/
def read (disk : Disk) (current : Location) (path : String) : Except Refusal ByteArray := do
  match disk.get? (← disk.locate current path) with
  | some (.file content) => .ok content
  | _ => .error .isDirectory

/-- A directory and a name for something in it. -/
structure Slot where
  directory : Location
  name : String
  /-- Whether slashes follow the name. -/
  slashed : Bool

/-- The place of a slot. -/
def Slot.place (slot : Slot) : Location :=
  slot.directory ++ [slot.name]

/-- A slot whose name can only mean a directory that exists. -/
def Slot.isIdle (slot : Slot) : Bool :=
  slot.name == "" || slot.name == "." || slot.name == ".."

/-- The directory that a path leads to but for its last name, and that name. -/
def slot (disk : Disk) (current : Location) (path : String) : Except Refusal Slot := do
  checkPath path
  let all := names path
  let named := (all.reverse.dropWhile (· == "")).reverse
  let directory ← disk.walk (start current path) named.dropLast
  match disk.get? directory with
  | some .directory =>
      .ok { directory, name := named.getLast?.getD "", slashed := named.length < all.length }
  | some (.file _) => .error .notDirectory
  | none => .error .notFound

/-- The disk after a file is written. -/
def write (disk : Disk) (current : Location) (path : String) (content : ByteArray)
    : Except Refusal Disk := do
  let slot ← disk.slot current path
  if slot.isIdle || slot.slashed then
    .error .isDirectory
  else if slot.name.utf8ByteSize > maxNameLength then
    .error .nameTooLong
  else
    match disk.get? slot.place with
    | some .directory => .error .isDirectory
    | _ => .ok (disk.insert slot.place (.file content))

/-- The disk after a directory is made. -/
def makeDirectory (disk : Disk) (current : Location) (path : String) : Except Refusal Disk := do
  let slot ← disk.slot current path
  if slot.isIdle then
    .error .alreadyExists
  else if slot.name.utf8ByteSize > maxNameLength then
    .error .nameTooLong
  else
    match disk.get? slot.place with
    | some _ => .error .alreadyExists
    | none => .ok (disk.insert slot.place .directory)

/-- Everything below a place, by its path from there; a slash ends the path of a directory. -/
def listing (disk : Disk) (place : Location) : List String :=
  let below := disk.nodes.filter fun entry =>
    place.isPrefixOf entry.1 && place.length < entry.1.length
  let paths := below.map fun entry =>
    "/".intercalate (entry.1.drop place.length)
      ++ match entry.2 with
        | .directory => "/"
        | .file _ => ""
  paths.mergeSort

end Disk

end ZshStartup.Files
