/-! Paths as texts. A path is a sequence of names separated by slashes; an empty name or a single dot
says nothing, except for a dot at the very start of a relative path. Nothing here looks at files.
-/

namespace ZshStartup.Files

/-- Splits a text at every slash. -/
def splitSlashes (text : List Char) : List (List Char) :=
  text.splitOn '/'

namespace Path

/-- A name that leads nowhere else. -/
def isIdle (name : List Char) : Bool :=
  name.isEmpty || name == ['.']

/-- Drops the names at the end that lead nowhere else. -/
def dropIdle (names : List (List Char)) : List (List Char) :=
  (names.reverse.dropWhile isIdle).reverse

/-- The part of a path that its names follow: the root, or a dot for the current directory. -/
def lead (path : List Char) : List Char :=
  match path with
  | '/' :: _ => ['/']
  | ['.'] => ['.']
  | '.' :: '/' :: _ => ['.']
  | _ => []

/-- The directory that a path names its last part in. The root has none, and neither has nothing. -/
def parentChars? (path : List Char) : Option (List Char) :=
  let start := lead path
  let names := dropIdle (splitSlashes (path.drop start.length))
  if names.isEmpty then
    if start = ['.'] then some [] else none
  else
    some (start ++ ['/'].intercalate (dropIdle names.dropLast))

/-- The directory that a path names its last part in. -/
def parent? (path : String) : Option String :=
  (parentChars? path.toList).map String.ofList

/-- A path and the directories above it, up to but without the root and the current directory. The
bound is on their number, which no path exceeds that has as many characters.
-/
def upwards (bound : Nat) (path : String) : List String :=
  match bound with
  | 0 => []
  | bound + 1 =>
      match parent? path with
      | none => []
      | some parent => if path.isEmpty then [] else path :: upwards bound parent

/-- A path and the directories above it that may have to be made, from the bottom to the top. -/
def directories (path : String) : List String :=
  upwards (path.length + 1) path

/-- Continues a path by another one, which replaces it if it starts at the root. -/
def join (path next : String) : String :=
  if next.toList.head? = some '/' ∨ path.isEmpty then
    next
  else if path.toList.getLast? = some '/' then
    path ++ next
  else
    path ++ "/" ++ next

/-- A path that the system would cut off, for it takes the character zero as the end of a text. -/
def hasNul (path : String) : Bool :=
  path.toList.contains '\x00'

/-- A path that starts at the root. -/
def isAbsolute (path : String) : Bool :=
  path.toList.head? = some '/'

/-- The last name of a path, if it names anything there. -/
def fileName? (path : String) : Option (List Char) :=
  let names := dropIdle (splitSlashes (path.toList.drop (lead path.toList).length))
  names.getLast?.filter (· != ['.', '.'])

/-- What follows the last dot of a file's name, unless that dot starts the name. -/
def extension? (path : String) : Option String :=
  (fileName? path).bind fun name =>
    let after := (name.reverse.takeWhile (· != '.')).reverse
    if after.length + 1 < name.length then some (String.ofList after) else none

/-- Where the previous content of a file is kept. -/
def backup (path : String) : String :=
  path ++ ".backup"

end Path

end ZshStartup.Files
