import ZshStartup.Json.Basic

/-! Writing JSON text: one entry to a line, two spaces of indentation per level, no final newline.
Only quotes, backslashes and control characters are escaped.
-/

namespace ZshStartup.Json

namespace Printer

/-- A line break and the indentation of the line after it. -/
def newline (depth : Nat) : List Char :=
  '\n' :: List.replicate (2 * depth) ' '

def decimal (n : Nat) : List Char :=
  Nat.toDigits 10 n

def number : Number → List Char
  | .natural n => decimal n.toNat
  | .decimal d =>
      (if d.negative then ['-'] else []) ++ decimal d.significand.toNat ++ ['e']
        ++ (if d.exponent < 0 then ['-'] else []) ++ decimal d.exponent.natAbs

/-- A character as it stands inside a string. -/
def escaped (c : Char) : List Char :=
  if c = '"' then ['\\', '"']
  else if c = '\\' then ['\\', '\\']
  else if c = '\x08' then ['\\', 'b']
  else if c = '\x0c' then ['\\', 'f']
  else if c = '\n' then ['\\', 'n']
  else if c = '\r' then ['\\', 'r']
  else if c = '\t' then ['\\', 't']
  else if c.toNat < 0x20 then
    ['\\', 'u', '0', '0', Nat.digitChar (c.toNat / 16), Nat.digitChar (c.toNat % 16)]
  else [c]

def string (s : String) : List Char :=
  '"' :: (s.toList.flatMap escaped ++ ['"'])

mutual

/-- The text of a value whose first line is indented `depth` levels. -/
def value (depth : Nat) : Json → List Char
  | .null => ['n', 'u', 'l', 'l']
  | .bool true => ['t', 'r', 'u', 'e']
  | .bool false => ['f', 'a', 'l', 's', 'e']
  | .number n => number n
  | .string s => string s
  | .array [] => ['[', ']']
  | .array (item :: items) =>
      '[' :: newline (depth + 1) ++ value (depth + 1) item ++ moreItems (depth + 1) items
        ++ newline depth ++ [']']
  | .object [] => ['{', '}']
  | .object (field :: fields) =>
      '{' :: newline (depth + 1) ++ member (depth + 1) field ++ moreFields (depth + 1) fields
        ++ newline depth ++ ['}']

/-- The text of the elements after the first, each behind a comma on a line of its own. -/
def moreItems (depth : Nat) : List Json → List Char
  | [] => []
  | item :: items => ',' :: newline depth ++ value depth item ++ moreItems depth items

def member (depth : Nat) : String × Json → List Char
  | (key, item) => string key ++ [':', ' '] ++ value depth item

/-- The text of the fields after the first, each behind a comma on a line of its own. -/
def moreFields (depth : Nat) : List (String × Json) → List Char
  | [] => []
  | field :: fields => ',' :: newline depth ++ member depth field ++ moreFields depth fields

end

end Printer

def pretty (json : Json) : String :=
  String.ofList (Printer.value 0 json)

end ZshStartup.Json
