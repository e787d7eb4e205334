import ZshStartup.Text.Digit

/-! Dates and times in settings documents: a date, a time of day, or both with an offset or without
one. Each reader returns what it left unread, or nothing if there is no such date or time.
-/

namespace ZshStartup.Toml.DateTime

open Text (digit? ofDigits)

def number? (count : Nat) (text : List Char) : Option (Nat × List Char) := do
  let digits ← (text.take count).mapM (digit? 10)
  if digits.length = count then some (ofDigits 10 digits, text.drop count) else none

/-- Reads a number of two digits that is not above a bound, behind a mark. -/
def part? (mark : Char) (bound : Nat) : List Char → Option (Nat × List Char)
  | [] => none
  | c :: rest => do
      let (n, rest) ← number? 2 rest
      if c = mark ∧ n ≤ bound then some (n, rest) else none

def isLeapYear (year : Nat) : Bool :=
  year % 4 == 0 && (year % 100 != 0 || year % 400 == 0)

/-- The number of days in a month, which is counted from one. -/
def daysIn (year month : Nat) : Nat :=
  if month = 2 then
    if isLeapYear year then 29 else 28
  else if month ∈ [4, 6, 9, 11] then
    30
  else
    31

/-- Reads a year, a month and a day with dashes between them. -/
def date? (text : List Char) : Option (List Char) := do
  let (year, rest) ← number? 4 text
  let (month, rest) ← part? '-' 12 rest
  let (day, rest) ← part? '-' (daysIn year month) rest
  if month = 0 ∨ day = 0 then none else some rest

def fraction? : List Char → Option (List Char)
  | '.' :: rest =>
      if (rest.takeWhile Char.isDigit).isEmpty then none else some (rest.dropWhile Char.isDigit)
  | rest => some rest

/-- Reads a time of day. The seconds may be missing, and a leap second may be among them. -/
def time? (text : List Char) : Option (List Char) := do
  let (hour, rest) ← number? 2 text
  let (_, rest) ← part? ':' 59 rest
  if hour > 23 then
    none
  else
    match rest with
    | ':' :: _ => do
        let (_, rest) ← part? ':' 60 rest
        fraction? rest
    | rest => some rest

/-- Reads the difference from universal time, if there is one. It is less than a day. -/
def offset? : List Char → Option (List Char)
  | [] => some []
  | c :: rest =>
      if c = 'Z' ∨ c = 'z' then
        some rest
      else if c = '+' ∨ c = '-' then do
        let (hour, rest) ← number? 2 rest
        let (_, rest) ← part? ':' 59 rest
        if hour > 23 then none else some rest
      else
        some (c :: rest)

/-- Reads a time of day, a date, or a date with a time. What joins the two is a letter, or a blank with
a digit behind it.
-/
def dateTime? (text : List Char) : Option (List Char) :=
  match text.takeWhile Char.isDigit with
  | [_, _] => time? text
  | _ => do
      let rest ← date? text
      match rest with
      | c :: d :: rest =>
          if c = 'T' ∨ c = 't' ∨ (c = ' ' ∧ d.isDigit) then
            offset? (← time? (d :: rest))
          else
            some (c :: d :: rest)
      | rest => some rest

/-- A text that begins like a date or a time: with digits that a dash or a colon ends. -/
def begins (text : List Char) : Bool :=
  let next := (text.dropWhile Char.isDigit).head?
  text.head?.any Char.isDigit && (next == some '-' || next == some ':')

end ZshStartup.Toml.DateTime
