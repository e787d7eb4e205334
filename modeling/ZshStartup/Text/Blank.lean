/-! Blank characters, trimming and numerals in free text. Blank means the White_Space property of
Unicode, which has 25 members.
-/

namespace ZshStartup.Text

/-- The characters with the White_Space property. -/
def isBlank (c : Char) : Bool :=
  let code := c.toNat
  (0x09 ≤ code && code ≤ 0x0D) || code == 0x20 || code == 0x85 || code == 0xA0 || code == 0x1680
    || (0x2000 ≤ code && code ≤ 0x200A) || code == 0x2028 || code == 0x2029 || code == 0x202F
    || code == 0x205F || code == 0x3000

/-- Drops the blanks at both ends. -/
def trim (text : List Char) : List Char :=
  ((text.dropWhile isBlank).reverse.dropWhile isBlank).reverse

/-- The number that ASCII digits denote, if there is at least one and 64 bits can hold it. -/
def digitsToUInt64? (digits : List Char) : Option UInt64 :=
  if digits.isEmpty || !digits.all Char.isDigit then
    none
  else
    let value := digits.foldl (fun n c => 10 * n + (c.toNat - '0'.toNat)) 0
    if value < UInt64.size then some value.toUInt64 else none

/-- Reads an unsigned 64-bit number: ASCII digits, after at most one plus sign. -/
def readUInt64? : List Char → Option UInt64
  | '+' :: digits => digitsToUInt64? digits
  | digits => digitsToUInt64? digits

/-- The number of lines of a text. Only a line feed ends a line, and the text after the last one
counts if there is any.
-/
def lineCount (text : String) : Nat :=
  let chars := text.toList
  let unfinished := chars.getLast?.any (· != '\n')
  chars.count '\n' + if unfinished then 1 else 0

end ZshStartup.Text
