import ZshStartup.Json.Basic
import ZshStartup.Json.ReadError
import ZshStartup.Text.Digit

/-! Reading JSON text. A reader takes the unread characters and returns what it read with what it
left unread; the first fault ends the reading. Containers nest at most `maxDepth` deep, and of
several fields with one key the last one counts. Loops take at most `limit` turns, which is the
length of the whole text and more than any of them needs.
-/

namespace ZshStartup.Json

/-- Reads a part of the unread text and returns it with the rest. -/
abbrev Reader (α : Type) := List Char → Except Failure (α × List Char)

def maxDepth : Nat := 127

namespace Reader

variable {α : Type}

/-- Fails just past the next byte of the unread text. -/
def fail (fault : Fault) (rest : List Char) : Except Failure α :=
  .error (.after fault rest 1)

def isBlank (c : Char) : Bool :=
  c == ' ' || c == '\t' || c == '\n' || c == '\r'

def skipBlanks (text : List Char) : List Char :=
  text.dropWhile isBlank

/-- Reads the remaining letters of a literal name, which stands for `value`. -/
def literal (value : Json) : List Char → Reader Json
  | [], rest => .ok (value, rest)
  | _ :: _, [] => fail .eofInValue []
  | letter :: letters, c :: rest =>
      if c = letter then literal value letters rest else fail .expectedLiteral (c :: rest)

def fraction : Reader (Option (List Char))
  | '.' :: rest =>
      match rest, rest.takeWhile Char.isDigit with
      | [], _ => fail .eofInValue []
      | rest, [] => fail .invalidNumber rest
      | rest, digits => .ok (some digits, rest.dropWhile Char.isDigit)
  | rest => .ok (none, rest)

def exponentDigits : Reader (List Char)
  | [] => fail .eofInValue []
  | c :: rest =>
      if c.isDigit then
        .ok (c :: rest.takeWhile Char.isDigit, rest.dropWhile Char.isDigit)
      else
        fail .invalidNumber (c :: rest)

/-- Reads the exponent part of a numeral, if there is one: whether it is negative, and its digits. -/
def exponent : Reader (Option (Bool × List Char))
  | c :: rest =>
      if c = 'e' ∨ c = 'E' then
        match rest with
        | '+' :: rest => (exponentDigits rest).map fun (digits, rest) => (some (false, digits), rest)
        | '-' :: rest => (exponentDigits rest).map fun (digits, rest) => (some (true, digits), rest)
        | rest => (exponentDigits rest).map fun (digits, rest) => (some (false, digits), rest)
      else
        .ok (none, c :: rest)
  | [] => .ok (none, [])

/-- The value of a numeral that was read up to `rest`, refused if no double can hold it. -/
def inRange (numeral : Numeral) (rest : List Char) : Except Failure (Json × List Char) :=
  match numeral.unneeded? with
  | some digits => .error (.after .numberOutOfRange (digits ++ rest) 0)
  | none =>
      match numeral.toNumber with
      | .natural n => .ok (.natural n, rest)
      | .decimal d =>
          if d.overflows then
            .error (.after .numberOutOfRange rest 0)
          else
            .ok (.number (.decimal d), rest)

/-- Reads a numeral after its sign. A leading zero stands alone. -/
def number (negative : Bool) : Reader Json
  | [] => fail .eofInValue []
  | c :: rest =>
      if !c.isDigit then
        fail .invalidNumber (c :: rest)
      else if c = '0' ∧ (rest.takeWhile Char.isDigit) ≠ [] then
        fail .invalidNumber rest
      else do
        let whole := c :: rest.takeWhile Char.isDigit
        let (fraction, rest) ← fraction (rest.dropWhile Char.isDigit)
        let (exponent, rest) ← exponent rest
        inRange { negative, whole, fraction, exponent } rest

/-- The value of four hexadecimal digits at the front of a text. -/
def hexQuad? : List Char → Option (Nat × List Char)
  | a :: b :: c :: d :: rest => do
      let a ← Text.hexDigit? a
      let b ← Text.hexDigit? b
      let c ← Text.hexDigit? c
      let d ← Text.hexDigit? d
      pure (((a * 16 + b) * 16 + c) * 16 + d, rest)
  | _ => none

/-- Reads the four digits of a hexadecimal escape, which are always taken as four bytes. -/
def hexQuad : Reader Nat := fun text =>
  if byteLength text < 4 then
    .error (.after .eofInString text 4)
  else
    match hexQuad? text with
    | some result => .ok result
    | none => .error (.after .invalidEscape text 4)

/-- Reads the second half of a surrogate pair and joins it to the first. -/
def lowSurrogate (high : Nat) : Reader Char
  | '\\' :: 'u' :: rest => do
      let (low, rest) ← hexQuad rest
      if 0xDC00 ≤ low ∧ low ≤ 0xDFFF then
        .ok (Char.ofNat (0x10000 + (high - 0xD800) * 0x400 + (low - 0xDC00)), rest)
      else
        .error (.after .loneSurrogate rest 0)
  | [] => fail .eofInString []
  | ['\\'] => fail .eofInString []
  | '\\' :: rest => fail .unfinishedSurrogatePair rest
  | rest => fail .unfinishedSurrogatePair rest

def hexEscape : Reader Char := fun text => do
  let (code, rest) ← hexQuad text
  if 0xDC00 ≤ code ∧ code ≤ 0xDFFF then
    .error (.after .loneSurrogate rest 0)
  else if 0xD800 ≤ code ∧ code ≤ 0xDBFF then
    lowSurrogate code rest
  else
    .ok (Char.ofNat code, rest)

def escape : Reader Char
  | [] => fail .eofInString []
  | '"' :: rest => .ok ('"', rest)
  | '\\' :: rest => .ok ('\\', rest)
  | '/' :: rest => .ok ('/', rest)
  | 'b' :: rest => .ok ('\x08', rest)
  | 'f' :: rest => .ok ('\x0c', rest)
  | 'n' :: rest => .ok ('\n', rest)
  | 'r' :: rest => .ok ('\r', rest)
  | 't' :: rest => .ok ('\t', rest)
  | 'u' :: rest => hexEscape rest
  | rest => fail .invalidEscape rest

def characters : (limit : Nat) → Reader (List Char)
  | 0, _ => fail .eofInString []
  | _ + 1, [] => fail .eofInString []
  | _ + 1, '"' :: rest => .ok ([], rest)
  | limit + 1, '\\' :: rest => do
      let (c, rest) ← escape rest
      let (cs, rest) ← characters limit rest
      .ok (c :: cs, rest)
  | limit + 1, c :: rest =>
      if c.toNat < 0x20 then
        fail .controlCharacter (c :: rest)
      else do
        let (cs, rest) ← characters limit rest
        .ok (c :: cs, rest)

def string (limit : Nat) : Reader String := fun text => do
  let (cs, rest) ← characters limit text
  .ok (String.ofList cs, rest)

/-- Reads one or more elements of an array and the closing bracket. -/
def elements (item : Reader Json) : (limit : Nat) → Reader (List Json)
  | 0, _ => fail .eofInList []
  | limit + 1, text => do
      let (value, rest) ← item text
      match skipBlanks rest with
      | [] => fail .eofInList []
      | ']' :: rest => .ok ([value], rest)
      | ',' :: rest =>
          match skipBlanks rest with
          | ']' :: rest => fail .trailingComma (']' :: rest)
          | rest => do
              let (values, rest) ← elements item limit rest
              .ok (value :: values, rest)
      | rest => fail .expectedListSeparator rest

def array (limit : Nat) (item : Reader Json) : Reader Json := fun text =>
  match skipBlanks text with
  | [] => fail .eofInList []
  | ']' :: rest => .ok (.array [], rest)
  | text => do
      let (values, rest) ← elements item limit text
      .ok (.array values, rest)

def field (limit : Nat) (item : Reader Json) : Reader (String × Json)
  | '"' :: rest => do
      let (key, rest) ← string limit rest
      match skipBlanks rest with
      | [] => fail .eofInObject []
      | ':' :: rest => do
          let (value, rest) ← item rest
          .ok ((key, value), rest)
      | rest => fail .expectedColon rest
  | rest => fail .keyNotString rest

/-- Reads one or more fields of an object and the closing brace. -/
def members (member : Reader (String × Json)) : (limit : Nat) → Reader (List (String × Json))
  | 0, _ => fail .eofInObject []
  | limit + 1, text => do
      let (first, rest) ← member text
      match skipBlanks rest with
      | [] => fail .eofInObject []
      | '}' :: rest => .ok ([first], rest)
      | ',' :: rest =>
          match skipBlanks rest with
          | [] => fail .eofInValue []
          | '}' :: rest => fail .trailingComma ('}' :: rest)
          | rest => do
              let (fields, rest) ← members member limit rest
              .ok (first :: fields, rest)
      | rest => fail .expectedObjectSeparator rest

def object (limit : Nat) (item : Reader Json) : Reader Json := fun text =>
  match skipBlanks text with
  | [] => fail .eofInObject []
  | '}' :: rest => .ok (.object [], rest)
  | text => do
      let (fields, rest) ← members (field limit item) limit text
      .ok (.object (Fields.ofEntries fields), rest)

/-- Reads a value that starts at the next character; arrays and objects are read by `container`. -/
def valueWith (limit : Nat) (container : Reader Json) : Reader Json := fun text =>
  match skipBlanks text with
  | [] => fail .eofInValue []
  | 'n' :: rest => literal .null ['u', 'l', 'l'] rest
  | 't' :: rest => literal (.bool true) ['r', 'u', 'e'] rest
  | 'f' :: rest => literal (.bool false) ['a', 'l', 's', 'e'] rest
  | '"' :: rest => do
      let (s, rest) ← string limit rest
      .ok (.string s, rest)
  | '-' :: rest => number true rest
  | '[' :: rest => container ('[' :: rest)
  | '{' :: rest => container ('{' :: rest)
  | c :: rest => if c.isDigit then number false (c :: rest) else fail .expectedValue (c :: rest)

/-- Reads an array or an object, whose values are read by `item`. -/
def container (limit : Nat) (item : Reader Json) : Reader Json
  | '[' :: rest => array limit item rest
  | '{' :: rest => object limit item rest
  | rest => fail .expectedValue rest

/-- Reads a value in which containers nest at most `depth` deep. -/
def value (limit : Nat) : (depth : Nat) → Reader Json
  | 0 => valueWith limit (fail .nestedTooDeep)
  | depth + 1 => valueWith limit (container limit (value limit depth))

end Reader

/-- Reads a text that holds one value and nothing else. -/
def read (text : String) : Except ReadError Json :=
  let chars := text.toList
  let result := do
    let (value, rest) ← Reader.value chars.length maxDepth chars
    match Reader.skipBlanks rest with
    | [] => .ok value
    | rest => Reader.fail .trailingCharacters rest
  match result with
  | .ok value => .ok value
  | .error failure => .error (failure.toReadError text)

end ZshStartup.Json
