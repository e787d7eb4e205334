import ZshStartup.Toml.Basic
import ZshStartup.Toml.DateTime
import ZshStartup.Toml.Number

/-! Reading settings documents in version 1.1 of the TOML format. A reader takes the unread characters
and returns what it read with what it left unread, or nothing if the text is not well formed. Values
nest at most `maxDepth` deep, and a key has at most `maxNames` names. Loops take at most `limit` turns,
which is more than the whole text has characters.
-/

namespace ZshStartup.Toml

abbrev Reader (α : Type) := List Char → Option (α × List Char)

def maxDepth : Nat := 80

def maxNames : Nat := 80

namespace Reader

def isBlank (c : Char) : Bool :=
  c == ' ' || c == '\t'

def skipBlanks (text : List Char) : List Char :=
  text.dropWhile isBlank

/-- A control character, which stands in no text. -/
def isControl (c : Char) : Bool :=
  (c.toNat < 0x20 && c != '\t') || c.toNat == 0x7F

/-- Skips a comment, if there is one. What ends the line stays unread. -/
def comment : List Char → Option (List Char)
  | '#' :: rest =>
      let isPart := fun c : Char => c != '\n' && c != '\r'
      if (rest.takeWhile isPart).any isControl then none else some (rest.dropWhile isPart)
  | rest => some rest

/-- What follows the end of a line, if the text begins with one. -/
def newline? : List Char → Option (List Char)
  | '\n' :: rest => some rest
  | '\r' :: '\n' :: rest => some rest
  | _ => none

/-- Reads the end of a line or of the text, after blanks and a comment. -/
def lineEnd (text : List Char) : Option (List Char) := do
  match ← comment (skipBlanks text) with
  | [] => some []
  | rest => newline? rest

/-- Reads the character that a number of hexadecimal digits denotes. -/
def hexCharacter (count : Nat) : Reader Char := fun text => do
  let digits ← (text.take count).mapM Text.hexDigit?
  let code := Text.ofDigits 16 digits
  if digits.length = count ∧ code.isValidChar then
    some (Char.ofNat code, text.drop count)
  else
    none

def escape : Reader Char
  | 'b' :: rest => some ('\x08', rest)
  | 't' :: rest => some ('\t', rest)
  | 'n' :: rest => some ('\n', rest)
  | 'f' :: rest => some ('\x0c', rest)
  | 'r' :: rest => some ('\r', rest)
  | 'e' :: rest => some ('\x1b', rest)
  | '"' :: rest => some ('"', rest)
  | '\\' :: rest => some ('\\', rest)
  | 'x' :: rest => hexCharacter 2 rest
  | 'u' :: rest => hexCharacter 4 rest
  | 'U' :: rest => hexCharacter 8 rest
  | _ => none

/-- Reads the rest of a string on one line after its opening quote. Only double quotes know escape
sequences.
-/
def shortString (quote : Char) : (limit : Nat) → Reader (List Char)
  | 0, _ => none
  | _ + 1, [] => none
  | limit + 1, c :: rest =>
      if c = quote then
        some ([], rest)
      else if c = '\\' ∧ quote = '"' then do
        let (c, rest) ← escape rest
        let (cs, rest) ← shortString quote limit rest
        some (c :: cs, rest)
      else if isControl c then
        none
      else do
        let (cs, rest) ← shortString quote limit rest
        some (c :: cs, rest)

/-- The quotes that end a string of several lines, if the text begins with them: three, before which
up to two more belong to the string.
-/
def closing? (quote : Char) (text : List Char) : Option (List Char × List Char) :=
  let count := min (text.takeWhile (· == quote)).length 5
  if count < 3 then none else some (List.replicate (count - 3) quote, text.drop count)

def skipGap : List Char → List Char
  | '\r' :: '\n' :: rest => skipGap rest
  | c :: rest => if isBlank c || c == '\n' then skipGap rest else c :: rest
  | [] => []

/-- Reads the rest of a string of several lines. A backslash at the end of a line joins the line to
the next one that is not blank, where escape sequences are known.
-/
def longString (quote : Char) : (limit : Nat) → Reader (List Char)
  | 0, _ => none
  | limit + 1, text =>
      match closing? quote text with
      | some result => some result
      | none =>
          match text with
          | [] => none
          | '\r' :: '\n' :: rest => do
              let (cs, rest) ← longString quote limit rest
              some ('\r' :: '\n' :: cs, rest)
          | c :: rest =>
              if c = '\\' ∧ quote = '"' then
                if (newline? (skipBlanks rest)).isSome then
                  longString quote limit (skipGap rest)
                else do
                  let (c, rest) ← escape rest
                  let (cs, rest) ← longString quote limit rest
                  some (c :: cs, rest)
              else if isControl c && c != '\n' then
                none
              else do
                let (cs, rest) ← longString quote limit rest
                some (c :: cs, rest)

def string (limit : Nat) : Reader String
  | [] => none
  | c :: rest =>
      if c = '"' ∨ c = '\'' then
        (shortString c limit rest).map fun (cs, rest) => (String.ofList cs, rest)
      else
        none

/-- Reads a string of either size. A line end that follows three opening quotes is dropped. -/
def anyString (limit : Nat) : Reader String
  | a :: b :: c :: rest =>
      if a = b ∧ b = c ∧ (a = '"' ∨ a = '\'') then
        (longString a limit ((newline? rest).getD rest)).map fun (cs, rest) =>
          (String.ofList cs, rest)
      else
        string limit (a :: b :: c :: rest)
  | text => string limit text

def isBare (c : Char) : Bool :=
  c.isAlphanum || c == '_' || c == '-'

def name (limit : Nat) : Reader String := fun text =>
  match text.takeWhile isBare with
  | [] => string limit text
  | bare => some (String.ofList bare, text.dropWhile isBare)

/-- Reads a key of at most so many names, which dots separate, and the blanks around it. -/
def key (limit : Nat) : (names : Nat) → Reader Key
  | 0, _ => none
  | names + 1, text => do
      let (first, rest) ← name limit (skipBlanks text)
      match skipBlanks rest with
      | '.' :: rest => do
          let (more, rest) ← key limit names rest
          some (first :: more, rest)
      | rest => some ([first], rest)

def bareValue : Reader Value := fun text =>
  if DateTime.begins text then
    (DateTime.dateTime? text).map fun rest => (.dateTime, rest)
  else
    let isPart := fun c : Char => isBare c || c == '+' || c == '.'
    let word := text.takeWhile isPart
    let rest := text.dropWhile isPart
    if word = ['t', 'r', 'u', 'e'] then
      some (.boolean true, rest)
    else if word = ['f', 'a', 'l', 's', 'e'] then
      some (.boolean false, rest)
    else if Number.isNumber word then
      some (.number, rest)
    else
      none

/-- Skips blanks, comments and line ends within an array or an inline table. -/
def skipLines : (limit : Nat) → List Char → Option (List Char)
  | 0, _ => none
  | limit + 1, text => do
      let rest ← comment (skipBlanks text)
      match newline? rest with
      | some rest => skipLines limit rest
      | none => some rest

/-- Reads the members of an array and its closing bracket. A comma may follow the last member. -/
def members (lines : Nat) (item : Reader Value) : (limit : Nat) → List Char → Option (List Char)
  | 0, _ => none
  | limit + 1, text => do
      match ← skipLines lines text with
      | ']' :: rest => some rest
      | text => do
          let (_, rest) ← item text
          match ← skipLines lines rest with
          | ',' :: rest => members lines item limit rest
          | ']' :: rest => some rest
          | _ => none

/-- Reads a key and the value that it is assigned. On both sides of the equals sign stands what `gap`
skips.
-/
def assignment (limit : Nat) (gap : List Char → Option (List Char)) (item : Reader Value)
    : Reader (Key × Value) := fun text => do
  let (key, rest) ← key limit maxNames text
  match ← gap rest with
  | '=' :: rest => do
      let (value, rest) ← item (← gap rest)
      some ((key, value), rest)
  | _ => none

/-- Reads the assignments of an inline table and its closing brace. A line may end anywhere but within
a key, and a comma may follow the last assignment. No key may be assigned twice; `document` holds the
assignments already read.
-/
def fields (lines : Nat) (item : Reader Value)
    : (limit : Nat) → (document : Document) → List Char → Option (List Char)
  | 0, _, _ => none
  | limit + 1, document, text => do
      match ← skipLines lines text with
      | '}' :: rest => some rest
      | text => do
          let ((key, value), rest) ← assignment lines (skipLines lines) item text
          let document ← document.assign? [] key value
          match ← skipLines lines rest with
          | ',' :: rest => fields lines item limit document rest
          | '}' :: rest => some rest
          | _ => none

/-- Reads a value that starts here; arrays and inline tables are read by `container`. -/
def valueWith (limit : Nat) (container : Reader Value) : Reader Value
  | [] => none
  | c :: rest =>
      if c = '[' ∨ c = '{' then
        container (c :: rest)
      else if c = '"' ∨ c = '\'' then
        (anyString limit (c :: rest)).map fun (s, rest) => (.string s, rest)
      else
        bareValue (c :: rest)

/-- Reads an array or an inline table, whose values are read by `item`. -/
def container (limit : Nat) (item : Reader Value) : Reader Value
  | '[' :: rest => (members limit item limit rest).map fun rest => (.array, rest)
  | '{' :: rest => (fields limit item limit {} rest).map fun rest => (.table, rest)
  | _ => none

/-- Reads a value in which arrays and inline tables nest at most `depth` deep. -/
def value (limit : Nat) : (depth : Nat) → Reader Value
  | 0 => valueWith limit fun _ => none
  | depth + 1 => valueWith limit (container limit (value limit depth))

/-- Reads the header of a table or of one more table in an array, and adds it to a document. -/
def header (limit : Nat) (document : Document) : Reader (Key × Document)
  | '[' :: '[' :: rest => do
      match ← key limit maxNames rest with
      | (key, ']' :: ']' :: rest) => do some ((key, ← document.addTables? key), rest)
      | _ => none
  | '[' :: rest => do
      match ← key limit maxNames rest with
      | (key, ']' :: rest) => do some ((key, ← document.addTable? key), rest)
      | _ => none
  | _ => none

/-- Reads the lines of a document, in which assignments belong to the table whose header comes last.
-/
def lines (width : Nat) : (limit : Nat) → (table : Key) → Document → List Char → Option Document
  | 0, _, _, _ => none
  | limit + 1, table, document, text =>
      match skipBlanks text with
      | [] => some document
      | '[' :: rest => do
          let ((table, document), rest) ← header width document ('[' :: rest)
          lines width limit table document (← lineEnd rest)
      | c :: rest => do
          if c = '#' ∨ c = '\n' ∨ c = '\r' then
            lines width limit table document (← lineEnd (c :: rest))
          else
            let ((key, value), rest) ←
              assignment width (some ∘ skipBlanks) (value width maxDepth) (c :: rest)
            let document ← document.assign? table key value
            lines width limit table document (← lineEnd rest)

end Reader

/-- The document that a text spells, if it is well formed. -/
def Document.ofText? (text : String) : Option Document :=
  let chars := text.toList
  let chars := if chars.head? = some '\uFEFF' then chars.drop 1 else chars
  let limit := chars.length + 1
  Reader.lines limit limit [] {} chars

end ZshStartup.Toml
