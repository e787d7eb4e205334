/-! What can be wrong with JSON text, and where. A place is given in bytes of the UTF-8 encoding:
the line it lies on, and how many bytes of that line come before it.
-/

namespace ZshStartup.Json

inductive Fault where
  | eofInValue
  | eofInList
  | eofInObject
  | eofInString
  | expectedLiteral
  | expectedValue
  | expectedListSeparator
  | expectedObjectSeparator
  | expectedColon
  | trailingComma
  | keyNotString
  | trailingCharacters
  | controlCharacter
  | invalidEscape
  | loneSurrogate
  | unfinishedSurrogatePair
  | invalidNumber
  | numberOutOfRange
  | nestedTooDeep
deriving DecidableEq, Repr

def Fault.message : Fault → String
  | .eofInValue => "EOF while parsing a value"
  | .eofInList => "EOF while parsing a list"
  | .eofInObject => "EOF while parsing an object"
  | .eofInString => "EOF while parsing a string"
  | .expectedLiteral => "expected ident"
  | .expectedValue => "expected value"
  | .expectedListSeparator => "expected `,` or `]`"
  | .expectedObjectSeparator => "expected `,` or `\x7d`"
  | .expectedColon => "expected `:`"
  | .trailingComma => "trailing comma"
  | .keyNotString => "key must be a string"
  | .trailingCharacters => "trailing characters"
  | .controlCharacter => "control character (\\u0000-\\u001F) found while parsing a string"
  | .invalidEscape => "invalid escape"
  | .loneSurrogate => "lone leading surrogate in hex escape"
  | .unfinishedSurrogatePair => "unexpected end of hex escape"
  | .invalidNumber => "invalid number"
  | .numberOutOfRange => "number out of range"
  | .nestedTooDeep => "recursion limit exceeded"

/-- The number of bytes that characters take in UTF-8. -/
def byteLength (text : List Char) : Nat :=
  text.foldr (fun c n => c.utf8Size + n) 0

/-- A fault together with the number of bytes that lie beyond its place. -/
structure Failure where
  fault : Fault
  unread : Nat
deriving DecidableEq, Repr

/-- A fault whose place is `skipped` bytes into the unread text, or at its end if it is shorter.
Most faults lie just past the next byte, the one that should have been another. -/
def Failure.after (fault : Fault) (rest : List Char) (skipped : Nat) : Failure :=
  ⟨fault, byteLength rest - skipped⟩

/-- A fault with its line, counted from one, and its column. -/
structure ReadError where
  fault : Fault
  line : Nat
  column : Nat
deriving DecidableEq, Repr

def ReadError.message (error : ReadError) : String :=
  error.fault.message ++ " at line " ++ toString error.line ++ " column " ++ toString error.column

/-- Places a failure in the text that was read. -/
def Failure.toReadError (failure : Failure) (text : String) : ReadError :=
  let bytes := text.toUTF8.toList
  let before := bytes.take (bytes.length - failure.unread)
  {
    fault := failure.fault
    line := before.count 10 + 1
    column := (before.reverse.takeWhile (· != 10)).length
  }

end ZshStartup.Json
