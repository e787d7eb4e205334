/-! Single quotes of the shell. Between them every character stands for itself, so a text can be
quoted by closing the quotes around each single quote in it and escaping that one.
-/

namespace ZshStartup.Shell

/-- A character as it stands between single quotes. -/
def quoteChar (c : Char) : List Char :=
  if c = '\'' then ['\'', '\\', '\'', '\''] else [c]

/-- A text in single quotes, character by character. -/
def quoteChars (text : List Char) : List Char :=
  '\'' :: (text.flatMap quoteChar ++ ['\''])

/-- A text in single quotes. -/
def singleQuote (text : String) : String :=
  String.ofList (quoteChars text.toList)

end ZshStartup.Shell
