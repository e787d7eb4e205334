import ZshStartup.Shell.Quoting
import Mathlib.Data.List.Forall2

/-! The words of a line of shell code. Blanks and line feeds separate them, single quotes take what is
between them as it is, a backslash takes the next character as it is, and a number sign where a word
could start makes the rest of the line a comment. Every other character stands for itself: what the
shell makes of a word later on, such as an expansion, is not looked at.
-/

namespace ZshStartup.Shell

-----------------------------------------------------------------------------------------
-- Scanning
-----------------------------------------------------------------------------------------

/-- Characters that end a word. -/
def isSeparator (c : Char) : Bool :=
  c = ' ' ∨ c = '\t' ∨ c = '\n'

/-- Where a scanner stands, with what it has read of a word. -/
inductive Place where
  /-- Outside quotes, in a word or between words. -/
  | bare (word : Option (List Char))
  /-- Between single quotes. -/
  | quoted (word : List Char)
  /-- Behind a backslash. -/
  | escaped (word : List Char)
  | comment
deriving DecidableEq, Repr

/-- The words that are read from a place on. There are none if the code ends between quotes or behind a
backslash.
-/
def wordsFrom : Place → List Char → Option (List (List Char))
  | .bare word, [] => some word.toList
  | .quoted _, [] => none
  | .escaped _, [] => none
  | .comment, [] => some []
  | .bare word, c :: rest =>
      if isSeparator c then
        (wordsFrom (.bare none) rest).map (word.toList ++ ·)
      else if c = '#' ∧ word = none then
        wordsFrom .comment rest
      else if c = '\'' then
        wordsFrom (.quoted (word.getD [])) rest
      else if c = '\\' then
        wordsFrom (.escaped (word.getD [])) rest
      else
        wordsFrom (.bare (some (word.getD [] ++ [c]))) rest
  | .quoted word, c :: rest =>
      if c = '\'' then
        wordsFrom (.bare (some word)) rest
      else
        wordsFrom (.quoted (word ++ [c])) rest
  | .escaped word, c :: rest => wordsFrom (.bare (some (word ++ [c]))) rest
  | .comment, c :: rest =>
      if c = '\n' then wordsFrom (.bare none) rest else wordsFrom .comment rest

/-- The words of shell code, if its quotes are closed. -/
def words (code : String) : Option (List String) :=
  (wordsFrom (.bare none) code.toList).map (List.map String.ofList)

-----------------------------------------------------------------------------------------
-- Parts of words
-----------------------------------------------------------------------------------------

variable {text : List Char}

/-- Characters that stand for themselves wherever they are. -/
def IsPlain (c : Char) : Prop :=
  c ∉ [' ', '\t', '\n', '\'', '"', '\\', '#']

instance : DecidablePred IsPlain :=
  fun _ => inferInstanceAs (Decidable (_ ∉ _))

theorem isPlain_of_isDigit {c : Char} (digit : c.isDigit = true) : IsPlain c := by
  simp only [IsPlain, List.mem_cons, List.not_mem_nil, or_false]
  rintro (rfl | rfl | rfl | rfl | rfl | rfl | rfl) <;> cases digit

/-- A plain character is added to the word under way, and starts one where there is none. -/
theorem wordsFrom_plain_cons {c : Char} (plain : IsPlain c) (word : Option (List Char))
    (rest : List Char)
    : wordsFrom (.bare word) (c :: rest) = wordsFrom (.bare (some (word.getD [] ++ [c]))) rest := by
  simp only [IsPlain, List.mem_cons, List.not_mem_nil, or_false, not_or] at plain
  simp [wordsFrom, isSeparator, plain]

theorem wordsFrom_plain_append (plain : ∀ c ∈ text, IsPlain c) (word rest : List Char)
    : wordsFrom (.bare (some word)) (text ++ rest)
      = wordsFrom (.bare (some (word ++ text))) rest := by
  induction text generalizing word with
  | nil => simp
  | cons c text ih =>
      obtain ⟨first, others⟩ := List.forall_mem_cons.mp plain
      rw [List.cons_append, wordsFrom_plain_cons first, ih others]
      simp

/-- Between quotes a quoted character is read as that character. A quote leaves them, is escaped, and
enters them again.
-/
theorem wordsFrom_quoteChar (c : Char) (word rest : List Char)
    : wordsFrom (.quoted word) (quoteChar c ++ rest) = wordsFrom (.quoted (word ++ [c])) rest := by
  by_cases quote : c = '\''
  · simp [quoteChar, quote, wordsFrom, isSeparator]
  · simp [quoteChar, quote, wordsFrom]

theorem wordsFrom_flatMap_quoteChar (text word rest : List Char)
    : wordsFrom (.quoted word) (text.flatMap quoteChar ++ rest)
      = wordsFrom (.quoted (word ++ text)) rest := by
  induction text generalizing word with
  | nil => simp
  | cons c text ih =>
      rw [List.flatMap_cons, List.append_assoc, wordsFrom_quoteChar, ih]
      simp

/-- A quoted text adds just that text to the word under way, and ends outside quotes. -/
theorem wordsFrom_quoteChars (text word rest : List Char)
    : wordsFrom (.bare (some word)) (quoteChars text ++ rest)
      = wordsFrom (.bare (some (word ++ text))) rest := by
  have opens
      : wordsFrom (.bare (some word)) (quoteChars text ++ rest)
        = wordsFrom (.quoted word) (text.flatMap quoteChar ++ '\'' :: rest) := by
    simp [quoteChars, wordsFrom, isSeparator]
  rw [opens, wordsFrom_flatMap_quoteChar]
  simp [wordsFrom]

-----------------------------------------------------------------------------------------
-- Whole words
-----------------------------------------------------------------------------------------

/-- A text that is read as a word: from between words to behind its last character, outside quotes. -/
def Spells (text word : String) : Prop :=
  ∀ rest,
    wordsFrom (.bare none) (text.toList ++ rest) = wordsFrom (.bare (some word.toList)) rest

/-- A text that is a word as it stands. -/
def IsPlainWord (text : String) : Prop :=
  text ≠ "" ∧ ∀ c ∈ text.toList, IsPlain c

-- Only the characters of the text are tried, where an instance found by search may try all there are.
instance : DecidablePred IsPlainWord :=
  fun text => @instDecidableAnd _ _ inferInstance (text.toList.decidableBAll IsPlain)

theorem IsPlainWord.spells {text : String} (plain : IsPlainWord text) : Spells text text := by
  intro rest
  obtain ⟨nonempty, plain⟩ := plain
  cases chars : text.toList with
  | nil => exact absurd (String.toList_eq_nil_iff.mp chars) nonempty
  | cons c chars =>
      rw [chars] at plain
      obtain ⟨first, others⟩ := List.forall_mem_cons.mp plain
      rw [List.cons_append, wordsFrom_plain_cons first, wordsFrom_plain_append others]
      rfl

/-- A word may end in a quoted text. -/
theorem Spells.append_singleQuote {text word : String} (spells : Spells text word)
    (value : String)
    : Spells (text ++ singleQuote value) (word ++ value) := by
  intro rest
  rw [singleQuote, String.toList_append, String.toList_ofList, List.append_assoc, spells,
    wordsFrom_quoteChars, String.toList_append]

-----------------------------------------------------------------------------------------
-- Lines
-----------------------------------------------------------------------------------------

theorem wordsFrom_blank_cons (word : Option (List Char)) (rest : List Char)
    : wordsFrom (.bare word) (' ' :: rest)
      = (wordsFrom (.bare none) rest).map (word.toList ++ ·) := by
  simp [wordsFrom, isSeparator]

/-- Texts that a blank sets off from what precedes them are read as the words that they spell, by
induction on them: each starts between words and ends outside quotes.
-/
theorem wordsFrom_flatMap_blank {texts others : List String}
    (spell : List.Forall₂ Spells texts others) (word rest : List Char)
    : wordsFrom (.bare (some word)) (texts.flatMap (' ' :: ·.toList) ++ ' ' :: rest)
      = (wordsFrom (.bare none) rest).map (word :: others.map String.toList ++ ·) := by
  induction spell generalizing word with
  | nil => simp [wordsFrom_blank_cons]
  | @cons text next texts others first _ ih =>
      rw [List.flatMap_cons, List.append_assoc, List.cons_append, wordsFrom_blank_cons, first, ih]
      cases wordsFrom (.bare none) rest <;> simp

/-- A comment of one line hides all of it. -/
theorem wordsFrom_comment (oneLine : '\n' ∉ text) : wordsFrom .comment text = some [] := by
  induction text with
  | nil => rfl
  | cons c text ih =>
      simp only [List.mem_cons, not_or] at oneLine
      rw [wordsFrom, if_neg (Ne.symm oneLine.1), ih oneLine.2]

end ZshStartup.Shell
