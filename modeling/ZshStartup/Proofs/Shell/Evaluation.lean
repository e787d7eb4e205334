import ZshStartup.Shell.Quoting
import Mathlib.Logic.Function.Basic

/-! What shell code gives once its quotes and backslashes are evaluated. What is between single quotes is
taken as it is, a backslash outside them gives the next character, and every other character gives itself.
A text in quotes gives that text wherever code stands outside quotes, and what is around it gives what it
would give without the text.
-/

namespace ZshStartup.Shell

-----------------------------------------------------------------------------------------
-- Evaluating
-----------------------------------------------------------------------------------------

/-- How the next character of code is taken. -/
inductive Mode where
  /-- Outside quotes. -/
  | bare
  /-- Between single quotes. -/
  | quoted
  /-- Behind a backslash. -/
  | escaped
deriving DecidableEq, Repr

namespace Mode

/-- How the character behind `c` is taken. -/
def next : Mode → Char → Mode
  | .bare, c => if c = '\'' then .quoted else if c = '\\' then .escaped else .bare
  | .quoted, c => if c = '\'' then .bare else .quoted
  | .escaped, _ => .bare

/-- What a character gives. -/
def output : Mode → Char → List Char
  | .bare, c => if c = '\'' ∨ c = '\\' then [] else [c]
  | .quoted, c => if c = '\'' then [] else [c]
  | .escaped, c => [c]

/-- How the character behind code is taken. -/
def after (mode : Mode) (code : List Char) : Mode :=
  code.foldl next mode

end Mode

/-- What code gives from a mode on. Quotes may be left open, and a last backslash gives nothing. -/
def evaluateFrom : Mode → List Char → List Char
  | _, [] => []
  | mode, c :: rest => mode.output c ++ evaluateFrom (mode.next c) rest

/-- What shell code gives. -/
def evaluate (code : String) : String :=
  String.ofList (evaluateFrom .bare code.toList)

/-- The mode in which shell code ends. -/
def endMode (code : String) : Mode :=
  Mode.bare.after code.toList

-----------------------------------------------------------------------------------------
-- Code in parts
-----------------------------------------------------------------------------------------

/-- Code gives what its parts give, each from the mode in which the part before it ends. -/
theorem evaluateFrom_append (mode : Mode) (code rest : List Char)
    : evaluateFrom mode (code ++ rest)
      = evaluateFrom mode code ++ evaluateFrom (mode.after code) rest := by
  induction code generalizing mode with
  | nil => rfl
  | cons c code ih =>
      rw [List.cons_append, evaluateFrom, evaluateFrom, ih, List.append_assoc]
      rfl

theorem evaluate_append (code rest : String)
    : evaluate (code ++ rest)
      = evaluate code ++ String.ofList (evaluateFrom (endMode code) rest.toList) := by
  rw [evaluate, String.toList_append, evaluateFrom_append, String.ofList_append]
  rfl

/-- Modes can be told apart by what they make of code: a lone backslash gives nothing outside quotes only.
-/
theorem Mode.eq_bare_of_forall {mode : Mode}
    (same : ∀ rest, evaluateFrom mode rest = evaluateFrom .bare rest)
    : mode = .bare := by
  have backslash := same ['\\']
  cases mode with
  | bare => rfl
  | quoted => exact absurd backslash (by decide)
  | escaped => exact absurd backslash (by decide)

/-- Code leaves whatever follows it alone exactly if it ends outside quotes and not in a backslash. -/
theorem evaluate_append_iff {code : String}
    : (∀ rest, evaluate (code ++ rest) = evaluate code ++ evaluate rest)
      ↔ endMode code = .bare := by
  constructor
  · intro apart
    refine Mode.eq_bare_of_forall fun rest => ?_
    have whole := apart (String.ofList rest)
    rw [evaluate_append, String.append_right_inj, evaluate, String.toList_ofList] at whole
    exact String.ofList_injective whole
  · intro ends rest
    rw [evaluate_append, ends]
    rfl

example : endMode "a'b" = .quoted ∧ evaluate ("a'b" ++ "\\'c") ≠ evaluate "a'b" ++ evaluate "\\'c" := by
  decide

theorem endMode_append (code rest : String)
    : endMode (code ++ rest) = (endMode code).after rest.toList := by
  rw [endMode, String.toList_append, Mode.after, List.foldl_append]
  rfl

-----------------------------------------------------------------------------------------
-- Quoted texts
-----------------------------------------------------------------------------------------

/-- A quoted character gives that character and leaves the quotes open. A quote takes four steps: it
leaves the quotes, is escaped, and enters them again.
-/
theorem evaluateFrom_quoteChar (c : Char) (rest : List Char)
    : evaluateFrom .quoted (quoteChar c ++ rest) = c :: evaluateFrom .quoted rest := by
  by_cases quote : c = '\''
  · simp [quoteChar, quote, evaluateFrom, Mode.output, Mode.next]
  · simp [quoteChar, quote, evaluateFrom, Mode.output, Mode.next]

theorem evaluateFrom_flatMap_quoteChar (text rest : List Char)
    : evaluateFrom .quoted (text.flatMap quoteChar ++ rest)
      = text ++ evaluateFrom .quoted rest := by
  induction text with
  | nil => rfl
  | cons c text ih =>
      rw [List.flatMap_cons, List.append_assoc, evaluateFrom_quoteChar, ih, List.cons_append]

/-- A quoted text gives that text, and what follows it is taken outside quotes. -/
theorem evaluateFrom_quoteChars (text rest : List Char)
    : evaluateFrom .bare (quoteChars text ++ rest) = text ++ evaluateFrom .bare rest := by
  have opens
      : evaluateFrom .bare (quoteChars text ++ rest)
        = evaluateFrom .quoted (text.flatMap quoteChar ++ '\'' :: rest) := by
    simp [quoteChars, evaluateFrom, Mode.output, Mode.next]
  have closes : evaluateFrom .quoted ('\'' :: rest) = evaluateFrom .bare rest := by
    simp [evaluateFrom, Mode.output, Mode.next]
  rw [opens, evaluateFrom_flatMap_quoteChar, closes]

theorem evaluate_singleQuote (value : String) : evaluate (singleQuote value) = value := by
  have itself := evaluateFrom_quoteChars value.toList []
  rw [List.append_nil] at itself
  rw [evaluate, singleQuote, String.toList_ofList, itself]
  simp [evaluateFrom]

/-- A quoted text quotes no other text, since evaluation gives it back. -/
theorem singleQuote_injective : Function.Injective singleQuote :=
  Function.LeftInverse.injective evaluate_singleQuote

theorem endMode_singleQuote (value : String) : endMode (singleQuote value) = .bare := by
  refine evaluate_append_iff.mp fun rest => ?_
  rw [evaluate_singleQuote, evaluate, singleQuote, String.toList_append, String.toList_ofList,
    evaluateFrom_quoteChars, String.ofList_append, String.ofList_toList, evaluate]

/-- A quoted text can stand behind any code that ends outside quotes, and leaves alone what is on both
sides of it.
-/
theorem evaluate_append_singleQuote {code : String} (outside : endMode code = .bare)
    (value rest : String)
    : evaluate (code ++ singleQuote value ++ rest) = evaluate code ++ value ++ evaluate rest := by
  have ends : endMode (code ++ singleQuote value) = .bare := by
    rw [endMode_append, outside]
    exact endMode_singleQuote value
  rw [evaluate_append_iff.mpr ends, evaluate_append_iff.mpr outside, evaluate_singleQuote]

/-- Quoting can be undone whatever follows. A quoted text gives that text, ends outside quotes, and what
follows gives what it gives on its own.
-/
theorem evaluate_singleQuote_append (value rest : String)
    : evaluate (singleQuote value ++ rest) = value ++ evaluate rest
      ∧ evaluate (singleQuote value) = value
      ∧ endMode (singleQuote value) = .bare := by
  refine ⟨?_, evaluate_singleQuote value, endMode_singleQuote value⟩
  have outside : endMode "" = .bare := rfl
  have first := evaluate_append_singleQuote outside value rest
  rwa [String.empty_append, show evaluate "" = "" from rfl, String.empty_append] at first

end ZshStartup.Shell
