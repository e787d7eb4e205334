import ZshStartup.Text.Digit

/-! Numerals in settings documents. What a number is worth matters to no setting, but a numeral that
its type cannot hold is refused: an integer must be one of 128 bits, signed or not, and a decimal must
not be infinite in double precision.
-/

namespace ZshStartup.Toml.Number

open Text (digit? ofDigits)

/-- The digits of a run, in which underscores may stand between digits, one at a time. -/
def digits? (base : Nat) (run : List Char) : Option (List Nat) :=
  let groups := (run.splitOn '_').mapM fun group =>
    if group.isEmpty then none else group.mapM (digit? base)
  groups.map List.flatten

/-- The digits of a run in base ten that does not begin with a needless zero. -/
def whole? (run : List Char) : Option (List Nat) :=
  (digits? 10 run).filter fun digits => digits.length = 1 ∨ digits.head? ≠ some 0

/-- The value of an integer. Only one in base ten may have a sign. -/
def integer? : List Char → Option Int
  | '0' :: 'x' :: run => (digits? 16 run).map fun digits => (ofDigits 16 digits : Int)
  | '0' :: 'o' :: run => (digits? 8 run).map fun digits => (ofDigits 8 digits : Int)
  | '0' :: 'b' :: run => (digits? 2 run).map fun digits => (ofDigits 2 digits : Int)
  | '-' :: run => (whole? run).map fun digits => -(ofDigits 10 digits : Int)
  | '+' :: run => (whole? run).map fun digits => (ofDigits 10 digits : Int)
  | run => (whole? run).map fun digits => (ofDigits 10 digits : Int)

/-- An integer that 128 bits can hold, with a sign or without one. -/
def fits (n : Int) : Bool :=
  -Int.pow 2 127 ≤ n && n < Int.pow 2 128

/-- A decimal numeral without its sign, worth its digits times `10 ^ exponent`. -/
structure Decimal where
  digits : List Nat
  exponent : Int
deriving DecidableEq, Repr

namespace Decimal

/-- The least number that is rounded to infinity: half a step above the largest double. -/
def infinite : Nat :=
  Nat.pow 2 1024 - Nat.pow 2 970

/-- A decimal that is rounded to infinity. One with at most 308 places before the point is too small
for that, and one with more than 309 is large enough.
-/
def overflows (d : Decimal) : Bool :=
  let digits := d.digits.dropWhile (· == 0)
  let places := digits.length + d.exponent
  if digits.isEmpty || places < 309 then
    false
  else if places > 309 then
    true
  else
    infinite * Nat.pow 10 (-d.exponent).toNat
      ≤ ofDigits 10 digits * Nat.pow 10 d.exponent.toNat

end Decimal

/-- The value of an exponent. Zeros may begin it. -/
def exponent? : List Char → Option Int
  | '-' :: run => (digits? 10 run).map fun digits => -(ofDigits 10 digits : Int)
  | '+' :: run => (digits? 10 run).map fun digits => (ofDigits 10 digits : Int)
  | run => (digits? 10 run).map fun digits => (ofDigits 10 digits : Int)

/-- A decimal by its spelling, which has digits on both sides of its point if it has a point. -/
def decimal? (text : List Char) : Option Decimal := do
  let isMark := fun c : Char => c == 'e' || c == 'E'
  let exponent ← match text.dropWhile fun c => !isMark c with
    | [] => some 0
    | _ :: run => exponent? run
  match (text.takeWhile fun c => !isMark c).splitOn '.' with
  | [whole] => do
      let digits ← whole? whole
      some { digits, exponent }
  | [whole, fraction] => do
      let whole ← whole? whole
      let fraction ← digits? 10 fraction
      some { digits := whole ++ fraction, exponent := exponent - fraction.length }
  | _ => none

def dropSign : List Char → List Char
  | '+' :: rest => rest
  | '-' :: rest => rest
  | rest => rest

/-- A word that spells a number of either kind, and one that can be held. -/
def isNumber (word : List Char) : Bool :=
  match integer? word with
  | some n => fits n
  | none =>
      let unsigned := dropSign word
      unsigned == ['i', 'n', 'f'] || unsigned == ['n', 'a', 'n']
        || (decimal? unsigned).any fun d => !d.overflows

end ZshStartup.Toml.Number
