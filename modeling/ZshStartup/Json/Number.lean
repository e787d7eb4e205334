/-! Numbers as JSON text spells them. Only an unsigned 64-bit integer counts as an integer; of any
other numeral nothing but its size is ever asked, and that is measured in double precision.
-/

namespace ZshStartup

/-- A numeral that is not an unsigned 64-bit integer, worth `± significand · 10 ^ exponent`. -/
structure Decimal where
  negative : Bool
  significand : UInt64
  exponent : Int
deriving DecidableEq, Repr, Inhabited

namespace Decimal

/-- A double divided by a power of ten, by at most 308 places at a time. -/
def scaleDown (x : Float) (places : Nat) : Float :=
  if places ≤ 308 then
    x / Float.ofScientific 1 false places
  else if x == 0 then
    x
  else
    scaleDown (x / Float.ofScientific 1 false 308) (places - 308)
termination_by places

/-- The absolute value in double precision, infinite when it is too large for a double. -/
def magnitude (d : Decimal) : Float :=
  let significand := d.significand.toFloat
  match d.exponent with
  | .ofNat places =>
      if places ≤ 308 then
        significand * Float.ofScientific 1 false places
      else if significand == 0 then
        significand
      else
        1.0 / 0.0
  | .negSucc places => scaleDown significand (places + 1)

def overflows (d : Decimal) : Bool :=
  d.magnitude.isInf

end Decimal

inductive Number where
  /-- An integer from `0` to `2 ^ 64 - 1`, written with neither sign nor fraction nor exponent. -/
  | natural (n : UInt64)
  | decimal (d : Decimal)
deriving DecidableEq, Repr, Inhabited

/-- Zero of either sign, also when the numeral is too small for a double to tell from zero. -/
def Number.isZero : Number → Bool
  | .natural n => n == 0
  | .decimal d => d.magnitude == 0

/-- The parts of a numeral as spelled: digits of the integer, fraction and exponent parts. -/
structure Numeral where
  negative : Bool
  whole : List Char
  fraction : Option (List Char)
  /-- Whether the exponent is negative, and its digits. -/
  exponent : Option (Bool × List Char)
deriving DecidableEq, Repr

namespace Numeral

def digitValue (c : Char) : Nat :=
  c.toNat - '0'.toNat

def digitsValue (digits : List Char) : Nat :=
  digits.foldl (fun n c => 10 * n + digitValue c) 0

/-- Appends digits to a significand until one would not fit in 64 bits, and returns the digits left
over from there on. -/
def absorb (significand : Nat) : List Char → Nat × List Char
  | [] => (significand, [])
  | c :: digits =>
      if 10 * significand + digitValue c < UInt64.size then
        absorb (10 * significand + digitValue c) digits
      else
        (significand, c :: digits)

/-- The value of a numeral. Digits of the integer part that the significand cannot hold raise the
exponent, those of the fraction are dropped. -/
def toNumber (numeral : Numeral) : Number :=
  let (whole, excess) := absorb 0 numeral.whole
  if !numeral.negative && excess.isEmpty && numeral.fraction.isNone && numeral.exponent.isNone then
    .natural whole.toUInt64
  else
    let fraction := numeral.fraction.getD []
    let (significand, dropped) := absorb whole fraction
    let written : Int := match numeral.exponent with
      | none => 0
      | some (negative, digits) =>
          if negative then -(digitsValue digits : Int) else (digitsValue digits : Int)
    .decimal
      {
        negative := numeral.negative
        significand := significand.toUInt64
        exponent := (excess.length : Int) - ((fraction.length - dropped.length : Nat) : Int) + written
      }

/-- The digits that follow the one with which a run of digits first exceeds a bound, if any does. -/
def afterExceeding (bound : Nat) (digits : List Char) : Option (List Char) :=
  go 0 digits
where
  /-- Continues with the value of the digits already seen. -/
  go (n : Nat) : List Char → Option (List Char)
    | [] => none
    | c :: digits =>
        if 10 * n + digitValue c > bound then some digits else go (10 * n + digitValue c) digits

/-- The digits that need not be read to see that a numeral is out of range: those after the digit
that lifts its exponent past 31 bits. A zero or a negative exponent never settles that early. -/
def unneeded? (numeral : Numeral) : Option (List Char) :=
  match numeral.exponent, numeral.toNumber with
  | some (false, digits), .decimal d =>
      if d.significand == 0 then none else afterExceeding 2147483647 digits
  | _, _ => none

end Numeral

end ZshStartup
