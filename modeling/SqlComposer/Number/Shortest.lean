import SqlComposer.Number.Digits
import SqlComposer.Number.Double

/-!
# The fewest digits that read back

A finite double is written with the fewest significant digits that still round
to it, and of these with the digits nearest to it.  The numbers that round to a
double fill an interval whose ends lie halfway to its neighbours; the ends
belong to it exactly when the significand is even.

On the grid of decimals with a given number of digits only the two neighbours of
the double need to be looked at: if any point of the grid lies in the interval,
so does one of them.  `shortest` takes the first grid, from one digit upward,
that has a hit, and drops the zeros at the end of what it found.  When both
neighbours are hits and equally near, the tie rule decides between them.
-/

namespace SqlComposer

set_option autoImplicit false

open Number (dividedByPower)

/-- Which of two equally near decimals is written. -/
inductive DecimalTie
  | larger
  | even
  deriving DecidableEq

/-- A decimal number: its digits times ten to its exponent. -/
structure Decimal where
  digits : Nat
  exponent : Int
  deriving DecidableEq

namespace Shortest

/-- A positive quotient together with the ends of the interval that rounds to it, over one
denominator. -/
structure Target where
  low : Nat
  value : Nat
  high : Nat
  denominator : Nat
  closed : Bool

/-- The interval of a finite double.  Below a power of two the neighbours are half as far apart. -/
def target (significand : Nat) (exponent : Int) : Target :=
  let lowSteps := if significand = Nat.pow 2 52 ∧ -1074 < exponent then 1 else 2
  let (unit, denominator) := dividedByPower 2 1 1 (2 - exponent)
  { low := (4 * significand - lowSteps) * unit
    value := 4 * significand * unit
    high := (4 * significand + 2) * unit
    denominator
    closed := significand % 2 = 0 }

/-- The exponent of ten of the leading digit of a positive quotient. -/
def leadingExponent (numerator denominator : Nat) : Int :=
  if denominator ≤ numerator then (Number.digitCount (numerator / denominator) : Int) - 1
  else
    let count := Number.digitCount (denominator / numerator)
    if denominator ≤ numerator * Nat.pow 10 (count - 1) then -((count : Int) - 1)
    else -(count : Int)

/-- The neighbour of the target on the grid of one exponent that rounds to it and is nearest. -/
def hit? (tie : DecimalTie) (target : Target) (exponent : Int) : Option Nat :=
  let (value, step) := dividedByPower 10 target.value target.denominator exponent
  let (low, _) := dividedByPower 10 target.low target.denominator exponent
  let (high, _) := dividedByPower 10 target.high target.denominator exponent
  let below := value / step
  let above := below + 1
  let belowHits := if target.closed then low ≤ below * step else low < below * step
  let aboveHits := if target.closed then above * step ≤ high else above * step < high
  if belowHits ∧ aboveHits then
    let twiceRest := 2 * (value % step)
    if twiceRest < step then some below
    else if step < twiceRest then some above
    else
      match tie with
      | .larger => some above
      | .even => some (if below % 2 = 0 then below else above)
  else if belowHits then some below
  else if aboveHits then some above
  else none

/-- The same decimal without zeros at the end of its digits, up to a number of them. -/
def withoutTrailingZeros : Nat → Decimal → Decimal
  | 0, decimal => decimal
  | count + 1, decimal =>
      if decimal.digits % 10 = 0 then
        withoutTrailingZeros count ⟨decimal.digits / 10, decimal.exponent + 1⟩
      else decimal

end Shortest

open Shortest in
/-- The shortest decimal that rounds to a positive double, nearest to it among those.  Seventeen
digits always suffice. -/
def shortest (tie : DecimalTie) (significand : Nat) (exponent : Int) : Decimal :=
  let goal := target significand exponent
  let leading := leadingExponent goal.value goal.denominator
  let found := (List.range 17).findSome? fun (fractionDigits : Nat) =>
    let gridExponent := leading - fractionDigits
    (hit? tie goal gridExponent).map fun digits => (⟨digits, gridExponent⟩ : Decimal)
  withoutTrailingZeros 18 (found.getD ⟨0, 0⟩)

end SqlComposer
