import SqlComposer.Number.Quotient

/-!
# Double-precision numbers

A `Double` is a binary64 number given by its meaning rather than by its bits:
not a number, an infinity, or a sign with a significand and an exponent of two.
The pair is kept in the one form that binary64 has for each magnitude
(`Double.IsCanonical`), so two finite doubles are equal exactly when their
signs, significands and exponents are.

Numbers enter through `Format.round`, which takes a quotient of natural numbers
to the nearest value of a format, a tie going to the even significand.  It works
on exact quotients, so a decimal literal of any length is rounded once.  The
binary32 format is there for numbers that were first rounded to single
precision; widening them is exact.
-/

namespace SqlComposer

set_option autoImplicit false

open Number (dividedByPower roundedQuotient)

/-! ## The numbers -/

/-- The pairs that binary64 has: a full significand of 53 bits, or less of it at the least
exponent. -/
def Double.IsCanonical (significand : Nat) (exponent : Int) : Prop :=
  significand < Nat.pow 2 53 ∧ -1074 ≤ exponent ∧ exponent ≤ 971 ∧
    (exponent = -1074 ∨ Nat.pow 2 52 ≤ significand)

instance (significand : Nat) (exponent : Int) :
    Decidable (Double.IsCanonical significand exponent) :=
  inferInstanceAs (Decidable (_ ∧ _))

/-- A binary64 number; a finite one is its significand times two to its exponent, with a sign
that zero has too. -/
inductive Double
  | nan
  | infinite (negative : Bool)
  | finite (negative : Bool) (significand : Nat) (exponent : Int)
      (canonical : Double.IsCanonical significand exponent)
  deriving DecidableEq

/-! ## Rounding to the nearest -/

/-- A binary format: the bits of its significand, and its least and greatest exponent. -/
structure Format where
  precision : Nat
  minExponent : Int
  maxExponent : Int
  deriving DecidableEq

namespace Format

def binary32 : Format := ⟨24, -149, 104⟩

def binary64 : Format := ⟨53, -1074, 971⟩

/-- The exponent at which a positive quotient has a significand of full precision, or the least
exponent when that lies below it. -/
def exponentOf (format : Format) (numerator denominator : Nat) : Int :=
  let low : Int := numerator.log2 - denominator.log2 - format.precision
  let (top, bottom) := dividedByPower 2 numerator denominator low
  let exponent := if Nat.pow 2 format.precision * bottom ≤ top then low + 1 else low
  max exponent format.minExponent

/-- The significand and exponent nearest to a quotient, without a bound on the exponent. -/
def round (format : Format) (numerator denominator : Nat) : Nat × Int :=
  if numerator = 0 then (0, format.minExponent)
  else
    let exponent := format.exponentOf numerator denominator
    let (top, bottom) := dividedByPower 2 numerator denominator exponent
    let significand := roundedQuotient top bottom
    if significand = Nat.pow 2 format.precision then
      (Nat.pow 2 (format.precision - 1), exponent + 1)
    else (significand, exponent)

end Format

namespace Double

/-- The finite number with a significand and an exponent, or an infinity when binary64 has no
such pair. -/
def ofParts (negative : Bool) (significand : Nat) (exponent : Int) : Double :=
  if canonical : IsCanonical significand exponent then
    .finite negative significand exponent canonical
  else .infinite negative

/-- The double nearest to a quotient; magnitudes beyond the greatest double go to infinity. -/
def ofQuotient (negative : Bool) (numerator denominator : Nat) : Double :=
  let (significand, exponent) := Format.binary64.round numerator denominator
  ofParts negative significand exponent

def magnitude (significand : Nat) (exponent : Int) : Nat × Nat :=
  dividedByPower 2 significand 1 (-exponent)

/-- The double with the value of the single-precision number nearest to a quotient. -/
def ofSingleQuotient (negative : Bool) (numerator denominator : Nat) : Double :=
  let (significand, exponent) := Format.binary32.round numerator denominator
  if Format.binary32.maxExponent < exponent then .infinite negative
  else
    let (top, bottom) := magnitude significand exponent
    ofQuotient negative top bottom

def isFinite : Double → Bool
  | .finite .. => true
  | _ => false

/-- The integer part of the magnitude of a finite double. -/
def wholePart (significand : Nat) (exponent : Int) : Nat :=
  let (numerator, denominator) := magnitude significand exponent
  numerator / denominator

end Double

end SqlComposer
