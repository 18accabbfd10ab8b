/-!
# Quotients of natural numbers

Numbers are rounded and compared exactly, as quotients of natural numbers.  A
quotient is a pair of a numerator and a positive denominator; dividing it by a
power, with an exponent of either sign, gives such a pair again
(`dividedByPower`).  `roundedQuotient` is the nearest integer, a tie going to
the even one.
-/

namespace SqlComposer

set_option autoImplicit false

namespace Number

/-- A quotient divided by a base to an exponent. -/
def dividedByPower (base numerator denominator : Nat) (exponent : Int) : Nat × Nat :=
  if 0 ≤ exponent then (numerator, denominator * Nat.pow base exponent.toNat)
  else (numerator * Nat.pow base (-exponent).toNat, denominator)

/-- A quotient rounded to the nearest integer, with ties to even. -/
def roundedQuotient (numerator denominator : Nat) : Nat :=
  let quotient := numerator / denominator
  let twiceRest := 2 * (numerator % denominator)
  if denominator < twiceRest ∨ (twiceRest = denominator ∧ quotient % 2 = 1) then quotient + 1
  else quotient

end Number

end SqlComposer
