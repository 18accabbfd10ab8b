import SqlComposer.Text.Basic

/-!
# Decimal digits

Whole numbers are written in base ten without leading zeros, with a minus sign
in front when they are negative (`digits`, `signedDigits`); the fields of a date
are filled with zeros to a fixed width (`paddedDigits`).  `digitsValue` reads a
run of digits back as a number.
-/

namespace SqlComposer

set_option autoImplicit false

namespace Number

/-- A natural number in base ten, without leading zeros. -/
def digits (number : Nat) : Text :=
  Nat.toDigits 10 number

/-- An integer in base ten, with a minus sign when it is negative. -/
def signedDigits (number : Int) : Text :=
  if number < 0 then '-' :: digits number.natAbs else digits number.natAbs

def zeros (count : Nat) : Text :=
  List.replicate count '0'

/-- A natural number filled with zeros on the left to at least the given width. -/
def paddedDigits (width number : Nat) : Text :=
  zeros (width - (digits number).length) ++ digits number

def digitsValue (run : Text) : Nat :=
  run.foldl (fun value digit => 10 * value + (digit.toNat - '0'.toNat)) 0

/-- The number of digits that a natural number has in base ten; zero has one. -/
def digitCount (number : Nat) : Nat :=
  (digits number).length

end Number

end SqlComposer
