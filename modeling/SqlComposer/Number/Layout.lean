import SqlComposer.Number.Shortest

/-!
# How numbers are laid out

SQL text and JSON text write the same shortest digits differently.  SQL text
(`Double.plainText`) never has an exponent, fills with zeros on either side of
the point, and has no point when the number is whole.  JSON text
(`Double.jsonText`) always shows a fraction between `10 ^ (-5)` and `10 ^ 15` and
switches to an exponent with a sign outside of that range.  Both keep the sign
of zero.  Of two equally near decimals, SQL text takes the larger and JSON text
the even one.
-/

namespace SqlComposer

set_option autoImplicit false

namespace Decimal

open Number

/-- The exponent of ten of the leading digit. -/
def scientificExponent (decimal : Decimal) : Int :=
  decimal.exponent + digitCount decimal.digits - 1

/-- The digits with the point in its place and zeros where digits are missing; a whole number is
followed by the given text. -/
def positional (wholeEnd : Text) (decimal : Decimal) : Text :=
  let run := Number.digits decimal.digits
  if 0 ≤ decimal.exponent then run ++ zeros decimal.exponent.toNat ++ wholeEnd
  else
    let places := (-decimal.exponent).toNat
    if places < run.length then
      run.take (run.length - places) ++ '.' :: run.drop (run.length - places)
    else '0' :: '.' :: zeros (places - run.length) ++ run

/-- One digit before the point, the others after it, and an exponent with its sign. -/
def scientific (decimal : Decimal) : Text :=
  let run := Number.digits decimal.digits
  let fraction := if run.length ≤ 1 then [] else '.' :: run.drop 1
  let sign : Text := if decimal.scientificExponent < 0 then "-" else "+"
  run.take 1 ++ fraction ++ 'e' :: sign ++ Number.digits decimal.scientificExponent.natAbs

end Decimal

namespace Double

def withSign (negative : Bool) (text : Text) : Text :=
  if negative then '-' :: text else text

def plainText : Double → Text
  | .nan => "NaN"
  | .infinite negative => withSign negative "inf"
  | .finite negative significand exponent _ =>
      withSign negative <|
        if significand = 0 then "0"
        else (shortest .larger significand exponent).positional []

/-- The text of a double in JSON, which has no spelling for numbers that are not finite and
writes null for them. -/
def jsonText : Double → Text
  | .nan => "null"
  | .infinite _ => "null"
  | .finite negative significand exponent _ =>
      withSign negative <|
        if significand = 0 then "0.0"
        else
          let decimal := shortest .even significand exponent
          if -5 ≤ decimal.scientificExponent ∧ decimal.scientificExponent ≤ 15 then
            decimal.positional ".0"
          else decimal.scientific

end Double

end SqlComposer
