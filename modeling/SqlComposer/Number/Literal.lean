import SqlComposer.Number.Digits
import SqlComposer.Number.Double
import SqlComposer.Text.Word

/-!
# Numbers written in decimal

A decimal literal is an optional sign and then either one of the words `inf`,
`infinity` and `nan` in any letter case, or digits with at most one point among
them, at least one digit, and an optional exponent.  `DecimalLiteral.read?`
accepts exactly these texts, without blanks around them.

A numeric literal denotes `digits · 10 ^ exponent` exactly, and is rounded once,
to the nearest number of the format asked for.
-/

namespace SqlComposer

set_option autoImplicit false

/-- What a decimal literal says, before any rounding. -/
inductive DecimalLiteral
  | nan
  | infinite (negative : Bool)
  | number (negative : Bool) (digits : Nat) (exponent : Int)
  deriving DecidableEq

namespace DecimalLiteral

/-! ## Reading -/

/-- Splits off a sign; true stands for a minus. -/
def readSign : Text → Bool × Text
  | '-' :: rest => (true, rest)
  | '+' :: rest => (false, rest)
  | text => (false, text)

/-- The exponent written after the digits: nothing, or the letter `e` and a signed run of digits. -/
def readExponent? : Text → Option Int
  | [] => some 0
  | mark :: rest =>
      if mark = 'e' ∨ mark = 'E' then
        let (negative, run) := readSign rest
        if run.isEmpty || !run.all Char.isDigit then none
        else if negative then some (-(Number.digitsValue run : Int))
        else some (Number.digitsValue run)
      else none

/-- Splits off the digits after a point, if there is a point. -/
def readFraction : Text → Text × Text
  | '.' :: rest => (rest.takeWhile Char.isDigit, rest.dropWhile Char.isDigit)
  | text => ([], text)

def readMagnitude? (text : Text) : Option (Nat × Int) :=
  let whole := text.takeWhile Char.isDigit
  let (fraction, rest) := readFraction (text.dropWhile Char.isDigit)
  if whole.isEmpty && fraction.isEmpty then none
  else
    (readExponent? rest).map fun exponent =>
      (Number.digitsValue (whole ++ fraction), exponent - fraction.length)

def read? (text : Text) : Option DecimalLiteral :=
  let (negative, rest) := readSign text
  let word := Text.lowercase rest
  if word = "inf" ∨ word = "infinity" then some (.infinite negative)
  else if word = "nan" then some .nan
  else (readMagnitude? rest).map fun (digits, exponent) => .number negative digits exponent

/-! ## Rounding -/

/-- Rounds `digits · 10 ^ exponent` by the given rule.  Magnitudes of `10 ^ 310` and more are
beyond every format and magnitudes below `10 ^ (-400)` are below half of every least number, so
that powers of ten stay small. -/
def roundWith (ofQuotient : Bool → Nat → Nat → Double) (negative : Bool) (digits : Nat)
    (exponent : Int) : Double :=
  let size : Int := Number.digitCount digits + exponent
  if digits = 0 ∨ size < -400 then ofQuotient negative 0 1
  else if 310 < size then .infinite negative
  else
    let (numerator, denominator) := Number.dividedByPower 10 digits 1 (-exponent)
    ofQuotient negative numerator denominator

def toDouble : DecimalLiteral → Double
  | .nan => .nan
  | .infinite negative => .infinite negative
  | .number negative digits exponent => roundWith Double.ofQuotient negative digits exponent

/-- The double with the value of the single-precision number nearest to a literal. -/
def toSingle : DecimalLiteral → Double
  | .nan => .nan
  | .infinite negative => .infinite negative
  | .number negative digits exponent => roundWith Double.ofSingleQuotient negative digits exponent

end DecimalLiteral

end SqlComposer
