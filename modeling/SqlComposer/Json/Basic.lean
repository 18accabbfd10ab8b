import SqlComposer.Number.Digits
import SqlComposer.Number.Literal

/-!
# JSON values

Query descriptions and result rows are JSON values.  The members of an object
are a list of pairs in the order in which they were written, since that order
decides the order of columns and which of several faults is reported; the keys
of one object are distinct.

A number is a signed or an unsigned word of 64 bits when its literal is a whole
number in that range, and otherwise the nearest double (`Json.Number.ofLiteral?`).
-/

namespace SqlComposer

set_option autoImplicit false

inductive Json.Number
  | int (value : Int64)
  | uint (value : UInt64)
  | float (value : Double)
  deriving DecidableEq

/-- A JSON value; the members of an object stand in the order in which they were written. -/
inductive Json
  | null
  | bool (value : Bool)
  | number (value : Json.Number)
  | string (value : Text)
  | array (items : List Json)
  | object (members : List (Text × Json))
  deriving Inhabited

namespace Json

/-! ## Kinds -/

inductive Kind
  | null
  | boolean
  | number
  | string
  | array
  | object
  deriving DecidableEq

def kind : Json → Kind
  | .null => .null
  | .bool _ => .boolean
  | .number _ => .number
  | .string _ => .string
  | .array _ => .array
  | .object _ => .object

/-- A kind as error texts name it. -/
def Kind.phrase : Kind → Text
  | .null => "null"
  | .boolean => "a boolean"
  | .number => "a number"
  | .string => "a string"
  | .array => "an array"
  | .object => "an object"

/-! ## Members and strings -/

def member? (key : Text) (members : List (Text × Json)) : Option Json :=
  members.lookup key

/-- The value of a key, with a missing key read as null. -/
def memberOrNull (key : Text) (members : List (Text × Json)) : Json :=
  (member? key members).getD .null

/-- The value of a key that is there and is not null. -/
def presentMember? (key : Text) (members : List (Text × Json)) : Option Json :=
  match member? key members with
  | some .null => none
  | found => found

def keys (members : List (Text × Json)) : List Text :=
  members.map Prod.fst

def string? : Json → Option Text
  | .string value => some value
  | _ => none

/-! ## Number literals -/

/-- The number with an integer value, when a word of 64 bits holds it. -/
def Number.ofInt? (value : Int) : Option Number :=
  if Int64.minValue.toInt ≤ value ∧ value ≤ Int64.maxValue.toInt then
    some (.int (Int64.ofInt value))
  else if 0 ≤ value ∧ value < UInt64.size then some (.uint (UInt64.ofNat value.toNat))
  else none

/-- The number that a JSON literal denotes.  A literal with a point or an exponent is a double even
when its value is whole, and so is a zero with a minus sign, which only a double can hold. -/
def Number.ofLiteral? (literal : Text) : Option Number :=
  match DecimalLiteral.read? literal with
  | some (.number negative digits exponent) =>
      let isWhole := literal.all fun character => character.isDigit || character == '-'
      let asDouble := Number.float (DecimalLiteral.number negative digits exponent).toDouble
      if !isWhole || (negative && digits == 0) then some asDouble
      else some ((ofInt? (if negative then -(digits : Int) else digits)).getD asDouble)
  | _ => none

end Json

end SqlComposer
