import SqlComposer.Calendar
import SqlComposer.Json.Basic
import SqlComposer.Reference.Column

/-!
# Values

A `Value` is what a column is compared with or set to: null, a truth value, a
number, a text, a point in time, or the call of a function on another value.
Integers are words of 64 bits, signed or unsigned.

A column can stand for a value too (`Value.column`); it is the text of its
quoted path, which is later recognised by its form.
-/

namespace SqlComposer

set_option autoImplicit false

/-- A value of an SQL statement. -/
inductive Value
  | null
  | bool (value : Bool)
  | int (value : Int64)
  | uint (value : UInt64)
  | float (value : Double)
  | text (value : Text)
  | dateTime (value : DateTime)
  | call (function : Text) (argument : Value)
  deriving DecidableEq

namespace Value

def column (name : Text) : Except Error Value :=
  (Column.quote name).map .text

def ofNumber : Json.Number → Value
  | .int value => .int value
  | .uint value => .uint value
  | .float value => .float value

def isNull : Value → Bool
  | .null => true
  | _ => false

end Value

end SqlComposer
