import SqlComposer.Json.Basic
import SqlComposer.Row

/-!
# Values and rows in JSON

A JSON value stands for the value of the same kind.  An object with exactly one
key is the call of the function that the key names, on the value of the key;
whether the function is allowed shows only when the value is encoded.  A list is
no value.

An object of columns and values is a row, with its columns in the order of the
keys.
-/

namespace SqlComposer

set_option autoImplicit false

def Value.ofJson : Json → Except Error Value
  | .null => return .null
  | .bool value => return .bool value
  | .number value => return .ofNumber value
  | .string value => return .text value
  | .object [(function, argument)] => return .call function (← Value.ofJson argument)
  | .object _ => throw (.invalidValue .functionObject)
  | .array _ => throw (.invalidValue .misplacedList)

def Row.entryOfMember (entry : Text × Json) : Except Error (Text × Value) :=
  return (entry.1, ← Value.ofJson entry.2)

def Row.ofMembers (members : List (Text × Json)) : Except Error Row :=
  return Row.ofList (← members.mapM Row.entryOfMember)

end SqlComposer
