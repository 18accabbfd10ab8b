import SqlComposer.Json.Basic
import SqlComposer.Projection

/-!
# Projections in JSON

A projection is a string, which is one expression, an array of expressions and of
objects with `field` and `alias`, or an object from aliases to what they stand
for: an expression, or a function object with a single key.
-/

namespace SqlComposer

set_option autoImplicit false

namespace Projected

def argumentOfJson (json : Json) : Except Error Text :=
  match json.string? with
  | some argument => .ok argument
  | none => .error (.columnShape .argumentsNotStrings)

/-- The arguments of a function: one string or an array of them. -/
def argumentsOfJson : Json → Except Error (List Text)
  | .string argument => return [argument]
  | .array items => items.mapM argumentOfJson
  | other => throw (.columnShape (.argumentShape other.kind))

/-- The column of an alias and what it stands for. -/
def ofMember (entry : Text × Json) : Except Error Projected :=
  match entry with
  | (aliasName, .string expression) => return .aliased expression aliasName
  | (aliasName, .object [(key, arguments)]) => do
      let arguments ← argumentsOfJson arguments
      return .computed (← ProjectionFunction.ofKey key arguments) aliasName
  | (aliasName, _) => throw (.columnShape (.sourceShape aliasName))

def objectKeys : List Text := ["field", "alias"]

def ofMembers (members : List (Text × Json)) : Except Error Projected :=
  match (Json.keys members).find? fun key => !objectKeys.contains key with
  | some key => throw (.columnShape (.unknownKey key))
  | none =>
      match (Json.member? "field" members).bind Json.string?,
        (Json.member? "alias" members).bind Json.string? with
      | some expression, some aliasName => return .aliased expression aliasName
      | _, _ => throw (.columnShape .fieldAndAlias)

def ofJson : Json → Except Error Projected
  | .string expression => return .raw expression
  | .object members => ofMembers members
  | other => throw (.columnShape (.entryShape other.kind))

def listOfJson : Json → Except Error (List Projected)
  | .null => return []
  | .string expression => return [.raw expression]
  | .array items => items.mapM ofJson
  | .object members => members.mapM ofMember
  | other => throw (.columnShape (.listShape other.kind))

end Projected

end SqlComposer
