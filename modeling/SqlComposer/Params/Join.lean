import SqlComposer.Join
import SqlComposer.Params.Condition

/-!
# Joins in JSON

A join is a tuple of its kind, its table and its conditions, or an object with
the keys `type`, `table`, `on` and `using`.  An object may leave out its kind,
which is then a left join, and has conditions or shared columns but not both.
-/

namespace SqlComposer

set_option autoImplicit false

namespace Join

def objectKeys : List Text := ["type", "table", "on", "using"]

def tableOfJson (json : Json) : Except Error Text :=
  match json.string? with
  | some table =>
      if (Text.trimmed table).isEmpty then .error (.missingField .joinTable)
      else .ok (Text.trimmed table)
  | none => .error (.missingField .joinTable)

/-- The kind of a join object; a missing one or null is a left join. -/
def kindOfJson : Option Json → Except Error JoinKind
  | none | some .null => return .left
  | some (.string word) => JoinKind.parse word
  | some _ => throw (.joinShape .kindNotString)

def sharedColumnOfJson (json : Json) : Except Error Text :=
  match json.string? with
  | some column => .ok column
  | none => .error (.joinShape .usingNotStrings)

/-- Shared columns: an array of strings, or one string with commas between them. -/
def sharedColumnsOfJson : Json → Except Error (List Text)
  | .string columns =>
      return ((columns.splitOn ',').map Text.trimmed).filter (!·.isEmpty)
  | .array items => items.mapM sharedColumnOfJson
  | other => throw (.joinShape (.usingShape other.kind))

def constraintOfMembers (table : Text) (members : List (Text × Json)) :
    Except Error JoinConstraint :=
  match Json.presentMember? "on" members, Json.presentMember? "using" members with
  | some _, some _ => throw (.ambiguousKeys (.twoConstraints table))
  | some conditions, none => return .conditions (← Condition.listOfJson conditions)
  | none, some columns => return .sharedColumns (← sharedColumnsOfJson columns)
  | none, none => return .unconstrained

def tableOfMembers (members : List (Text × Json)) : Except Error Text :=
  match Json.member? "table" members with
  | some table => tableOfJson table
  | none => throw (.missingField .joinTable)

def ofMembers (members : List (Text × Json)) : Except Error Join :=
  match (Json.keys members).find? fun key => !objectKeys.contains key with
  | some key => throw (.joinShape (.unknownKey key))
  | none => do
      let kind ← kindOfJson (Json.member? "type" members)
      let table ← tableOfMembers members
      let constraint ← constraintOfMembers table members
      return { kind, table, constraint }

def ofTuple : List Json → Except Error Join
  | [kind, table, conditions] => do
      match kind.string? with
      | some word =>
          let table ← tableOfJson table
          let kind ← JoinKind.parse word
          return { kind, table, constraint := .conditions (← Condition.listOfJson conditions) }
      | none => throw (.joinShape .kindNotString)
  | items => throw (.joinShape (.tupleLength items.length))

def ofJson : Json → Except Error Join
  | .array items => ofTuple items
  | .object members => ofMembers members
  | other => throw (.joinShape (.entryShape other.kind))

/-- The joins of a list, a single one of an object, or none for null. -/
def listOfJson : Json → Except Error (List Join)
  | .null => return []
  | .object members => return [← ofMembers members]
  | .array items => items.mapM ofJson
  | other => throw (.joinShape (.listShape other.kind))

end Join

end SqlComposer
