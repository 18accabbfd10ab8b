import SqlComposer.Json.Printer
import SqlComposer.Params.Join
import SqlComposer.Params.Projection
import SqlComposer.Query

/-!
# Queries in JSON

A query of each kind is read from an object of parameters.  Every kind has its
own keys and no others.  Parameters that are missing count as null, and null
stands for nothing: no conditions, no joins, no limit.

A limit or an offset is a number or a string with one (`countOfJson`); fractions
are cut off, and what is beyond the 64-bit words is brought back to the greatest
of them.
-/

namespace SqlComposer

set_option autoImplicit false

namespace Params

/-! ## Parameters of any kind of query -/

/-- The members of a parameter object that has only known keys. -/
def membersOf (statement : StatementKind) (known : List Text) (json : Json) :
    Except Error (List (Text × Json)) :=
  match json with
  | .object members =>
      match (Json.keys members).find? fun key => !known.contains key with
      | some key => .error (.invalidValue (.unknownParameter statement key))
      | none => .ok members
  | other => .error (.invalidValue (.parametersShape statement other.kind))

/-- The table of a query, as written; it must not be blank. -/
def tableOf (members : List (Text × Json)) : Except Error Text :=
  match Json.memberOrNull "table" members with
  | .string table =>
      if (Text.trimmed table).isEmpty then .error (.missingField .table) else .ok table
  | .null => .error (.missingField .table)
  | other => .error (.invalidValue (.tableShape other.kind))

def flagOf (key : Text) (members : List (Text × Json)) : Except Error (Option Bool) :=
  match Json.memberOrNull key members with
  | .null => .ok none
  | .bool value => .ok (some value)
  | other => .error (.invalidValue (.flagShape key other.kind))

def stringOfEntry (key : Text) (json : Json) : Except Error Text :=
  match json.string? with
  | some value => .ok value
  | none => .error (.invalidValue (.stringsEntry key))

/-- A list of strings, a single one, or none for null and for a blank string. -/
def stringsOfJson (key : Text) : Json → Except Error (List Text)
  | .null => return []
  | .string value => return if (Text.trimmed value).isEmpty then [] else [value]
  | .array items => items.mapM (stringOfEntry key)
  | other => throw (.invalidValue (.stringsShape key other.kind))

/-! ## Limits and offsets -/

/-- The integer part of a number that is finite and not negative, at most the greatest word. -/
def countOfDouble? : Double → Option UInt64
  | .finite negative significand exponent _ =>
      if negative && significand != 0 then none
      else some (UInt64.ofNat (min (Double.wholePart significand exponent) (UInt64.size - 1)))
  | _ => none

/-- The count that a JSON value other than null or a blank string denotes. -/
def count? : Json → Option UInt64
  | .number (.int value) => if 0 ≤ value then some value.toUInt64 else none
  | .number (.uint value) => some value
  | .number (.float value) => countOfDouble? value
  | .string value =>
      (DecimalLiteral.read? (Text.trimmed value)).bind fun literal =>
        countOfDouble? literal.toDouble
  | _ => none

/-- Whether a value stands for no count at all. -/
def isUnset : Json → Bool
  | .null => true
  | .string value => (Text.trimmed value).isEmpty
  | _ => false

def countOfJson (key : Text) (json : Json) : Except Error (Option UInt64) :=
  if isUnset json then .ok none
  else
    match count? json with
    | some count => .ok (some count)
    | none => .error (.invalidValue (.countShape key json.text))

end Params

open Params Json

/-! ## SELECT -/

def Select.parameterKeys : List Text :=
  ["table", "columns", "fields", "joins", "where", "having", "group_by", "order_by", "limit",
    "offset"]

/-- The projection, which is given under one of two keys. -/
def Select.columnsOfMembers (members : List (Text × Json)) : Except Error (List Projected) :=
  match presentMember? "columns" members, presentMember? "fields" members with
  | some _, some _ => throw (.ambiguousKeys .twoProjections)
  | some columns, none | none, some columns => Projected.listOfJson columns
  | none, none => return []

def Select.ofJson (json : Json) : Except Error Select := do
  let members ← membersOf .select Select.parameterKeys json
  let table ← tableOf members
  let columns ← Select.columnsOfMembers members
  let joins ← Join.listOfJson (memberOrNull "joins" members)
  let conditions ← Condition.listOfJson (memberOrNull "where" members)
  let groupConditions ← Condition.listOfJson (memberOrNull "having" members)
  let groupBy ← stringsOfJson "group_by" (memberOrNull "group_by" members)
  let orderBy ← stringsOfJson "order_by" (memberOrNull "order_by" members)
  let limit ← countOfJson "limit" (memberOrNull "limit" members)
  let offset ← countOfJson "offset" (memberOrNull "offset" members)
  return { table, columns, joins, conditions, groupBy, groupConditions, orderBy, limit, offset }

/-! ## INSERT -/

def Insert.parameterKeys : List Text := ["table", "data"]

def Insert.rowOfJson : Json → Except Error Row
  | .object members => Row.ofMembers members
  | other => throw (.invalidValue (.insertRowShape other.kind))

/-- The rows to insert: one object or an array of at least one. -/
def Insert.rowsOfJson : Json → Except Error (List Row)
  | .null | .array [] => throw (.missingField .data)
  | .object members => return [← Row.ofMembers members]
  | .array items => items.mapM Insert.rowOfJson
  | other => throw (.invalidValue (.insertDataShape other.kind))

def Insert.ofJson (json : Json) : Except Error Insert := do
  let members ← membersOf .insert Insert.parameterKeys json
  let table ← tableOf members
  let rows ← Insert.rowsOfJson (memberOrNull "data" members)
  return { table, rows }

/-! ## UPDATE -/

def Update.parameterKeys : List Text := ["table", "data", "joins", "where", "having"]

def Update.dataOfJson : Json → Except Error Row
  | .null => throw (.missingField .data)
  | .object members => Row.ofMembers members
  | other => throw (.invalidValue (.updateDataShape other.kind))

def Update.ofJson (json : Json) : Except Error Update := do
  let members ← membersOf .update Update.parameterKeys json
  let table ← tableOf members
  let data ← Update.dataOfJson (memberOrNull "data" members)
  let joins ← Join.listOfJson (memberOrNull "joins" members)
  let conditions ← Condition.listOfJson (memberOrNull "where" members)
  let groupConditions ← Condition.listOfJson (memberOrNull "having" members)
  return { table, data, joins, conditions, groupConditions }

/-! ## DELETE -/

def Delete.parameterKeys : List Text := ["table", "where", "allow_delete_all", "secure"]

/-- Whether a table may be emptied: by its own key, or by turning security off.  The second key is
not looked at once the first allows it. -/
def Delete.allowAllOfMembers (members : List (Text × Json)) : Except Error Bool := do
  match ← flagOf "allow_delete_all" members with
  | some true => return true
  | _ => return (← flagOf "secure" members) == some false

def Delete.ofJson (json : Json) : Except Error Delete := do
  let members ← membersOf .delete Delete.parameterKeys json
  let table ← tableOf members
  let allowAll ← Delete.allowAllOfMembers members
  let conditions ← Condition.listOfJson (memberOrNull "where" members)
  return { table, conditions, allowAll }

end SqlComposer
