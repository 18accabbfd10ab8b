import SqlComposer.Condition
import SqlComposer.Params.Value

/-!
# Conditions in JSON

A condition is a string of trusted SQL, an object, or an array of strings and
objects of which one must hold.  An object has one of three forms:

* a column under `field` or `column`, and one operator with its operand;
* one of the checks for null and emptiness with the column as its operand;
* a single other key, the column, with the value that it must equal.

What could be read in two ways is an error.  A key is an operator if it is one
of the seventeen spellings of `OperatorKey`, two of which are second names.
-/

namespace SqlComposer

set_option autoImplicit false

/-! ## Operator keys -/

/-- The keys that name an operator. -/
inductive OperatorKey
  | is
  | notIs
  | like
  | notLike
  | startWith
  | endWith
  | inList
  | notIn
  | between
  | isBetween
  | notBetween
  | isNull
  | notNull
  | isNotNull
  | isEmpty
  | notEmpty
  | findInSet
  deriving DecidableEq

namespace OperatorKey

def all : List OperatorKey :=
  [.is, .notIs, .like, .notLike, .startWith, .endWith, .inList, .notIn, .between, .isBetween,
    .notBetween, .isNull, .notNull, .isNotNull, .isEmpty, .notEmpty, .findInSet]

def spelling : OperatorKey → Text
  | .is => "is"
  | .notIs => "not_is"
  | .like => "like"
  | .notLike => "not_like"
  | .startWith => "start_with"
  | .endWith => "end_with"
  | .inList => "in"
  | .notIn => "not_in"
  | .between => "between"
  | .isBetween => "is_between"
  | .notBetween => "not_between"
  | .isNull => "is_null"
  | .notNull => "not_null"
  | .isNotNull => "is_not_null"
  | .isEmpty => "is_empty"
  | .notEmpty => "not_empty"
  | .findInSet => "find_in_set"

def ofText? (text : Text) : Option OperatorKey :=
  all.find? fun key => key.spelling = text

end OperatorKey

/-- The key under which an operator is written; of two names it is the first. -/
def Operator.key : Operator → OperatorKey
  | .is _ => .is
  | .isNot _ => .notIs
  | .like _ => .like
  | .notLike _ => .notLike
  | .startWith _ => .startWith
  | .endWith _ => .endWith
  | .inList _ => .inList
  | .notInList _ => .notIn
  | .between .. => .between
  | .notBetween .. => .notBetween
  | .isNull => .isNull
  | .notNull => .notNull
  | .isEmpty => .isEmpty
  | .notEmpty => .notEmpty
  | .findInSet _ => .findInSet

/-! ## Operands -/

namespace Operator

/-- A pattern: a string, or a number or truth value in its SQL form. -/
def patternOfJson (key : OperatorKey) : Json → Except Error Text
  | .string value => return value
  | .bool value => return Value.boolSql value
  | .number (.int value) => return Number.signedDigits value.toInt
  | .number (.uint value) => return Number.digits value.toNat
  | .number (.float value) => value.sql
  | other => throw (.conditionShape (.textExpected key.spelling other.kind))

/-- A list of values; a value that is no list and not null stands for the list of it alone. -/
def listOfJson (key : OperatorKey) : Json → Except Error (List Value)
  | .array items => items.mapM Value.ofJson
  | .null => throw (.conditionShape (.listExpected key.spelling))
  | single => return [← Value.ofJson single]

def boundsOfJson (key : OperatorKey) : Json → Except Error (Value × Value)
  | .array [low, high] => return (← Value.ofJson low, ← Value.ofJson high)
  | _ => throw (.conditionShape (.pairExpected key.spelling))

/-- One operator for true and another, its negation, for false. -/
def flagOfJson (key : OperatorKey) (whenTrue whenFalse : Operator) : Json → Except Error Operator
  | .bool true => return whenTrue
  | .bool false => return whenFalse
  | other => throw (.conditionShape (.flagExpected key.spelling other.kind))

def ofJson (key : OperatorKey) (operand : Json) : Except Error Operator :=
  match key with
  | .is => return .is (← Value.ofJson operand)
  | .notIs => return .isNot (← Value.ofJson operand)
  | .like => return .like (← patternOfJson key operand)
  | .notLike => return .notLike (← patternOfJson key operand)
  | .startWith => return .startWith (← patternOfJson key operand)
  | .endWith => return .endWith (← patternOfJson key operand)
  | .inList => return .inList (← listOfJson key operand)
  | .notIn => return .notInList (← listOfJson key operand)
  | .between | .isBetween => do
      let (low, high) ← boundsOfJson key operand
      return .between low high
  | .notBetween => do
      let (low, high) ← boundsOfJson key operand
      return .notBetween low high
  | .isNull => flagOfJson key .isNull .notNull operand
  | .notNull | .isNotNull => flagOfJson key .notNull .isNull operand
  | .isEmpty => flagOfJson key .isEmpty .notEmpty operand
  | .notEmpty => flagOfJson key .notEmpty .isEmpty operand
  | .findInSet => return .findInSet (← Value.ofJson operand)

/-- The operator of a key whose operand is the column itself. -/
def check? : OperatorKey → Option Operator
  | .isNull => some .isNull
  | .notNull | .isNotNull => some .notNull
  | .isEmpty => some .isEmpty
  | .notEmpty => some .notEmpty
  | _ => none

end Operator

/-! ## Predicates -/

namespace Predicate

def columnKeys : List Text := ["field", "column"]

/-- The trimmed column of an object, if it names one under a column key. -/
def columnOf? (members : List (Text × Json)) : Except Error (Option Text) :=
  match Json.member? "field" members, Json.member? "column" members with
  | some _, some _ => .error (.ambiguousKeys .twoColumnKeys)
  | none, none => .ok none
  | some named, none | none, some named =>
      match named.string? with
      | none => .error (.conditionShape .columnNotString)
      | some column =>
          if (Text.trimmed column).isEmpty then .error (.missingField .comparedColumn)
          else .ok (some (Text.trimmed column))

def operatorsOf (members : List (Text × Json)) : List (OperatorKey × Json) :=
  members.filterMap fun (key, operand) => (OperatorKey.ofText? key).map (·, operand)

/-- The members of an object that are neither operators nor column keys. -/
def othersOf (members : List (Text × Json)) : List (Text × Json) :=
  members.filter fun (key, _) => (OperatorKey.ofText? key).isNone && !columnKeys.contains key

def checkOfJson (key : OperatorKey) (operand : Json) : Except Error Predicate :=
  match operand.string?, Operator.check? key with
  | some column, some operator =>
      if (Text.trimmed column).isEmpty then .error (.missingField (.comparedColumnOf key.spelling))
      else .ok (.compare (Text.trimmed column) operator)
  | _, _ => .error (.missingField (.comparedColumnOf key.spelling))

def ofMembers (members : List (Text × Json)) : Except Error Predicate := do
  let named ← columnOf? members
  match named, operatorsOf members, othersOf members with
  | _, first :: second :: more, _ =>
      throw (.ambiguousKeys (.operators ((first :: second :: more).map (·.1.spelling))))
  | some _, _, (key, _) :: _ => throw (.conditionShape (.unknownKey key))
  | some column, [(key, operand)], [] => return .compare column (← Operator.ofJson key operand)
  | some column, [], [] => throw (.missingField (.operatorFor column))
  | none, [(key, operand)], [] => checkOfJson key operand
  | none, [], [(column, value)] => return .compare column (.is (← Value.ofJson value))
  | none, [], [] => throw (.conditionShape .emptyObject)
  | none, _, _ => throw (.ambiguousKeys (.conditionKeys (Json.keys members)))

/-- One of several alternatives, which cannot be a group again. -/
def ofJson : Json → Except Error Predicate
  | .string sql => return .raw sql
  | .object members => ofMembers members
  | .array _ => throw (.conditionShape .nestedGroup)
  | other => throw (.conditionShape (.memberShape other.kind))

end Predicate

/-! ## Conditions -/

namespace Condition

def ofJson : Json → Except Error Condition
  | .string sql => return .raw sql
  | .object members => return .single (← Predicate.ofMembers members)
  | .array items => return .anyOf (← items.mapM Predicate.ofJson)
  | other => throw (.conditionShape (.entryShape other.kind))

/-- The conditions that must all hold: those of a list, a single one, or none for null and for a
blank string. -/
def listOfJson : Json → Except Error (List Condition)
  | .null => return []
  | .string sql => return if (Text.trimmed sql).isEmpty then [] else [.raw sql]
  | .object members => return [.single (← Predicate.ofMembers members)]
  | .array items => items.mapM ofJson
  | other => throw (.conditionShape (.listShape other.kind))

end Condition

end SqlComposer
