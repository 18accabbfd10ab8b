import SqlComposer.Condition
import SqlComposer.Reference.Table

/-!
# What the queries share

Every query names its table, and three of them restrict their rows.  A blank
table is missing rather than malformed (`Query.resolveTable`).  The steps that
add to the conditions of a query are the same for all queries that have any
(`FilterStep`): each appends to the list of conditions that must all hold.
-/

namespace SqlComposer

set_option autoImplicit false

/-- The table of a query; a blank name counts as missing. -/
def Query.resolveTable (raw : Text) : Except Error TableRef :=
  if (Text.trimmed raw).isEmpty then .error (.missingField .table) else TableRef.resolve raw

/-- A step that restricts the rows of a query further. -/
inductive FilterStep
  | filter (condition : Condition)
  | filters (conditions : List Condition)
  | anyOf (alternatives : List Predicate)
  | raw (sql : Text)
  | compare (column : Text) (operator : Operator)
  deriving DecidableEq

/-- The conditions that a step appends. -/
def FilterStep.added : FilterStep → List Condition
  | .filter condition => [condition]
  | .filters conditions => conditions
  | .anyOf alternatives => [.anyOf alternatives]
  | .raw sql => [.single (.raw sql)]
  | .compare column operator => [.single (.compare column operator)]

/-- The step that goes by the same name as a predicate. -/
def FilterStep.ofPredicate : Predicate → FilterStep
  | .raw sql => .raw sql
  | .compare column operator => .compare column operator

namespace FilterStep

/-! ## Steps for operators -/

def is (column : Text) (value : Value) : FilterStep :=
  .compare column (.is value)

def isNot (column : Text) (value : Value) : FilterStep :=
  .compare column (.isNot value)

def like (column pattern : Text) : FilterStep :=
  .compare column (.like pattern)

def notLike (column pattern : Text) : FilterStep :=
  .compare column (.notLike pattern)

def startWith (column pattern : Text) : FilterStep :=
  .compare column (.startWith pattern)

def endWith (column pattern : Text) : FilterStep :=
  .compare column (.endWith pattern)

def inList (column : Text) (values : List Value) : FilterStep :=
  .compare column (.inList values)

def notInList (column : Text) (values : List Value) : FilterStep :=
  .compare column (.notInList values)

def between (column : Text) (low high : Value) : FilterStep :=
  .compare column (.between low high)

def notBetween (column : Text) (low high : Value) : FilterStep :=
  .compare column (.notBetween low high)

def isNull (column : Text) : FilterStep :=
  .compare column .isNull

def notNull (column : Text) : FilterStep :=
  .compare column .notNull

def isEmpty (column : Text) : FilterStep :=
  .compare column .isEmpty

def notEmpty (column : Text) : FilterStep :=
  .compare column .notEmpty

def findInSet (column : Text) (value : Value) : FilterStep :=
  .compare column (.findInSet value)

end FilterStep

end SqlComposer
