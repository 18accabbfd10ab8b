import SqlComposer.Value.Encoding

/-!
# Conditions

A condition restricts the rows of a statement.  Its smallest part is a
`Predicate`: SQL that the caller answers for, or a column compared by one of
fifteen operators.  A `Condition` is one predicate or an alternative of several,
and a list of conditions holds when all of them do; alternatives do not nest.

An empty list of alternatives and membership in an empty list never hold, and
non-membership in an empty list always holds; they are written `1=0` and `1=1`.
`Condition.isAlwaysTrue` recognises the conditions that hold for every row
because of this.
-/

namespace SqlComposer

set_option autoImplicit false

/-! ## Operators -/

/-- How a column is compared, and with what. -/
inductive Operator
  | is (value : Value)
  | isNot (value : Value)
  | like (pattern : Text)
  | notLike (pattern : Text)
  | startWith (pattern : Text)
  | endWith (pattern : Text)
  | inList (values : List Value)
  | notInList (values : List Value)
  | between (low high : Value)
  | notBetween (low high : Value)
  | isNull
  | notNull
  | isEmpty
  | notEmpty
  | findInSet (value : Value)
  deriving DecidableEq

namespace Operator

/-- The pattern without percent signs at its ends, between two wildcards. -/
def containsPattern (pattern : Text) : Text :=
  '%' :: Literal.escaped (Text.stripWhere (· == '%') pattern) ++ ['%']

def sql (functions : FunctionSet) (column : Text) : Operator → Except Error Text
  | .is value => return column ++ " = " ++ (← value.sql functions)
  | .isNot value => return column ++ " != " ++ (← value.sql functions)
  | .like pattern => return column ++ " LIKE " ++ Literal.inMarks (containsPattern pattern)
  | .notLike pattern =>
      return column ++ " NOT LIKE " ++ Literal.inMarks (containsPattern pattern)
  | .startWith pattern =>
      return column ++ " LIKE " ++ Literal.inMarks (Literal.escaped pattern ++ ['%'])
  | .endWith pattern =>
      return column ++ " LIKE " ++ Literal.inMarks ('%' :: Literal.escaped pattern)
  | .inList [] => return "1=0"
  | .notInList [] => return "1=1"
  | .inList values => return column ++ " IN (" ++ (← Value.listSql functions values) ++ ")"
  | .notInList values =>
      return column ++ " NOT IN (" ++ (← Value.listSql functions values) ++ ")"
  | .between low high =>
      return column ++ " BETWEEN " ++ (← low.sql functions) ++ " AND "
        ++ (← high.sql functions)
  | .notBetween low high =>
      return column ++ " NOT BETWEEN " ++ (← low.sql functions) ++ " AND "
        ++ (← high.sql functions)
  | .isNull => return column ++ " IS NULL"
  | .notNull => return column ++ " IS NOT NULL"
  | .isEmpty => return column ++ " = ''"
  | .notEmpty => return column ++ " != ''"
  | .findInSet value =>
      return "FIND_IN_SET(" ++ (← value.sql functions) ++ ", " ++ column ++ ")"

def isAlwaysTrue : Operator → Bool
  | .notInList [] => true
  | _ => false

end Operator

/-! ## Predicates -/

/-- One test of a row: trusted SQL, or a column compared by an operator. -/
inductive Predicate
  | raw (sql : Text)
  | compare (column : Text) (operator : Operator)
  deriving DecidableEq

namespace Predicate

section Operators

/-! A predicate for each operator. -/

def is (column : Text) (value : Value) : Predicate :=
  .compare column (.is value)

def isNot (column : Text) (value : Value) : Predicate :=
  .compare column (.isNot value)

def like (column pattern : Text) : Predicate :=
  .compare column (.like pattern)

def notLike (column pattern : Text) : Predicate :=
  .compare column (.notLike pattern)

def startWith (column pattern : Text) : Predicate :=
  .compare column (.startWith pattern)

def endWith (column pattern : Text) : Predicate :=
  .compare column (.endWith pattern)

def inList (column : Text) (values : List Value) : Predicate :=
  .compare column (.inList values)

def notInList (column : Text) (values : List Value) : Predicate :=
  .compare column (.notInList values)

def between (column : Text) (low high : Value) : Predicate :=
  .compare column (.between low high)

def notBetween (column : Text) (low high : Value) : Predicate :=
  .compare column (.notBetween low high)

def isNull (column : Text) : Predicate :=
  .compare column .isNull

def notNull (column : Text) : Predicate :=
  .compare column .notNull

def isEmpty (column : Text) : Predicate :=
  .compare column .isEmpty

def notEmpty (column : Text) : Predicate :=
  .compare column .notEmpty

def findInSet (column : Text) (value : Value) : Predicate :=
  .compare column (.findInSet value)

end Operators

def sql (functions : FunctionSet) : Predicate → Except Error Text
  | .raw sql => .ok sql
  | .compare column operator => operator.sql functions (Column.sql column)

/-- Whether every row passes; trusted SQL is not looked into. -/
def isAlwaysTrue : Predicate → Bool
  | .raw _ => false
  | .compare _ operator => operator.isAlwaysTrue

end Predicate

/-! ## Conditions -/

/-- A predicate, or predicates of which one must hold. -/
inductive Condition
  | single (predicate : Predicate)
  | anyOf (alternatives : List Predicate)
  deriving DecidableEq

namespace Condition

def raw (sql : Text) : Condition :=
  .single (.raw sql)

def sql (functions : FunctionSet) : Condition → Except Error Text
  | .single predicate => predicate.sql functions
  | .anyOf [] => return "1=0"
  | .anyOf alternatives => do
      return '(' :: Text.joined " OR " (← alternatives.mapM (Predicate.sql functions)) ++ [')']

def isAlwaysTrue : Condition → Bool
  | .single predicate => predicate.isAlwaysTrue
  | .anyOf alternatives => alternatives.any Predicate.isAlwaysTrue

/-- The SQL of conditions that must all hold; there is none for the empty list. -/
def listSql? (functions : FunctionSet) (conditions : List Condition) :
    Except Error (Option Text) :=
  match conditions with
  | [] => .ok none
  | _ => do
      return some (Text.joined " AND " (← conditions.mapM (Condition.sql functions)))

/-- The clause of a keyword and the conditions behind it, empty when there are no conditions. -/
def clauseSql (functions : FunctionSet) (keyword : Text) (conditions : List Condition) :
    Except Error Text := do
  match ← listSql? functions conditions with
  | some sql => return keyword ++ sql
  | none => return []

end Condition

end SqlComposer
