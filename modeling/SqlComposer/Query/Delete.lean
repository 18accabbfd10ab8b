import SqlComposer.Query.Target
import SqlComposer.Statement.Basic

/-!
# DELETE

A `Delete` removes the rows that meet its conditions.  When all of its
conditions hold for every row, or when it has none, the statement would empty
the table; it is then refused unless the caller has allowed that
(`Delete.isGuarded`).
-/

namespace SqlComposer

set_option autoImplicit false

/-- The removal of rows. -/
structure Delete where
  table : Text
  conditions : List Condition := []
  allowAll : Bool := false
  deriving DecidableEq

namespace Delete

/-! ## Steps -/

inductive Step
  | restrict (step : FilterStep)
  | allowAll (allowed : Bool)
  deriving DecidableEq

/-- The removal of all rows of a table, which is not yet allowed. -/
def ofTable (table : Text) : Delete :=
  { table }

def apply (query : Delete) : Step → Delete
  | .restrict step => { query with conditions := query.conditions ++ step.added }
  | .allowAll allowed => { query with allowAll := allowed }

def applyAll (query : Delete) (steps : List Step) : Delete :=
  steps.foldl apply query

/-! ## SQL -/

/-- Whether the removal would empty the table without being allowed to. -/
def isGuarded (query : Delete) : Bool :=
  query.conditions.all Condition.isAlwaysTrue && !query.allowAll

def sql (functions : FunctionSet) (query : Delete) : Except Error Text := do
  let table ← Query.resolveTable query.table
  if query.isGuarded then throw (.missingField .deletionFilter)
  else
    let conditions ← Condition.clauseSql functions " WHERE " query.conditions
    return "DELETE FROM " ++ table.fullName ++ conditions ++ ";"

def build (functions : FunctionSet) (query : Delete) : Except Error Statement :=
  return ⟨.delete, ← query.sql functions⟩

end Delete

end SqlComposer
