import SqlComposer.Join
import SqlComposer.Query.Target
import SqlComposer.Row
import SqlComposer.Statement.Basic

/-!
# UPDATE

An `Update` assigns new values to the columns of the rows that meet its
conditions.  The assignments make up a row, so that assigning a column again
replaces its value.  Joined tables come before the assignments.
-/

namespace SqlComposer

set_option autoImplicit false

/-- The change of rows. -/
structure Update where
  table : Text
  data : Row := Row.empty
  joins : List Join := []
  conditions : List Condition := []
  groupConditions : List Condition := []
  deriving DecidableEq

namespace Update

/-! ## Steps -/

inductive Step
  | assign (column : Text) (value : Value)
  | data (row : Row)
  | join (join : Join)
  | joins (joins : List Join)
  | restrict (step : FilterStep)
  | having (condition : Condition)
  deriving DecidableEq

def ofTable (table : Text) : Update :=
  { table }

def apply (query : Update) : Step → Update
  | .assign column value => { query with data := query.data.assign column value }
  | .data row => { query with data := query.data.assignAll row.entries }
  | .join join => { query with joins := query.joins ++ [join] }
  | .joins joins => { query with joins := query.joins ++ joins }
  | .restrict step => { query with conditions := query.conditions ++ step.added }
  | .having condition =>
      { query with groupConditions := query.groupConditions ++ [condition] }

def applyAll (query : Update) (steps : List Step) : Update :=
  steps.foldl apply query

/-! ## SQL -/

def assignmentSql (functions : FunctionSet) (entry : Text × Value) : Except Error Text := do
  let column ← Column.quote entry.1
  return column ++ " = " ++ (← entry.2.sql functions)

def sql (functions : FunctionSet) (query : Update) : Except Error Text := do
  let table ← Query.resolveTable query.table
  if query.data.isEmpty then throw (.missingField .data)
  else
    let joins ← Join.clauseSql functions query.joins
    let assignments ← query.data.entries.mapM (assignmentSql functions)
    let conditions ← Condition.clauseSql functions " WHERE " query.conditions
    let groupConditions ← Condition.clauseSql functions " HAVING " query.groupConditions
    return "UPDATE " ++ table.fullName ++ joins ++ " SET " ++ Text.joined ", " assignments
      ++ conditions ++ groupConditions ++ ";"

def build (functions : FunctionSet) (query : Update) : Except Error Statement :=
  return ⟨.update, ← query.sql functions⟩

end Update

end SqlComposer
