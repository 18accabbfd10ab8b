import SqlComposer.Join
import SqlComposer.Projection
import SqlComposer.Query.Target
import SqlComposer.Statement.Basic

/-!
# SELECT

A `Select` holds the clauses of a query for rows.  It starts from a table
(`Select.ofTable`) and grows by steps (`Select.Step`); each step changes one clause
and leaves the others alone.  `Select.sql` writes the clauses in their fixed
order: projection, table, joins, conditions, grouping, conditions on groups,
ordering, and the window of rows.

A limit of zero is no limit, whereas an offset is written whenever it is set.
-/

namespace SqlComposer

set_option autoImplicit false

/-- A query for rows. -/
structure Select where
  table : Text
  columns : List Projected := []
  joins : List Join := []
  conditions : List Condition := []
  groupBy : List Text := []
  groupConditions : List Condition := []
  orderBy : List Text := []
  limit : Option UInt64 := none
  offset : Option UInt64 := none
  deriving DecidableEq

namespace Select

/-! ## Steps -/

inductive Step
  | columns (columns : List Projected)
  | column (column : Projected)
  | join (join : Join)
  | joins (joins : List Join)
  | joinOn (kind : JoinKind) (table : Text) (conditions : List Condition)
  | restrict (step : FilterStep)
  | groupBy (column : Text)
  | having (condition : Condition)
  | havings (conditions : List Condition)
  | orderBy (item : Text)
  | orderByAsc (column : Text)
  | orderByDesc (column : Text)
  | limit (count : UInt64)
  | offset (count : UInt64)
  | paginate (page perPage : UInt64)
  deriving DecidableEq

def ofTable (table : Text) : Select :=
  { table }

def apply (query : Select) : Step → Select
  | .columns columns => { query with columns }
  | .column column => { query with columns := query.columns ++ [column] }
  | .join join => { query with joins := query.joins ++ [join] }
  | .joins joins => { query with joins := query.joins ++ joins }
  | .joinOn kind table conditions =>
      { query with joins := query.joins ++ [⟨kind, table, .conditions conditions⟩] }
  | .restrict step => { query with conditions := query.conditions ++ step.added }
  | .groupBy column => { query with groupBy := query.groupBy ++ [column] }
  | .having condition =>
      { query with groupConditions := query.groupConditions ++ [condition] }
  | .havings conditions =>
      { query with groupConditions := query.groupConditions ++ conditions }
  | .orderBy item => { query with orderBy := query.orderBy ++ [item] }
  | .orderByAsc column => { query with orderBy := query.orderBy ++ [column ++ " ASC"] }
  | .orderByDesc column => { query with orderBy := query.orderBy ++ [column ++ " DESC"] }
  | .limit count => { query with limit := some count }
  | .offset count => { query with offset := some count }
  | .paginate page perPage =>
      let size := max perPage 1
      { query with limit := some size, offset := some ((max page 1 - 1) * size) }

def applyAll (query : Select) (steps : List Step) : Select :=
  steps.foldl apply query

/-! ## SQL -/

/-- A keyword and items with commas between them, empty when there are no items. -/
def itemsClause (keyword : Text) (items : List Text) : Text :=
  if items.isEmpty then [] else keyword ++ Text.joined ", " items

/-- The limit of a query; zero is none. -/
def limitClause (query : Select) : Text :=
  match query.limit with
  | some count => if count = 0 then [] else " LIMIT " ++ Number.digits count.toNat
  | none => []

def offsetClause (query : Select) : Text :=
  match query.offset with
  | some count => " OFFSET " ++ Number.digits count.toNat
  | none => []

def sql (functions : FunctionSet) (query : Select) : Except Error Text := do
  let table ← Query.resolveTable query.table
  let columns ← Projected.listSql query.columns (some table)
  let joins ← Join.clauseSql functions query.joins
  let conditions ← Condition.clauseSql functions " WHERE " query.conditions
  let groupConditions ← Condition.clauseSql functions " HAVING " query.groupConditions
  return "SELECT " ++ Text.joined ", " columns ++ " FROM " ++ table.fullName ++ joins
    ++ conditions
    ++ itemsClause " GROUP BY " (query.groupBy.map Column.sql)
    ++ groupConditions
    ++ itemsClause " ORDER BY " (query.orderBy.map Column.orderSql)
    ++ query.limitClause ++ query.offsetClause ++ ";"

def build (functions : FunctionSet) (query : Select) : Except Error Statement :=
  return ⟨.select, ← query.sql functions⟩

end Select

end SqlComposer
