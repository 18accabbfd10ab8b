import SqlComposer.Query.Target
import SqlComposer.Row
import SqlComposer.Statement.Basic

/-!
# INSERT

An `Insert` holds the rows to be added to a table.  The columns of the first row
are the columns of the statement; every other row must have exactly these, in any
order, and its values are written in the order of the first row
(`Insert.tupleSql`).

Rows are numbered from zero in errors, and the first row that is wrong decides
the error.
-/

namespace SqlComposer

set_option autoImplicit false

/-- The insertion of rows. -/
structure Insert where
  table : Text
  rows : List Row := []
  deriving DecidableEq

namespace Insert

/-! ## Steps -/

inductive Step
  | assign (column : Text) (value : Value)
  | row (row : Row)
  | rows (rows : List Row)
  deriving DecidableEq

def ofTable (table : Text) : Insert :=
  { table }

/-- Assigns a column of the last row, or of a first row when there is none yet. -/
def assignLast (column : Text) (value : Value) : List Row → List Row
  | [] => [Row.empty.assign column value]
  | [last] => [last.assign column value]
  | row :: rest => row :: assignLast column value rest

def apply (query : Insert) : Step → Insert
  | .assign column value => { query with rows := assignLast column value query.rows }
  | .row row => { query with rows := query.rows ++ [row] }
  | .rows rows => { query with rows := query.rows ++ rows }

def applyAll (query : Insert) (steps : List Step) : Insert :=
  steps.foldl apply query

/-! ## SQL -/

/-- The columns of the first row, of which there must be some. -/
def columnsOf : List Row → Except Error (List Text)
  | [] => .error (.missingField .data)
  | first :: _ => if first.isEmpty then .error (.missingField .data) else .ok first.columns

/-- The SQL of the value that a row has for a column. -/
def cellSql (functions : FunctionSet) (index : Nat) (row : Row) (column : Text) :
    Except Error Text :=
  match row.get? column with
  | some value => value.sql functions
  | none => .error (.missingField (.insertColumn column index))

/-- The values of a row, in the order of the columns; the row may have no other column. -/
def tupleSql (functions : FunctionSet) (columns : List Text) (index : Nat) (row : Row) :
    Except Error Text :=
  match row.columns.find? fun column => !columns.contains column with
  | some unexpected => .error (.rowMismatch index unexpected)
  | none => do
      let values ← columns.mapM (cellSql functions index row)
      return '(' :: Text.joined ", " values ++ [')']

/-- The tuples of rows that are numbered from an index on. -/
def tuplesSql (functions : FunctionSet) (columns : List Text) :
    Nat → List Row → Except Error (List Text)
  | _, [] => return []
  | index, row :: rest => do
      let tuple ← tupleSql functions columns index row
      return tuple :: (← tuplesSql functions columns (index + 1) rest)

def sql (functions : FunctionSet) (query : Insert) : Except Error Text := do
  let table ← Query.resolveTable query.table
  let columns ← columnsOf query.rows
  let tuples ← tuplesSql functions columns 0 query.rows
  let names ← columns.mapM Column.quote
  return "INSERT INTO " ++ table.name ++ " (" ++ Text.joined ", " names ++ ") VALUES "
    ++ Text.joined ", " tuples ++ ";"

def build (functions : FunctionSet) (query : Insert) : Except Error Statement :=
  return ⟨.insert, ← query.sql functions⟩

end Insert

end SqlComposer
