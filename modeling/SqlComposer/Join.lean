import SqlComposer.Condition
import SqlComposer.Reference.Table

/-!
# Joins

A join adds the rows of another table to a statement.  It has a kind, a table
that is resolved when the join is written, and a constraint: conditions, shared
columns, or nothing.  Only a cross join may go without, and an empty list of
conditions or columns is as good as none.

The keyword of a kind is read in any letter case and with any blanks between its
words, and the word `JOIN` may follow (`JoinKind.parse`).
-/

namespace SqlComposer

set_option autoImplicit false

/-! ## Kinds -/

/-- Which rows of the two tables a join keeps. -/
inductive JoinKind
  | inner
  | left
  | right
  | cross
  | leftOuter
  | rightOuter
  | fullOuter
  deriving DecidableEq

namespace JoinKind

def keyword : JoinKind → Text
  | .inner => "INNER"
  | .left => "LEFT"
  | .right => "RIGHT"
  | .cross => "CROSS"
  | .leftOuter => "LEFT OUTER"
  | .rightOuter => "RIGHT OUTER"
  | .fullOuter => "FULL OUTER"

/-- The words that name each kind; a full outer join has a short name too. -/
def spellings : List (List Text × JoinKind) :=
  [(["INNER"], .inner), (["LEFT"], .left), (["RIGHT"], .right), (["CROSS"], .cross),
    (["LEFT", "OUTER"], .leftOuter), (["RIGHT", "OUTER"], .rightOuter),
    (["FULL", "OUTER"], .fullOuter), (["FULL"], .fullOuter)]

/-- The words of a text in upper case, without the word `JOIN` at the end. -/
def kindWords (text : Text) : List Text :=
  (((Text.words text).map Text.uppercase).reverse.dropWhile
    fun word => word == ("JOIN" : Text)).reverse

def parse (text : Text) : Except Error JoinKind :=
  match spellings.lookup (kindWords text) with
  | some kind => .ok kind
  | none => .error (.joinShape (.unknownKind text))

end JoinKind

/-! ## Joins -/

/-- How the rows of the joined table are matched. -/
inductive JoinConstraint
  | conditions (conditions : List Condition)
  | sharedColumns (columns : List Text)
  | unconstrained
  deriving DecidableEq

/-- A join of another table. -/
structure Join where
  kind : JoinKind
  table : Text
  constraint : JoinConstraint := .unconstrained
  deriving DecidableEq

namespace Join

def constraintSql (functions : FunctionSet) (kind : JoinKind) (table : TableRef) :
    JoinConstraint → Except Error Text
  | .conditions conditions => do
      match ← Condition.listSql? functions conditions with
      | some sql => return " ON (" ++ sql ++ ")"
      | none => throw (.missingField (.onConditions table.fullName))
  | .sharedColumns [] => throw (.missingField (.usingColumns table.fullName))
  | .sharedColumns columns => do
      return " USING (" ++ Text.joined ", " (← columns.mapM Column.quote) ++ ")"
  | .unconstrained =>
      if kind = .cross then return []
      else throw (.missingField (.joinConstraint table.fullName))

def sql (functions : FunctionSet) (join : Join) : Except Error Text := do
  let table ← TableRef.resolve join.table
  let constraint ← constraintSql functions join.kind table join.constraint
  return join.kind.keyword ++ " JOIN " ++ table.fullName ++ constraint

/-- The SQL of joins in order; there is none for the empty list. -/
def listSql? (functions : FunctionSet) (joins : List Join) : Except Error (Option Text) :=
  match joins with
  | [] => .ok none
  | _ => do return some (Text.joined " " (← joins.mapM (Join.sql functions)))

/-- The joins with a blank in front, empty when there are none. -/
def clauseSql (functions : FunctionSet) (joins : List Join) : Except Error Text := do
  match ← listSql? functions joins with
  | some sql => return ' ' :: sql
  | none => return []

end Join

end SqlComposer
