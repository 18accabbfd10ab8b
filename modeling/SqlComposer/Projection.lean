import SqlComposer.Reference.Column
import SqlComposer.Reference.Table

/-!
# Projections

A projection lists what a query returns: expressions as written, expressions
under an alias, and functions of columns under an alias.  The alias of a column
is quoted without its grave accents and outer blanks, and must not be blank.

A function is chosen by a key (`ProjectionFunction.ofKey`): three keys name the
functions with a form of their own, and any other key calls the function of that
name on one column.  An empty projection stands for all columns of the table.
-/

namespace SqlComposer

set_option autoImplicit false

open Text (ticked trimmed)

/-! ## Functions -/

inductive ProjectionFunction
  | countDistinct (column : Text)
  | concat (columns : List Text)
  | groupConcat (columns : List Text)
  | call (name : Text) (column : Text)
  deriving DecidableEq

namespace ProjectionFunction

def singleArgument (key : Text) : List Text → Except Error Text
  | [argument] => .ok argument
  | arguments => .error (.columnShape (.oneArgument key arguments.length))

def ofKey (key : Text) (arguments : List Text) : Except Error ProjectionFunction :=
  if key = "count_distinct" then return .countDistinct (← singleArgument key arguments)
  else if key = "concat" then return .concat arguments
  else if key = "group_concat" then return .groupConcat arguments
  else return .call key (← singleArgument key arguments)

/-- The arguments of a function that needs at least one. -/
def argumentsSql (key : Text) : List Text → Except Error Text
  | [] => .error (.columnShape (.someArgument key))
  | columns => .ok (Text.joined ", " (columns.map Column.sql))

def sql : ProjectionFunction → Except Error Text
  | .countDistinct column => return "COUNT(DISTINCT " ++ Column.sql column ++ ")"
  | .concat columns => return "CONCAT(" ++ (← argumentsSql "concat" columns) ++ ")"
  | .groupConcat columns =>
      return "GROUP_CONCAT(" ++ (← argumentsSql "group_concat" columns) ++ ")"
  | .call name column =>
      if Text.isPlainWord name then
        return Text.uppercase name ++ '(' :: Column.sql column ++ [')']
      else throw (.columnShape (.functionName name))

end ProjectionFunction

/-! ## Projected columns -/

/-- One column of a projection. -/
inductive Projected
  | raw (expression : Text)
  | aliased (expression : Text) (aliasName : Text)
  | computed (function : ProjectionFunction) (aliasName : Text)
  deriving DecidableEq

namespace Projected

def aliasSql (aliasName : Text) : Except Error Text :=
  let name := trimmed (Reference.unquoted aliasName)
  if name.isEmpty then .error (.columnShape .emptyAlias) else .ok (ticked name)

def sql : Projected → Except Error Text
  | .raw expression => return expression
  | .aliased expression aliasName => return expression ++ " AS " ++ (← aliasSql aliasName)
  | .computed function aliasName =>
      return (← function.sql) ++ " AS " ++ (← aliasSql aliasName)

/-- The SQL of each column, or all columns of the table when there is a table and no column. -/
def listSql (columns : List Projected) (table : Option TableRef) : Except Error (List Text) :=
  match columns with
  | [] => return (table.map TableRef.allColumns).toList
  | _ => columns.mapM sql

end Projected

end SqlComposer
