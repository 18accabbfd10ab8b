import SqlComposer.Statement.Basic
import SqlComposer.Template.Segment
import SqlComposer.Value.Encoding

/-!
# Templates

Filling in a template (`fillPositional`, `fillNamed`) writes the SQL of a value for each
marker of one sort that the scan reports.  Everything else is written as it stands in the
template, markers of the other sort included.
-/

namespace SqlComposer

set_option autoImplicit false

namespace Template

/-- The text with the SQL of a value in front. -/
def placed (functions : FunctionSet) (value : Value) (rest : Except Error Text) :
    Except Error Text := do
  let sql ← value.sql functions
  return sql ++ (← rest)

/-- Fills the positional markers with values in order; `given` is the number of all values. -/
def fillPositional (functions : FunctionSet) (given : Nat) :
    List Segment → List Value → Except Error Text
  | [], [] => return []
  | [], unused => throw (.invalidValue (.tooManyValues (given - unused.length) given))
  | .text run :: rest, values => return run ++ (← fillPositional functions given rest values)
  | .named name :: rest, values =>
      return ':' :: name ++ (← fillPositional functions given rest values)
  | .positional :: rest, value :: values =>
      placed functions value (fillPositional functions given rest values)
  | .positional :: _, [] => throw (.invalidValue (.tooFewValues given))

/-- The value of a name; of several values for one name the last counts. -/
def valueOf? (values : List (Text × Value)) (name : Text) : Option Value :=
  values.reverse.lookup name

/-- Fills the named markers with the values of their names. -/
def fillNamed (functions : FunctionSet) (values : List (Text × Value)) :
    List Segment → Except Error Text
  | [] => return []
  | .text run :: rest => return run ++ (← fillNamed functions values rest)
  | .positional :: rest => return '?' :: (← fillNamed functions values rest)
  | .named name :: rest =>
      match valueOf? values name with
      | some value => placed functions value (fillNamed functions values rest)
      | none => throw (.missingField (.markerValue name))

def interpolate (functions : FunctionSet) (template : Text) (values : List Value) :
    Except Error Statement := do
  return .ofSql (← fillPositional functions values.length (segments template) values)

def interpolateNamed (functions : FunctionSet) (template : Text) (values : List (Text × Value)) :
    Except Error Statement := do
  return .ofSql (← fillNamed functions values (segments template))

end Template

end SqlComposer
