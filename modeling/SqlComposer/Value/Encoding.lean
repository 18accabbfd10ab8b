import SqlComposer.FunctionSet
import SqlComposer.Number.Layout
import SqlComposer.Value.Basic
import SqlComposer.Value.Literal

/-!
# The SQL of values

`Value.sql` writes a value as SQL.  A text takes the first of three forms that
fits: a whole call of an allowed function keeps its arguments as they are, a
quoted path of one to three segments stands for itself, and any other text is
escaped and quoted.  Numbers and truth values are written plainly, and a point
in time is a string.  A call is written around the SQL of its argument.

Encoding fails only for a function that is not allowed and for a number that is
not finite.
-/

namespace SqlComposer

set_option autoImplicit false

/-- The SQL of a double; only a finite one has any. -/
def Double.sql (number : Double) : Except Error Text :=
  if number.isFinite then .ok number.plainText
  else .error (.invalidValue (.notFinite number.plainText))

namespace Value

/-- A name that is not empty between grave accents. -/
def tickedPattern : Regex :=
  .seq (.one (· == Text.tick))
    (.seq (.headedRun (· != Text.tick) (· != Text.tick)) (.one (· == Text.tick)))

/-- A quoted name, and up to so many more with a point in front of each. -/
def pathPattern (more : Nat) : Regex :=
  .seq tickedPattern (.upTo more (.seq (.one (· == '.')) tickedPattern))

/-- Whether a text is a path of quoted segments, up to a number of them, and nothing else. -/
def isQuotedPath : Nat → Text → Bool
  | 0, _ => false
  | more + 1, path => (pathPattern more).accepts path

def textSql (functions : FunctionSet) (text : Text) : Text :=
  match functions.call? text with
  | some (name, arguments) => name ++ '(' :: arguments ++ [')']
  | none => if isQuotedPath 3 text then text else Literal.literal text

def boolSql (value : Bool) : Text :=
  if value then "1" else "0"

def sql (functions : FunctionSet) : Value → Except Error Text
  | .null => .ok "NULL"
  | .bool value => .ok (boolSql value)
  | .int value => .ok (Number.signedDigits value.toInt)
  | .uint value => .ok (Number.digits value.toNat)
  | .float value => value.sql
  | .text value => .ok (textSql functions value)
  | .dateTime value => .ok (Literal.inMarks value.text)
  | .call function argument =>
      if functions.allows function then do
        let inner ← sql functions argument
        return FunctionSet.normalName function ++ '(' :: inner ++ [')']
      else .error (.invalidValue (.functionNotAllowed function))

def listSql (functions : FunctionSet) (values : List Value) : Except Error Text := do
  return Text.joined ", " (← values.mapM (sql functions))

end Value

end SqlComposer
