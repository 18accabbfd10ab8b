import SqlComposer.Lexical.Quotes
import SqlComposer.Text.Blank
import SqlComposer.Text.Regex
import SqlComposer.Text.Word

/-!
# Allowed functions

A value may call a function only if the function's name is in a set that the
caller controls.  Names are compared without regard to case or to blanks around
them: the set keeps the trimmed name in upper case, sorted by character, and the
empty name is never in it.  Each decision about a name replaces the one before
(`FunctionSet.Change`).

A text that is one whole call of an allowed function is recognised by
`FunctionSet.call?`.  Its arguments must close all their quotes and parentheses,
so that the first parenthesis is closed by the last character and by no other.
-/

namespace SqlComposer

set_option autoImplicit false

/-- The functions that values may call: trimmed names in upper case, in order. -/
structure FunctionSet where
  names : List Text
  deriving DecidableEq

namespace FunctionSet

/-! ## The set -/

/-- A function name as it is kept and looked up. -/
def normalName (function : Text) : Text :=
  Text.uppercase (Text.trimmed function)

/-- Puts a name in its place among sorted names, once. -/
def insertName (name : Text) : List Text → List Text
  | [] => [name]
  | other :: rest =>
      if name < other then name :: other :: rest
      else if name = other then other :: rest
      else other :: insertName name rest

/-- Allows one more function; a blank name changes nothing. -/
def allow (functions : FunctionSet) (function : Text) : FunctionSet :=
  if (normalName function).isEmpty then functions
  else ⟨insertName (normalName function) functions.names⟩

def allowAll (functions : FunctionSet) (added : List Text) : FunctionSet :=
  added.foldl allow functions

def deny (functions : FunctionSet) (function : Text) : FunctionSet :=
  ⟨functions.names.filter (· != normalName function)⟩

def ofNames (functions : List Text) : FunctionSet :=
  allowAll ⟨[]⟩ functions

def allows (functions : FunctionSet) (function : Text) : Bool :=
  functions.names.contains (normalName function)

def standardNames : List Text :=
  ["UUID", "DATE", "NOW", "CURDATE", "CURTIME", "UNIX_TIMESTAMP", "MD5", "SHA1", "SHA2", "RAND",
    "LENGTH", "LOWER", "UPPER", "SUBSTRING", "CONCAT", "CONCAT_WS", "REPLACE", "TRIM", "LEFT",
    "RIGHT", "LTRIM", "RTRIM"]

def standard : FunctionSet :=
  ofNames standardNames

/-! ## Changes -/

inductive Change
  | allow (function : Text)
  | allowAll (functions : List Text)
  | deny (function : Text)
  deriving DecidableEq

def apply (functions : FunctionSet) : Change → FunctionSet
  | .allow function => functions.allow function
  | .allowAll added => functions.allowAll added
  | .deny function => functions.deny function

def applyAll (functions : FunctionSet) (changes : List Change) : FunctionSet :=
  changes.foldl apply functions

/-! ## Calls -/

/-- A name, a parenthesis, and arguments up to the parenthesis that ends the text. -/
def callPattern : Regex :=
  .seq (.group (.headedRun Text.isWordStart Text.isWordCharacter))
    (.seq (.one (· == '(')) (.seq (.group (.many fun _ => true)) (.one (· == ')'))))

/-- Splits a text of the form `NAME(arguments)` into its name and its arguments. -/
def splitCall? (text : Text) : Option (Text × Text) :=
  match callPattern.groups? text with
  | some [name, arguments] => some (name, arguments)
  | _ => none

/-- The name in upper case and the arguments as written, when a text is one whole call of an
allowed function. -/
def call? (functions : FunctionSet) (text : Text) : Option (Text × Text) :=
  match splitCall? text with
  | some (name, arguments) =>
      if functions.allows name ∧ Lexical.isClosed .everywhere arguments then
        some (Text.uppercase name, arguments)
      else none
  | none => none

end FunctionSet

end SqlComposer
