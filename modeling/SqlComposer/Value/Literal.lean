import SqlComposer.Text.Basic

/-!
# String literals

A text becomes a string literal by putting a backslash in front of what could
end the literal, and by writing control characters as a backslash and a letter.
The operand of a pattern also has its percent signs escaped, so that they lose
their meaning as wildcards (`escaped`); a literal whose exact content matters
keeps them (`exactLiteral`).
-/

namespace SqlComposer

set_option autoImplicit false

namespace Literal

/-- Whether percent signs are escaped. -/
inductive PercentSigns
  | kept
  | escaped
  deriving DecidableEq

/-- A character as it stands in a literal. -/
def escapedCharacter (percentSigns : PercentSigns) (character : Char) : Text :=
  if character = '\x00' then "\\0"
  else if character = '\x08' then "\\b"
  else if character = '\t' then "\\t"
  else if character = '\x1a' then "\\z"
  else if character = '\n' then "\\n"
  else if character = '\r' then "\\r"
  else if character = '\x22' ∨ character = '\x27' ∨ character = '\\' then ['\\', character]
  else if character = '%' ∧ percentSigns = .escaped then "\\%"
  else [character]

/-- A text with all its characters as they stand in a literal. -/
def escapedWith (percentSigns : PercentSigns) (text : Text) : Text :=
  text.flatMap (escapedCharacter percentSigns)

/-- A text as it stands in a literal, percent signs included. -/
def escaped (text : Text) : Text :=
  escapedWith .escaped text

/-- Text between the marks of a string. -/
def inMarks (body : Text) : Text :=
  '\x27' :: body ++ ['\x27']

/-- The literal of a text. -/
def literal (text : Text) : Text :=
  inMarks (escaped text)

/-- The literal of a text with its percent signs kept. -/
def exactLiteral (text : Text) : Text :=
  inMarks (escapedWith .kept text)

end Literal

end SqlComposer
