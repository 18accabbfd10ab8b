import SqlComposer.Text.Word

/-!
# Universally unique identifiers

An identifier is 32 hexadecimal digits, kept in lower case.  It is read from the
digits alone, from five groups with hyphens between them, from the groups in
braces, or from the groups behind `urn:uuid:`, in either letter case, and is
written as the five groups.
-/

namespace SqlComposer

set_option autoImplicit false

/-- A universally unique identifier, given by its 32 hexadecimal digits in lower case. -/
structure Uuid where
  digits : Text
  deriving DecidableEq

namespace Uuid

/-- A decimal digit or one of the letters from `a` to `f` in either case. -/
def isHexDigit (character : Char) : Bool :=
  character.isDigit || ('a' ≤ character.toLower && character.toLower ≤ 'f')

def ofDigits? (digits : Text) : Option Uuid :=
  if digits.length = 32 ∧ digits.all isHexDigit then some ⟨Text.lowercase digits⟩ else none

/-- The identifier written as five groups. -/
def ofGroups? (text : Text) : Option Uuid :=
  let groups := text.splitOn '-'
  if groups.map List.length = [8, 4, 4, 4, 12] then ofDigits? groups.flatten else none

/-- Reads an identifier in any of its forms. -/
def parse? (text : Text) : Option Uuid :=
  if Text.lowercase (text.take 9) = "urn:uuid:" then ofGroups? (text.drop 9)
  else if text.head? = some '\x7b' ∧ text.getLast? = some '\x7d' then
    ofGroups? (text.drop 1).dropLast
  else if text.contains '-' then ofGroups? text
  else ofDigits? text

def text (uuid : Uuid) : Text :=
  let part := fun start count => (uuid.digits.drop start).take count
  Text.joined "-" [part 0 8, part 8 4, part 12 4, part 16 4, part 20 12]

end Uuid

end SqlComposer
