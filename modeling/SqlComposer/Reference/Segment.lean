import SqlComposer.Error

/-!
# Segments of names

A name of a table or a column is a path of segments with points between them.
Each segment is quoted on its own, so it must not be empty and must not hold the
NUL character (`checkSegment`).  Grave accents in a written name are dropped
before its segments are quoted again.
-/

namespace SqlComposer

set_option autoImplicit false

namespace Reference

/-- Accepts a segment that can stand between grave accents. -/
def checkSegment (segment : Text) : Except IdentifierFault Unit :=
  if segment.isEmpty then .error .emptySegment
  else if segment.contains '\x00' then .error .nulCharacter
  else .ok ()

/-- A written name without its grave accents. -/
def unquoted (raw : Text) : Text :=
  Text.without Text.tick raw

end Reference

end SqlComposer
