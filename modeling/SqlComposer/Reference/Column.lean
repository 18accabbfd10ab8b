import SqlComposer.Reference.Segment

/-!
# Column references

A column is written in two ways.  Where an expression may stand, as in a
condition or a projection, a path of plain words is quoted segment by segment
and anything else is taken as an expression and left alone (`Column.sql`); the
last segment of a path may be a star.  Where only a column may stand, as in a
list of columns to insert, every name is quoted, and a name that cannot be
quoted is an error (`Column.quote`).

An item of an ordering is a column with an optional direction (`Column.orderSql`).
-/

namespace SqlComposer

set_option autoImplicit false

open Text (ticked trimmed uppercase isPlainWord)

namespace Column

/-! ## Columns where an expression may stand -/

/-- Whether the segments behind the first continue a path: plain words, the last perhaps a star. -/
def isPathTail : List Text → Bool
  | [] => true
  | [last] => isPlainWord last || last == "*"
  | segment :: rest => isPlainWord segment && isPathTail rest

/-- Whether segments make a path of at most three. -/
def isPath : List Text → Bool
  | [] => false
  | first :: rest => isPlainWord first && rest.length ≤ 2 && isPathTail rest

/-- A segment of a path as it is written; a star is not quoted. -/
def segmentSql (segment : Text) : Text :=
  if segment = "*" then segment else ticked segment

/-- The SQL of a column, or of an expression in its place. -/
def sql (raw : Text) : Text :=
  let segments := (Reference.unquoted (trimmed raw)).splitOn '.'
  if isPath segments then Text.joined "." (segments.map segmentSql) else trimmed raw

/-- The SQL of an item to order by: a last word that is a direction is kept behind the column. -/
def orderSql (item : Text) : Text :=
  let whole := sql (trimmed item)
  match Text.splitAtLast? Text.isBlank (trimmed item) with
  | some (column, word) =>
      let direction := uppercase word
      if direction = "ASC" ∨ direction = "DESC" then sql column ++ ' ' :: direction else whole
  | none => whole

/-! ## Columns where nothing else may stand -/

def quoteSegments (segments : List Text) : Except IdentifierFault Text :=
  if 3 < segments.length then .error .columnPathTooLong
  else do
    segments.forM Reference.checkSegment
    return Text.joined "." (segments.map ticked)

/-- The quoted path of a name that can only be a column. -/
def quote (raw : Text) : Except Error Text :=
  (quoteSegments (((Reference.unquoted raw).splitOn '.').map trimmed)).mapError
    (.invalidIdentifier raw)

end Column

end SqlComposer
