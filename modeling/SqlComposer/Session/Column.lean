import SqlComposer.Json.Printer
import SqlComposer.Error

/-!
# Descriptions of columns

The server describes a table by one row for each of its columns, with the name,
the type, whether nulls are allowed, the key, the default and remarks.
`ColumnDescription.ofRow` reads such a row.  Only the name and the type must be
there; a value that is no string counts by its JSON text, and null counts as
missing.
-/

namespace SqlComposer

set_option autoImplicit false

/-! ## Keys -/

/-- The index that a column belongs to. -/
inductive ColumnKey
  | primary
  | unique
  | other (name : Text)
  deriving DecidableEq

namespace ColumnKey

/-- The key that the server reports by a word; a blank word is none. -/
def ofWord? (word : Text) : Option ColumnKey :=
  let word := Text.trimmed word
  if word.isEmpty then none
  else if word = "PRI" then some .primary
  else if word = "UNI" then some .unique
  else some (.other word)

def name : ColumnKey → Text
  | .primary => "PRIMARY"
  | .unique => "UNIQUE"
  | .other name => name

end ColumnKey

/-! ## Columns -/

structure ColumnDescription where
  name : Text
  type : Text
  nullable : Bool
  key : Option ColumnKey
  defaultValue : Option Text
  remarks : Text
  autoIncrement : Bool
  deriving DecidableEq

namespace ColumnDescription

/-- The text of an entry of a row, if it is there and not null. -/
def entryText? (row : List (Text × Json)) (key : Text) : Option Text :=
  match Json.presentMember? key row with
  | some (.string value) => some value
  | some other => some other.text
  | none => none

def ofRow (row : List (Text × Json)) : Except Error ColumnDescription :=
  match entryText? row "Field" with
  | none => .error (.missingField .describedName)
  | some name =>
      match entryText? row "Type" with
      | none => .error (.missingField (.describedType name))
      | some type =>
          let remarks := (entryText? row "Extra").getD []
          .ok
            { name
              type := Text.uppercase type
              nullable := (entryText? row "Null").any fun word => Text.uppercase word = "YES"
              key := (entryText? row "Key").bind ColumnKey.ofWord?
              defaultValue := entryText? row "Default"
              remarks
              autoIncrement := Text.occursIn "auto_increment" (Text.lowercase remarks) }

def isPrimaryKey (column : ColumnDescription) : Bool :=
  column.key = some .primary

end ColumnDescription

end SqlComposer
