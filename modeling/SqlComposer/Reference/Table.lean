import SqlComposer.Reference.Segment

/-!
# Table references

A table reference names a table, with a database in front of it and an alias
behind it when there are any.  It is read from text such as
`shop.users AS u` (`TableRef.resolve`): grave accents are dropped, the alias
follows the separator ` AS ` in exactly this case, and the path in front of it
has one or two segments.  Blanks around each part do not count.

A reference is written in three ways: its name, the name with its alias, and the
projection of all its columns.
-/

namespace SqlComposer

set_option autoImplicit false

open Text (ticked trimmed)

/-- A table with an optional database and an optional alias. -/
structure TableRef where
  database : Option Text
  table : Text
  aliasName : Option Text
  deriving DecidableEq

namespace TableRef

/-! ## Reading -/

/-- What separates a table from its alias. -/
def aliasSeparator : Text := " AS "

/-- The pieces of a text between alias separators, found from the left. -/
def splitAtAlias : Text → List Text
  | [] => [[]]
  | ' ' :: 'A' :: 'S' :: ' ' :: rest => [] :: splitAtAlias rest
  | character :: rest => (splitAtAlias rest).modifyHead (List.cons character)

/-- The path and the alias of an unquoted reference. -/
def splitAlias (text : Text) : Except IdentifierFault (Text × Option Text) :=
  match splitAtAlias text with
  | [path] => .ok (trimmed path, none)
  | [path, aliasName] => .ok (trimmed path, some (trimmed aliasName))
  | _ => .error .severalAliases

def splitPath (path : Text) : Except IdentifierFault (Option Text × Text) :=
  match path.splitOn '.' with
  | [table] => .ok (none, trimmed table)
  | [database, table] => .ok (some (trimmed database), trimmed table)
  | _ => .error .tablePathTooLong

/-- Reads a reference; the table is checked before its database and its alias. -/
def parse (raw : Text) : Except IdentifierFault TableRef := do
  let (path, aliasName) ← splitAlias (Reference.unquoted raw)
  let (database, table) ← splitPath path
  Reference.checkSegment table
  database.forM Reference.checkSegment
  aliasName.forM Reference.checkSegment
  return { database, table, aliasName }

/-- Reads a reference, with the text as written in the error. -/
def resolve (raw : Text) : Except Error TableRef :=
  (parse raw).mapError (.invalidIdentifier raw)

/-- The reference to a bare table, whose name is taken as it is. -/
def ofTable (table : Text) : Except Error TableRef :=
  match Reference.checkSegment table with
  | .ok _ => .ok { database := none, table, aliasName := none }
  | .error fault => .error (.invalidIdentifier table fault)

def withAlias (aliasName : Text) (reference : TableRef) : TableRef :=
  { reference with aliasName := some aliasName }

/-! ## Writing -/

def name (reference : TableRef) : Text :=
  match reference.database with
  | some database => ticked database ++ '.' :: ticked reference.table
  | none => ticked reference.table

def fullName (reference : TableRef) : Text :=
  match reference.aliasName with
  | some aliasName => reference.name ++ aliasSeparator ++ ticked aliasName
  | none => reference.name

/-- All columns of the table, by its alias if it has one. -/
def allColumns (reference : TableRef) : Text :=
  (match reference.aliasName with
    | some aliasName => ticked aliasName
    | none => reference.name) ++ ".*"

end TableRef

end SqlComposer
