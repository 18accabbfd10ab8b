import SqlComposer.Text.Blank
import SqlComposer.Text.Word

/-!
# Kinds of statements

A statement reads rows, or it inserts, updates or deletes them; any other
statement is of the raw kind.  Hand-written SQL is classified by its leading
word: blanks and opening parentheses in front are skipped, and the letters that
follow are compared without regard to case (`StatementKind.ofSql`).
-/

namespace SqlComposer

set_option autoImplicit false

inductive StatementKind
  | select
  | insert
  | update
  | delete
  | raw
  deriving DecidableEq

namespace StatementKind

def word : StatementKind → Text
  | .select => "select"
  | .insert => "insert"
  | .update => "update"
  | .delete => "delete"
  | .raw => "raw"

/-- The kind with a capital letter, as log events show it. -/
def title : StatementKind → Text
  | .select => "Select"
  | .insert => "Insert"
  | .update => "Update"
  | .delete => "Delete"
  | .raw => "Raw"

def isMutation : StatementKind → Bool
  | .insert | .update | .delete => true
  | .select | .raw => false

/-- The letters that a statement starts with, behind blanks and opening parentheses. -/
def leadingWord (sql : Text) : Text :=
  (sql.dropWhile fun character => Text.isBlank character || character == '(').takeWhile
    Char.isAlpha

def ofSql (sql : Text) : StatementKind :=
  let word := Text.uppercase (leadingWord sql)
  if word = "SELECT" then .select
  else if word = "INSERT" then .insert
  else if word = "UPDATE" then .update
  else if word = "DELETE" then .delete
  else .raw

end StatementKind

end SqlComposer
