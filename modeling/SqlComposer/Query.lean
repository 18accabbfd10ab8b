import SqlComposer.Query.Delete
import SqlComposer.Query.Insert
import SqlComposer.Query.Select
import SqlComposer.Query.Update

/-!
# Queries of any kind

A `Query` is one of the four sorts of queries.  Building it needs the functions
that its values may call, and yields a statement of its own kind.
-/

namespace SqlComposer

set_option autoImplicit false

/-- A query of one of the four kinds. -/
inductive Query
  | select (query : Select)
  | insert (query : Insert)
  | update (query : Update)
  | delete (query : Delete)
  deriving DecidableEq

namespace Query

def build (functions : FunctionSet) : Query → Except Error Statement
  | .select query => query.build functions
  | .insert query => query.build functions
  | .update query => query.build functions
  | .delete query => query.build functions

end Query

end SqlComposer
