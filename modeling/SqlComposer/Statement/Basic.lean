import SqlComposer.Statement.Kind

/-!
# Statements

A statement is finished SQL together with its kind.  Every literal is already in
the text; nothing is left to be bound by the server.
-/

namespace SqlComposer

set_option autoImplicit false

/-- Finished SQL and what it does. -/
structure Statement where
  kind : StatementKind
  sql : Text
  deriving DecidableEq

namespace Statement

/-- Hand-written SQL, classified by its leading word. -/
def ofSql (sql : Text) : Statement :=
  ⟨StatementKind.ofSql sql, sql⟩

end Statement

end SqlComposer
