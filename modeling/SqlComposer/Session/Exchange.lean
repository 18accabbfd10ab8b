import SqlComposer.Error
import SqlComposer.Statement.Basic
import SqlComposer.Text.Utf8

/-!
# Exchanges with the database client

The client takes the SQL of one statement and replies with rows, with the
summary of a change, or with a failure.  Its behaviour is given by the list of
its replies; when they have run out it returns no rows.

A `Request` is a statement, or the error that kept it from being built, together
with the way to read the client's output.  Performing it is an `Exchange`: the
result, the texts that were sent, the events that were logged, and the replies
that are left.  A request without a statement sends nothing and uses no reply.

Log events show SQL cut to a limit in bytes; what is sent is never cut.
-/

namespace SqlComposer

set_option autoImplicit false

/-! ## Replies -/

/-- A row of a result: its columns and their values, in order. -/
abbrev ResultRow := List (Text × Json)

structure MutationSummary where
  insertId : Option UInt64
  affectedRows : UInt64
  deriving DecidableEq

inductive Output
  | rows (rows : List ResultRow)
  | mutation (summary : MutationSummary)

namespace Output

/-- The rows of a result; a change has none. -/
def resultRows : Output → List ResultRow
  | .rows found => found
  | .mutation _ => []

/-- The summary of a change; rows mean that nothing was changed. -/
def summary : Output → MutationSummary
  | .rows _ => ⟨none, 0⟩
  | .mutation done => done

end Output

abbrev Reply := Except ClientFailure Output

/-- The reply to the next statement and the replies after it. -/
def nextReply : List Reply → Reply × List Reply
  | [] => (.ok (.rows []), [])
  | reply :: replies => (reply, replies)

/-! ## Events -/

inductive Event
  | built (statement : Statement)
  | executing (kind : StatementKind) (shown : Text)
  | failed (code : Text) (message : Text) (shown : Text)
  deriving DecidableEq

namespace Event

def level : Event → Text
  | .built _ | .executing .. => "DEBUG"
  | .failed .. => "WARN"

def entries : Event → List (Text × Text)
  | .built statement =>
      [("message", "built statement"), ("kind", statement.kind.title), ("sql", statement.sql)]
  | .executing kind shown =>
      [("message", "executing"), ("kind", kind.title), ("sql", shown)]
  | .failed code message shown =>
      [("message", "statement failed"), ("code", code), ("message", message), ("sql", shown)]

end Event

/-! ## Requests -/

/-- A statement to be sent, or why there is none, and the way to read the output. -/
structure Request (α : Type) where
  statement : Except Error Statement
  read : Output → Except Error α

/-- What came of a request. -/
structure Exchange (α : Type) where
  result : Except Error α
  sent : List Text
  events : List Event
  unused : List Reply

/-- The exchange with another result made from its result. -/
def Exchange.map {α β : Type} (transform : α → β) (exchange : Exchange α) : Exchange β :=
  { exchange with result := exchange.result.map transform }

/-- SQL as the log shows it under a limit. -/
def shownSql (limit : Option Nat) (sql : Text) : Text :=
  match limit with
  | some bytes => Text.truncated bytes sql
  | none => sql

namespace Request

variable {α : Type}

def resultOf (request : Request α) : Reply → Except Error α
  | .ok output => request.read output
  | .error failure => .error (.client failure)

/-- The events of a reply: only a failure is logged. -/
def replyEvents (limit : Option Nat) : Reply → List Event
  | .ok _ => []
  | .error failure =>
      [.failed (failure.code.getD []) failure.message (shownSql limit failure.sql)]

def perform (limit : Option Nat) (replies : List Reply) (request : Request α) : Exchange α :=
  match request.statement with
  | .error error => { result := .error error, sent := [], events := [], unused := replies }
  | .ok statement =>
      let (reply, unused) := nextReply replies
      { result := request.resultOf reply
        sent := [statement.sql]
        events :=
          [.built statement, .executing statement.kind (shownSql limit statement.sql)]
            ++ replyEvents limit reply
        unused }

/-- Performs a request past the session, so that only the making of the statement is logged. -/
def performDirectly (replies : List Reply) (request : Request α) : Exchange α :=
  match request.statement with
  | .error error => { result := .error error, sent := [], events := [], unused := replies }
  | .ok statement =>
      let (reply, unused) := nextReply replies
      { result := request.resultOf reply
        sent := [statement.sql]
        events := [.built statement]
        unused }

end Request

end SqlComposer
