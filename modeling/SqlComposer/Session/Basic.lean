import SqlComposer.Query
import SqlComposer.Session.Column
import SqlComposer.Session.Exchange
import SqlComposer.Session.Uuid

/-!
# Sessions

A `Session` runs queries through a client: it fixes the functions that values may
call and the limit for SQL in the log.  Besides queries it answers a few
questions about the server by statements of its own: the columns of a table, the
names of the tables, the time, digests and fresh identifiers.

Every question is a `Request`, so that a call sends at most one statement.
`Session.call` performs one call, and `Session.converse` performs a sequence of
calls against one list of replies.
-/

namespace SqlComposer

set_option autoImplicit false

/-- The setting in which calls are performed. -/
structure Session where
  functions : FunctionSet := .standard
  logLimit : Option Nat := some 200

/-! ## Requests about the server -/

namespace Request

def rowsOf (functions : FunctionSet) (query : Query) : Request (List ResultRow) :=
  ⟨query.build functions, fun output => .ok output.resultRows⟩

def firstRowOf (functions : FunctionSet) (query : Query) : Request (Option ResultRow) :=
  ⟨query.build functions, fun output => .ok output.resultRows.head?⟩

def summaryOf (functions : FunctionSet) (query : Query) : Request MutationSummary :=
  ⟨query.build functions, fun output => .ok output.summary⟩

def outputOf (sql : Text) : Request Output :=
  ⟨.ok (.ofSql sql), .ok⟩

def columnsOf (table : Text) : Request (List ColumnDescription) where
  statement := do
    let table ← TableRef.resolve table
    return .ofSql ("DESCRIBE " ++ table.name ++ ";")
  read output := output.resultRows.mapM ColumnDescription.ofRow

/-- The part of a table name to look for; percent signs around it and an empty part do not count. -/
def soughtPart? (part : Option Text) : Option Text :=
  (part.map (Text.stripWhere (· == '%'))).filter (!·.isEmpty)

def tablesSql (part : Option Text) : Text :=
  match soughtPart? part with
  | some part =>
      "SHOW TABLES LIKE " ++ Literal.inMarks ('%' :: Literal.escaped part ++ ['%']) ++ ";"
  | none => "SHOW TABLES;"

/-- The name of a listed table: the first value of its row. -/
def listedTable (row : ResultRow) : Except Error Text :=
  match row with
  | (_, .string name) :: _ => .ok name
  | _ => .error (.missingField .listedTable)

def tableNames (part : Option Text) : Request (List Text) where
  statement := .ok (.ofSql (tablesSql part))
  read output := output.resultRows.mapM listedTable

/-- A text in a column of the first row. -/
def textOf (sql : Text) (column : Text) : Request Text where
  statement := .ok (.ofSql sql)
  read output :=
    match (output.resultRows.head?.bind (Json.member? column)).bind Json.string? with
    | some text => .ok text
    | none => .error (.missingField (.resultColumn column))

/-- A selection of one expression under a name. -/
def selectAs (expression name : Text) : Text :=
  "SELECT " ++ expression ++ " AS " ++ Text.ticked name ++ ";"

/-- The current time as an expression, moved to a time zone when one is given. -/
def nowExpression (timeZone : Option Text) : Text :=
  match (timeZone.map Text.trimmed).filter (!·.isEmpty) with
  | some zone =>
      "CONVERT_TZ(NOW(), @@session.time_zone, " ++ Literal.exactLiteral zone ++ ")"
  | none => "NOW()"

def now (timeZone : Option Text) : Request Text :=
  textOf (selectAs ("CAST(" ++ nowExpression timeZone ++ " AS CHAR)") "now") "now"

def md5 (text : Text) : Request Text :=
  textOf (selectAs ("MD5(" ++ Literal.exactLiteral text ++ ")") "md5") "md5"

def sha1 (text : Text) : Request Text :=
  textOf (selectAs ("SHA1(" ++ Literal.exactLiteral text ++ ")") "sha1") "sha1"

def uuid : Request Uuid where
  statement := (textOf (selectAs "UUID()" "uuid") "uuid").statement
  read output := do
    let text ← (textOf (selectAs "UUID()" "uuid") "uuid").read output
    match Uuid.parse? text with
    | some uuid => return uuid
    | none => throw (.invalidValue (.badUuid text))

end Request

/-! ## Calls -/

/-- A call of a session.  The two direct calls go past it: they use the standard functions and log
nothing but the making of the statement. -/
inductive Call
  | build (query : Query)
  | run (sql : Text)
  | fetchAll (query : Query)
  | fetchFirst (query : Query)
  | execute (query : Query)
  | fetchAllDirectly (query : Query)
  | executeDirectly (query : Query)
  | describe (table : Text)
  | tables (part : Option Text)
  | now (timeZone : Option Text)
  | md5 (text : Text)
  | sha1 (text : Text)
  | uuid

inductive Answer
  | statement (statement : Statement)
  | output (output : Output)
  | rows (rows : List ResultRow)
  | firstRow (row : Option ResultRow)
  | summary (summary : MutationSummary)
  | columns (columns : List ColumnDescription)
  | names (names : List Text)
  | text (text : Text)
  | uuid (uuid : Uuid)

namespace Session

/-- Builds a statement without sending it. -/
def build (session : Session) (query : Query) (replies : List Reply) : Exchange Statement :=
  let built := query.build session.functions
  { result := built
    sent := []
    events := (built.toOption.map Event.built).toList
    unused := replies }

def call (session : Session) (replies : List Reply) : Call → Exchange Answer
  | .build query => (session.build query replies).map .statement
  | .run sql => ((Request.outputOf sql).perform session.logLimit replies).map .output
  | .fetchAll query =>
      ((Request.rowsOf session.functions query).perform session.logLimit replies).map .rows
  | .fetchFirst query =>
      ((Request.firstRowOf session.functions query).perform session.logLimit replies).map
        .firstRow
  | .execute query =>
      ((Request.summaryOf session.functions query).perform session.logLimit replies).map .summary
  | .fetchAllDirectly query =>
      ((Request.rowsOf .standard query).performDirectly replies).map .rows
  | .executeDirectly query =>
      ((Request.summaryOf .standard query).performDirectly replies).map .summary
  | .describe table =>
      ((Request.columnsOf table).perform session.logLimit replies).map .columns
  | .tables part => ((Request.tableNames part).perform session.logLimit replies).map .names
  | .now timeZone => ((Request.now timeZone).perform session.logLimit replies).map .text
  | .md5 text => ((Request.md5 text).perform session.logLimit replies).map .text
  | .sha1 text => ((Request.sha1 text).perform session.logLimit replies).map .text
  | .uuid => (Request.uuid.perform session.logLimit replies).map .uuid

/-- Performs calls in order, each with the replies that the ones before it left. -/
def converse (session : Session) : List Reply → List Call → List (Exchange Answer)
  | _, [] => []
  | replies, first :: rest =>
      let exchange := session.call replies first
      exchange :: session.converse exchange.unused rest

end Session

end SqlComposer
