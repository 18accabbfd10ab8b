import SqlComposer.Proofs.Lexical.Forms
import SqlComposer.Proofs.Reference.Rendering
import SqlComposer.Proofs.Session.Transcript
import SqlComposer.Proofs.Value.Escaping
import SqlComposer.Proofs.Value.Pieces

/-!
# Inquiries about the server

The statements by which a session asks the server for columns, tables, the time and digests
are written by hand around the argument of the call.  Each of them has a fixed form, and
the argument only ever shows up as the body of a run of it: a name between grave accents,
which holds none (`reads_name`), or a string, whose body is the escaped argument
(`reads_string`).  So whatever the argument holds, the server is sent one statement of that
form, and reads the argument back from its string (`Session.inquiries_keepTheirForm`).
-/

namespace SqlComposer

set_option autoImplicit false

open Lexical (IsOneStatement QuoteMark ReadsAs isClosed)
open Literal (escapedWith unescape?)

/-! ## Pieces of hand-written statements -/

namespace Lexical

/-- A name between grave accents reads as a run, unless it has a grave accent itself. -/
theorem reads_name {name : Text} (noTick : Text.tick ∉ name) :
    ReadsAs .inStrings [Text.tick, Text.tick] [(.tick, name)] (Text.ticked name) :=
  .enclose (staysIn_tick noTick)

/-- A body that does not leave its string reads as a run. -/
theorem reads_string {body : Text} (stays : StaysIn .inStrings .single body) :
    ReadsAs .inStrings ['\x27', '\x27'] [(.single, body)] (Literal.inMarks body) :=
  .enclose stays

/-- An escaped text in the place of an argument. -/
theorem reads_argument (before behind text : Text)
    (noRunBefore : before.all (isBare .inStrings)) (noRunBehind : behind.all (isBare .inStrings)) :
    ReadsAs .inStrings (before ++ ['\x27', '\x27'] ++ behind) [(.single, escapedWith .kept text)]
      (before ++ Literal.exactLiteral text ++ behind) :=
  ((ReadsAs.bare noRunBefore).append (reads_string (staysIn_escapedWith .kept text))).append
    (.bare noRunBehind)

end Lexical

/-- The path to a table reads as its names. -/
theorem TableRef.Unticked.reads_name {reference : TableRef} (unticked : reference.Unticked) :
    (reference.database = none →
      ReadsAs .inStrings "``" [(.tick, reference.table)] reference.name) ∧
    ∀ database, reference.database = some database →
      ReadsAs .inStrings "``.``" [(.tick, database), (.tick, reference.table)] reference.name := by
  have table := Lexical.reads_name unticked.table
  constructor
  · intro found
    rw [TableRef.name, found]
    exact table
  · intro database found
    have point : ReadsAs .inStrings ['.'] [] ['.'] := .bare rfl
    rw [TableRef.name, found]
    exact (Lexical.reads_name (unticked.database database found)).append (point.append table)

/-- A selection reads as its expression does, with the name of the column as one more run. -/
theorem Request.reads_selection {form expression : Text} {runs : List (QuoteMark × Text)}
    (reads : ReadsAs .inStrings form runs expression) (name : Text) (noTick : Text.tick ∉ name) :
    ReadsAs .inStrings ("SELECT " ++ form ++ " AS ``") (runs ++ [(.tick, name)])
      ("SELECT " ++ expression ++ " AS " ++ Text.ticked name) := by
  have select : ReadsAs .inStrings "SELECT " [] "SELECT " := .bare rfl
  have named : ReadsAs .inStrings " AS " [] " AS " := .bare rfl
  have whole := (select.append reads).append (named.append (Lexical.reads_name noTick))
  rw [List.nil_append, List.nil_append, ← List.append_assoc _ _ (Text.ticked name)] at whole
  exact whole

/-! ## Arguments that count -/

namespace Request

variable {strip : Text → Text}

/-- An argument that is missing, or of which nothing is left, does not count. -/
theorem counted_eq_none {given : Option Text} (nothing : ∀ text ∈ given, strip text = []) :
    (given.map strip).filter (!·.isEmpty) = none := by
  cases given with
  | none => rfl
  | some text =>
      rw [Option.map_some, nothing text rfl]
      rfl

/-- An argument counts as what is left of it. -/
theorem counted_eq_some {text : Text} (something : strip text ≠ []) :
    ((some text).map strip).filter (!·.isEmpty) = some (strip text) := by
  rw [Option.map_some, Option.filter_some_pos]
  simpa using something

end Request

/-! ## Statements that are sent -/

namespace Session

/-- Whatever the client replies, a call sends one text, which is one statement of this form with
these runs. -/
def Asks (session : Session) (call : Call) (form : Text) (runs : List (QuoteMark × Text)) : Prop :=
  ∃ sql, (∀ replies, (session.call replies call).sent = [sql]) ∧
    IsOneStatement .inStrings sql ∧ ReadsAs .inStrings form runs sql

variable {session : Session} {call : Call}

/-- A call asks by its statement, which has a semicolon behind what it reads as. -/
theorem asks_of_statement (sends : call.sends) {form text : Text} {runs : List (QuoteMark × Text)}
    (built : call.statement session.functions = .ok (.ofSql (text ++ [';'])))
    (reads : ReadsAs .inStrings form runs text) (closed : isClosed .inStrings form)
    (noSemicolon : ';' ∉ Lexical.unquoted .inStrings .outside form) :
    session.Asks call (form ++ [';']) runs := by
  refine ⟨text ++ [';'], ?_, reads.isOneStatement closed noSemicolon, ?_⟩
  · intro replies
    exact ((session.call_answered sends replies).built _ built).1
  · have semicolon : ReadsAs .inStrings [';'] [] [';'] := .bare rfl
    have whole := reads.append semicolon
    rwa [List.append_nil] at whole

/-- A description asks by the path to the table, whose names are its only runs. -/
theorem describe_asks {table : Text} {reference : TableRef}
    (resolved : TableRef.resolve table = .ok reference) :
    (reference.database = none →
      session.Asks (.describe table) "DESCRIBE ``;" [(.tick, reference.table)]) ∧
    ∀ database, reference.database = some database →
      session.Asks (.describe table) "DESCRIBE ``.``;"
        [(.tick, database), (.tick, reference.table)] := by
  obtain ⟨alone, behindDatabase⟩ := (TableRef.unticked_of_resolve resolved).reads_name
  have describe : ReadsAs .inStrings "DESCRIBE " [] "DESCRIBE " := .bare rfl
  have built : (Call.describe table).statement session.functions =
      .ok (.ofSql ("DESCRIBE " ++ reference.name ++ [';'])) := by
    rw [Call.statement, resolved]
    rfl
  constructor
  · intro found
    exact asks_of_statement rfl built (describe.append (alone found)) (by decide) (by decide)
  · intro database found
    have reads := describe.append (behindDatabase database found)
    exact asks_of_statement rfl built reads (by decide) (by decide)

theorem tables_asks {part : Text} (something : Text.stripWhere (· == '%') part ≠ []) :
    session.Asks (.tables (some part)) "SHOW TABLES LIKE '';"
      [(.single, '%' :: Literal.escaped (Text.stripWhere (· == '%') part) ++ ['%'])] := by
  have sought : Request.soughtPart? (some part) = some (Text.stripWhere (· == '%') part) :=
    Request.counted_eq_some something
  have built : (Call.tables (some part)).statement session.functions =
      .ok (.ofSql ("SHOW TABLES LIKE " ++
        Literal.inMarks ('%' :: Literal.escaped (Text.stripWhere (· == '%') part) ++ ['%']) ++
          [';'])) := by
    rw [Call.statement, Request.tablesSql, sought]
    rfl
  have like : ReadsAs .inStrings "SHOW TABLES LIKE " [] "SHOW TABLES LIKE " := .bare rfl
  have stays := (staysIn_percent.append (staysIn_escapedWith .escaped
    (Text.stripWhere (· == '%') part))).append staysIn_percent
  exact asks_of_statement rfl built (like.append (Lexical.reads_string stays)) (by decide)
    (by decide)

theorem allTables_asks {part : Option Text}
    (nothing : ∀ given ∈ part, Text.stripWhere (· == '%') given = []) :
    session.Asks (.tables part) "SHOW TABLES;" [] := by
  have sought : Request.soughtPart? part = none := Request.counted_eq_none nothing
  have built : (Call.tables part).statement session.functions =
      .ok (.ofSql ("SHOW TABLES" ++ [';'])) := by
    rw [Call.statement, Request.tablesSql, sought]
    rfl
  have tables : ReadsAs .inStrings "SHOW TABLES" [] "SHOW TABLES" := .bare rfl
  exact asks_of_statement rfl built tables (by decide) (by decide)

theorem timeInZone_asks {timeZone : Text} (something : Text.trimmed timeZone ≠ []) :
    session.Asks (.now (some timeZone))
      "SELECT CAST(CONVERT_TZ(NOW(), @@session.time_zone, '') AS CHAR) AS ``;"
      [(.single, escapedWith .kept (Text.trimmed timeZone)), (.tick, "now")] := by
  have zone := Request.counted_eq_some something
  have built : (Call.now (some timeZone)).statement session.functions =
      .ok (.ofSql ("SELECT " ++
        ("CAST(" ++ ("CONVERT_TZ(NOW(), @@session.time_zone, " ++
          Literal.exactLiteral (Text.trimmed timeZone) ++ ")") ++ " AS CHAR)") ++
            " AS " ++ Text.ticked "now" ++ [';'])) := by
    rw [Call.statement, Request.nowExpression, zone]
    rfl
  have cast : ReadsAs .inStrings "CAST(" [] "CAST(" := .bare rfl
  have asText : ReadsAs .inStrings " AS CHAR)" [] " AS CHAR)" := .bare rfl
  have converted := Lexical.reads_argument "CONVERT_TZ(NOW(), @@session.time_zone, " ")"
    (Text.trimmed timeZone) rfl rfl
  have reads := Request.reads_selection ((cast.append converted).append asText) "now" (by decide)
  exact asks_of_statement rfl built reads (by decide) (by decide)

theorem time_asks {timeZone : Option Text} (nothing : ∀ given ∈ timeZone, Text.trimmed given = []) :
    session.Asks (.now timeZone) "SELECT CAST(NOW() AS CHAR) AS ``;" [(.tick, "now")] := by
  have zone := Request.counted_eq_none nothing
  have built : (Call.now timeZone).statement session.functions =
      .ok (.ofSql ("SELECT " ++ "CAST(NOW() AS CHAR)" ++ " AS " ++ Text.ticked "now" ++ [';'])) := by
    rw [Call.statement, Request.nowExpression, zone]
    rfl
  have time : ReadsAs .inStrings "CAST(NOW() AS CHAR)" [] "CAST(NOW() AS CHAR)" := .bare rfl
  exact asks_of_statement rfl built (Request.reads_selection time "now" (by decide)) (by decide)
    (by decide)

theorem md5_asks (text : Text) :
    session.Asks (.md5 text) "SELECT MD5('') AS ``;"
      [(.single, escapedWith .kept text), (.tick, "md5")] := by
  have digest := Lexical.reads_argument "MD5(" ")" text rfl rfl
  have reads := Request.reads_selection digest "md5" (by decide)
  exact asks_of_statement rfl rfl reads (by decide) (by decide)

theorem sha1_asks (text : Text) :
    session.Asks (.sha1 text) "SELECT SHA1('') AS ``;"
      [(.single, escapedWith .kept text), (.tick, "sha1")] := by
  have digest := Lexical.reads_argument "SHA1(" ")" text rfl rfl
  have reads := Request.reads_selection digest "sha1" (by decide)
  exact asks_of_statement rfl rfl reads (by decide) (by decide)

/-- Whatever their arguments hold, the statements that a session writes by hand keep their form.
The names of a table that could be read, the sought part of a name without the percent signs around
it, the trimmed time zone and the text of a digest are only ever bodies of runs, and a reader that
undoes the escapes reads them back as they are. -/
theorem inquiries_keepTheirForm (session : Session) :
    (∀ table reference, TableRef.resolve table = .ok reference →
      (reference.database = none →
        session.Asks (.describe table) "DESCRIBE ``;" [(.tick, reference.table)]) ∧
      ∀ database, reference.database = some database →
        session.Asks (.describe table) "DESCRIBE ``.``;"
          [(.tick, database), (.tick, reference.table)]) ∧
    (∀ part : Text, Text.stripWhere (· == '%') part ≠ [] →
      ∃ body, unescape? body = some (Text.stripWhere (· == '%') part) ∧
        session.Asks (.tables (some part)) "SHOW TABLES LIKE '';"
          [(.single, '%' :: body ++ ['%'])]) ∧
    (∀ part : Option Text, (∀ given ∈ part, Text.stripWhere (· == '%') given = []) →
      session.Asks (.tables part) "SHOW TABLES;" []) ∧
    (∀ timeZone : Text, Text.trimmed timeZone ≠ [] →
      ∃ body, unescape? body = some (Text.trimmed timeZone) ∧
        session.Asks (.now (some timeZone))
          "SELECT CAST(CONVERT_TZ(NOW(), @@session.time_zone, '') AS CHAR) AS ``;"
          [(.single, body), (.tick, "now")]) ∧
    (∀ timeZone : Option Text, (∀ given ∈ timeZone, Text.trimmed given = []) →
      session.Asks (.now timeZone) "SELECT CAST(NOW() AS CHAR) AS ``;" [(.tick, "now")]) ∧
    ∀ text, ∃ body, unescape? body = some text ∧
      session.Asks (.md5 text) "SELECT MD5('') AS ``;" [(.single, body), (.tick, "md5")] ∧
      session.Asks (.sha1 text) "SELECT SHA1('') AS ``;" [(.single, body), (.tick, "sha1")] := by
  refine ⟨?_, ?_, ?_, ?_, ?_, ?_⟩
  · intro table reference resolved
    exact describe_asks resolved
  · intro part something
    exact ⟨_, Literal.unescape?_escapedWith .escaped _, tables_asks something⟩
  · intro part nothing
    exact allTables_asks nothing
  · intro timeZone something
    exact ⟨_, Literal.unescape?_escapedWith .kept _, timeInZone_asks something⟩
  · intro timeZone nothing
    exact time_asks nothing
  · intro text
    exact ⟨_, Literal.unescape?_escapedWith .kept text, md5_asks text, sha1_asks text⟩

/-- Marks, semicolons and a backslash in the arguments lead out of no run. -/
theorem inquiries_keepTheirForm_marks :
    TableRef.resolve "`a;b`.it's -- " = .ok ⟨some "a;b", "it's --", none⟩ ∧
      ({} : Session).Asks (.describe "`a;b`.it's -- ") "DESCRIBE ``.``;"
        [(.tick, "a;b"), (.tick, "it's --")] ∧
      (∃ body, unescape? body = some "\\'; -- ".toList ∧
        ({} : Session).Asks (.tables (some "%\\'; -- %")) "SHOW TABLES LIKE '';"
          [(.single, '%' :: body ++ ['%'])]) ∧
      ({} : Session).Asks (.tables (some "%%")) "SHOW TABLES;" [] ∧
      (∃ body, unescape? body = some "'); -- ;".toList ∧
        ({} : Session).Asks (.now (some " '); -- ;\n"))
          "SELECT CAST(CONVERT_TZ(NOW(), @@session.time_zone, '') AS CHAR) AS ``;"
          [(.single, body), (.tick, "now")]) ∧
      ({} : Session).Asks (.now (some " ")) "SELECT CAST(NOW() AS CHAR) AS ``;"
        [(.tick, "now")] := by
  obtain ⟨describe, tables, allTables, timeInZone, time, _⟩ :=
    inquiries_keepTheirForm ({} : Session)
  have read : TableRef.resolve "`a;b`.it's -- " = .ok ⟨some "a;b", "it's --", none⟩ := by decide
  refine ⟨read, (describe _ _ read).2 _ rfl, tables "%\\'; -- %" (by decide), ?_,
    timeInZone " '); -- ;\n" (by decide), ?_⟩
  · apply allTables
    intro given same
    cases same
    decide
  · apply time
    intro given same
    cases same
    decide

end Session

end SqlComposer
