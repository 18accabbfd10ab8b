import SqlComposer.Proofs.Session.Transcript
import SqlComposer.Proofs.Text.Truncation

/-!
# What a session logs

Three texts are about when a session runs a statement: the SQL that is sent, the SQL that
is logged with it, and the SQL that a failure of the client carries.  The first is never
cut.  The other two are, each by itself: the log shows the statement cut to the limit when
it is executed, and the SQL of the failure cut to the same limit when it has failed
(`Logged`).  So what is logged says nothing about how much was sent, and a failure that
carries another text is logged with that one.

This holds of one request (`Request.perform_logged`), hence of every call that runs its
statement through the session (`Session.call_logged`), and of such a call wherever it stands
in a sequence of calls (`Session.log_showsTruncated`): it is made with the replies that the
statements sent before it have left over.
-/

namespace SqlComposer

set_option autoImplicit false

/-- Whether a call runs its statement through the session, so that the run is logged. -/
def Call.isLogged : Call → Bool
  | .build _ | .fetchAllDirectly _ | .executeDirectly _ => false
  | _ => true

/-! ## One call -/

/-- What is sent and logged in an exchange about a statement.  Without a statement there is nothing
to send or to log.  Otherwise the whole SQL is sent; the log shows it cut to the limit, and in the
case of a failure it also shows the SQL of the failure cut to the limit. -/
structure Logged {α : Type} (limit : Option Nat) (statement : Except Error Statement)
    (reply : Reply) (exchange : Exchange α) : Prop where
  unbuilt : ∀ error, statement = .error error → exchange.sent = [] ∧ exchange.events = []
  sent : ∀ built, statement = .ok built → exchange.sent = [built.sql]
  answered : ∀ built output, statement = .ok built → reply = .ok output →
    exchange.events = [.built built, .executing built.kind (shownSql limit built.sql)]
  failed : ∀ built failure, statement = .ok built → reply = .error failure →
    exchange.events =
      [.built built, .executing built.kind (shownSql limit built.sql),
        .failed (failure.code.getD []) failure.message (shownSql limit failure.sql)]

/-- A request is performed and logged with the first reply. -/
theorem Request.perform_logged {α β : Type} (request : Request α) (transform : α → β)
    (limit : Option Nat) (replies : List Reply) :
    Logged limit request.statement (replyAt replies 0)
      ((request.perform limit replies).map transform) := by
  constructor
  · intro error failed
    simp [perform, Exchange.map, failed]
  · intro built ok
    simp [perform, Exchange.map, ok]
  · intro built output ok answer
    simp [perform, Exchange.map, ok, nextReply_eq, answer, replyEvents]
  · intro built failure ok answer
    simp [perform, Exchange.map, ok, nextReply_eq, answer, replyEvents]

namespace Session

/-- A call that runs its statement through the session is logged with the first reply. -/
theorem call_logged (session : Session) {call : Call} (logged : call.isLogged)
    (replies : List Reply) :
    Logged session.logLimit (call.statement session.functions) (replyAt replies 0)
      (session.call replies call) := by
  open Request in
  cases call with
  | build query => cases logged
  | fetchAllDirectly query => cases logged
  | executeDirectly query => cases logged
  | run sql => exact perform_logged (outputOf sql) _ _ replies
  | fetchAll query => exact perform_logged (rowsOf _ query) _ _ replies
  | fetchFirst query => exact perform_logged (firstRowOf _ query) _ _ replies
  | execute query => exact perform_logged (summaryOf _ query) _ _ replies
  | describe table => exact perform_logged (columnsOf table) _ _ replies
  | tables part => exact perform_logged (tableNames part) _ _ replies
  | now timeZone => exact perform_logged (Request.now timeZone) _ _ replies
  | md5 text => exact perform_logged (Request.md5 text) _ _ replies
  | sha1 text => exact perform_logged (Request.sha1 text) _ _ replies
  | uuid => exact perform_logged Request.uuid _ _ replies

/-! ## Many calls -/

/-- A call of any kind uses as many replies as it sends texts. -/
theorem unused_eq_drop (session : Session) (replies : List Reply) (call : Call) :
    (session.call replies call).unused = replies.drop (session.call replies call).sent.length := by
  by_cases sends : call.sends
  · have answered := session.call_answered sends replies
    cases statement : call.statement session.functions with
    | error error =>
        obtain ⟨sent, unused, _⟩ := answered.unbuilt error statement
        rw [sent, unused]
        rfl
    | ok built =>
        obtain ⟨sent, unused, _⟩ := answered.built built statement
        rw [sent, unused]
        exact List.drop_one.symm
  · cases call with
    | build query => rfl
    | _ => exact absurd rfl sends

/-- In a sequence of calls of any kind each is made with the replies that the texts sent before it
have left over. -/
theorem getElem?_converse_append (session : Session) (earlier : List Call) (call : Call)
    (later : List Call) (replies : List Reply) :
    (session.converse replies (earlier ++ call :: later))[earlier.length]? =
      some (session.call
        (replies.drop ((session.converse replies earlier).flatMap Exchange.sent).length) call) := by
  induction earlier generalizing replies with
  | nil => rfl
  | cons first rest ih =>
      rw [List.cons_append, converse, converse, List.length_cons, List.getElem?_cons_succ, ih,
        session.unused_eq_drop, List.drop_drop, List.flatMap_cons, List.length_append]

/-- Without a limit the log shows SQL as it is, and so it does under a limit that the SQL fits.  For
any other SQL the search for the cut ends, and what is shown is the longest part that fits, with
three dots behind it.  In every sequence of calls, each call that runs its statement through the
session sends the whole SQL and logs it as cut to the limit of the session, and so it logs the SQL
of a failure. -/
theorem log_showsTruncated (session : Session) (replies : List Reply) (calls : List Call) :
    (∀ sql, shownSql none sql = sql) ∧
    (∀ limit sql, Text.byteLength sql ≤ limit → shownSql (some limit) sql = sql) ∧
    (∀ limit sql, limit < Text.byteLength sql → ∃ kept, Text.IsCut limit sql kept ∧
      Text.lastBoundary? (Text.bytes sql) limit = some (Text.byteLength kept) ∧
        shownSql (some limit) sql = kept ++ "...") ∧
    ∀ earlier call later, calls = earlier ++ call :: later → call.isLogged →
      ∃ exchange, (session.converse replies calls)[earlier.length]? = some exchange ∧
        Logged session.logLimit (call.statement session.functions)
          (replyAt replies ((session.converse replies earlier).flatMap Exchange.sent).length)
          exchange := by
  refine ⟨fun _ => rfl, fun _ _ => Text.truncated_of_fits, fun _ _ => Text.exists_isCut, ?_⟩
  rintro earlier call later rfl logged
  have ofCall := session.call_logged logged
    (replies.drop ((session.converse replies earlier).flatMap Exchange.sent).length)
  rw [replyAt_drop, Nat.add_zero] at ofCall
  exact ⟨_, session.getElem?_converse_append earlier call later replies, ofCall⟩

/-- A failure that carries other SQL than was sent. -/
def unknownTable : ClientFailure :=
  ⟨some "1146", "no such table", "SELECT FROM \u540D\u524D"⟩

/-- A session with a limit that falls inside of a character, of the statement and of the SQL of the
failure. -/
def closelyLimited : Session :=
  { logLimit := some 13 }

/-- The statement of a digest. -/
def accentDigest : Text :=
  "SELECT MD5('\u00E9') AS `md5`;"

/-- The digest is asked for behind a query that goes to the client directly, and fails. -/
theorem log_showsTruncated_accent :
    13 < Text.byteLength accentDigest ∧ Text.IsCut 13 accentDigest "SELECT MD5('" ∧
      Call.isLogged (.md5 "\u00E9") ∧
      ∃ exchange,
        (closelyLimited.converse [.ok (.rows []), .error unknownTable]
            [.build (.select (.ofTable "t")), .fetchAllDirectly (.select (.ofTable "t")),
              .md5 "\u00E9"])[2]? = some exchange ∧
          exchange.sent = [accentDigest] ∧
          exchange.events =
            [.built ⟨.select, accentDigest⟩, .executing .select "SELECT MD5('...",
              .failed "1146" "no such table" "SELECT FROM ..."] := by
  have long : 13 < Text.byteLength accentDigest := by decide
  obtain ⟨_, _, cut, runs⟩ := log_showsTruncated closelyLimited
    [.ok (.rows []), .error unknownTable]
    [.build (.select (.ofTable "t")), .fetchAllDirectly (.select (.ofTable "t")), .md5 "\u00E9"]
  obtain ⟨kept, isCut, _, shown⟩ := cut 13 accentDigest long
  have whole : shownSql (some 13) accentDigest = "SELECT MD5('".toList ++ "..." := by decide
  obtain rfl := List.append_cancel_right (shown.symm.trans whole)
  obtain ⟨exchange, here, logged⟩ :=
    runs [.build (.select (.ofTable "t")), .fetchAllDirectly (.select (.ofTable "t"))]
      (.md5 "\u00E9") [] rfl rfl
  refine ⟨long, isCut, rfl, exchange, here, logged.sent _ rfl, ?_⟩
  exact (logged.failed _ unknownTable rfl rfl).trans (by decide)

end Session

end SqlComposer
