import SqlComposer.Proofs.Session.Readings

/-!
# The transcript of a session

Seen from the client, a call is its statement and nothing else.  A call whose
statement cannot be built sends nothing, uses no reply and fails with the error of
the statement; any other call sends just that statement and is decided by the reply
to it.  It fails with a failure of the client exactly when the reply is that
failure, since whatever else may be wrong with the output is an error of another
kind (`Request.ReadsOwn`).  When the reply is an output, the call answers what it reads
from it (`Call.Reads`).

So the transcript of a sequence of calls is the list of the statements that could be
built, in order, and the statement at a place of that list is answered by the reply
at the same place (`Session.converse_transcript`).  A query that goes to the client
directly behaves like the call of a session with the standard functions.
-/

namespace SqlComposer

set_option autoImplicit false

/-! ## Statements of calls -/

namespace Call

/-- Whether a call goes to the client; the making of a statement alone does not. -/
def sends : Call → Bool
  | .build _ => false
  | _ => true

/-- The statement of a call, or the error that keeps it from being built. -/
def statement (functions : FunctionSet) : Call → Except Error Statement
  | .build query | .fetchAll query | .fetchFirst query | .execute query => query.build functions
  | .fetchAllDirectly query | .executeDirectly query => query.build .standard
  | .run sql => return .ofSql sql
  | .describe table => do
      let table ← TableRef.resolve table
      return .ofSql ("DESCRIBE " ++ table.name ++ ";")
  | .tables part => return .ofSql (Request.tablesSql part)
  | .now timeZone =>
      return .ofSql
        (Request.selectAs ("CAST(" ++ Request.nowExpression timeZone ++ " AS CHAR)") "now")
  | .md5 text =>
      return .ofSql (Request.selectAs ("MD5(" ++ Literal.exactLiteral text ++ ")") "md5")
  | .sha1 text =>
      return .ofSql (Request.selectAs ("SHA1(" ++ Literal.exactLiteral text ++ ")") "sha1")
  | .uuid => return .ofSql (Request.selectAs "UUID()" "uuid")

/-- The statements of the calls that have one, in order. -/
def statements (functions : FunctionSet) (calls : List Call) : List Statement :=
  calls.filterMap fun call => (call.statement functions).toOption

/-- The call of a session in the place of a direct one. -/
def throughSession : Call → Call
  | .fetchAllDirectly query => .fetchAll query
  | .executeDirectly query => .execute query
  | call => call

end Call

/-- The reply to the statement at a place; when the replies have run out it is no rows. -/
def replyAt (replies : List Reply) (place : Nat) : Reply :=
  (replies[place]?).getD (.ok (.rows []))

theorem nextReply_eq (replies : List Reply) :
    nextReply replies = (replyAt replies 0, replies.tail) := by
  cases replies <;> rfl

theorem replyAt_drop (replies : List Reply) (count place : Nat) :
    replyAt (replies.drop count) place = replyAt replies (count + place) := by
  rw [replyAt, replyAt, List.getElem?_drop]

/-! ## One request -/

namespace Request

variable {α : Type}

/-- Reading the output of a request finds faults of its own, and none of the client. -/
def ReadsOwn (request : Request α) : Prop :=
  ∀ output failure, request.read output ≠ .error (.client failure)

section Requests

variable (functions : FunctionSet) (query : Query)

theorem rowsOf_readsOwn : (rowsOf functions query).ReadsOwn := fun _ _ => nofun

theorem firstRowOf_readsOwn : (firstRowOf functions query).ReadsOwn := fun _ _ => nofun

theorem summaryOf_readsOwn : (summaryOf functions query).ReadsOwn := fun _ _ => nofun

theorem outputOf_readsOwn (sql : Text) : (outputOf sql).ReadsOwn := fun _ _ => nofun

theorem columnsOf_readsOwn (table : Text) : (columnsOf table).ReadsOwn := by
  intro output failure failed
  obtain ⟨row, _, fault⟩ := exists_of_mapM_eq_error failed
  unfold ColumnDescription.ofRow at fault
  split at fault
  · cases fault
  · split at fault <;> cases fault

theorem tableNames_readsOwn (part : Option Text) : (tableNames part).ReadsOwn := by
  intro output failure failed
  obtain ⟨row, _, fault⟩ := exists_of_mapM_eq_error failed
  unfold listedTable at fault
  split at fault <;> cases fault

theorem textOf_readsOwn (sql column : Text) : (textOf sql column).ReadsOwn := by
  intro output failure failed
  dsimp only [textOf] at failed
  split at failed <;> cases failed

theorem uuid_readsOwn : uuid.ReadsOwn := by
  intro output failure failed
  rcases bind_eq_error.mp failed with noText | ⟨text, _, failed⟩
  · exact textOf_readsOwn _ _ output failure noText
  · split at failed <;> cases failed

end Requests

/-- A request fails with a failure of the client just when that is the reply. -/
theorem ReadsOwn.resultOf_eq_client_iff {request : Request α} (own : request.ReadsOwn)
    {reply : Reply} {failure : ClientFailure} :
    request.resultOf reply = .error (.client failure) ↔ reply = .error failure := by
  cases reply with
  | ok output =>
      constructor
      · intro failed
        exact absurd failed (own output failure)
      · intro failed
        cases failed
  | error other => simp [resultOf]

end Request

/-- What holds of an exchange about a statement.  Without a statement nothing is sent, no reply is
used and the result is the error.  Otherwise the statement is sent and the first reply is used; it
alone decides the result, and makes it a failure of the client just if it is that failure. -/
structure Answered {α : Type} (exchange : List Reply → Exchange α)
    (statement : Except Error Statement) (replies : List Reply) : Prop where
  unbuilt : ∀ error, statement = .error error →
    (exchange replies).sent = [] ∧ (exchange replies).unused = replies ∧
      (exchange replies).result = .error error
  built : ∀ sent, statement = .ok sent →
    (exchange replies).sent = [sent.sql] ∧ (exchange replies).unused = replies.tail ∧
      (exchange replies).result = (exchange [replyAt replies 0]).result ∧
      ∀ failure, (exchange replies).result = .error (.client failure) ↔
        replyAt replies 0 = .error failure

/-- An exchange as its caller and the client see it. -/
def Exchange.withoutEvents {α : Type} (exchange : Exchange α) : Exchange α :=
  { exchange with events := [] }

section Requests

variable {α β : Type} {request : Request α}

/-- Past a session a request goes as it does within one, but for what is logged. -/
theorem Request.performDirectly_withoutEvents (transform : α → β) (limit : Option Nat)
    (replies : List Reply) :
    ((request.performDirectly replies).map transform).withoutEvents =
      ((request.perform limit replies).map transform).withoutEvents := by
  unfold performDirectly perform
  cases request.statement <;> rfl

variable (own : request.ReadsOwn) (transform : α → β)
include own

theorem Request.perform_answered (limit : Option Nat) (replies : List Reply) :
    Answered (fun replies => (request.perform limit replies).map transform) request.statement
      replies := by
  constructor
  · intro error failed
    simp [perform, Exchange.map, failed, Except.map]
  · intro sent ok
    have client : ∀ failure, (request.resultOf (replyAt replies 0)).map transform =
        .error (.client failure) ↔ replyAt replies 0 = .error failure := by
      intro failure
      rw [← own.resultOf_eq_client_iff]
      cases request.resultOf (replyAt replies 0) <;> simp [Except.map]
    simp only [perform, Exchange.map, ok, nextReply_eq]
    exact ⟨trivial, trivial, rfl, client⟩

theorem Request.performDirectly_answered (replies : List Reply) :
    Answered (fun replies => (request.performDirectly replies).map transform) request.statement
      replies := by
  have same := @performDirectly_withoutEvents α β request transform none
  have answered := perform_answered own transform none replies
  have sent := fun replies => congrArg Exchange.sent (same replies)
  have unused := fun replies => congrArg Exchange.unused (same replies)
  have result := fun replies => congrArg Exchange.result (same replies)
  dsimp only [Exchange.withoutEvents] at sent unused result
  constructor
  · intro error failed
    rw [sent, unused, result]
    exact answered.unbuilt error failed
  · intro statement ok
    rw [sent, unused, result, result]
    exact answered.built statement ok

end Requests

/-! ## One call -/

namespace Session

/-- A call that goes to the client is answered about its statement. -/
theorem call_answered (session : Session) {call : Call} (sends : call.sends)
    (replies : List Reply) :
    Answered (fun replies => session.call replies call) (call.statement session.functions)
      replies := by
  open Request in
  cases call with
  | build query => cases sends
  | run sql => exact perform_answered (outputOf_readsOwn sql) _ _ replies
  | fetchAll query => exact perform_answered (rowsOf_readsOwn _ query) _ _ replies
  | fetchFirst query => exact perform_answered (firstRowOf_readsOwn _ query) _ _ replies
  | execute query => exact perform_answered (summaryOf_readsOwn _ query) _ _ replies
  | fetchAllDirectly query => exact performDirectly_answered (rowsOf_readsOwn _ query) _ replies
  | executeDirectly query => exact performDirectly_answered (summaryOf_readsOwn _ query) _ replies
  | describe table => exact perform_answered (columnsOf_readsOwn table) _ _ replies
  | tables part => exact perform_answered (tableNames_readsOwn part) _ _ replies
  | now timeZone => exact perform_answered (textOf_readsOwn _ _) _ _ replies
  | md5 text => exact perform_answered (textOf_readsOwn _ _) _ _ replies
  | sha1 text => exact perform_answered (textOf_readsOwn _ _) _ _ replies
  | uuid => exact perform_answered uuid_readsOwn _ _ replies

/-- A call that goes to the client answers what it reads from the output there. -/
theorem call_eq_iff_reads (session : Session) {call : Call} (sends : call.sends)
    {statement : Statement} (ok : call.statement session.functions = .ok statement)
    {output : Output} {result : Except Error Answer} :
    (session.call [.ok output] call).result = result ↔ call.Reads output result := by
  open Request in
  cases call with
  | build query => cases sends
  | run sql =>
      exact (perform_result (outputOf sql) _ ok _).congr_left.trans Call.reads_output_iff
  | fetchAll query =>
      exact (perform_result (rowsOf _ query) _ ok _).congr_left.trans Call.reads_rows_iff
  | fetchFirst query =>
      exact (perform_result (firstRowOf _ query) _ ok _).congr_left.trans Call.reads_firstRow_iff
  | execute query =>
      exact (perform_result (summaryOf _ query) _ ok _).congr_left.trans Call.reads_summary_iff
  | fetchAllDirectly query =>
      refine (performDirectly_result (rowsOf _ query) _ ok).congr_left.trans ?_
      exact Call.reads_rows_iff.trans Call.reads_fetchAllDirectly_iff.symm
  | executeDirectly query =>
      refine (performDirectly_result (summaryOf _ query) _ ok).congr_left.trans ?_
      exact Call.reads_summary_iff.trans Call.reads_executeDirectly_iff.symm
  | describe table =>
      exact (perform_result (columnsOf table) _ ok _).congr_left.trans Call.reads_columns_iff
  | tables part =>
      exact (perform_result (tableNames part) _ ok _).congr_left.trans Call.reads_names_iff
  | now timeZone =>
      exact (perform_result (now timeZone) _ ok _).congr_left.trans (Call.reads_text_iff rfl _)
  | md5 text =>
      exact (perform_result (md5 text) _ ok _).congr_left.trans (Call.reads_text_iff rfl _)
  | sha1 text =>
      exact (perform_result (sha1 text) _ ok _).congr_left.trans (Call.reads_text_iff rfl _)
  | uuid => exact (perform_result uuid _ ok _).congr_left.trans Call.reads_uuid_iff

/-- With the standard functions a direct call is seen as the call of the session. -/
theorem call_throughSession {session : Session} (standard : session.functions = .standard)
    (replies : List Reply) (call : Call) :
    (session.call replies call.throughSession).withoutEvents =
      (session.call replies call).withoutEvents := by
  cases call with
  | fetchAllDirectly query =>
      rw [Call.throughSession, Session.call, Session.call, standard]
      exact (Request.performDirectly_withoutEvents _ _ replies).symm
  | executeDirectly query =>
      rw [Call.throughSession, Session.call, Session.call, standard]
      exact (Request.performDirectly_withoutEvents _ _ replies).symm
  | _ => rfl

/-! ## Many calls -/

/-- A call takes its turn when as many statements were sent before as the place says.  Without a
statement it sends nothing and leaves all replies of that place.  Otherwise it sends the statement
and uses the reply at the place; this reply alone decides the result, and makes it a failure of the
client just if it is that failure.  When the reply is an output, the result is what the call reads
from it. -/
structure Turn (session : Session) (replies : List Reply) (place : Nat) (call : Call)
    (exchange : Exchange Answer) : Prop where
  unbuilt : ∀ error, call.statement session.functions = .error error →
    exchange.sent = [] ∧ exchange.unused = replies.drop place ∧ exchange.result = .error error
  built : ∀ statement, call.statement session.functions = .ok statement →
    exchange.sent = [statement.sql] ∧ exchange.unused = replies.drop (place + 1) ∧
      exchange.result = (session.call [replyAt replies place] call).result ∧
      (∀ failure, exchange.result = .error (.client failure) ↔
        replyAt replies place = .error failure) ∧
      ∀ output, replyAt replies place = .ok output →
        ∀ result, exchange.result = result ↔ call.Reads output result

section Turns

variable (session : Session) {call : Call} (sends : call.sends) (replies : List Reply)
include sends

theorem call_turn (place : Nat) :
    session.Turn replies place call (session.call (replies.drop place) call) := by
  have answered := session.call_answered sends (replies.drop place)
  constructor
  · exact answered.unbuilt
  · intro statement ok
    have built := answered.built statement ok
    rw [replyAt_drop, Nat.add_zero, List.tail_drop] at built
    obtain ⟨sent, unused, decided, client⟩ := built
    refine ⟨sent, unused, decided, client, fun output reply result => ?_⟩
    rw [decided, reply]
    exact session.call_eq_iff_reads sends ok

/-- One call sends the statement it has, if any. -/
theorem sent_call :
    (session.call replies call).sent =
      (Call.statements session.functions [call]).map Statement.sql := by
  have turn := session.call_turn sends replies 0
  rw [List.drop_zero] at turn
  cases statement : call.statement session.functions with
  | error error => simp [Call.statements, statement, Except.toOption, (turn.unbuilt _ statement).1]
  | ok built => simp [Call.statements, statement, Except.toOption, (turn.built _ statement).1]

/-- One call uses as many replies as it sends statements. -/
theorem unused_call :
    (session.call replies call).unused =
      replies.drop (Call.statements session.functions [call]).length := by
  have turn := session.call_turn sends replies 0
  rw [List.drop_zero] at turn
  cases statement : call.statement session.functions with
  | error error =>
      simp [Call.statements, statement, Except.toOption, (turn.unbuilt _ statement).2.1]
  | ok built => simp [Call.statements, statement, Except.toOption, (turn.built _ statement).2.1]

end Turns

theorem statements_cons (functions : FunctionSet) (first : Call) (rest : List Call) :
    Call.statements functions (first :: rest) =
      Call.statements functions [first] ++ Call.statements functions rest := by
  rw [← List.singleton_append]
  exact List.filterMap_append

/-- What is sent in the course of calls are their statements. -/
theorem sent_converse (session : Session) {calls : List Call}
    (sending : ∀ call ∈ calls, call.sends) (replies : List Reply) :
    (session.converse replies calls).flatMap Exchange.sent =
      (Call.statements session.functions calls).map Statement.sql := by
  induction calls generalizing replies with
  | nil => rfl
  | cons first rest ih =>
      obtain ⟨sends, others⟩ := List.forall_mem_cons.mp sending
      rw [converse, List.flatMap_cons, ih others, statements_cons _ first rest, List.map_append,
        session.sent_call sends]

/-- A call is made with the replies behind those to the statements before it. -/
theorem getElem?_converse (session : Session) {earlier : List Call}
    (sending : ∀ call ∈ earlier, call.sends) (call : Call) (later : List Call)
    (replies : List Reply) :
    (session.converse replies (earlier ++ call :: later))[earlier.length]? =
      some (session.call
        (replies.drop (Call.statements session.functions earlier).length) call) := by
  induction earlier generalizing replies with
  | nil => rfl
  | cons first rest ih =>
      obtain ⟨sends, others⟩ := List.forall_mem_cons.mp sending
      rw [List.cons_append, converse, List.length_cons, List.getElem?_cons_succ, ih others,
        session.unused_call sends, List.drop_drop, statements_cons _ first rest,
        List.length_append]

/-- With the standard functions a sequence of calls is seen as the one in which every direct call
is made through the session. -/
theorem converse_throughSession {session : Session} (standard : session.functions = .standard)
    (replies : List Reply) (calls : List Call) :
    (session.converse replies (calls.map Call.throughSession)).map Exchange.withoutEvents =
      (session.converse replies calls).map Exchange.withoutEvents := by
  induction calls generalizing replies with
  | nil => rfl
  | cons first rest ih =>
      have same := call_throughSession standard replies first
      have unused := congrArg Exchange.unused same
      dsimp only [Exchange.withoutEvents] at unused
      rw [List.map_cons, converse, converse, List.map_cons, List.map_cons, same, unused, ih]

/-- In a sequence of calls that go to the client, the texts sent are the statements that could be
built, in order.  Each call takes its turn behind the statements before it.  With the standard
functions it does not matter whether a query goes to the client directly. -/
theorem converse_transcript (session : Session) (replies : List Reply) {calls : List Call}
    (sending : ∀ call ∈ calls, call.sends) :
    (session.converse replies calls).flatMap Exchange.sent =
        (Call.statements session.functions calls).map Statement.sql ∧
      (∀ earlier call later, calls = earlier ++ call :: later →
        ∃ exchange, (session.converse replies calls)[earlier.length]? = some exchange ∧
          session.Turn replies (Call.statements session.functions earlier).length call
            exchange) ∧
      (session.functions = .standard →
        (session.converse replies (calls.map Call.throughSession)).map Exchange.withoutEvents =
          (session.converse replies calls).map Exchange.withoutEvents) := by
  refine ⟨session.sent_converse sending replies, ?_,
    fun standard => converse_throughSession standard replies calls⟩
  rintro earlier call later rfl
  obtain ⟨before, fromHere⟩ := List.forall_mem_append.mp sending
  obtain ⟨sends, _⟩ := List.forall_mem_cons.mp fromHere
  exact ⟨_, session.getElem?_converse before call later replies, session.call_turn sends replies _⟩

/-- A deletion that is refused, a digest, and a query that goes to the client directly. -/
def refusalAndDigest : List Call :=
  [.execute (.delete (.ofTable "guests")), .md5 "a", .fetchAllDirectly (.select (.ofTable "t"))]

/-- A failure of the client. -/
def lostConnection : ClientFailure :=
  ⟨some "2013", "Lost connection", "SELECT MD5('a') AS `md5`;"⟩

/-- A failure, and then a row. -/
def lostThenFound : List Reply :=
  [.error lostConnection, .ok (.rows [[("name", .string "Ann")]])]

/-- The refused deletion uses no reply, so that the failure goes to the digest and the row to the
query. -/
theorem converse_transcript_refusalAndDigest :
    (∀ call ∈ refusalAndDigest, call.sends) ∧
      (({} : Session).converse lostThenFound refusalAndDigest).flatMap Exchange.sent =
        ["SELECT MD5('a') AS `md5`;".toList, "SELECT `t`.* FROM `t`;".toList] ∧
      (∃ exchange, (({} : Session).converse lostThenFound refusalAndDigest)[1]? = some exchange ∧
        exchange.result = .error (.client lostConnection)) ∧
      (∃ exchange, (({} : Session).converse lostThenFound refusalAndDigest)[2]? = some exchange ∧
        exchange.result = .ok (.rows [[("name", .string "Ann")]])) ∧
      (({} : Session).converse lostThenFound
          (refusalAndDigest.map Call.throughSession)).map Exchange.withoutEvents =
        (({} : Session).converse lostThenFound refusalAndDigest).map Exchange.withoutEvents := by
  have sending : ∀ call ∈ refusalAndDigest, call.sends := by decide
  obtain ⟨sent, turns, direct⟩ := converse_transcript ({} : Session) lostThenFound sending
  refine ⟨sending, sent.trans (by decide), ?_, ?_, direct rfl⟩
  · obtain ⟨exchange, here, turn⟩ :=
      turns [.execute (.delete (.ofTable "guests"))] (.md5 "a") _ rfl
    obtain ⟨_, _, _, client, _⟩ := turn.built _ rfl
    exact ⟨exchange, here, (client lostConnection).mpr (by rfl)⟩
  · obtain ⟨exchange, here, turn⟩ :=
      turns [.execute (.delete (.ofTable "guests")), .md5 "a"] (.fetchAllDirectly _) [] rfl
    obtain ⟨_, _, _, _, reads⟩ := turn.built _ rfl
    exact ⟨exchange, here, (reads _ rfl _).mpr (.fetchAllDirectly (.fetchAll (.rows _)))⟩

end Session

end SqlComposer
