import SqlComposer.Proofs.Outcome
import SqlComposer.Session.Basic

/-!
# What calls read

What a call answers when the client has an output for it is told here without the functions
that read outputs, one case for each way in which the reading can go (`Call.Reads`).  A call
that fetches rows takes those that the output brings, a change is summed up, and rows
instead of a change mean that nothing was changed.  A question about the server is answered
by the rows one by one, up to the first that cannot be read, or by a text in a column of
the first row.

Each way of a request to read outputs is one of these cases (`Call.reads_text_iff` and the
lemmas around it).
-/

namespace SqlComposer

set_option autoImplicit false

/-! ## Rows -/

/-- The rows that an output brings. -/
inductive Output.Brings : Output → List ResultRow → Prop
  | rows (found : List ResultRow) : Brings (.rows found) found
  | mutation (done : MutationSummary) : Brings (.mutation done) []

theorem Output.brings_iff {output : Output} {rows : List ResultRow} :
    output.Brings rows ↔ output.resultRows = rows := by
  constructor
  · rintro ⟨⟩ <;> rfl
  · rintro rfl
    cases output with
    | rows found => exact .rows found
    | mutation done => exact .mutation done

/-- The first row that an output brings holds a text in a column. -/
def Output.Shows (output : Output) (column text : Text) : Prop :=
  ∃ before after others,
    output.Brings ((before ++ (column, Json.string text) :: after) :: others) ∧
      column ∉ before.map Prod.fst

/-- The rows that an output brings are read in order: all of them, or up to the first that has a
fault. -/
inductive Output.ReadsEach {α : Type} (reads : ResultRow → Except Error α → Prop)
    (output : Output) : Except Error (List α) → Prop
  | all {rows : List ResultRow} {values : List α} (brings : output.Brings rows)
      (each : List.Forall₂ (fun row value => reads row (.ok value)) rows values) :
      ReadsEach reads output (.ok values)
  | fault {before after : List ResultRow} {row : ResultRow} {fault : Error}
      (brings : output.Brings (before ++ row :: after))
      (earlier : ∀ other ∈ before, ∃ value, reads other (.ok value))
      (here : reads row (.error fault)) : ReadsEach reads output (.error fault)

/-- A row lists the table that its first value names. -/
inductive ListsTable : ResultRow → Except Error Text → Prop
  | named (column name : Text) (others : ResultRow) :
      ListsTable ((column, .string name) :: others) (.ok name)
  | unnamed {row : ResultRow}
      (noName : ∀ column name others, row ≠ (column, Json.string name) :: others) :
      ListsTable row (.error (.missingField .listedTable))

/-! ## Calls -/

namespace Call

/-- The column that a call for a text looks at. -/
def textColumn? : Call → Option Text
  | .now _ => some "now"
  | .md5 _ => some "md5"
  | .sha1 _ => some "sha1"
  | _ => none

/-- What a call reads from an output. -/
inductive Reads : Call → Output → Except Error Answer → Prop
  | run (sql : Text) (output : Output) : Reads (.run sql) output (.ok (.output output))
  | fetchAll {query : Query} {output : Output} {rows : List ResultRow}
      (brings : output.Brings rows) : Reads (.fetchAll query) output (.ok (.rows rows))
  | fetchAllDirectly {query : Query} {output : Output} {result : Except Error Answer}
      (reads : Reads (.fetchAll query) output result) :
      Reads (.fetchAllDirectly query) output result
  | fetchFirst {query : Query} {output : Output} {row : ResultRow} {others : List ResultRow}
      (brings : output.Brings (row :: others)) :
      Reads (.fetchFirst query) output (.ok (.firstRow (some row)))
  | fetchNone {query : Query} {output : Output} (brings : output.Brings []) :
      Reads (.fetchFirst query) output (.ok (.firstRow none))
  | change (query : Query) (done : MutationSummary) :
      Reads (.execute query) (.mutation done) (.ok (.summary done))
  | noChange (query : Query) (found : List ResultRow) :
      Reads (.execute query) (.rows found) (.ok (.summary ⟨none, 0⟩))
  | executeDirectly {query : Query} {output : Output} {result : Except Error Answer}
      (reads : Reads (.execute query) output result) :
      Reads (.executeDirectly query) output result
  | describe {table : Text} {output : Output} {read : Except Error (List ColumnDescription)}
      (each : output.ReadsEach (fun row description => ColumnDescription.ofRow row = description)
        read) : Reads (.describe table) output (read.map .columns)
  | tables {part : Option Text} {output : Output} {read : Except Error (List Text)}
      (each : output.ReadsEach ListsTable read) : Reads (.tables part) output (read.map .names)
  | text {call : Call} {output : Output} {column text : Text}
      (looksAt : call.textColumn? = some column) (shows : output.Shows column text) :
      Reads call output (.ok (.text text))
  | noText {call : Call} {output : Output} {column : Text}
      (looksAt : call.textColumn? = some column) (hidden : ∀ text, ¬ output.Shows column text) :
      Reads call output (.error (.missingField (.resultColumn column)))
  | uuid {output : Output} {text : Text} {uuid : Uuid} (shows : output.Shows "uuid" text)
      (isUuid : Uuid.parse? text = some uuid) : Reads .uuid output (.ok (.uuid uuid))
  | badUuid {output : Output} {text : Text} (shows : output.Shows "uuid" text)
      (noUuid : Uuid.parse? text = none) :
      Reads .uuid output (.error (.invalidValue (.badUuid text)))
  | noUuid {output : Output} (hidden : ∀ text, ¬ output.Shows "uuid" text) :
      Reads .uuid output (.error (.missingField (.resultColumn "uuid")))

end Call

/-! ## Requests -/

theorem Output.readsEach_iff {α : Type} {step : ResultRow → Except Error α}
    {reads : ResultRow → Except Error α → Prop}
    (same : ∀ row read, step row = read ↔ reads row read) {output : Output}
    {read : Except Error (List α)} :
    output.resultRows.mapM step = read ↔ output.ReadsEach reads read := by
  constructor
  · rintro rfl
    cases read : output.resultRows.mapM step with
    | ok values =>
        refine .all (brings_iff.mpr rfl) ?_
        exact (mapM_eq_ok.mp read).imp fun row value => (same row _).mp
    | error fault =>
        obtain ⟨before, row, after, whole, earlier, here⟩ := mapM_eq_error.mp read
        refine .fault (brings_iff.mpr whole) (fun other member => ?_) ((same row _).mp here)
        obtain ⟨value, ok⟩ := earlier other member
        exact ⟨value, (same other _).mp ok⟩
  · rintro (⟨brings, each⟩ | ⟨brings, earlier, here⟩)
    · rw [brings_iff.mp brings]
      exact mapM_eq_ok.mpr (each.imp fun row value => (same row _).mpr)
    · rw [brings_iff.mp brings]
      refine mapM_eq_error.mpr ⟨_, _, _, rfl, fun other member => ?_, (same _ _).mpr here⟩
      obtain ⟨value, ok⟩ := earlier other member
      exact ⟨value, (same other _).mpr ok⟩

namespace Request

theorem listedTable_eq_iff {row : ResultRow} {read : Except Error Text} :
    listedTable row = read ↔ ListsTable row read := by
  constructor
  · rintro rfl
    unfold listedTable
    split
    · exact .named _ _ _
    · rename_i noName
      exact .unnamed noName
  · rintro (_ | noName)
    · rfl
    · unfold listedTable
      split
      · exact absurd rfl (noName _ _ _)
      · rfl

end Request

theorem Output.shows_iff {output : Output} {column text : Text} :
    output.Shows column text ↔
      (output.resultRows.head?.bind (Json.member? column)).bind Json.string? = some text := by
  have isString : ∀ json, Json.string? json = some text ↔ json = .string text := by
    intro json
    cases json <;> simp [Json.string?]
  simp only [Option.bind_eq_some_iff, isString, exists_eq_right, Json.member?,
    List.lookup_eq_some_iff, List.head?_eq_some_iff, Output.Shows, brings_iff]
  constructor
  · rintro ⟨before, after, others, rows, notBefore⟩
    refine ⟨_, ⟨others, rows⟩, before, after, rfl, fun pair member => ?_⟩
    exact bne_iff_ne.mpr fun same => notBefore (List.mem_map.mpr ⟨pair, member, same.symm⟩)
  · rintro ⟨_, ⟨others, rows⟩, before, after, rfl, notBefore⟩
    refine ⟨before, after, others, rows, fun member => ?_⟩
    obtain ⟨pair, inRow, same⟩ := List.mem_map.mp member
    exact bne_iff_ne.mp (notBefore pair inRow) same.symm

namespace Request

section Texts

variable {column text : Text} {output : Output}

theorem textOf_of_shows (sql : Text) (shows : output.Shows column text) :
    (textOf sql column).read output = .ok text := by
  dsimp only [textOf]
  rw [Output.shows_iff.mp shows]

theorem textOf_of_hidden (sql : Text) (hidden : ∀ text, ¬ output.Shows column text) :
    (textOf sql column).read output = .error (.missingField (.resultColumn column)) := by
  have nothing : (output.resultRows.head?.bind (Json.member? column)).bind Json.string? = none :=
    Option.eq_none_iff_forall_ne_some.mpr fun text found => hidden text (Output.shows_iff.mpr found)
  dsimp only [textOf]
  rw [nothing]

theorem uuid_of_shows (shows : output.Shows "uuid" text) {identifier : Uuid}
    (isUuid : Uuid.parse? text = some identifier) : uuid.read output = .ok identifier := by
  refine bind_eq_ok.mpr ⟨text, textOf_of_shows _ shows, ?_⟩
  rw [isUuid]
  rfl

theorem uuid_of_noUuid (shows : output.Shows "uuid" text) (noUuid : Uuid.parse? text = none) :
    uuid.read output = .error (.invalidValue (.badUuid text)) := by
  refine bind_eq_error.mpr (.inr ⟨text, textOf_of_shows _ shows, ?_⟩)
  rw [noUuid]
  rfl

theorem uuid_of_hidden (hidden : ∀ text, ¬ output.Shows "uuid" text) :
    uuid.read output = .error (.missingField (.resultColumn "uuid")) :=
  bind_eq_error.mpr (.inl (textOf_of_hidden _ hidden))

end Texts

section Answers

variable {α β : Type} (request : Request α) (transform : α → β) {statement : Statement}
  (ok : request.statement = .ok statement) {output : Output}
include ok

/-- A request that has a statement answers what it reads from the output. -/
theorem perform_result (limit : Option Nat) :
    ((request.perform limit [.ok output]).map transform).result =
      (request.read output).map transform := by
  simp only [perform, Exchange.map, ok, nextReply, resultOf]

theorem performDirectly_result :
    ((request.performDirectly [.ok output]).map transform).result =
      (request.read output).map transform := by
  simp only [performDirectly, Exchange.map, ok, nextReply, resultOf]

end Answers

end Request

/-! ## Readings -/

namespace Call

variable {output : Output} {result : Except Error Answer}

theorem reads_text_iff {call : Call} {column : Text} (looksAt : call.textColumn? = some column)
    (sql : Text) :
    ((Request.textOf sql column).read output).map Answer.text = result ↔
      call.Reads output result := by
  constructor
  · rintro rfl
    by_cases shown : ∃ text, output.Shows column text
    · obtain ⟨text, shows⟩ := shown
      rw [Request.textOf_of_shows sql shows]
      exact .text looksAt shows
    · have hidden := not_exists.mp shown
      rw [Request.textOf_of_hidden sql hidden]
      exact .noText looksAt hidden
  · intro reads
    cases reads with
    | @text _ _ other text looksAt' shows =>
        obtain rfl : column = other := Option.some.inj (looksAt.symm.trans looksAt')
        exact congrArg _ (Request.textOf_of_shows sql shows)
    | @noText _ _ other looksAt' hidden =>
        obtain rfl : column = other := Option.some.inj (looksAt.symm.trans looksAt')
        exact congrArg _ (Request.textOf_of_hidden sql hidden)
    | _ => cases looksAt

theorem reads_uuid_iff :
    (Request.uuid.read output).map Answer.uuid = result ↔ Call.uuid.Reads output result := by
  constructor
  · rintro rfl
    by_cases shown : ∃ text, output.Shows "uuid" text
    · obtain ⟨text, shows⟩ := shown
      cases parsed : Uuid.parse? text with
      | some identifier =>
          rw [Request.uuid_of_shows shows parsed]
          exact .uuid shows parsed
      | none =>
          rw [Request.uuid_of_noUuid shows parsed]
          exact .badUuid shows parsed
    · have hidden := not_exists.mp shown
      rw [Request.uuid_of_hidden hidden]
      exact .noUuid hidden
  · intro reads
    cases reads with
    | uuid shows isUuid => exact congrArg _ (Request.uuid_of_shows shows isUuid)
    | badUuid shows noUuid => exact congrArg _ (Request.uuid_of_noUuid shows noUuid)
    | noUuid hidden => exact congrArg _ (Request.uuid_of_hidden hidden)
    | text looksAt | noText looksAt => cases looksAt

theorem reads_rows_iff {query : Query} :
    Except.ok (.rows output.resultRows) = result ↔ (Call.fetchAll query).Reads output result := by
  constructor
  · rintro rfl
    exact .fetchAll (Output.brings_iff.mpr rfl)
  · intro reads
    cases reads with
    | fetchAll brings => rw [Output.brings_iff.mp brings]
    | text looksAt | noText looksAt => cases looksAt

theorem reads_firstRow_iff {query : Query} :
    Except.ok (.firstRow output.resultRows.head?) = result ↔
      (Call.fetchFirst query).Reads output result := by
  constructor
  · rintro rfl
    cases rows : output.resultRows with
    | nil => exact .fetchNone (Output.brings_iff.mpr rows)
    | cons row others => exact .fetchFirst (Output.brings_iff.mpr rows)
  · intro reads
    cases reads with
    | fetchFirst brings =>
        rw [Output.brings_iff.mp brings]
        rfl
    | fetchNone brings =>
        rw [Output.brings_iff.mp brings]
        rfl
    | text looksAt | noText looksAt => cases looksAt

theorem reads_summary_iff {query : Query} :
    Except.ok (.summary output.summary) = result ↔ (Call.execute query).Reads output result := by
  constructor
  · rintro rfl
    cases output with
    | rows found => exact .noChange query found
    | mutation done => exact .change query done
  · intro reads
    cases reads with
    | change => rfl
    | noChange => rfl
    | text looksAt | noText looksAt => cases looksAt

theorem reads_output_iff {sql : Text} :
    Except.ok (.output output) = result ↔ (Call.run sql).Reads output result := by
  constructor
  · rintro rfl
    exact .run sql output
  · intro reads
    cases reads with
    | run => rfl
    | text looksAt | noText looksAt => cases looksAt

/-- A direct call reads what the call of a session reads. -/
theorem reads_fetchAllDirectly_iff {query : Query} :
    (Call.fetchAllDirectly query).Reads output result ↔
      (Call.fetchAll query).Reads output result := by
  refine ⟨fun reads => ?_, .fetchAllDirectly⟩
  cases reads with
  | fetchAllDirectly reads => exact reads
  | text looksAt | noText looksAt => cases looksAt

theorem reads_executeDirectly_iff {query : Query} :
    (Call.executeDirectly query).Reads output result ↔
      (Call.execute query).Reads output result := by
  refine ⟨fun reads => ?_, .executeDirectly⟩
  cases reads with
  | executeDirectly reads => exact reads
  | text looksAt | noText looksAt => cases looksAt

theorem reads_columns_iff {table : Text} :
    (output.resultRows.mapM ColumnDescription.ofRow).map Answer.columns = result ↔
      (Call.describe table).Reads output result := by
  constructor
  · rintro rfl
    exact .describe ((Output.readsEach_iff fun _ _ => Iff.rfl).mp rfl)
  · intro reads
    cases reads with
    | describe read => rw [(Output.readsEach_iff fun _ _ => Iff.rfl).mpr read]
    | text looksAt | noText looksAt => cases looksAt

theorem reads_names_iff {part : Option Text} :
    (output.resultRows.mapM Request.listedTable).map Answer.names = result ↔
      (Call.tables part).Reads output result := by
  constructor
  · rintro rfl
    exact .tables ((Output.readsEach_iff fun _ _ => Request.listedTable_eq_iff).mp rfl)
  · intro reads
    cases reads with
    | tables read =>
        rw [(Output.readsEach_iff fun _ _ => Request.listedTable_eq_iff).mpr read]
    | text looksAt | noText looksAt => cases looksAt

end Call

end SqlComposer
