import SqlComposer.Params.Query
import SqlComposer.Proofs.Params.Clauses

/-!
# Writing queries as JSON

A query of each kind has a canonical form in JSON: an object with a member for each
clause, where lists are written as arrays and a count that is not set is left out
(`Query.toJson`).  Reading that form leads to the same statement as the query itself,
or to the same error, for every set of allowed functions (`Query.buildJson_toJson`).

Reading checks the table of a query before it is built, and building checks it again.
A blank table is thus refused in the one way by the reader and in the other by the
query, with the same error; any other representable query is read back as it is.
-/

namespace SqlComposer

set_option autoImplicit false

open Params Json

/-! ## Lists of texts and counts -/

namespace Params

/-- A list of texts is read back from its array. -/
theorem stringsOfJson_strings (key : Text) (texts : List Text) :
    stringsOfJson key (.array (texts.map Json.string)) = .ok texts :=
  mapM_map_eq_ok fun _ _ => rfl

/-- A count as a member of an object; there is none for a count that is not set. -/
def countMember (key : Text) : Option UInt64 → List (Text × Json)
  | none => []
  | some count => [(key, .number (.ofWord count))]

/-- An unsigned word that a signed one holds is not negative. -/
theorem toInt64_nonneg {value : UInt64} (small : ¬ Int64.maxValue.toInt < value.toNat) :
    0 ≤ value.toInt64 := by
  have bits : value.toInt64.toInt = value.toBitVec.toInt := rfl
  have size : value.toBitVec.toNat = value.toNat := rfl
  rw [Int64.toInt_maxValue] at small
  rw [Int64.le_iff_toInt_le, Int64.toInt_zero, bits, BitVec.toInt_eq_toNat_cond, size,
    if_pos (by omega)]
  exact Int.natCast_nonneg _

/-- The number of a count is read back as that count. -/
theorem count?_ofWord (count : UInt64) : count? (.number (.ofWord count)) = some count := by
  unfold Json.Number.ofWord
  split_ifs with large
  · rfl
  · rw [count?, if_pos (toInt64_nonneg large), UInt64.toUInt64_toInt64]

theorem countOfJson_ofWord (key : Text) (count : UInt64) :
    countOfJson key (.number (.ofWord count)) = .ok (some count) := by
  rw [countOfJson, if_neg (by simp [isUnset]), count?_ofWord]

/-- The member of a count is read back as that count, whether it is set or not. -/
theorem countOfJson_countMember (key : Text) (count : Option UInt64) :
    countOfJson key (memberOrNull key (countMember key count)) = .ok count := by
  cases count with
  | none => rfl
  | some count =>
      have member : memberOrNull key (countMember key (some count)) = .number (.ofWord count) := by
        simp [memberOrNull, member?, countMember]
      rw [member, countOfJson_ofWord]

theorem countMember_isDelivered (key : Text) (count : Option UInt64) :
    ∀ entry ∈ countMember key count, entry.2.IsDelivered := by
  cases count with
  | none => exact List.forall_mem_nil _
  | some count =>
      intro entry member
      rw [List.mem_singleton.mp member]
      exact .number (Number.ofWord_isDelivered count)

end Params

/-! ## From reading to building -/

/-- What is refused for a blank table, and read back otherwise, is built as if it had not been
written, if building refuses a blank table too. -/
theorem bind_eq_of_reads {α : Type} {table : Text} {read : Except Error α} {query : α}
    {build : α → Except Error Statement}
    (reads : read =
      if (Text.trimmed table).isEmpty then .error (.missingField .table) else .ok query)
    (refuses : (Text.trimmed table).isEmpty → build query = .error (.missingField .table)) :
    read >>= build = build query := by
  rw [reads]
  split_ifs with blank
  · exact (refuses blank).symm
  · rfl

theorem Query.resolveTable_of_blank {table : Text} (blank : (Text.trimmed table).isEmpty) :
    resolveTable table = .error (.missingField .table) :=
  if_pos blank

/-- Joins in JSON. -/
def Join.listToJson (joins : List Join) : Json :=
  .array (joins.map toJson)

/-- Representable joins are read back from their JSON. -/
theorem Join.listOfJson_listToJson {joins : List Join}
    (representable : joins.all isRepresentable) : listOfJson (listToJson joins) = .ok joins :=
  mapM_map_eq_ok fun join member => ofJson_toJson (List.all_eq_true.mp representable join member)

theorem Join.listToJson_isDelivered {joins : List Join}
    (representable : joins.all isRepresentable) : (listToJson joins).IsDelivered :=
  .arrayOf fun join member => toJson_isDelivered (List.all_eq_true.mp representable join member)

/-! ## SELECT -/

namespace Select

/-- Whether JSON has values of its own for the parts of a query for rows. -/
def isRepresentable (form : ProjectionForm) (query : Select) : Bool :=
  Projected.isRepresentable query.columns form && query.joins.all Join.isRepresentable
    && query.conditions.all Condition.isRepresentable
    && query.groupConditions.all Condition.isRepresentable

/-- The clauses of a query for rows as members of an object. -/
def clauseMembers (form : ProjectionForm) (query : Select) : List (Text × Json) :=
  [("table", .string query.table), ("columns", Projected.listToJson query.columns form),
    ("joins", Join.listToJson query.joins), ("where", Condition.listToJson query.conditions),
    ("group_by", .array (query.groupBy.map Json.string)),
    ("having", Condition.listToJson query.groupConditions),
    ("order_by", .array (query.orderBy.map Json.string))]

/-- The keys of the clauses, in order. -/
def clauseKeys : List Text :=
  ["table", "columns", "joins", "where", "group_by", "having", "order_by"]

/-- A query for rows as members of an object. -/
def toMembers (form : ProjectionForm) (query : Select) : List (Text × Json) :=
  query.clauseMembers form ++ countMember "limit" query.limit
    ++ countMember "offset" query.offset

section Members

variable (form : ProjectionForm) (query : Select)

/-- A query for rows is written with known parameters only. -/
theorem membersOf_toMembers :
    membersOf .select parameterKeys (.object (query.toMembers form)) =
      .ok (query.toMembers form) := by
  obtain ⟨_, _, _, _, _, _, _, limit, offset⟩ := query
  cases limit <;> cases offset <;> rfl

theorem presentMember?_fields : presentMember? "fields" (query.toMembers form) = none := by
  obtain ⟨_, _, _, _, _, _, _, limit, offset⟩ := query
  cases limit <;> cases offset <;> rfl

theorem presentMember?_columns :
    presentMember? "columns" (query.toMembers form) =
      some (Projected.listToJson query.columns form) := by
  cases form <;> rfl

theorem memberOrNull_limit :
    memberOrNull "limit" (query.toMembers form) =
      memberOrNull "limit" (countMember "limit" query.limit) := by
  obtain ⟨_, _, _, _, _, _, _, limit, offset⟩ := query
  cases limit <;> cases offset <;> rfl

theorem memberOrNull_offset :
    memberOrNull "offset" (query.toMembers form) =
      memberOrNull "offset" (countMember "offset" query.offset) := by
  obtain ⟨_, _, _, _, _, _, _, limit, offset⟩ := query
  cases limit <;> rfl

/-- The keys of the clauses and of the counts that are set are distinct. -/
theorem nodup_keys_toMembers : (keys (query.toMembers form)).Nodup := by
  have noCount : clauseKeys.Nodup := by decide
  have onlyLimit : (clauseKeys ++ [("limit" : Text)]).Nodup := by decide
  have onlyOffset : (clauseKeys ++ [("offset" : Text)]).Nodup := by decide
  have bothCounts : (clauseKeys ++ ([("limit" : Text), ("offset" : Text)])).Nodup := by decide
  obtain ⟨_, _, _, _, _, _, _, limit, offset⟩ := query
  cases limit with
  | none =>
      cases offset with
      | none => exact noCount
      | some count => exact onlyOffset
  | some count =>
      cases offset with
      | none => exact onlyLimit
      | some count => exact bothCounts

end Members

/-- A query for rows is read back from its JSON, unless its table is blank. -/
theorem ofJson_toMembers {form : ProjectionForm} {query : Select}
    (representable : query.isRepresentable form) :
    ofJson (.object (query.toMembers form)) =
      if (Text.trimmed query.table).isEmpty then .error (.missingField .table)
      else .ok query := by
  simp only [isRepresentable, Bool.and_eq_true] at representable
  obtain ⟨⟨⟨inColumns, inJoins⟩, inConditions⟩, inGroupConditions⟩ := representable
  have table : tableOf (query.toMembers form) =
      if (Text.trimmed query.table).isEmpty then .error (.missingField .table)
      else .ok query.table := rfl
  have columns : columnsOfMembers (query.toMembers form) = .ok query.columns := by
    rw [columnsOfMembers, presentMember?_columns, presentMember?_fields]
    exact Projected.listOfJson_listToJson inColumns
  have joins : Join.listOfJson (memberOrNull "joins" (query.toMembers form)) = .ok query.joins :=
    Join.listOfJson_listToJson inJoins
  have conditions : Condition.listOfJson (memberOrNull "where" (query.toMembers form)) =
      .ok query.conditions := Condition.listOfJson_listToJson inConditions
  have groupConditions : Condition.listOfJson (memberOrNull "having" (query.toMembers form)) =
      .ok query.groupConditions := Condition.listOfJson_listToJson inGroupConditions
  have groupBy : stringsOfJson "group_by" (memberOrNull "group_by" (query.toMembers form)) =
      .ok query.groupBy := stringsOfJson_strings _ _
  have orderBy : stringsOfJson "order_by" (memberOrNull "order_by" (query.toMembers form)) =
      .ok query.orderBy := stringsOfJson_strings _ _
  have limit : countOfJson "limit" (memberOrNull "limit" (query.toMembers form)) =
      .ok query.limit := by
    rw [memberOrNull_limit]
    exact countOfJson_countMember "limit" query.limit
  have offset : countOfJson "offset" (memberOrNull "offset" (query.toMembers form)) =
      .ok query.offset := by
    rw [memberOrNull_offset]
    exact countOfJson_countMember "offset" query.offset
  rw [ofJson, membersOf_toMembers]
  simp only [bind, Except.bind, table]
  split_ifs with blank
  · rfl
  · simp only [columns, joins, conditions, groupConditions, groupBy, orderBy, limit, offset]
    rfl

theorem toMembers_isDelivered {form : ProjectionForm} {query : Select}
    (representable : query.isRepresentable form) :
    (Json.object (query.toMembers form)).IsDelivered := by
  simp only [isRepresentable, Bool.and_eq_true] at representable
  obtain ⟨⟨⟨inColumns, inJoins⟩, inConditions⟩, inGroupConditions⟩ := representable
  refine .object (nodup_keys_toMembers form query) ?_
  simp only [toMembers, clauseMembers, List.forall_mem_append, List.forall_mem_cons]
  exact ⟨⟨⟨.string _, Projected.listToJson_isDelivered inColumns,
    Join.listToJson_isDelivered inJoins, Condition.listToJson_isDelivered inConditions,
    .strings _, Condition.listToJson_isDelivered inGroupConditions, .strings _,
    List.forall_mem_nil _⟩, countMember_isDelivered _ _⟩, countMember_isDelivered _ _⟩

end Select

/-! ## INSERT -/

namespace Insert

/-- Whether there are rows, with values that JSON has values of its own for. -/
def isRepresentable (query : Insert) : Bool :=
  !query.rows.isEmpty && query.rows.all Row.isRepresentable

/-- An insertion as members of an object. -/
def toMembers (query : Insert) : List (Text × Json) :=
  [("table", .string query.table),
    ("data", .array (query.rows.map fun row => .object row.toMembers))]

/-- An insertion is read back from its JSON, unless its table is blank. -/
theorem ofJson_toMembers {query : Insert} (representable : query.isRepresentable) :
    ofJson (.object query.toMembers) =
      if (Text.trimmed query.table).isEmpty then .error (.missingField .table)
      else .ok query := by
  obtain ⟨some, inRows⟩ := Bool.and_eq_true_iff.mp representable
  have members : membersOf .insert parameterKeys (.object query.toMembers) =
      .ok query.toMembers := rfl
  have table : tableOf query.toMembers =
      if (Text.trimmed query.table).isEmpty then .error (.missingField .table)
      else .ok query.table := rfl
  have written : (query.rows.map fun row => Json.object row.toMembers).mapM rowOfJson =
      .ok query.rows :=
    mapM_map_eq_ok fun row member =>
      Row.ofMembers_toMembers (List.all_eq_true.mp inRows row member)
  have rows : rowsOfJson (memberOrNull "data" query.toMembers) = .ok query.rows := by
    change rowsOfJson (.array (query.rows.map fun row => .object row.toMembers)) = _
    cases present : query.rows with
    | nil => simp [present] at some
    | cons first rest =>
        rw [present] at written
        exact written
  rw [ofJson, members]
  simp only [bind, Except.bind, table]
  split_ifs with blank
  · rfl
  · simp only [rows]
    rfl

theorem toMembers_isDelivered {query : Insert} (representable : query.isRepresentable) :
    (Json.object query.toMembers).IsDelivered := by
  obtain ⟨_, inRows⟩ := Bool.and_eq_true_iff.mp representable
  refine .pair (by decide) (.string _) (.arrayOf fun row member => ?_)
  exact Row.toMembers_isDelivered (List.all_eq_true.mp inRows row member)

end Insert

/-! ## UPDATE -/

namespace Update

/-- Whether JSON has values of its own for the parts of a change. -/
def isRepresentable (query : Update) : Bool :=
  query.data.isRepresentable && query.joins.all Join.isRepresentable
    && query.conditions.all Condition.isRepresentable
    && query.groupConditions.all Condition.isRepresentable

/-- A change as members of an object. -/
def toMembers (query : Update) : List (Text × Json) :=
  [("table", .string query.table), ("data", .object query.data.toMembers),
    ("joins", Join.listToJson query.joins), ("where", Condition.listToJson query.conditions),
    ("having", Condition.listToJson query.groupConditions)]

/-- A change is read back from its JSON, unless its table is blank. -/
theorem ofJson_toMembers {query : Update} (representable : query.isRepresentable) :
    ofJson (.object query.toMembers) =
      if (Text.trimmed query.table).isEmpty then .error (.missingField .table)
      else .ok query := by
  simp only [isRepresentable, Bool.and_eq_true] at representable
  obtain ⟨⟨⟨inData, inJoins⟩, inConditions⟩, inGroupConditions⟩ := representable
  have members : membersOf .update parameterKeys (.object query.toMembers) =
      .ok query.toMembers := rfl
  have table : tableOf query.toMembers =
      if (Text.trimmed query.table).isEmpty then .error (.missingField .table)
      else .ok query.table := rfl
  have data : dataOfJson (memberOrNull "data" query.toMembers) = .ok query.data :=
    Row.ofMembers_toMembers inData
  have joins : Join.listOfJson (memberOrNull "joins" query.toMembers) = .ok query.joins :=
    Join.listOfJson_listToJson inJoins
  have conditions : Condition.listOfJson (memberOrNull "where" query.toMembers) =
      .ok query.conditions := Condition.listOfJson_listToJson inConditions
  have groupConditions : Condition.listOfJson (memberOrNull "having" query.toMembers) =
      .ok query.groupConditions := Condition.listOfJson_listToJson inGroupConditions
  rw [ofJson, members]
  simp only [bind, Except.bind, table]
  split_ifs with blank
  · rfl
  · simp only [data, joins, conditions, groupConditions]
    rfl

theorem toMembers_isDelivered {query : Update} (representable : query.isRepresentable) :
    (Json.object query.toMembers).IsDelivered := by
  simp only [isRepresentable, Bool.and_eq_true] at representable
  obtain ⟨⟨⟨inData, inJoins⟩, inConditions⟩, inGroupConditions⟩ := representable
  have distinct : (["table", "data", "joins", "where", "having"] : List Text).Nodup := by decide
  refine .object distinct ?_
  simp only [toMembers, List.forall_mem_cons]
  exact ⟨.string _, Row.toMembers_isDelivered inData, Join.listToJson_isDelivered inJoins,
    Condition.listToJson_isDelivered inConditions,
    Condition.listToJson_isDelivered inGroupConditions, List.forall_mem_nil _⟩

end Update

/-! ## DELETE -/

namespace Delete

/-- Whether JSON has values of its own for the conditions of a removal. -/
def isRepresentable (query : Delete) : Bool :=
  query.conditions.all Condition.isRepresentable

/-- A removal as members of an object. -/
def toMembers (query : Delete) : List (Text × Json) :=
  [("table", .string query.table), ("where", Condition.listToJson query.conditions),
    ("allow_delete_all", .bool query.allowAll)]

/-- A removal is read back from its JSON, unless its table is blank. -/
theorem ofJson_toMembers {query : Delete} (representable : query.isRepresentable) :
    ofJson (.object query.toMembers) =
      if (Text.trimmed query.table).isEmpty then .error (.missingField .table)
      else .ok query := by
  have members : membersOf .delete parameterKeys (.object query.toMembers) =
      .ok query.toMembers := rfl
  have table : tableOf query.toMembers =
      if (Text.trimmed query.table).isEmpty then .error (.missingField .table)
      else .ok query.table := rfl
  have allowAll : allowAllOfMembers query.toMembers = .ok query.allowAll := by
    obtain ⟨table, conditions, allowAll⟩ := query
    cases allowAll <;> rfl
  have conditions : Condition.listOfJson (memberOrNull "where" query.toMembers) =
      .ok query.conditions := Condition.listOfJson_listToJson representable
  rw [ofJson, members]
  simp only [bind, Except.bind, table]
  split_ifs with blank
  · rfl
  · simp only [allowAll, conditions]
    rfl

theorem toMembers_isDelivered {query : Delete} (representable : query.isRepresentable) :
    (Json.object query.toMembers).IsDelivered := by
  have distinct : (["table", "where", "allow_delete_all"] : List Text).Nodup := by decide
  refine .object distinct ?_
  simp only [toMembers, List.forall_mem_cons]
  exact ⟨.string _, Condition.listToJson_isDelivered representable, .bool _,
    List.forall_mem_nil _⟩

end Delete

/-! ## Queries of any kind -/

namespace Query

/-- The table of a query, as written. -/
def table : Query → Text
  | .select query => query.table
  | .insert query => query.table
  | .update query => query.table
  | .delete query => query.table

/-- Whether JSON has values of its own for the parts of a query. -/
def isRepresentable (form : ProjectionForm) : Query → Bool
  | .select query => query.isRepresentable form
  | .insert query => query.isRepresentable
  | .update query => query.isRepresentable
  | .delete query => query.isRepresentable

/-- A query in JSON, with its projection in one of two forms. -/
def toJson (form : ProjectionForm) : Query → Json
  | .select query => .object (query.toMembers form)
  | .insert query => .object query.toMembers
  | .update query => .object query.toMembers
  | .delete query => .object query.toMembers

/-- The statement of JSON parameters, which are read as a query of the same kind. -/
def buildJson (functions : FunctionSet) (json : Json) : Query → Except Error Statement
  | .select _ => Select.ofJson json >>= Select.build functions
  | .insert _ => Insert.ofJson json >>= Insert.build functions
  | .update _ => Update.ofJson json >>= Update.build functions
  | .delete _ => Delete.ofJson json >>= Delete.build functions

/-- A query of a blank table is not built. -/
theorem build_of_blank (functions : FunctionSet) (query : Query)
    (blank : (Text.trimmed query.table).isEmpty) :
    query.build functions = .error (.missingField .table) := by
  have refused := resolveTable_of_blank blank
  cases query with
  | select query =>
      rw [table] at refused
      rw [build, Select.build, Select.sql, refused]
      rfl
  | insert query =>
      rw [table] at refused
      rw [build, Insert.build, Insert.sql, refused]
      rfl
  | update query =>
      rw [table] at refused
      rw [build, Update.build, Update.sql, refused]
      rfl
  | delete query =>
      rw [table] at refused
      rw [build, Delete.build, Delete.sql, refused]
      rfl

/-- The JSON of a representable query is a value that a reader of JSON delivers. -/
theorem toJson_isDelivered {form : ProjectionForm} {query : Query}
    (representable : query.isRepresentable form) : (query.toJson form).IsDelivered := by
  cases query with
  | select query => exact Select.toMembers_isDelivered representable
  | insert query => exact Insert.toMembers_isDelivered representable
  | update query => exact Update.toMembers_isDelivered representable
  | delete query => exact Delete.toMembers_isDelivered representable

/-- A representable query is written to JSON that a reader delivers, and that is built to the
statement of the query, or refused with its error, whatever functions are allowed. -/
theorem buildJson_toJson (functions : FunctionSet) {form : ProjectionForm} {query : Query}
    (representable : query.isRepresentable form) :
    (query.toJson form).IsDelivered ∧
      query.buildJson functions (query.toJson form) = query.build functions := by
  refine ⟨toJson_isDelivered representable, ?_⟩
  have refuses := build_of_blank functions query
  cases query with
  | select query => exact bind_eq_of_reads (Select.ofJson_toMembers representable) refuses
  | insert query => exact bind_eq_of_reads (Insert.ofJson_toMembers representable) refuses
  | update query => exact bind_eq_of_reads (Update.ofJson_toMembers representable) refuses
  | delete query => exact bind_eq_of_reads (Delete.ofJson_toMembers representable) refuses

/-- A query with a computed column, a join, a group of alternatives, a call and a limit. -/
def revenueOfGuests : Query :=
  .select
    { table := "orders AS o"
      columns := [.computed (.call "sum" "o.total") "revenue"]
      joins := [⟨.leftOuter, "guests", .sharedColumns ["id"]⟩]
      conditions := [.anyOf
        [.compare "o.day" (.between (.int 1) (.call "date" (.text "2024-01-01"))),
          .compare "o.note" .isNull]]
      limit := some 10 }

/-- Such a query is representable with a mapping from its alias. -/
theorem buildJson_toJson_revenueOfGuests :
    revenueOfGuests.isRepresentable .mapping ∧
      (revenueOfGuests.toJson .mapping).IsDelivered ∧
      revenueOfGuests.buildJson .standard (revenueOfGuests.toJson .mapping) =
        revenueOfGuests.build .standard := by
  have representable : revenueOfGuests.isRepresentable .mapping := by decide
  exact ⟨representable, buildJson_toJson .standard representable⟩

end Query

end SqlComposer
