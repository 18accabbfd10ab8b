import SqlComposer.Proofs.Query.Clauses
import SqlComposer.Query

/-!
# Queries that differ in their literals

Two queries of one kind are twins when they differ at most in the texts of their
values, which are related, and in their patterns (`Query.Twin`).  A query is its
own twin when its texts are related to themselves (`Query.Twin.self`).

Twins have the same trusted fragments, which are the expressions and the raw
predicates that are kept as written (`Query.trusted`).
-/

namespace SqlComposer

set_option autoImplicit false

/-! ## What is read off a query -/

/-- The kind of statement that a query is built to. -/
def Query.kind : Query → StatementKind
  | .select _ => .select
  | .insert _ => .insert
  | .update _ => .update
  | .delete _ => .delete

/-- The fragments of a query for rows that are kept as written. -/
def Select.trusted (query : Select) : List Text :=
  query.columns.flatMap Projected.trusted ++ query.joins.flatMap Join.trusted
    ++ query.conditions.flatMap Condition.trusted ++ query.groupBy.flatMap Column.trusted
    ++ query.groupConditions.flatMap Condition.trusted
    ++ query.orderBy.flatMap Column.trustedInOrder

/-- The texts of the values in a query for rows. -/
def Select.texts (query : Select) : List Text :=
  query.joins.flatMap Join.texts ++ query.conditions.flatMap Condition.texts
    ++ query.groupConditions.flatMap Condition.texts

/-- The texts of the values in an insertion. -/
def Insert.texts (query : Insert) : List Text :=
  query.rows.flatMap Row.texts

/-- The fragments of a change that are kept as written. -/
def Update.trusted (query : Update) : List Text :=
  query.joins.flatMap Join.trusted ++ query.conditions.flatMap Condition.trusted
    ++ query.groupConditions.flatMap Condition.trusted

/-- The texts of the values in a change. -/
def Update.texts (query : Update) : List Text :=
  query.joins.flatMap Join.texts ++ query.data.texts
    ++ query.conditions.flatMap Condition.texts
    ++ query.groupConditions.flatMap Condition.texts

/-- The fragments of a query that are kept as written. -/
def Query.trusted : Query → List Text
  | .select query => query.trusted
  | .insert _ => []
  | .update query => query.trusted
  | .delete query => query.conditions.flatMap Condition.trusted

/-- The texts of the values in a query. -/
def Query.texts : Query → List Text
  | .select query => query.texts
  | .insert query => query.texts
  | .update query => query.texts
  | .delete query => query.conditions.flatMap Condition.texts

/-! ## Twins -/

section Twins

variable (twin : Text → Text → Prop)

/-- Queries for rows that are the same except for values and patterns, which are twins. -/
structure Select.Twin (first second : Select) : Prop where
  table : first.table = second.table
  columns : first.columns = second.columns
  joins : List.Forall₂ (Join.Twin twin) first.joins second.joins
  conditions : List.Forall₂ (Condition.Twin twin) first.conditions second.conditions
  groupBy : first.groupBy = second.groupBy
  groupConditions : List.Forall₂ (Condition.Twin twin) first.groupConditions second.groupConditions
  orderBy : first.orderBy = second.orderBy
  limit : first.limit = second.limit
  offset : first.offset = second.offset

/-- Insertions into one table of rows that are twins. -/
structure Insert.Twin (first second : Insert) : Prop where
  table : first.table = second.table
  rows : List.Forall₂ (Row.Twin twin) first.rows second.rows

/-- Changes that are the same except for values and patterns, which are twins. -/
structure Update.Twin (first second : Update) : Prop where
  table : first.table = second.table
  data : Row.Twin twin first.data second.data
  joins : List.Forall₂ (Join.Twin twin) first.joins second.joins
  conditions : List.Forall₂ (Condition.Twin twin) first.conditions second.conditions
  groupConditions : List.Forall₂ (Condition.Twin twin) first.groupConditions second.groupConditions

/-- Removals that are the same except for values and patterns, which are twins. -/
structure Delete.Twin (first second : Delete) : Prop where
  table : first.table = second.table
  conditions : List.Forall₂ (Condition.Twin twin) first.conditions second.conditions
  allowAll : first.allowAll = second.allowAll

/-- Queries of one kind that are the same except for values and patterns, which are twins. -/
inductive Query.Twin : Query → Query → Prop
  | select {first second : Select} (queries : Select.Twin twin first second) :
      Twin (.select first) (.select second)
  | insert {first second : Insert} (queries : Insert.Twin twin first second) :
      Twin (.insert first) (.insert second)
  | update {first second : Update} (queries : Update.Twin twin first second) :
      Twin (.update first) (.update second)
  | delete {first second : Delete} (queries : Delete.Twin twin first second) :
      Twin (.delete first) (.delete second)

end Twins

section Self

variable {twin : Text → Text → Prop}

/-- Joins are their own twins when their texts are related to themselves. -/
theorem Join.Twin.selfList {joins : List Join}
    (each : ∀ text ∈ joins.flatMap Join.texts, twin text text) :
    List.Forall₂ (Join.Twin twin) joins joins :=
  List.forall₂_same.mpr fun join member =>
    Join.Twin.self (List.forall_mem_flatMap.mp each join member)

/-- A query is its own twin when the texts of its values are related to themselves. -/
theorem Query.Twin.self {query : Query} (each : ∀ text ∈ query.texts, twin text text) :
    Query.Twin twin query query := by
  cases query with
  | select query =>
      simp only [texts, Select.texts, List.forall_mem_append] at each
      obtain ⟨⟨joins, conditions⟩, groupConditions⟩ := each
      exact .select
        { table := rfl, columns := rfl, groupBy := rfl, orderBy := rfl, limit := rfl, offset := rfl
          joins := Join.Twin.selfList joins
          conditions := Condition.Twin.selfList conditions
          groupConditions := Condition.Twin.selfList groupConditions }
  | insert query =>
      refine .insert ⟨rfl, List.forall₂_same.mpr fun row member => Row.Twin.self ?_⟩
      exact List.forall_mem_flatMap.mp each row member
  | update query =>
      simp only [texts, Update.texts, List.forall_mem_append] at each
      obtain ⟨⟨⟨joins, data⟩, conditions⟩, groupConditions⟩ := each
      exact .update
        { table := rfl
          data := Row.Twin.self data
          joins := Join.Twin.selfList joins
          conditions := Condition.Twin.selfList conditions
          groupConditions := Condition.Twin.selfList groupConditions }
  | delete query => exact .delete ⟨rfl, Condition.Twin.selfList each, rfl⟩

end Self

end SqlComposer
