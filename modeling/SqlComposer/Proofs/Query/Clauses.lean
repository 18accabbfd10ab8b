import SqlComposer.Join
import SqlComposer.Projection
import SqlComposer.Proofs.Condition.Rendering
import SqlComposer.Row

/-!
# Rendering related clauses

Besides conditions a query has joins, a projection, and rows of values.  Joins are
twins when their conditions are (`Join.Twin`), and rows are twins when they assign
twins to the same columns (`Row.Twin`).  A projection has no values, so that it is
only ever compared with itself.

Each clause is rendered to related SQL from twins, as long as its trusted
fragments are related to themselves.
-/

namespace SqlComposer

set_option autoImplicit false

open Lexical (IsCongruence isPlain)

/-! ## Joins -/

namespace Join

/-- The conditions of a join. -/
def conditions (join : Join) : List Condition :=
  match join.constraint with
  | .conditions conditions => conditions
  | _ => []

/-- The fragments of a join that are kept as written. -/
def trusted (join : Join) : List Text :=
  join.conditions.flatMap Condition.trusted

/-- The texts of the values in a join. -/
def texts (join : Join) : List Text :=
  join.conditions.flatMap Condition.texts

end Join

/-- Constraints that are the same except for their conditions, which are twins. -/
inductive JoinConstraint.Twin (twin : Text → Text → Prop) : JoinConstraint → JoinConstraint → Prop
  | conditions {firsts seconds : List Condition}
      (conditions : List.Forall₂ (Condition.Twin twin) firsts seconds) :
      Twin twin (.conditions firsts) (.conditions seconds)
  | sharedColumns (columns : List Text) :
      Twin twin (.sharedColumns columns) (.sharedColumns columns)
  | unconstrained : Twin twin .unconstrained .unconstrained

/-- Joins that are the same except for their constraints, which are twins. -/
structure Join.Twin (twin : Text → Text → Prop) (first second : Join) : Prop where
  kind : first.kind = second.kind
  table : first.table = second.table
  constraint : JoinConstraint.Twin twin first.constraint second.constraint

/-- A join is its own twin when its texts are related to themselves. -/
theorem Join.Twin.self {twin : Text → Text → Prop} {join : Join}
    (each : ∀ text ∈ join.texts, twin text text) : Join.Twin twin join join := by
  refine ⟨rfl, rfl, ?_⟩
  obtain ⟨kind, table, constraint⟩ := join
  cases constraint with
  | conditions conditions => exact .conditions (Condition.Twin.selfList each)
  | sharedColumns columns => exact .sharedColumns columns
  | unconstrained => exact .unconstrained

section Joins

variable {related : Text → Text → Prop} (congruence : IsCongruence related)
  {twin : Text → Text → Prop} {functions : FunctionSet}
  (plainNames : ∀ name ∈ functions.names, Text.isPlainWord name)
  (onText : ∀ first second, twin first second →
    related (Value.textSql functions first) (Value.textSql functions second))
include congruence plainNames onText

/-- The SQL of twins is related, or there is none for the same kind of reason. -/
theorem Join.sql_matched {first second : Join}
    (onTrusted : ∀ fragment ∈ first.trusted, related fragment fragment)
    (twins : Join.Twin twin first second) :
    Matched related (first.sql functions) (second.sql functions) := by
  obtain ⟨kind, table, constraint⟩ := first
  obtain ⟨kind', table', constraint'⟩ := second
  obtain ⟨rfl, rfl, constraints⟩ := twins
  refine (TableRef.resolve_matched table).bind ?_
  rintro reference _ ⟨rfl, unticked⟩
  have word : related (kind.keyword ++ " JOIN ") (kind.keyword ++ " JOIN ") := by
    cases kind <;> exact congruence.plain rfl
  have name := congruence.append word (TableRef.fullName_related congruence unticked)
  have written : Matched related (constraintSql functions kind reference constraint)
      (constraintSql functions kind reference constraint') := by
    cases constraints with
    | conditions conditions =>
        refine (Condition.listSql?_matched congruence plainNames onText onTrusted
          conditions).bind ?_
        rintro _ _ (together | _)
        · exact .ok (congruence.opened " ON " rfl congruence.empty together)
        · exact .error rfl
    | sharedColumns columns =>
        cases columns with
        | nil => exact .error rfl
        | cons column rest =>
            refine (Matched.mapM_self fun column _ =>
              Column.quote_matched congruence column).bind ?_
            intro _ _ together
            have names := congruence.joined ", " rfl together
            exact .ok (congruence.opened " USING " rfl congruence.empty names)
    | unconstrained =>
        simp only [constraintSql]
        split_ifs with cross
        · exact .ok congruence.empty
        · exact .error rfl
  exact written.bind fun _ _ together => .ok (congruence.append name together)

/-- Joins that are twins one by one are written to related SQL, if there are any. -/
theorem Join.listSql?_matched {firsts seconds : List Join}
    (onTrusted : ∀ fragment ∈ firsts.flatMap Join.trusted, related fragment fragment)
    (twins : List.Forall₂ (Join.Twin twin) firsts seconds) :
    Matched (Option.Rel related) (Join.listSql? functions firsts)
      (Join.listSql? functions seconds) := by
  have pieces : Matched (List.Forall₂ related) (firsts.mapM (Join.sql functions))
      (seconds.mapM (Join.sql functions)) :=
    Matched.mapM twins fun first member _ pair =>
      Join.sql_matched congruence plainNames onText
        (List.forall_mem_flatMap.mp onTrusted first member) pair
  cases twins with
  | nil => exact .ok .none
  | cons head rest =>
      exact pieces.bind fun _ _ together => .ok (.some (congruence.joined " " rfl together))

/-- The clauses of joins that are twins one by one are related. -/
theorem Join.clauseSql_matched {firsts seconds : List Join}
    (onTrusted : ∀ fragment ∈ firsts.flatMap Join.trusted, related fragment fragment)
    (twins : List.Forall₂ (Join.Twin twin) firsts seconds) :
    Matched related (Join.clauseSql functions firsts) (Join.clauseSql functions seconds) := by
  have blank : related [' '] [' '] := congruence.plain rfl
  refine (Join.listSql?_matched congruence plainNames onText onTrusted twins).bind ?_
  rintro _ _ (together | _)
  · exact .ok (congruence.append blank together)
  · exact .ok congruence.empty

end Joins

/-! ## Projections -/

/-- The columns that a function is called on. -/
def ProjectionFunction.columns : ProjectionFunction → List Text
  | .countDistinct column | .call _ column => [column]
  | .concat columns | .groupConcat columns => columns

/-- The fragments of a projected column that are kept as written. -/
def Projected.trusted : Projected → List Text
  | .raw expression | .aliased expression _ => [expression]
  | .computed function _ => function.columns.flatMap Column.trusted

section Projections

variable {related : Text → Text → Prop} (congruence : IsCongruence related)
include congruence

/-- The SQL of a function is related to itself when what is trusted of its columns is. -/
theorem ProjectionFunction.sql_matched {function : ProjectionFunction}
    (onTrusted : ∀ fragment ∈ function.columns.flatMap Column.trusted,
      related fragment fragment) :
    Matched related function.sql function.sql := by
  have onColumn : ∀ column ∈ function.columns, related (Column.sql column) (Column.sql column) :=
    fun column member =>
      Column.sql_related congruence (List.forall_mem_flatMap.mp onTrusted column member)
  have arguments : ∀ key, Matched related (argumentsSql key function.columns)
      (argumentsSql key function.columns) := by
    intro key
    cases columns : function.columns with
    | nil => exact .error rfl
    | cons first rest =>
        rw [columns] at onColumn
        refine .ok (congruence.joined _ rfl (List.forall₂_same.mpr fun written member => ?_))
        obtain ⟨column, inColumns, rfl⟩ := List.mem_map.mp member
        exact onColumn column inColumns
  cases function with
  | countDistinct column =>
      have distinct : related "DISTINCT " "DISTINCT " := congruence.plain rfl
      have inner := congruence.append distinct (onColumn column List.mem_cons_self)
      exact .ok (congruence.opened "COUNT" rfl congruence.empty inner)
  | concat columns =>
      exact (arguments "concat").bind fun _ _ together =>
        .ok (congruence.opened "CONCAT" rfl congruence.empty together)
  | groupConcat columns =>
      exact (arguments "group_concat").bind fun _ _ together =>
        .ok (congruence.opened "GROUP_CONCAT" rfl congruence.empty together)
  | call name column =>
      simp only [sql]
      split_ifs with isWord
      · have word := congruence.plain (uppercase_isPlain (isPlain_of_isPlainWord isWord))
        exact .ok (congruence.call word (onColumn column List.mem_cons_self))
      · exact .error rfl

/-- An alias is quoted without its grave accents. -/
theorem Projected.aliasSql_matched (aliasName : Text) :
    Matched related (aliasSql aliasName) (aliasSql aliasName) := by
  dsimp only [aliasSql]
  split_ifs with blank
  · exact .error rfl
  · exact .ok (congruence.name fun tick =>
      Reference.tick_notMem_unquoted aliasName (Text.trimmed_subset _ tick))

/-- The SQL of a projected column is related to itself when what is trusted of it is. -/
theorem Projected.sql_matched {column : Projected}
    (onTrusted : ∀ fragment ∈ column.trusted, related fragment fragment) :
    Matched related column.sql column.sql := by
  have as : related " AS " " AS " := congruence.plain rfl
  cases column with
  | raw expression => exact .ok (onTrusted expression List.mem_cons_self)
  | aliased expression aliasName =>
      have front := congruence.append (onTrusted expression List.mem_cons_self) as
      exact (aliasSql_matched congruence aliasName).bind fun _ _ together =>
        .ok (congruence.append front together)
  | computed function aliasName =>
      refine (ProjectionFunction.sql_matched congruence onTrusted).bind fun _ _ called => ?_
      exact (aliasSql_matched congruence aliasName).bind fun _ _ together =>
        .ok (congruence.append (congruence.append called as) together)

/-- The SQL of each column of a projection of a table is related to itself. -/
theorem Projected.listSql_matched {columns : List Projected} {table : TableRef}
    (unticked : table.Unticked)
    (onTrusted : ∀ fragment ∈ columns.flatMap Projected.trusted, related fragment fragment) :
    Matched (List.Forall₂ related) (listSql columns (some table))
      (listSql columns (some table)) := by
  have pieces : Matched (List.Forall₂ related) (columns.mapM sql) (columns.mapM sql) :=
    Matched.mapM_self fun column member =>
      sql_matched congruence (List.forall_mem_flatMap.mp onTrusted column member)
  cases columns with
  | nil => exact .ok (.cons (TableRef.allColumns_related congruence unticked) .nil)
  | cons first rest => exact pieces

end Projections

/-! ## Rows -/

namespace Row

/-- The texts of the values in a row. -/
def texts (row : Row) : List Text :=
  row.entries.flatMap fun entry => entry.2.texts

/-- Rows that assign twins to the same columns, in the same order. -/
def Twin (twin : Text → Text → Prop) (first second : Row) : Prop :=
  List.Forall₂ (fun entry entry' => entry.1 = entry'.1 ∧ Value.Twin twin entry.2 entry'.2)
    first.entries second.entries

variable {twin : Text → Text → Prop}

/-- A row is its own twin when its texts are related to themselves. -/
theorem Twin.self {row : Row} (each : ∀ text ∈ row.texts, twin text text) : Twin twin row row :=
  List.forall₂_same.mpr fun entry member =>
    ⟨rfl, Value.Twin.self (List.forall_mem_flatMap.mp each entry member)⟩

/-- Twins have the same columns. -/
theorem Twin.columns_eq {first second : Row} (twins : Twin twin first second) :
    first.columns = second.columns := by
  obtain ⟨entries, distinct⟩ := first
  obtain ⟨entries', distinct'⟩ := second
  simp only [Twin, columns] at twins ⊢
  clear distinct distinct'
  induction twins with
  | nil => rfl
  | cons head _ ih => rw [List.map_cons, List.map_cons, head.1, ih]

/-- Twins have twins for each column, or both have none. -/
theorem Twin.get?_rel {first second : Row} (twins : Twin twin first second) (column : Text) :
    Option.Rel (Value.Twin twin) (first.get? column) (second.get? column) := by
  obtain ⟨entries, distinct⟩ := first
  obtain ⟨entries', distinct'⟩ := second
  simp only [Twin, get?] at twins ⊢
  clear distinct distinct'
  induction twins with
  | nil => exact .none
  | @cons entry entry' _ _ head _ ih =>
      obtain ⟨name, value⟩ := entry
      obtain ⟨name', value'⟩ := entry'
      obtain ⟨rfl, values⟩ := head
      rw [List.lookup_cons, List.lookup_cons]
      cases column == name with
      | true => exact .some values
      | false => exact ih

end Row

end SqlComposer
