import SqlComposer.Proofs.Query.Twins

/-!
# Rendering related queries

A congruence that takes related texts to related SQL, and that relates the trusted
fragments of a query to themselves, takes twins to statements with related bodies
(`Query.build_matched`): both are built, or neither is, with errors of one kind.

The body of a statement is its SQL without the semicolon at its end.  Bodies start
with the words of their kind, by which hand-written SQL would be classified the
same way (`StatementKind.ofSql_of_opening`).
-/

namespace SqlComposer

set_option autoImplicit false

open Lexical (IsCongruence isPlain)

/-! ## Statements with related bodies -/

/-- The words that a statement of a kind starts with. -/
def StatementKind.opening : StatementKind → Text
  | .select => "SELECT "
  | .insert => "INSERT INTO "
  | .update => "UPDATE "
  | .delete => "DELETE FROM "
  | .raw => []

/-- SQL that starts with the words of a kind is of that kind. -/
theorem StatementKind.ofSql_of_opening {kind : StatementKind} {sql : Text}
    (built : kind ≠ .raw) (opens : kind.opening <+: sql) : StatementKind.ofSql sql = kind := by
  obtain ⟨rest, rfl⟩ := opens
  cases kind with
  | select => rfl
  | insert => rfl
  | update => rfl
  | delete => rfl
  | raw => exact absurd rfl built

/-- Related texts that both start with the same words. -/
structure Started (opening : Text) (related : Text → Text → Prop) (first second : Text) :
    Prop where
  firstOpens : opening <+: first
  secondOpens : opening <+: second
  together : related first second

namespace Started

variable {opening : Text} {related : Text → Text → Prop} (congruence : IsCongruence related)
include congruence

/-- The words of a kind alone. -/
theorem start (kind : StatementKind) : Started kind.opening related kind.opening kind.opening := by
  have plain : kind.opening.all isPlain := by cases kind <;> rfl
  exact ⟨List.prefix_rfl, List.prefix_rfl, congruence.plain plain⟩

/-- One more piece does not change how a text starts. -/
theorem append {first first' second second' : Text}
    (started : Started opening related first first') (pieces : related second second') :
    Started opening related (first ++ second) (first' ++ second') where
  firstOpens := started.firstOpens.trans (List.prefix_append _ _)
  secondOpens := started.secondOpens.trans (List.prefix_append _ _)
  together := congruence.append started.together pieces

/-- A plain word does not change how a text starts. -/
theorem word {first second : Text} (started : Started opening related first second) (word : Text)
    (plain : word.all isPlain) :
    Started opening related (first ++ word) (second ++ word) :=
  started.append congruence (congruence.plain plain)

end Started

/-- Related bodies of a kind, with a semicolon behind each. -/
def Terminated (kind : StatementKind) (related : Text → Text → Prop) (first second : Text) :
    Prop :=
  ∃ body body', Started kind.opening related body body' ∧
    first = body ++ [';'] ∧ second = body' ++ [';']

/-- Statements of a kind with related bodies. -/
structure Statement.Related (kind : StatementKind) (related : Text → Text → Prop)
    (first second : Statement) : Prop where
  firstKind : first.kind = kind
  secondKind : second.kind = kind
  terminated : Terminated kind related first.sql second.sql

/-- A table is resolved twice in the same way, and without grave accents in its names. -/
theorem Query.resolveTable_matched (raw : Text) :
    Matched (fun first second => first = second ∧ first.Unticked) (resolveTable raw)
      (resolveTable raw) := by
  unfold resolveTable
  split_ifs with blank
  · exact .error rfl
  · exact TableRef.resolve_matched raw

/-! ## The window and the order of rows -/

section Items

variable {related : Text → Text → Prop} (congruence : IsCongruence related)
include congruence

/-- A clause of items is related to itself when each of its items is. -/
theorem Select.itemsClause_related (keyword : Text) (plain : keyword.all isPlain)
    {write : Text → Text} {items : List Text}
    (each : ∀ item ∈ items, related (write item) (write item)) :
    related (itemsClause keyword (items.map write)) (itemsClause keyword (items.map write)) := by
  unfold itemsClause
  split_ifs
  · exact congruence.empty
  · refine congruence.append (congruence.plain plain) (congruence.joined ", " rfl ?_)
    refine List.forall₂_same.mpr fun written member => ?_
    obtain ⟨item, inItems, rfl⟩ := List.mem_map.mp member
    exact each item inItems

theorem Select.limitClause_related (query : Select) :
    related query.limitClause query.limitClause := by
  unfold limitClause
  cases query.limit with
  | none => exact congruence.empty
  | some count =>
      have digits := isPlain_of_isNumeral (Number.digits_isNumeral count.toNat)
      dsimp only
      split_ifs
      · exact congruence.empty
      · exact congruence.append (congruence.plain rfl) (congruence.plain digits)

theorem Select.offsetClause_related (query : Select) :
    related query.offsetClause query.offsetClause := by
  unfold offsetClause
  cases query.offset with
  | none => exact congruence.empty
  | some count =>
      have digits := isPlain_of_isNumeral (Number.digits_isNumeral count.toNat)
      exact congruence.append (congruence.plain rfl) (congruence.plain digits)

end Items

/-! ## The tuples of an insertion -/

theorem Row.Twin.isEmpty_eq {twin : Text → Text → Prop} {first second : Row}
    (twins : Row.Twin twin first second) : first.isEmpty = second.isEmpty := by
  have columns := congrArg List.isEmpty twins.columns_eq
  simpa [Row.columns, Row.isEmpty] using columns

/-- Rows that are twins one by one give an insertion the same columns. -/
theorem Insert.columnsOf_matched {twin : Text → Text → Prop} {firsts seconds : List Row}
    (twins : List.Forall₂ (Row.Twin twin) firsts seconds) :
    Matched Eq (columnsOf firsts) (columnsOf seconds) := by
  cases twins with
  | nil => exact .error rfl
  | cons head _ =>
      simp only [columnsOf, head.isEmpty_eq]
      split_ifs
      · exact .error rfl
      · exact .ok head.columns_eq

/-- Removals that are twins are refused together. -/
theorem Delete.Twin.isGuarded_eq {twin : Text → Text → Prop} {first second : Delete}
    (twins : Delete.Twin twin first second) : first.isGuarded = second.isGuarded := by
  unfold isGuarded
  rw [Condition.Twin.all_isAlwaysTrue_eq twins.conditions, twins.allowAll]

section Rendering

variable {related : Text → Text → Prop} (congruence : IsCongruence related)
  {twin : Text → Text → Prop} {functions : FunctionSet}
  (plainNames : ∀ name ∈ functions.names, Text.isPlainWord name)
  (onText : ∀ first second, twin first second →
    related (Value.textSql functions first) (Value.textSql functions second))
include congruence plainNames onText

/-- Twins have related tuples. -/
theorem Insert.tupleSql_matched (columns : List Text) (index : Nat) {first second : Row}
    (twins : Row.Twin twin first second) :
    Matched related (tupleSql functions columns index first)
      (tupleSql functions columns index second) := by
  have cell : ∀ column, Matched related (cellSql functions index first column)
      (cellSql functions index second column) := by
    intro column
    unfold cellSql
    have values := twins.get?_rel column
    revert values
    cases first.get? column <;> cases second.get? column <;> rintro (pair | _)
    · exact .error rfl
    · exact Value.sql_matched congruence plainNames onText pair
  unfold tupleSql
  rw [twins.columns_eq]
  split
  · exact .error rfl
  · have pairs : List.Forall₂ Eq columns columns := List.forall₂_same.mpr fun _ _ => rfl
    have cells : Matched (List.Forall₂ related) (columns.mapM (cellSql functions index first))
        (columns.mapM (cellSql functions index second)) := by
      refine Matched.mapM pairs fun column _ other same => ?_
      subst same
      exact cell column
    exact cells.bind fun _ _ together =>
      .ok (congruence.parenthesized (congruence.joined ", " rfl together))

/-- Rows that are twins one by one have tuples that are related one by one. -/
theorem Insert.tuplesSql_matched (columns : List Text) (index : Nat) {firsts seconds : List Row}
    (twins : List.Forall₂ (Row.Twin twin) firsts seconds) :
    Matched (List.Forall₂ related) (tuplesSql functions columns index firsts)
      (tuplesSql functions columns index seconds) := by
  induction twins generalizing index with
  | nil => exact .ok .nil
  | cons head _ ih =>
      refine (tupleSql_matched congruence plainNames onText columns index head).bind ?_
      intro _ _ tuple
      exact (ih (index + 1)).bind fun _ _ rest => .ok (.cons tuple rest)

/-- Assignments that are twins one by one are related one by one. -/
theorem Update.assignmentSql_matched {first second : Text × Value} (column : first.1 = second.1)
    (values : Value.Twin twin first.2 second.2) :
    Matched related (assignmentSql functions first) (assignmentSql functions second) := by
  unfold assignmentSql
  rw [column]
  refine (Column.quote_matched congruence second.1).bind fun _ _ name => ?_
  refine (Value.sql_matched congruence plainNames onText values).bind fun _ _ value => ?_
  exact .ok (Operator.compared_related congruence name rfl value)

/-! ## The four kinds -/

/-- Queries for rows that are twins have related bodies. -/
theorem Select.sql_matched {first second : Select}
    (onTrusted : ∀ fragment ∈ first.trusted, related fragment fragment)
    (twins : Select.Twin twin first second) :
    Matched (Terminated .select related) (first.sql functions) (second.sql functions) := by
  simp only [trusted, List.forall_mem_append] at onTrusted
  obtain ⟨⟨⟨⟨⟨inColumns, inJoins⟩, inConditions⟩, inGroupBy⟩, inGroupConditions⟩, inOrderBy⟩ :=
    onTrusted
  have grouping := itemsClause_related congruence " GROUP BY " rfl fun column member =>
    Column.sql_related congruence (List.forall_mem_flatMap.mp inGroupBy column member)
  have ordering := itemsClause_related congruence " ORDER BY " rfl fun item member =>
    Column.orderSql_related congruence (List.forall_mem_flatMap.mp inOrderBy item member)
  have limit := limitClause_related congruence first
  have offset := offsetClause_related congruence first
  have sameLimit : second.limitClause = first.limitClause := by
    unfold limitClause
    rw [twins.limit]
  have sameOffset : second.offsetClause = first.offsetClause := by
    unfold offsetClause
    rw [twins.offset]
  unfold Select.sql
  rw [← twins.table, ← twins.columns, ← twins.groupBy, ← twins.orderBy, sameLimit, sameOffset]
  refine (Query.resolveTable_matched first.table).bind ?_
  rintro table _ ⟨rfl, unticked⟩
  refine (Projected.listSql_matched congruence unticked inColumns).bind fun _ _ columns => ?_
  refine (Join.clauseSql_matched congruence plainNames onText inJoins twins.joins).bind
    fun _ _ joins => ?_
  refine (Condition.clauseSql_matched congruence plainNames onText rfl inConditions
    twins.conditions).bind fun _ _ conditions => ?_
  refine (Condition.clauseSql_matched congruence plainNames onText rfl inGroupConditions
    twins.groupConditions).bind fun _ _ groupConditions => ?_
  have name := TableRef.fullName_related congruence unticked
  have projection := (Started.start congruence .select).append congruence
    (congruence.joined ", " rfl columns)
  have target := (projection.word congruence " FROM " rfl).append congruence name
  have tables := target.append congruence joins
  have groups := (tables.append congruence conditions).append congruence grouping
  have order := (groups.append congruence groupConditions).append congruence ordering
  exact .ok ⟨_, _, (order.append congruence limit).append congruence offset, rfl, rfl⟩

/-- Insertions that are twins have related bodies. -/
theorem Insert.sql_matched {first second : Insert} (twins : Insert.Twin twin first second) :
    Matched (Terminated .insert related) (first.sql functions) (second.sql functions) := by
  unfold Insert.sql
  rw [← twins.table]
  refine (Query.resolveTable_matched first.table).bind ?_
  rintro table _ ⟨rfl, unticked⟩
  refine (columnsOf_matched twins.rows).bind ?_
  rintro columns _ rfl
  refine (tuplesSql_matched congruence plainNames onText columns 0 twins.rows).bind
    fun _ _ tuples => ?_
  refine (Matched.mapM_self fun column _ => Column.quote_matched congruence column).bind
    fun _ _ names => ?_
  have list := congruence.opened " " rfl congruence.empty (congruence.joined ", " rfl names)
  have target := (Started.start congruence .insert).append congruence
    (TableRef.name_related congruence unticked)
  have front := (target.append congruence list).word congruence " VALUES " rfl
  have whole := front.append congruence (congruence.joined ", " rfl tuples)
  -- The parentheses around the names belong to the words on either side of them.
  have regroup : ∀ start names tuples : Text,
      start ++ " (".toList ++ names ++ ") VALUES ".toList ++ tuples ++ ";".toList =
        start ++ ([] ++ (" ".toList ++ ['(']) ++ names ++ [')']) ++ " VALUES ".toList ++ tuples
          ++ [';'] := by
    intro start names tuples
    simp only [List.append_assoc, List.nil_append]
    rfl
  exact .ok ⟨_, _, whole, regroup _ _ _, regroup _ _ _⟩

/-- Changes that are twins have related bodies. -/
theorem Update.sql_matched {first second : Update}
    (onTrusted : ∀ fragment ∈ first.trusted, related fragment fragment)
    (twins : Update.Twin twin first second) :
    Matched (Terminated .update related) (first.sql functions) (second.sql functions) := by
  simp only [trusted, List.forall_mem_append] at onTrusted
  obtain ⟨⟨inJoins, inConditions⟩, inGroupConditions⟩ := onTrusted
  unfold Update.sql
  rw [← twins.table, ← twins.data.isEmpty_eq]
  refine (Query.resolveTable_matched first.table).bind ?_
  rintro table _ ⟨rfl, unticked⟩
  split_ifs with noData
  · exact .error rfl
  refine (Join.clauseSql_matched congruence plainNames onText inJoins twins.joins).bind
    fun _ _ joins => ?_
  refine (Matched.mapM twins.data fun _ _ _ pair =>
    assignmentSql_matched congruence plainNames onText pair.1 pair.2).bind fun _ _ assignments => ?_
  refine (Condition.clauseSql_matched congruence plainNames onText rfl inConditions
    twins.conditions).bind fun _ _ conditions => ?_
  refine (Condition.clauseSql_matched congruence plainNames onText rfl inGroupConditions
    twins.groupConditions).bind fun _ _ groupConditions => ?_
  have name := TableRef.fullName_related congruence unticked
  have target := ((Started.start congruence .update).append congruence name).append congruence joins
  have data := (target.word congruence " SET " rfl).append congruence
    (congruence.joined ", " rfl assignments)
  exact .ok ⟨_, _, (data.append congruence conditions).append congruence groupConditions, rfl, rfl⟩

/-- Removals that are twins have related bodies. -/
theorem Delete.sql_matched {first second : Delete}
    (onTrusted : ∀ fragment ∈ first.conditions.flatMap Condition.trusted,
      related fragment fragment)
    (twins : Delete.Twin twin first second) :
    Matched (Terminated .delete related) (first.sql functions) (second.sql functions) := by
  unfold Delete.sql
  rw [← twins.table, ← twins.isGuarded_eq]
  refine (Query.resolveTable_matched first.table).bind ?_
  rintro table _ ⟨rfl, unticked⟩
  split_ifs with guarded
  · exact .error rfl
  refine (Condition.clauseSql_matched congruence plainNames onText rfl onTrusted
    twins.conditions).bind fun _ _ conditions => ?_
  have target := (Started.start congruence .delete).append congruence
    (TableRef.fullName_related congruence unticked)
  exact .ok ⟨_, _, target.append congruence conditions, rfl, rfl⟩

/-- Queries that are twins are built to statements with related bodies, or neither is built, with
errors of one kind. -/
theorem Query.build_matched {first second : Query}
    (onTrusted : ∀ fragment ∈ first.trusted, related fragment fragment)
    (twins : Query.Twin twin first second) :
    Matched (Statement.Related first.kind related) (first.build functions)
      (second.build functions) := by
  cases twins with
  | select queries =>
      exact (Select.sql_matched congruence plainNames onText onTrusted queries).bind
        fun _ _ together => .ok ⟨rfl, rfl, together⟩
  | insert queries =>
      exact (Insert.sql_matched congruence plainNames onText queries).bind
        fun _ _ together => .ok ⟨rfl, rfl, together⟩
  | update queries =>
      exact (Update.sql_matched congruence plainNames onText onTrusted queries).bind
        fun _ _ together => .ok ⟨rfl, rfl, together⟩
  | delete queries =>
      exact (Delete.sql_matched congruence plainNames onText onTrusted queries).bind
        fun _ _ together => .ok ⟨rfl, rfl, together⟩

end Rendering

end SqlComposer
