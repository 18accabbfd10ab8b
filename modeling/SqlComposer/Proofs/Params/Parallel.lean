import SqlComposer.Params.Query
import SqlComposer.Proofs.Params.Members

/-!
# Reading two descriptions in parallel

When the members of two objects correspond, the objects are read alike: as the same
condition, join or query, or they are refused with errors of one kind.  What has to
be known for this is how the two values of each key are read (`ReadsAlike`), and
nothing about the order of the members.

Each reader has one lemma here, which takes what is read under the keys as a
hypothesis.  In what the corresponding values differ is left to its use: the keys of
their own objects may be in another order, or an entry may stand for a list.
-/

namespace SqlComposer

set_option autoImplicit false

open Json

variable {related : Text → Json → Json → Prop} {first second : List (Text × Json)}

/-! ## Predicates and conditions -/

namespace Predicate

/-- The values of the members of a condition are read alike as what their keys make of them. -/
structure ReadsAlike (related : Text → Json → Json → Prop) : Prop where
  column : ∀ name ∈ columnKeys, ∀ value other, related name value other →
    value.string? = other.string?
  operand : ∀ name key, OperatorKey.ofText? name = some key → ∀ value other,
    related name value other → Matched Eq (Operator.ofJson key value) (Operator.ofJson key other)
  check : ∀ name key, OperatorKey.ofText? name = some key → ∀ value other,
    related name value other → Matched Eq (checkOfJson key value) (checkOfJson key other)
  value : ∀ name, OperatorKey.ofText? name = none → ∀ value other, related name value other →
    Matched Eq (Value.ofJson value) (Value.ofJson other)

/-- The same column is named, or none, or it is named wrongly in the same way. -/
theorem columnOf?_eq (corresponding : Corresponding related first second)
    (strings : ∀ name ∈ columnKeys, ∀ value other, related name value other →
      value.string? = other.string?) :
    columnOf? first = columnOf? second := by
  have fields := corresponding.member? "field"
  have columns := corresponding.member? "column"
  have fieldString := strings "field" (by decide)
  have columnString := strings "column" (by decide)
  unfold columnOf?
  generalize member? "field" first = field, member? "field" second = field' at fields ⊢
  generalize member? "column" first = column, member? "column" second = column' at columns ⊢
  cases fields with
  | none =>
      cases columns with
      | none => rfl
      | some values => simp only [columnString _ _ values]
  | some values =>
      cases columns with
      | none => simp only [fieldString _ _ values]
      | some _ => rfl

/-- Corresponding members are read as the same predicate.  Which form an object has is decided by
the column it names and by how many operators and other keys there are. -/
theorem ofMembers_matched (corresponding : Corresponding related first second)
    (reads : ReadsAlike related) : Matched Eq (ofMembers first) (ofMembers second) := by
  have operators : Picked _ (operatorsOf first) (operatorsOf second) :=
    corresponding.filterMap OperatorKey.ofText?
  have others : Picked _ (othersOf first) (othersOf second) :=
    corresponding.filter fun key =>
      (OperatorKey.ofText? key).isNone && !columnKeys.contains key
  unfold ofMembers
  rw [columnOf?_eq corresponding reads.column]
  refine (Matched.refl (columnOf? second)).bind fun named _ same => ?_
  subst same
  generalize operatorsOf first = operators?, operatorsOf second = operators' at operators ⊢
  generalize othersOf first = others?, othersOf second = others' at others ⊢
  -- Several operators are refused before anything else is looked at, so they come first.
  cases operators with
  | several => cases named <;> cases others <;> exact .error rfl
  | none =>
      cases named with
      | some column => cases others <;> exact .error rfl
      | none =>
          cases others with
          | none => exact .error rfl
          | several => exact .error rfl
          | @one name value other values =>
              have noOperator : OperatorKey.ofText? name = none := by
                rw [Bool.and_eq_true, Option.isNone_iff_eq_none] at values
                exact values.1.1
              exact (reads.value name noOperator value other values.2).followed _
  | @one key value other values =>
      obtain ⟨name, isOperator, values⟩ := values
      cases others with
      | several => cases named <;> exact .error rfl
      | one _ => cases named <;> exact .error rfl
      | none =>
          cases named with
          | some column => exact (reads.operand name key isOperator value other values).followed _
          | none => exact reads.check name key isOperator value other values

variable {items : List Json → List Json → Prop}
  {members : List (Text × Json) → List (Text × Json) → Prop} {json other : Json}

/-- An alternative is read alike when its object is. -/
theorem ofJson_matched (alike : Alike items members json other)
    (objects : ∀ first second, members first second →
      Matched Eq (ofMembers first) (ofMembers second)) :
    Matched Eq (ofJson json) (ofJson other) :=
  alike.matched (fun _ _ _ => .error rfl) objects

end Predicate

namespace Condition

variable {items : List Json → List Json → Prop}
  {members : List (Text × Json) → List (Text × Json) → Prop} {json other : Json}

/-- A condition is read alike when its object is, or its alternatives are. -/
theorem ofJson_matched (alike : Alike items members json other)
    (arrays : ∀ first second, items first second →
      Matched Eq (first.mapM Predicate.ofJson) (second.mapM Predicate.ofJson))
    (objects : ∀ first second, members first second →
      Matched Eq (Predicate.ofMembers first) (Predicate.ofMembers second)) :
    Matched Eq (ofJson json) (ofJson other) :=
  alike.matched (fun first second related => (arrays first second related).followed _)
    fun first second related => (objects first second related).followed _

/-- Conditions are read alike when their object is, or the entries of their list are. -/
theorem listOfJson_matched (alike : Alike items members json other)
    (arrays : ∀ first second, items first second →
      Matched Eq (first.mapM ofJson) (second.mapM ofJson))
    (objects : ∀ first second, members first second →
      Matched Eq (Predicate.ofMembers first) (Predicate.ofMembers second)) :
    Matched Eq (listOfJson json) (listOfJson other) :=
  alike.matched arrays fun first second related => (objects first second related).followed _

end Condition

/-! ## Joins -/

namespace Join

/-- The values of the members of a join are read alike as what their keys make of them. -/
structure ReadsAlike (related : Text → Json → Json → Prop) : Prop where
  scalar : ∀ name : Text, name = "type" ∨ name = "table" → ∀ value other, related name value other →
    SameScalar value other
  null : ∀ name : Text, name = "on" ∨ name = "using" → ∀ value other, related name value other →
    (value = .null ↔ other = .null)
  conditions : ∀ value other, related "on" value other →
    Matched Eq (Condition.listOfJson value) (Condition.listOfJson other)
  sharedColumns : ∀ value other, related "using" value other →
    Matched Eq (sharedColumnsOfJson value) (sharedColumnsOfJson other)

theorem kindOfJson_matched (corresponding : Corresponding related first second)
    (reads : ReadsAlike related) :
    Matched Eq (kindOfJson (member? "type" first)) (kindOfJson (member? "type" second)) := by
  have types := corresponding.member? "type"
  generalize member? "type" first = kind?, member? "type" second = kind' at types ⊢
  cases types with
  | none => exact .refl _
  | @some value other values =>
      have scalar := reads.scalar "type" (.inl rfl) value other values
      cases scalar with
      | same => exact .refl _
      | arrays _ => exact .error rfl
      | objects _ => exact .error rfl

theorem tableOfJson_eq {json other : Json} (same : json.string? = other.string?) :
    tableOfJson json = tableOfJson other := by
  rw [tableOfJson, tableOfJson, same]

theorem tableOfMembers_eq (corresponding : Corresponding related first second)
    (reads : ReadsAlike related) : tableOfMembers first = tableOfMembers second := by
  have tables := corresponding.member? "table"
  unfold tableOfMembers
  generalize member? "table" first = table?, member? "table" second = table' at tables ⊢
  cases tables with
  | none => rfl
  | @some value other values =>
      have scalar := reads.scalar "table" (.inr rfl) value other values
      exact tableOfJson_eq scalar.string?_eq

theorem constraintOfMembers_matched (table : Text)
    (corresponding : Corresponding related first second) (reads : ReadsAlike related) :
    Matched Eq (constraintOfMembers table first) (constraintOfMembers table second) := by
  have conditions := corresponding.presentMember? (reads.null "on" (.inl rfl))
  have columns := corresponding.presentMember? (reads.null "using" (.inr rfl))
  unfold constraintOfMembers
  generalize presentMember? "on" first = on?, presentMember? "on" second = on' at conditions ⊢
  generalize presentMember? "using" first = using?,
    presentMember? "using" second = using' at columns ⊢
  cases conditions with
  | none =>
      cases columns with
      | none => exact .refl _
      | some values => exact (reads.sharedColumns _ _ values).followed _
  | some values =>
      cases columns with
      | none => exact (reads.conditions _ _ values).followed _
      | some _ => exact .error rfl

/-- Corresponding members are read as the same join. -/
theorem ofMembers_matched (corresponding : Corresponding related first second)
    (reads : ReadsAlike related) : Matched Eq (ofMembers first) (ofMembers second) := by
  have unknown := corresponding.find?_keys_rel fun key => !objectKeys.contains key
  unfold ofMembers
  generalize (keys first).find? (fun key => !objectKeys.contains key) = unknown?,
    (keys second).find? (fun key => !objectKeys.contains key) = unknown' at unknown ⊢
  cases unknown with
  | some _ => exact .error rfl
  | none =>
      rw [tableOfMembers_eq corresponding reads]
      refine (kindOfJson_matched corresponding reads).bind fun kind _ same => ?_
      subst same
      refine (Matched.refl _).bind fun table _ same => ?_
      subst same
      exact (constraintOfMembers_matched table corresponding reads).followed _

/-- A tuple is read alike when its conditions are, and its kind and table are the same. -/
theorem ofTuple_matched {kind kind' table table' conditions conditions' : Json}
    (kinds : kind.string? = kind'.string?) (tables : table.string? = table'.string?)
    (filters : Matched Eq (Condition.listOfJson conditions) (Condition.listOfJson conditions')) :
    Matched Eq (ofTuple [kind, table, conditions]) (ofTuple [kind', table', conditions']) := by
  unfold ofTuple
  dsimp only
  rw [kinds, tableOfJson_eq tables]
  split
  · refine (Matched.refl _).bind ?_
    rintro table _ rfl
    refine (Matched.refl _).bind ?_
    rintro kind _ rfl
    exact filters.followed _
  · exact .error rfl

variable {items : List Json → List Json → Prop}
  {members : List (Text × Json) → List (Text × Json) → Prop} {json other : Json}

/-- A join is read alike when its object is, or its tuple. -/
theorem ofJson_matched (alike : Alike items members json other)
    (arrays : ∀ first second, items first second → Matched Eq (ofTuple first) (ofTuple second))
    (objects : ∀ first second, members first second →
      Matched Eq (ofMembers first) (ofMembers second)) :
    Matched Eq (ofJson json) (ofJson other) :=
  alike.matched arrays objects

/-- Joins are read alike when their object is, or the entries of their list are. -/
theorem listOfJson_matched (alike : Alike items members json other)
    (arrays : ∀ first second, items first second →
      Matched Eq (first.mapM ofJson) (second.mapM ofJson))
    (objects : ∀ first second, members first second →
      Matched Eq (ofMembers first) (ofMembers second)) :
    Matched Eq (listOfJson json) (listOfJson other) :=
  alike.matched arrays fun first second related => (objects first second related).followed _

end Join

/-! ## Parameters of queries -/

namespace Params

/-- The parameters that are scalars. -/
def scalarKeys : List Text := ["table", "limit", "offset", "allow_delete_all", "secure"]

/-- The values of parameters that several kinds of queries share are read alike. -/
structure ReadsAlike (related : Text → Json → Json → Prop) : Prop where
  null : ∀ name, related name .null .null
  scalar : ∀ name ∈ scalarKeys, ∀ value other, related name value other → SameScalar value other
  conditions : ∀ name : Text, name = "where" ∨ name = "having" → ∀ value other,
    related name value other → Matched Eq (Condition.listOfJson value) (Condition.listOfJson other)
  joins : ∀ value other, related "joins" value other →
    Matched Eq (Join.listOfJson value) (Join.listOfJson other)
  strings : ∀ name : Text, name = "group_by" ∨ name = "order_by" → ∀ value other,
    related name value other → Matched Eq (stringsOfJson name value) (stringsOfJson name other)

theorem membersOf_matched (corresponding : Corresponding related first second)
    (statement : StatementKind) (known : List Text) :
    Matched (fun members others => members = first ∧ others = second)
      (membersOf statement known (.object first)) (membersOf statement known (.object second)) := by
  have unknown := corresponding.find?_keys_rel fun key => !known.contains key
  unfold membersOf
  dsimp only
  generalize (keys first).find? (fun key => !known.contains key) = unknown?,
    (keys second).find? (fun key => !known.contains key) = unknown' at unknown ⊢
  cases unknown with
  | some _ => exact .error rfl
  | none => exact .ok ⟨rfl, rfl⟩

section Readers

variable (corresponding : Corresponding related first second) (reads : ReadsAlike related)
include corresponding reads

theorem memberOrNull_sameScalar {name : Text} (isScalar : name ∈ scalarKeys) :
    SameScalar (memberOrNull name first) (memberOrNull name second) :=
  reads.scalar name isScalar _ _ (corresponding.memberOrNull (reads.null name))

theorem tableOf_matched : Matched Eq (tableOf first) (tableOf second) := by
  have isScalar : ("table" : Text) ∈ scalarKeys := by decide
  have scalar := memberOrNull_sameScalar corresponding reads isScalar
  unfold tableOf
  generalize memberOrNull "table" first = table, memberOrNull "table" second = table' at scalar ⊢
  cases scalar with
  | same => exact .refl _
  | arrays _ => exact .error rfl
  | objects _ => exact .error rfl

theorem flagOf_matched {name : Text} (isScalar : name ∈ scalarKeys) :
    Matched Eq (flagOf name first) (flagOf name second) := by
  have scalar := memberOrNull_sameScalar corresponding reads isScalar
  unfold flagOf
  generalize memberOrNull name first = flag, memberOrNull name second = flag' at scalar ⊢
  cases scalar with
  | same => exact .refl _
  | arrays _ => exact .error rfl
  | objects _ => exact .error rfl

theorem countOf_matched {name : Text} (isScalar : name ∈ scalarKeys) :
    Matched Eq (countOfJson name (memberOrNull name first))
      (countOfJson name (memberOrNull name second)) :=
  Alike.matched (memberOrNull_sameScalar corresponding reads isScalar)
    (fun _ _ _ => .error rfl) fun _ _ _ => .error rfl

theorem conditionsOf_matched {name : Text} (isFilter : name = "where" ∨ name = "having") :
    Matched Eq (Condition.listOfJson (memberOrNull name first))
      (Condition.listOfJson (memberOrNull name second)) :=
  reads.conditions name isFilter _ _ (corresponding.memberOrNull (reads.null name))

theorem joinsOf_matched :
    Matched Eq (Join.listOfJson (memberOrNull "joins" first))
      (Join.listOfJson (memberOrNull "joins" second)) :=
  reads.joins _ _ (corresponding.memberOrNull (reads.null "joins"))

theorem stringsOf_matched {name : Text} (isOrder : name = "group_by" ∨ name = "order_by") :
    Matched Eq (stringsOfJson name (memberOrNull name first))
      (stringsOfJson name (memberOrNull name second)) :=
  reads.strings name isOrder _ _ (corresponding.memberOrNull (reads.null name))

end Readers

end Params

open Params

section Queries

variable (corresponding : Corresponding related first second) (reads : Params.ReadsAlike related)
include corresponding

theorem Select.columnsOfMembers_matched
    (null : ∀ name : Text, name = "columns" ∨ name = "fields" → ∀ value other,
      related name value other → (value = .null ↔ other = .null))
    (columns : ∀ name : Text, name = "columns" ∨ name = "fields" → ∀ value other,
      related name value other →
        Matched Eq (Projected.listOfJson value) (Projected.listOfJson other)) :
    Matched Eq (columnsOfMembers first) (columnsOfMembers second) := by
  have underColumns := corresponding.presentMember? (null "columns" (.inl rfl))
  have underFields := corresponding.presentMember? (null "fields" (.inr rfl))
  unfold columnsOfMembers
  generalize presentMember? "columns" first = columns?,
    presentMember? "columns" second = columns' at underColumns ⊢
  generalize presentMember? "fields" first = fields?,
    presentMember? "fields" second = fields' at underFields ⊢
  cases underColumns with
  | none =>
      cases underFields with
      | none => exact .refl _
      | some values => exact columns "fields" (.inr rfl) _ _ values
  | some values =>
      cases underFields with
      | none => exact columns "columns" (.inl rfl) _ _ values
      | some _ => exact .error rfl

include reads

/-- Corresponding parameters are read as the same query for rows. -/
theorem Select.ofJson_matched
    (null : ∀ name : Text, name = "columns" ∨ name = "fields" → ∀ value other,
      related name value other → (value = .null ↔ other = .null))
    (columns : ∀ name : Text, name = "columns" ∨ name = "fields" → ∀ value other,
      related name value other →
        Matched Eq (Projected.listOfJson value) (Projected.listOfJson other)) :
    Matched Eq (Select.ofJson (.object first)) (Select.ofJson (.object second)) := by
  unfold Select.ofJson
  refine (membersOf_matched corresponding .select parameterKeys).bind ?_
  rintro _ _ ⟨rfl, rfl⟩
  refine (tableOf_matched corresponding reads).bind ?_
  rintro table _ rfl
  refine (columnsOfMembers_matched corresponding null columns).bind ?_
  rintro columns _ rfl
  refine (joinsOf_matched corresponding reads).bind ?_
  rintro joins _ rfl
  refine (conditionsOf_matched corresponding reads (.inl rfl)).bind ?_
  rintro conditions _ rfl
  refine (conditionsOf_matched corresponding reads (.inr rfl)).bind ?_
  rintro groupConditions _ rfl
  refine (stringsOf_matched corresponding reads (.inl rfl)).bind ?_
  rintro groupBy _ rfl
  refine (stringsOf_matched corresponding reads (.inr rfl)).bind ?_
  rintro orderBy _ rfl
  refine (countOf_matched corresponding reads (by decide)).bind ?_
  rintro limit _ rfl
  exact (countOf_matched corresponding reads (by decide)).followed _

/-- Corresponding parameters are read as insertions into one table, of rows that match. -/
theorem Insert.ofJson_matched {relatedRows : List Row → List Row → Prop}
    (data : ∀ value other, related "data" value other →
      Matched relatedRows (rowsOfJson value) (rowsOfJson other)) :
    Matched (fun query other => query.table = other.table ∧ relatedRows query.rows other.rows)
      (Insert.ofJson (.object first)) (Insert.ofJson (.object second)) := by
  unfold Insert.ofJson
  refine (membersOf_matched corresponding .insert parameterKeys).bind ?_
  rintro _ _ ⟨rfl, rfl⟩
  refine (tableOf_matched corresponding reads).bind ?_
  rintro table _ rfl
  refine (data _ _ (corresponding.memberOrNull (reads.null "data"))).bind ?_
  intro rows others together
  exact .ok ⟨rfl, together⟩

/-- Corresponding parameters are read as the same change of rows. -/
theorem Update.ofJson_matched
    (data : ∀ value other, related "data" value other →
      Matched Eq (dataOfJson value) (dataOfJson other)) :
    Matched Eq (Update.ofJson (.object first)) (Update.ofJson (.object second)) := by
  unfold Update.ofJson
  refine (membersOf_matched corresponding .update parameterKeys).bind ?_
  rintro _ _ ⟨rfl, rfl⟩
  refine (tableOf_matched corresponding reads).bind ?_
  rintro table _ rfl
  refine (data _ _ (corresponding.memberOrNull (reads.null "data"))).bind ?_
  rintro row _ rfl
  refine (joinsOf_matched corresponding reads).bind ?_
  rintro joins _ rfl
  refine (conditionsOf_matched corresponding reads (.inl rfl)).bind ?_
  rintro conditions _ rfl
  exact (conditionsOf_matched corresponding reads (.inr rfl)).followed _

/-- Corresponding parameters are read as the same removal of rows. -/
theorem Delete.ofJson_matched :
    Matched Eq (Delete.ofJson (.object first)) (Delete.ofJson (.object second)) := by
  have allowAll : Matched Eq (allowAllOfMembers first) (allowAllOfMembers second) := by
    unfold allowAllOfMembers
    refine (flagOf_matched corresponding reads (by decide)).bind ?_
    rintro opened _ rfl
    cases opened with
    | none => exact (flagOf_matched corresponding reads (by decide)).followed _
    | some isOpen =>
        cases isOpen with
        | true => exact .refl _
        | false => exact (flagOf_matched corresponding reads (by decide)).followed _
  unfold Delete.ofJson
  refine (membersOf_matched corresponding .delete parameterKeys).bind ?_
  rintro _ _ ⟨rfl, rfl⟩
  refine (tableOf_matched corresponding reads).bind ?_
  rintro table _ rfl
  refine allowAll.bind ?_
  rintro allowAll _ rfl
  exact (conditionsOf_matched corresponding reads (.inl rfl)).followed _

end Queries

/-! ## Statements of parameters -/

namespace Params

/-- The kinds of queries that parameters describe. -/
inductive Kind
  | select
  | insert
  | update
  | delete
  deriving DecidableEq

/-- The statement of parameters of a kind. -/
def build (functions : FunctionSet) (kind : Kind) (json : Json) : Except Error Statement :=
  match kind with
  | .select => Select.ofJson json >>= Select.build functions
  | .insert => Insert.ofJson json >>= Insert.build functions
  | .update => Update.ofJson json >>= Update.build functions
  | .delete => Delete.ofJson json >>= Delete.build functions

/-- Parameters that are no object are refused. -/
theorem build_of_kind_ne_object (functions : FunctionSet) (kind : Kind) {json : Json}
    (noObject : json.kind ≠ .object) :
    ∃ fault, build functions kind json = .error fault ∧ fault.kind = .invalidValue := by
  have refused : ∀ statement known, membersOf statement known json =
      .error (.invalidValue (.parametersShape statement json.kind)) := by
    intro statement known
    cases json <;> first | rfl | exact absurd rfl noObject
  cases kind <;>
    simp only [build, Select.ofJson, Insert.ofJson, Update.ofJson, Delete.ofJson, refused] <;>
    exact ⟨_, rfl, rfl⟩

end Params

end SqlComposer
