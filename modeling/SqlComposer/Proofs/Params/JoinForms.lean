import SqlComposer.Params.Join
import SqlComposer.Proofs.Outcome

/-!
# The two forms of a join

A join can be written as a tuple of its kind, its table and its conditions, or as an object
with the same three under their keys.  Both forms are read and rendered to the same SQL, or
both are refused, with one exception (`Join.tuple_agrees_iff`).

The exception comes from null in place of the conditions.  An object without conditions has
no constraint, whereas a tuple always has a list of conditions, which is then empty.  Neither
makes a join, except that a cross join may go without a constraint but not with an empty list.
So a cross join without conditions is written as an object and refused as a tuple
(`Join.sqlOfJson_of_isBareCross`).
-/

namespace SqlComposer

set_option autoImplicit false

namespace Join

/-! ## Reading the two forms -/

/-- A join as a tuple. -/
def tuple (kind : Text) (table conditions : Json) : Json :=
  .array [.string kind, table, conditions]

/-- A join as an object with the three keys. -/
def object (kind : Text) (table conditions : Json) : Json :=
  .object [("type", .string kind), ("table", table), ("on", conditions)]

/-- The SQL of a join in JSON, which may be refused when it is read or when it is written. -/
def sqlOfJson (functions : FunctionSet) (json : Json) : Except Error Text := do
  (← ofJson json).sql functions

/-- The constraint of the conditions in an object, where null stands for none. -/
def constraintOfJson (conditions : Json) : Except Error JoinConstraint :=
  match conditions with
  | .null => return .unconstrained
  | conditions => return .conditions (← Condition.listOfJson conditions)

/-- A tuple has its table read before its kind. -/
theorem ofJson_tuple (kind : Text) (table conditions : Json) :
    ofJson (tuple kind table conditions) = (do
      let table ← tableOfJson table
      let kind ← JoinKind.parse kind
      return { kind, table, constraint := .conditions (← Condition.listOfJson conditions) }) :=
  rfl

/-- An object has its kind read before its table. -/
theorem ofJson_object (kind : Text) (table conditions : Json) :
    ofJson (object kind table conditions) = (do
      let kind ← JoinKind.parse kind
      let table ← tableOfJson table
      return { kind, table, constraint := ← constraintOfJson conditions }) := by
  cases conditions <;> rfl

/-! ## Joins without conditions -/

variable {functions : FunctionSet} {kind : JoinKind} {table : Text} {reference : TableRef}

/-- No join has an empty list of conditions. -/
theorem sql_of_noConditions (resolved : TableRef.resolve table = .ok reference) :
    sql functions { kind, table, constraint := .conditions [] } =
      .error (.missingField (.onConditions reference.fullName)) := by
  rw [sql, resolved]
  rfl

/-- Only a cross join goes without a constraint. -/
theorem sql_of_unconstrained (resolved : TableRef.resolve table = .ok reference) :
    sql functions { kind, table } =
      if kind = .cross then .ok ("CROSS JOIN " ++ reference.fullName)
      else .error (.missingField (.joinConstraint reference.fullName)) := by
  rw [sql, resolved]
  cases kind with
  | cross => exact congrArg Except.ok (List.append_nil _)
  | _ => rfl

theorem sql_of_unresolved {fault : Error} (unresolved : TableRef.resolve table = .error fault)
    (constraint : JoinConstraint) :
    sql functions { kind, table, constraint } = .error fault := by
  rw [sql, unresolved]
  rfl

/-! ## Comparing the two forms -/

/-- A cross join of a table that there is, with null for its conditions. -/
structure IsBareCross (kind : Text) (table conditions : Json) (reference : TableRef) : Prop where
  cross : JoinKind.parse kind = .ok .cross
  noConditions : conditions = .null
  table : (do TableRef.resolve (← tableOfJson table)) = .ok reference

/-- A cross join without conditions is refused as a tuple and written as an object. -/
theorem sqlOfJson_of_isBareCross {kind : Text} {table conditions : Json} {reference : TableRef}
    (isBareCross : IsBareCross kind table conditions reference) (functions : FunctionSet) :
    sqlOfJson functions (tuple kind table conditions) =
        .error (.missingField (.onConditions reference.fullName)) ∧
      sqlOfJson functions (object kind table conditions) =
        .ok ("CROSS JOIN " ++ reference.fullName) := by
  obtain ⟨cross, rfl, resolved⟩ := isBareCross
  obtain ⟨name, isTable, resolved⟩ := bind_eq_ok.mp resolved
  constructor
  · rw [sqlOfJson, ofJson_tuple, isTable, cross]
    exact sql_of_noConditions resolved
  · rw [sqlOfJson, ofJson_object, isTable, cross]
    exact sql_of_unconstrained resolved

/-- Conditions other than null are read in both forms alike. -/
theorem constraintOfJson_of_ne_null {conditions : Json} (notNull : conditions ≠ .null) :
    constraintOfJson conditions = (do return .conditions (← Condition.listOfJson conditions)) := by
  cases conditions with
  | null => exact absurd rfl notNull
  | _ => rfl

theorem agrees_unless_isBareCross {kind : Text} {table conditions : Json}
    (noBareCross : ∀ reference, ¬ IsBareCross kind table conditions reference)
    (functions : FunctionSet) :
    (sqlOfJson functions (tuple kind table conditions)).toOption =
      (sqlOfJson functions (object kind table conditions)).toOption := by
  rw [sqlOfJson, sqlOfJson, ofJson_tuple, ofJson_object]
  cases isKind : JoinKind.parse kind with
  | error fault =>
      cases tableOfJson table with
      | error _ => rfl
      | ok _ => rfl
  | ok kind =>
      cases isTable : tableOfJson table with
      | error fault => rfl
      | ok name =>
          by_cases notNull : conditions = .null
          · subst notNull
            change (sql functions ⟨kind, name, .conditions []⟩).toOption =
              (sql functions ⟨kind, name, .unconstrained⟩).toOption
            cases resolved : TableRef.resolve name with
            | error fault => rw [sql_of_unresolved resolved, sql_of_unresolved resolved]
            | ok reference =>
                rw [sql_of_noConditions resolved, sql_of_unconstrained resolved]
                have notCross : kind ≠ .cross := by
                  rintro rfl
                  exact noBareCross reference ⟨isKind, rfl, by rw [isTable]; exact resolved⟩
                rw [if_neg notCross]
                rfl
          · rw [constraintOfJson_of_ne_null notNull]
            cases Condition.listOfJson conditions with
            | error fault => rfl
            | ok read => rfl

/-- The tuple and the object of a join are rendered to the same SQL, or both are refused, exactly
when the join is no cross join of a table that there is with null for its conditions.  Such a join
is refused as a tuple, for its lack of conditions, and written as an object. -/
theorem tuple_agrees_iff (functions : FunctionSet) (kind : Text) (table conditions : Json) :
    ((sqlOfJson functions (tuple kind table conditions)).toOption =
        (sqlOfJson functions (object kind table conditions)).toOption ↔
      ∀ reference, ¬ IsBareCross kind table conditions reference) ∧
    ∀ reference, IsBareCross kind table conditions reference →
      sqlOfJson functions (tuple kind table conditions) =
          .error (.missingField (.onConditions reference.fullName)) ∧
        sqlOfJson functions (object kind table conditions) =
          .ok ("CROSS JOIN " ++ reference.fullName) := by
  refine ⟨⟨?_, fun noBareCross => agrees_unless_isBareCross noBareCross functions⟩,
    fun reference isBareCross => sqlOfJson_of_isBareCross isBareCross functions⟩
  intro agrees reference isBareCross
  obtain ⟨refused, written⟩ := sqlOfJson_of_isBareCross isBareCross functions
  rw [refused, written] at agrees
  cases agrees

/-- A left join with a condition is the same in both forms, a cross join without any is not. -/
theorem tuple_agrees_iff_orders :
    (∀ reference, ¬ IsBareCross "left" (.string "orders AS o") (.string "o.id = 7") reference) ∧
      (sqlOfJson .standard (tuple "left" (.string "orders AS o") (.string "o.id = 7"))).toOption =
          (sqlOfJson .standard
            (object "left" (.string "orders AS o") (.string "o.id = 7"))).toOption ∧
        IsBareCross "Cross Join" (.string " sizes ") .null ⟨none, "sizes", none⟩ ∧
          sqlOfJson .standard (object "Cross Join" (.string " sizes ") .null) =
            .ok "CROSS JOIN `sizes`".toList := by
  have notCross : ∀ reference,
      ¬ IsBareCross "left" (.string "orders AS o") (.string "o.id = 7") reference :=
    fun _ isBareCross => absurd isBareCross.cross (by decide)
  have isBareCross : IsBareCross "Cross Join" (.string " sizes ") .null ⟨none, "sizes", none⟩ :=
    ⟨by decide, rfl, by decide⟩
  exact ⟨notCross, (tuple_agrees_iff _ _ _ _).1.mpr notCross, isBareCross,
    ((tuple_agrees_iff _ _ _ _).2 _ isBareCross).2⟩

/-- The tuple of a cross join without conditions is refused, although its object is written. -/
theorem crossTuple_is_refused :
    sqlOfJson .standard (tuple "cross" (.string "sizes") .null) =
        .error (.missingField (.onConditions "`sizes`")) ∧
      sqlOfJson .standard (object "cross" (.string "sizes") .null) =
        .ok "CROSS JOIN `sizes`".toList := by
  decide

end Join

end SqlComposer
