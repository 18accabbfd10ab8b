import SqlComposer.Params.Query
import SqlComposer.Proofs.Condition.Rendering

/-!
# Which removals are refused

A list of conditions is a formula over its predicates: the conditions are joined by
"and", the alternatives of a group by "or".  Membership in an empty list is false,
non-membership in one is true, and every other predicate may hold of a row or not
(`Condition.holds`).  Conditions that hold under every valuation of their predicates
do not restrict a removal at all (`Condition.AlwaysHold`).

The guard of a removal looks at the form of its conditions only, and yet it is exact.
A removal that has not been allowed to empty its table is refused if and only if its
conditions always hold, and any other removal is built as soon as its conditions have
SQL (`Delete.build_guarded`).  Both halves rest on one observation: negation does not
occur, so what holds when every free predicate is false holds always
(`Condition.alwaysHold_iff`).
-/

namespace SqlComposer

set_option autoImplicit false

open Lexical Json Params

/-! ## Conditions as formulas -/

/-- Whether a predicate holds, when it is given which predicates hold that are not decided by an
empty list. -/
def Predicate.holds (valuation : Predicate → Bool) : Predicate → Bool
  | .compare _ (.inList []) => false
  | .compare _ (.notInList []) => true
  | predicate => valuation predicate

/-- Whether a condition holds: its predicate, or one of its alternatives. -/
def Condition.holds (valuation : Predicate → Bool) : Condition → Bool
  | .single predicate => predicate.holds valuation
  | .anyOf alternatives => alternatives.any (Predicate.holds valuation)

/-- All conditions hold, whichever predicates do. -/
def Condition.AlwaysHold (conditions : List Condition) : Prop :=
  ∀ valuation, conditions.all (Condition.holds valuation)

/-- What holds for every row holds under every valuation. -/
theorem Predicate.holds_of_isAlwaysTrue {predicate : Predicate} (always : predicate.isAlwaysTrue)
    (valuation : Predicate → Bool) : predicate.holds valuation := by
  cases predicate with
  | raw sql => cases always
  | compare column operator =>
      cases operator with
      | notInList values =>
          cases values with
          | nil => rfl
          | cons value rest => cases always
      | _ => cases always

/-- Under the valuation by which no free predicate holds, only what holds for every row does. -/
theorem Predicate.isAlwaysTrue_of_holds {predicate : Predicate}
    (holds : predicate.holds fun _ => false) : predicate.isAlwaysTrue := by
  cases predicate with
  | raw sql => cases holds
  | compare column operator =>
      cases operator with
      | inList values => cases values <;> cases holds
      | notInList values =>
          cases values with
          | nil => rfl
          | cons value rest => cases holds
      | _ => cases holds

theorem Condition.holds_of_isAlwaysTrue {condition : Condition} (always : condition.isAlwaysTrue)
    (valuation : Predicate → Bool) : condition.holds valuation := by
  cases condition with
  | single predicate => exact predicate.holds_of_isAlwaysTrue always valuation
  | anyOf alternatives =>
      obtain ⟨predicate, member, always⟩ := List.any_eq_true.mp always
      exact List.any_eq_true.mpr ⟨predicate, member, predicate.holds_of_isAlwaysTrue always _⟩

theorem Condition.isAlwaysTrue_of_holds {condition : Condition}
    (holds : condition.holds fun _ => false) : condition.isAlwaysTrue := by
  cases condition with
  | single predicate => exact predicate.isAlwaysTrue_of_holds holds
  | anyOf alternatives =>
      obtain ⟨predicate, member, holds⟩ := List.any_eq_true.mp holds
      exact List.any_eq_true.mpr ⟨predicate, member, predicate.isAlwaysTrue_of_holds holds⟩

/-- Conditions hold under every valuation exactly when each of them holds for every row. -/
theorem Condition.alwaysHold_iff {conditions : List Condition} :
    AlwaysHold conditions ↔ conditions.all isAlwaysTrue := by
  simp only [AlwaysHold, List.all_eq_true]
  constructor
  · intro always condition member
    exact condition.isAlwaysTrue_of_holds (always (fun _ => false) condition member)
  · intro each valuation condition member
    exact condition.holds_of_isAlwaysTrue (each condition member) valuation

/-! ## What steps make of a removal -/

namespace Delete

/-- The conditions that a step adds. -/
def Step.added : Step → List Condition
  | .restrict step => step.added
  | .allowAll _ => []

/-- What a step decides about emptying the table, if it decides that. -/
def Step.allowed? : Step → Option Bool
  | .restrict _ => none
  | .allowAll allowed => some allowed

/-- The last decision of a sequence of steps; without any, the table must not be emptied. -/
def allowedBy (steps : List Step) : Bool :=
  (steps.filterMap Step.allowed?).getLastD false

/-- Steps add their conditions in order, and the last decision counts. -/
theorem applyAll_eq (query : Delete) (steps : List Step) :
    query.applyAll steps =
      { table := query.table
        conditions := query.conditions ++ steps.flatMap Step.added
        allowAll := (steps.filterMap Step.allowed?).getLastD query.allowAll } := by
  induction steps generalizing query with
  | nil => simp [applyAll]
  | cons step rest ih =>
      have next : query.applyAll (step :: rest) = (query.apply step).applyAll rest := rfl
      rw [next, ih]
      cases step with
      | restrict step => simp [apply, Step.added, Step.allowed?]
      | allowAll allowed =>
          simp only [apply, Step.added, Step.allowed?, List.flatMap_cons, List.nil_append,
            List.filterMap_cons, List.getLastD_cons]

/-! ## The SQL of a removal -/

section Building

variable {functions : FunctionSet} {query : Delete} {reference : TableRef}

/-- What the guard stops is refused, whatever the values of the query are. -/
theorem build_of_isGuarded (resolved : Query.resolveTable query.table = .ok reference)
    (guarded : query.isGuarded) :
    query.build functions = .error (.missingField .deletionFilter) := by
  simp only [build, sql, resolved, guarded]
  rfl

/-- What the guard lets pass is built when its conditions have SQL. -/
theorem build_eq_ok (resolved : Query.resolveTable query.table = .ok reference)
    (passes : query.isGuarded = false) {statement : Statement} :
    query.build functions = .ok statement ↔
      ∃ clause, Condition.clauseSql functions " WHERE " query.conditions = .ok clause ∧
        statement = ⟨.delete, "DELETE FROM " ++ reference.fullName ++ clause ++ ";"⟩ := by
  have shape : query.sql functions =
      Condition.clauseSql functions " WHERE " query.conditions >>= fun clause =>
        .ok ("DELETE FROM " ++ reference.fullName ++ clause ++ ";") := by
    simp only [sql, resolved, passes]
    rfl
  rw [build, shape, bind_eq_ok]
  constructor
  · rintro ⟨written, ok, same⟩
    obtain ⟨clause, conditions, ok⟩ := bind_eq_ok.mp ok
    cases ok
    exact ⟨clause, conditions, (Except.ok.inj same).symm⟩
  · rintro ⟨clause, conditions, rfl⟩
    exact ⟨_, bind_eq_ok.mpr ⟨clause, conditions, rfl⟩, rfl⟩

/-- The word WHERE stands outside of quotes in a removal exactly when there is a condition. -/
theorem occursIn_where_iff (unticked : reference.Unticked) {conditions : List Condition}
    {clause : Text} (ok : Condition.clauseSql functions " WHERE " conditions = .ok clause) :
    Text.occursIn " WHERE " (unquoted .inStrings .outside
        ("DELETE FROM " ++ reference.fullName ++ clause ++ ";")) ↔ conditions ≠ [] := by
  have opening : ∀ rest : Text, unquoted .inStrings .outside ("DELETE FROM " ++ rest) =
      "DELETE FROM " ++ unquoted .inStrings .outside rest := fun _ => rfl
  obtain ⟨shown, member, eq⟩ := TableRef.unquoted_fullName_append unticked (clause ++ ";")
  rw [List.append_assoc, List.append_assoc, opening, eq]
  obtain ⟨pieces, _, written⟩ := Condition.clauseSql_eq_ok.mp ok
  split_ifs at written with empty
  · have absent : ∀ shown ∈ (["`", "`.`", "` AS `", "`.` AS `"] : List String),
        Text.occursIn " WHERE " ("DELETE FROM " ++ (shown.toList ++ ";")) = false := by decide
    rw [written]
    exact ⟨fun there => absurd ((absent shown member).symm.trans there) Bool.false_ne_true,
      fun nonempty => absurd empty nonempty⟩
  · have clauseShown : unquoted .inStrings .outside (clause ++ ";") =
        " WHERE " ++ unquoted .inStrings .outside (Text.joined " AND " pieces ++ ";") := by
      rw [written]
      rfl
    refine ⟨fun _ => empty, fun _ => Text.occursIn_iff_infix.mpr ?_⟩
    rw [clauseShown, ← List.append_assoc, ← List.append_assoc]
    exact List.infix_append _ _ _

end Building

/-! ## The guard -/

/-- What building a removal comes to, by the formula of its conditions. -/
structure BuildsByFormula (functions : FunctionSet) (conditions : List Condition)
    (allowed : Bool) (outcome : Except Error Statement) : Prop where
  refused : allowed = false → Condition.AlwaysHold conditions →
    ∃ fault, outcome = .error fault ∧ fault.kind = .missingField
  built_iff : ¬ (allowed = false ∧ Condition.AlwaysHold conditions) →
    ((∃ statement, outcome = .ok statement) ↔
      ∀ condition ∈ conditions, ∃ written, condition.sql functions = .ok written)
  where_iff : ∀ statement, outcome = .ok statement →
    (Text.occursIn " WHERE " (unquoted .inStrings .outside statement.sql) ↔ conditions ≠ [])

/-- The guard stops what would empty the table without being allowed to. -/
theorem isGuarded_iff {query : Delete} :
    query.isGuarded ↔ query.allowAll = false ∧ Condition.AlwaysHold query.conditions := by
  rw [Condition.alwaysHold_iff, isGuarded, Bool.and_eq_true, Bool.not_eq_true', and_comm]

/-- A removal from a table that resolves is built as the formula of its conditions says. -/
theorem buildsByFormula {functions : FunctionSet} (query : Delete) {reference : TableRef}
    (resolved : Query.resolveTable query.table = .ok reference) :
    BuildsByFormula functions query.conditions query.allowAll (query.build functions) := by
  have unticked : reference.Unticked := by
    unfold Query.resolveTable at resolved
    split_ifs at resolved
    exact TableRef.unticked_of_resolve resolved
  refine ⟨fun notAllowed always => ?_, fun notBoth => ?_, fun statement built => ?_⟩
  · exact ⟨_, build_of_isGuarded resolved (isGuarded_iff.mpr ⟨notAllowed, always⟩), rfl⟩
  · have passes : query.isGuarded = false := by
      rw [← Bool.not_eq_true, isGuarded_iff]
      exact notBoth
    simp only [build_eq_ok resolved passes, Condition.clauseSql_eq_ok, ← mapM_isOk_iff, mapM_eq_ok]
    constructor
    · rintro ⟨_, _, ⟨pieces, each, _⟩, _⟩
      exact ⟨pieces, each⟩
    · rintro ⟨pieces, each⟩
      exact ⟨_, _, ⟨pieces, each, rfl⟩, rfl⟩
  · cases guarded : query.isGuarded with
    | true =>
        rw [build_of_isGuarded resolved guarded] at built
        cases built
    | false =>
        obtain ⟨clause, conditions, rfl⟩ := (build_eq_ok resolved guarded).mp built
        exact occursIn_where_iff unticked conditions

/-! ## Removals read from JSON -/

/-- A table may be emptied by its own key or by turning security off, and not otherwise. -/
theorem allowAllOfMembers_iff {members : List (Text × Json)} {allowed : Bool}
    (ok : allowAllOfMembers members = .ok allowed) :
    allowed = true ↔ memberOrNull "allow_delete_all" members = .bool true ∨
      memberOrNull "secure" members = .bool false := by
  -- A flag that is read is missing, true or false; reading it is a test of which.
  have flag : ∀ {key value}, flagOf key members = .ok value →
      ∀ wanted, value = some wanted ↔ memberOrNull key members = .bool wanted := by
    intro key value read wanted
    unfold flagOf at read
    split at read
    · rename_i found
      cases read
      simp [found]
    · rename_i given found
      cases read
      simp [found]
    · cases read
  obtain ⟨opened, isOpened, ok⟩ := bind_eq_ok.mp ok
  rw [← flag isOpened true]
  split at ok
  · cases ok
    simp
  · rename_i notOpened
    obtain ⟨secured, isSecured, ok⟩ := bind_eq_ok.mp ok
    cases ok
    rw [← flag isSecured false]
    simpa using fun opened => absurd opened notOpened

/-- Parameters with known keys are read as the removal that they describe. -/
theorem ofJson_object {members : List (Text × Json)} {table : Text} {allowed : Bool}
    {conditions : List Condition} {reference : TableRef}
    (known : ∀ key ∈ keys members, key ∈ parameterKeys)
    (named : memberOrNull "table" members = .string table)
    (resolved : Query.resolveTable table = .ok reference)
    (decided : allowAllOfMembers members = .ok allowed)
    (restricted : Condition.listOfJson (memberOrNull "where" members) = .ok conditions) :
    Delete.ofJson (.object members) = .ok { table, conditions, allowAll := allowed } := by
  have noneUnknown : (keys members).find? (fun key => !parameterKeys.contains key) = none :=
    List.find?_eq_none.mpr fun key member => by simpa using known key member
  have ofMembers : membersOf .delete parameterKeys (.object members) = .ok members := by
    simp only [membersOf, noneUnknown]
  have notBlank : (Text.trimmed table).isEmpty = false := by
    unfold Query.resolveTable at resolved
    split_ifs at resolved with blank
    simpa using blank
  have ofTable : tableOf members = .ok table := by
    simp only [tableOf, named, notBlank]
    rfl
  exact bind_eq_ok.mpr ⟨_, ofMembers, bind_eq_ok.mpr ⟨_, ofTable, bind_eq_ok.mpr ⟨_, decided,
    bind_eq_ok.mpr ⟨_, restricted, rfl⟩⟩⟩⟩

/-- A removal from a table that resolves is refused when it has not been allowed to empty the table
and its conditions always hold, and is otherwise built as soon as its conditions have SQL, with a
WHERE when there are any.  This is so after any sequence of steps, and for any parameters that name
the table. -/
theorem build_guarded (functions : FunctionSet) {table : Text} {reference : TableRef}
    (resolved : Query.resolveTable table = .ok reference) :
    (∀ steps, BuildsByFormula functions (steps.flatMap Step.added) (allowedBy steps)
        (((ofTable table).applyAll steps).build functions)) ∧
      ∀ members conditions allowed, (∀ key ∈ keys members, key ∈ parameterKeys) →
        memberOrNull "table" members = .string table →
        Condition.listOfJson (memberOrNull "where" members) = .ok conditions →
        allowAllOfMembers members = .ok allowed →
          (allowed = true ↔ memberOrNull "allow_delete_all" members = .bool true ∨
            memberOrNull "secure" members = .bool false) ∧
          BuildsByFormula functions conditions allowed
            (Delete.ofJson (.object members) >>= Delete.build functions) := by
  constructor
  · intro steps
    rw [applyAll_eq]
    exact buildsByFormula ⟨table, _, _⟩ resolved
  · intro members conditions allowed known named restricted decided
    refine ⟨allowAllOfMembers_iff decided, ?_⟩
    rw [ofJson_object known named resolved decided restricted]
    exact buildsByFormula ⟨table, conditions, allowed⟩ resolved

/-- Steps that restrict nothing, since one of two alternatives always holds, and that allow emptying
the table only to take it back. -/
def emptyingSteps : List Step :=
  [.restrict (.anyOf [.compare "id" (.is (.int 1)), .compare "tag" (.notInList [])]),
    .allowAll true, .allowAll false]

/-- Parameters without a condition that turn security off. -/
def unsecured : List (Text × Json) :=
  [("table", .string "guests"), ("secure", .bool false)]

/-- The steps are refused, and the parameters empty the table. -/
theorem build_guarded_guests :
    Query.resolveTable "guests" = .ok ⟨none, "guests", none⟩ ∧
    (∃ fault, ((ofTable "guests").applyAll emptyingSteps).build .standard = .error fault ∧
      fault.kind = .missingField) ∧
    (∀ key ∈ keys unsecured, key ∈ parameterKeys) ∧
    memberOrNull "table" unsecured = .string "guests" ∧
    Condition.listOfJson (memberOrNull "where" unsecured) = .ok [] ∧
    allowAllOfMembers unsecured = .ok true ∧
    ∃ statement, Delete.ofJson (.object unsecured) >>= Delete.build .standard = .ok statement := by
  have resolved : Query.resolveTable "guests" = .ok ⟨none, "guests", none⟩ := rfl
  have known : ∀ key ∈ keys unsecured, key ∈ parameterKeys := by decide
  have named : memberOrNull "table" unsecured = .string "guests" := rfl
  have restricted : Condition.listOfJson (memberOrNull "where" unsecured) = .ok [] := rfl
  have decided : allowAllOfMembers unsecured = .ok true := rfl
  have always : Condition.AlwaysHold (emptyingSteps.flatMap Step.added) :=
    Condition.alwaysHold_iff.mpr rfl
  obtain ⟨afterSteps, ofMembers⟩ := build_guarded .standard resolved
  obtain ⟨_, ofUnsecured⟩ := ofMembers unsecured [] true known named restricted decided
  refine ⟨resolved, (afterSteps emptyingSteps).refused rfl always, known, named, restricted,
    decided, (ofUnsecured.built_iff ?_).mpr ?_⟩
  · simp
  · simp

end Delete

end SqlComposer
