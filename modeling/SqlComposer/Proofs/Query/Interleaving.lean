import SqlComposer.Query

/-!
# Steps on different clauses

Each step in the making of a query works on one clause (`Select.Step.clause`,
`Update.Step.clause`, `Delete.Step.clause`) and neither reads nor changes the others.  So two
steps on different clauses may change places (`Select.apply_comm` and its companions), while
the order of steps on one clause counts.

From this alone it follows that a query depends on nothing but the sequence of steps that
each clause has received: sequences that agree clause by clause (`SameByClause`) lead to the
same query, however the steps on different clauses are interleaved (`foldl_interleaved`).

The conditions can be reached by more steps than any other clause.  A step that is named for
a predicate is always the step that adds the predicate as a condition
(`Query.build_interleaved`).
-/

namespace SqlComposer

set_option autoImplicit false

/-! ## Steps that may change places -/

section Interleaving

variable {State Step Clause : Type}

/-- A step may be made before steps on other clauses. -/
theorem foldl_moved {apply : State → Step → State} {clause : Step → Clause}
    (comm : ∀ state first second, clause first ≠ clause second →
      apply (apply state first) second = apply (apply state second) first)
    {before : List Step} {step : Step} (others : ∀ other ∈ before, clause other ≠ clause step)
    (behind : List Step) (state : State) :
    (before ++ step :: behind).foldl apply state =
      (step :: (before ++ behind)).foldl apply state := by
  induction before generalizing state with
  | nil => rfl
  | cons first rest ih =>
      obtain ⟨different, later⟩ := List.forall_mem_cons.mp others
      have moved := ih later (apply state first)
      rw [List.foldl_cons, comm _ _ _ different] at moved
      exact moved

variable [DecidableEq Clause]

/-- Two sequences have the same steps on each clause, in the same order. -/
def SameByClause (clause : Step → Clause) (first second : List Step) : Prop :=
  ∀ current, first.filter (clause · = current) = second.filter (clause · = current)

variable {clause : Step → Clause}

/-- The first step of a sequence also comes first among the steps on its clause, and without it the
sequences still have the same steps on each clause. -/
theorem SameByClause.exists_split {step : Step} {rest second : List Step}
    (same : SameByClause clause (step :: rest) second) :
    ∃ before behind, second = before ++ step :: behind ∧
      (∀ other ∈ before, clause other ≠ clause step) ∧
        SameByClause clause rest (before ++ behind) := by
  have onClause := same (clause step)
  rw [List.filter_cons_of_pos (by simp)] at onClause
  obtain ⟨before, behind, split, notHere, _, _⟩ := List.filter_eq_cons_iff.mp onClause.symm
  have others : ∀ other ∈ before, clause other ≠ clause step := by
    intro other member
    simpa using notHere other member
  refine ⟨before, behind, split, others, ?_⟩
  intro current
  have onCurrent := same current
  rw [split, List.filter_append] at onCurrent
  rw [List.filter_append]
  by_cases here : clause step = current
  · -- No step in front is on this clause, so the same step is taken away on both sides.
    have nothing : before.filter (clause · = current) = [] := by
      apply List.filter_eq_nil_iff.mpr
      intro other member
      simpa [← here] using others other member
    rw [nothing, List.filter_cons_of_pos (by simpa using here),
      List.filter_cons_of_pos (by simpa using here)] at onCurrent
    rw [nothing]
    exact (List.cons.inj onCurrent).2
  · rwa [List.filter_cons_of_neg (by simpa using here),
      List.filter_cons_of_neg (by simpa using here)] at onCurrent

/-- Sequences with the same steps on each clause lead to the same state. -/
theorem foldl_interleaved {apply : State → Step → State}
    (comm : ∀ state first second, clause first ≠ clause second →
      apply (apply state first) second = apply (apply state second) first)
    {first second : List Step} (same : SameByClause clause first second) (state : State) :
    first.foldl apply state = second.foldl apply state := by
  induction first generalizing second state with
  | nil =>
      cases second with
      | nil => rfl
      | cons step rest =>
          have onClause := same (clause step)
          simp at onClause
  | cons step rest ih =>
      obtain ⟨before, behind, rfl, others, without⟩ := same.exists_split
      rw [foldl_moved comm others, List.foldl_cons, List.foldl_cons]
      exact ih without (apply state step)

end Interleaving

/-! ## The clauses of queries -/

namespace Select

/-- The clauses of a query for rows. -/
inductive Clause
  | projection
  | joins
  | conditions
  | grouping
  | groupConditions
  | ordering
  | window
  deriving DecidableEq

/-- The clause that a step works on. -/
def Step.clause : Step → Clause
  | .columns _ | .column _ => .projection
  | .join _ | .joins _ | .joinOn .. => .joins
  | .restrict _ => .conditions
  | .groupBy _ => .grouping
  | .having _ | .havings _ => .groupConditions
  | .orderBy _ | .orderByAsc _ | .orderByDesc _ => .ordering
  | .limit _ | .offset _ | .paginate .. => .window

/-- Steps on different clauses may change places. -/
theorem apply_comm (query : Select) (first second : Step)
    (different : first.clause ≠ second.clause) :
    (query.apply first).apply second = (query.apply second).apply first := by
  cases first <;> cases second <;> first | rfl | exact absurd rfl different

/-- A query for rows depends on the steps that each clause has received. -/
theorem applyAll_interleaved (query : Select) {first second : List Step}
    (same : SameByClause Step.clause first second) :
    query.applyAll first = query.applyAll second :=
  foldl_interleaved apply_comm same query

/-- The order of steps on one clause counts. -/
example : (ofTable "guests").applyAll [.limit 1, .limit 2] ≠
    (ofTable "guests").applyAll [.limit 2, .limit 1] := by
  decide

end Select

namespace Update

/-- The clauses of a change. -/
inductive Clause
  | data
  | joins
  | conditions
  | groupConditions
  deriving DecidableEq

/-- The clause that a step works on. -/
def Step.clause : Step → Clause
  | .assign .. | .data _ => .data
  | .join _ | .joins _ => .joins
  | .restrict _ => .conditions
  | .having _ => .groupConditions

/-- Steps on different clauses may change places. -/
theorem apply_comm (query : Update) (first second : Step)
    (different : first.clause ≠ second.clause) :
    (query.apply first).apply second = (query.apply second).apply first := by
  cases first <;> cases second <;> first | rfl | exact absurd rfl different

/-- A change depends on the steps that each clause has received. -/
theorem applyAll_interleaved (query : Update) {first second : List Step}
    (same : SameByClause Step.clause first second) :
    query.applyAll first = query.applyAll second :=
  foldl_interleaved apply_comm same query

end Update

namespace Delete

/-- What steps decide about a removal: its conditions, and whether it may go without any. -/
inductive Clause
  | conditions
  | permission
  deriving DecidableEq

/-- The clause that a step works on. -/
def Step.clause : Step → Clause
  | .restrict _ => .conditions
  | .allowAll _ => .permission

/-- Steps on different clauses may change places. -/
theorem apply_comm (query : Delete) (first second : Step)
    (different : first.clause ≠ second.clause) :
    (query.apply first).apply second = (query.apply second).apply first := by
  cases first <;> cases second <;> first | rfl | exact absurd rfl different

/-- A removal depends on the steps that each clause has received. -/
theorem applyAll_interleaved (query : Delete) {first second : List Step}
    (same : SameByClause Step.clause first second) :
    query.applyAll first = query.applyAll second :=
  foldl_interleaved apply_comm same query

end Delete

/-! ## What is built -/

/-- A step and a predicate that go by the same name and are made of the same. -/
inductive FilterStep.IsNamedFor : FilterStep → Predicate → Prop
  | raw (sql : Text) : IsNamedFor (.raw sql) (.raw sql)
  | is (column : Text) (value : Value) : IsNamedFor (.is column value) (.is column value)
  | isNot (column : Text) (value : Value) : IsNamedFor (.isNot column value) (.isNot column value)
  | like (column pattern : Text) : IsNamedFor (.like column pattern) (.like column pattern)
  | notLike (column pattern : Text) : IsNamedFor (.notLike column pattern) (.notLike column pattern)
  | startWith (column pattern : Text) :
      IsNamedFor (.startWith column pattern) (.startWith column pattern)
  | endWith (column pattern : Text) : IsNamedFor (.endWith column pattern) (.endWith column pattern)
  | inList (column : Text) (values : List Value) :
      IsNamedFor (.inList column values) (.inList column values)
  | notInList (column : Text) (values : List Value) :
      IsNamedFor (.notInList column values) (.notInList column values)
  | between (column : Text) (low high : Value) :
      IsNamedFor (.between column low high) (.between column low high)
  | notBetween (column : Text) (low high : Value) :
      IsNamedFor (.notBetween column low high) (.notBetween column low high)
  | isNull (column : Text) : IsNamedFor (.isNull column) (.isNull column)
  | notNull (column : Text) : IsNamedFor (.notNull column) (.notNull column)
  | isEmpty (column : Text) : IsNamedFor (.isEmpty column) (.isEmpty column)
  | notEmpty (column : Text) : IsNamedFor (.notEmpty column) (.notEmpty column)
  | findInSet (column : Text) (value : Value) :
      IsNamedFor (.findInSet column value) (.findInSet column value)

/-- A step that is named for a predicate adds the predicate as a condition. -/
theorem FilterStep.IsNamedFor.added {step : FilterStep} {predicate : Predicate}
    (named : step.IsNamedFor predicate) : step.added = (filter (.single predicate)).added := by
  cases named <;> rfl

/-- There is a step named for every predicate. -/
theorem FilterStep.ofPredicate_isNamedFor (predicate : Predicate) :
    (ofPredicate predicate).IsNamedFor predicate := by
  cases predicate with
  | raw sql => exact .raw sql
  | compare column operator =>
      cases operator with
      | is value => exact .is column value
      | isNot value => exact .isNot column value
      | like pattern => exact .like column pattern
      | notLike pattern => exact .notLike column pattern
      | startWith pattern => exact .startWith column pattern
      | endWith pattern => exact .endWith column pattern
      | inList values => exact .inList column values
      | notInList values => exact .notInList column values
      | between low high => exact .between column low high
      | notBetween low high => exact .notBetween column low high
      | isNull => exact .isNull column
      | notNull => exact .notNull column
      | isEmpty => exact .isEmpty column
      | notEmpty => exact .notEmpty column
      | findInSet value => exact .findInSet column value

namespace Query

/-- Two sequences of steps on one table with the same steps on each clause, in the same order, build
the same, whatever functions are allowed: as queries for rows, as changes and as removals.  And on
all three a step that is named for a predicate is the step that filters by this predicate, and every
predicate has such a step. -/
theorem build_interleaved (functions : FunctionSet) (table : Text) :
    (∀ first second, SameByClause Select.Step.clause first second →
      ((Select.ofTable table).applyAll first).build functions =
        ((Select.ofTable table).applyAll second).build functions) ∧
    (∀ first second, SameByClause Update.Step.clause first second →
      ((Update.ofTable table).applyAll first).build functions =
        ((Update.ofTable table).applyAll second).build functions) ∧
    (∀ first second, SameByClause Delete.Step.clause first second →
      ((Delete.ofTable table).applyAll first).build functions =
        ((Delete.ofTable table).applyAll second).build functions) ∧
    (∀ step predicate, FilterStep.IsNamedFor step predicate →
      (∀ query : Select, query.apply (.restrict step) =
        query.apply (.restrict (.filter (.single predicate)))) ∧
      (∀ query : Update, query.apply (.restrict step) =
        query.apply (.restrict (.filter (.single predicate)))) ∧
      ∀ query : Delete, query.apply (.restrict step) =
        query.apply (.restrict (.filter (.single predicate)))) ∧
    ∀ predicate, (FilterStep.ofPredicate predicate).IsNamedFor predicate := by
  refine ⟨?_, ?_, ?_, ?_, FilterStep.ofPredicate_isNamedFor⟩
  · intro first second same
    rw [Select.applyAll_interleaved _ same]
  · intro first second same
    rw [Update.applyAll_interleaved _ same]
  · intro first second same
    rw [Delete.applyAll_interleaved _ same]
  · intro step predicate named
    refine ⟨?_, ?_, ?_⟩
    · intro query
      rw [Select.apply, Select.apply, named.added]
    · intro query
      rw [Update.apply, Update.apply, named.added]
    · intro query
      rw [Delete.apply, Delete.apply, named.added]

/-- Steps that go through the clauses in the order in which they are written. -/
def clauseByClause : List Select.Step :=
  [.column (.raw "name"), .column (.raw "age"), .restrict (.compare "age" (.isNot .null)),
    .restrict (.raw "1=0"), .orderByDesc "name", .limit 5, .offset 10]

/-- The same steps, interleaved. -/
def backAndForth : List Select.Step :=
  [.limit 5, .restrict (.compare "age" (.isNot .null)), .column (.raw "name"),
    .orderByDesc "name", .offset 10, .column (.raw "age"), .restrict (.raw "1=0")]

/-- Interleaved steps build the statement of the same steps clause by clause, and the same holds for
a change whose condition comes first, and for a removal that is allowed at last.  The step of a
range filters by the range. -/
theorem build_interleaved_guests :
    SameByClause Select.Step.clause clauseByClause backAndForth ∧
      ((Select.ofTable "guests").applyAll clauseByClause).build .standard =
        ((Select.ofTable "guests").applyAll backAndForth).build .standard ∧
      ((Select.ofTable "guests").applyAll backAndForth).build .standard =
        .ok ⟨.select, "SELECT name, age FROM `guests` WHERE `age` != NULL AND 1=0 " ++
          "ORDER BY `name` DESC LIMIT 5 OFFSET 10;"⟩ ∧
      ((Update.ofTable "guests").applyAll
          [.assign "day" (.int 1), .assign "day" (.int 2), .restrict (.raw "1=0")]).build .standard =
        ((Update.ofTable "guests").applyAll
          [.restrict (.raw "1=0"), .assign "day" (.int 1), .assign "day" (.int 2)]).build .standard ∧
      ((Delete.ofTable "guests").applyAll
          [.allowAll false, .allowAll true, .restrict (.raw "1=1")]).build .standard =
        ((Delete.ofTable "guests").applyAll
          [.allowAll false, .restrict (.raw "1=1"), .allowAll true]).build .standard ∧
      (Update.ofTable "guests").apply (.restrict (.between "age" (.int 1) (.int 2))) =
        (Update.ofTable "guests").apply
          (.restrict (.filter (.single (.between "age" (.int 1) (.int 2))))) := by
  obtain ⟨select, update, delete, named, _⟩ := build_interleaved .standard "guests"
  have sameSteps : SameByClause Select.Step.clause clauseByClause backAndForth := by
    intro current
    cases current <;> rfl
  refine ⟨sameSteps, select _ _ sameSteps, rfl, ?_, ?_, (named _ _ (.between ..)).2.1 _⟩
  · apply update
    intro current
    cases current <;> rfl
  · apply delete
    intro current
    cases current <;> rfl

end Query

end SqlComposer
