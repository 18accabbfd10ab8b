import SqlComposer.Condition
import SqlComposer.Proofs.Reference.Rendering
import SqlComposer.Proofs.Value.Rendering

/-!
# Rendering related conditions

Two conditions are twins when they differ at most in the texts of their values,
which are related, and in the patterns of their operators, which need not be
related at all (`Condition.Twin`).  Twins have the same shape, the same columns
and the same trusted fragments.

A congruence that takes related texts to related SQL, and that relates the
trusted fragments to themselves, takes twins to related SQL
(`Condition.sql_matched`).  Patterns may differ because each of them ends up in a
literal of its own.
-/

namespace SqlComposer

set_option autoImplicit false

open Lexical (IsCongruence isPlain StaysIn)

/-! ## What is read off a condition -/

namespace Operator

/-- The values that a column is compared with. -/
def values : Operator → List Value
  | .is value | .isNot value | .findInSet value => [value]
  | .inList values | .notInList values => values
  | .between low high | .notBetween low high => [low, high]
  | _ => []

/-- Whether the column is written; membership in an empty list is decided without it. -/
def showsColumn : Operator → Bool
  | .inList [] | .notInList [] => false
  | _ => true

end Operator

namespace Predicate

/-- The fragments of a predicate that are kept as written. -/
def trusted : Predicate → List Text
  | .raw sql => [sql]
  | .compare column operator => if operator.showsColumn then Column.trusted column else []

/-- The texts of the values in a predicate. -/
def texts : Predicate → List Text
  | .raw _ => []
  | .compare _ operator => operator.values.flatMap Value.texts

end Predicate

namespace Condition

/-- The predicates of a condition. -/
def predicates : Condition → List Predicate
  | .single predicate => [predicate]
  | .anyOf alternatives => alternatives

/-- The fragments of a condition that are kept as written. -/
def trusted (condition : Condition) : List Text :=
  condition.predicates.flatMap Predicate.trusted

/-- The texts of the values in a condition. -/
def texts (condition : Condition) : List Text :=
  condition.predicates.flatMap Predicate.texts

end Condition

/-! ## Lists of conditions -/

/-- The SQL of a list of conditions joins the SQL of its members, unless there are none. -/
theorem Condition.listSql?_eq_ok {functions : FunctionSet} {conditions : List Condition}
    {written : Option Text} :
    listSql? functions conditions = .ok written ↔
      ∃ pieces, List.Forall₂ (fun condition piece => condition.sql functions = .ok piece)
          conditions pieces ∧
        written = if conditions = [] then none else some (Text.joined " AND " pieces) := by
  cases conditions with
  | nil =>
      simp only [listSql?, reduceIte]
      constructor
      · intro ok
        exact ⟨[], .nil, (Except.ok.inj ok).symm⟩
      · rintro ⟨_, _, rfl⟩
        rfl
  | cons first rest =>
      simp only [reduceCtorEq, reduceIte]
      constructor
      · intro ok
        obtain ⟨pieces, each, ok⟩ := bind_eq_ok.mp ok
        exact ⟨pieces, mapM_eq_ok.mp each, (Except.ok.inj ok).symm⟩
      · rintro ⟨pieces, each, rfl⟩
        exact bind_eq_ok.mpr ⟨pieces, mapM_eq_ok.mpr each, rfl⟩

/-- The clause of a list of conditions, which is empty when there are none. -/
theorem Condition.clauseSql_eq_ok {functions : FunctionSet} {keyword : Text}
    {conditions : List Condition} {clause : Text} :
    clauseSql functions keyword conditions = .ok clause ↔
      ∃ pieces, List.Forall₂ (fun condition piece => condition.sql functions = .ok piece)
          conditions pieces ∧
        clause = if conditions = [] then [] else keyword ++ Text.joined " AND " pieces := by
  rw [clauseSql, bind_eq_ok]
  constructor
  · rintro ⟨written, list, ok⟩
    obtain ⟨pieces, each, rfl⟩ := listSql?_eq_ok.mp list
    refine ⟨pieces, each, ?_⟩
    split_ifs at ok ⊢ with empty
    · exact (Except.ok.inj ok).symm
    · exact (Except.ok.inj ok).symm
  · rintro ⟨pieces, each, rfl⟩
    refine ⟨_, listSql?_eq_ok.mpr ⟨pieces, each, rfl⟩, ?_⟩
    split_ifs with empty
    · rfl
    · rfl

/-! ## Twins -/

section Twins

variable (twin : Text → Text → Prop)

/-- Operators that are the same except for related texts and for their patterns. -/
inductive Operator.Twin : Operator → Operator → Prop
  | is {first second : Value} (values : Value.Twin twin first second) :
      Twin (.is first) (.is second)
  | isNot {first second : Value} (values : Value.Twin twin first second) :
      Twin (.isNot first) (.isNot second)
  | like (first second : Text) : Twin (.like first) (.like second)
  | notLike (first second : Text) : Twin (.notLike first) (.notLike second)
  | startWith (first second : Text) : Twin (.startWith first) (.startWith second)
  | endWith (first second : Text) : Twin (.endWith first) (.endWith second)
  | inList {firsts seconds : List Value}
      (values : List.Forall₂ (Value.Twin twin) firsts seconds) :
      Twin (.inList firsts) (.inList seconds)
  | notInList {firsts seconds : List Value}
      (values : List.Forall₂ (Value.Twin twin) firsts seconds) :
      Twin (.notInList firsts) (.notInList seconds)
  | between {low low' high high' : Value} (lows : Value.Twin twin low low')
      (highs : Value.Twin twin high high') : Twin (.between low high) (.between low' high')
  | notBetween {low low' high high' : Value} (lows : Value.Twin twin low low')
      (highs : Value.Twin twin high high') : Twin (.notBetween low high) (.notBetween low' high')
  | isNull : Twin .isNull .isNull
  | notNull : Twin .notNull .notNull
  | isEmpty : Twin .isEmpty .isEmpty
  | notEmpty : Twin .notEmpty .notEmpty
  | findInSet {first second : Value} (values : Value.Twin twin first second) :
      Twin (.findInSet first) (.findInSet second)

/-- Predicates that are the same except for their operators, which are twins. -/
inductive Predicate.Twin : Predicate → Predicate → Prop
  | raw (sql : Text) : Twin (.raw sql) (.raw sql)
  | compare (column : Text) {first second : Operator}
      (operators : Operator.Twin twin first second) :
      Twin (.compare column first) (.compare column second)

/-- Conditions that are the same except for their predicates, which are twins. -/
inductive Condition.Twin : Condition → Condition → Prop
  | single {first second : Predicate} (predicates : Predicate.Twin twin first second) :
      Twin (.single first) (.single second)
  | anyOf {firsts seconds : List Predicate}
      (predicates : List.Forall₂ (Predicate.Twin twin) firsts seconds) :
      Twin (.anyOf firsts) (.anyOf seconds)

end Twins

section Self

variable {twin : Text → Text → Prop}

theorem Operator.Twin.self {operator : Operator}
    (each : ∀ text ∈ operator.values.flatMap Value.texts, twin text text) :
    Operator.Twin twin operator operator := by
  have value : ∀ value ∈ operator.values, Value.Twin twin value value :=
    List.forall₂_same.mp (Value.Twin.selfList each)
  cases operator with
  | is value' => exact .is (value value' (by simp [values]))
  | isNot value' => exact .isNot (value value' (by simp [values]))
  | like pattern => exact .like pattern pattern
  | notLike pattern => exact .notLike pattern pattern
  | startWith pattern => exact .startWith pattern pattern
  | endWith pattern => exact .endWith pattern pattern
  | inList values => exact .inList (Value.Twin.selfList each)
  | notInList values => exact .notInList (Value.Twin.selfList each)
  | between low high =>
      exact .between (value low (by simp [values])) (value high (by simp [values]))
  | notBetween low high =>
      exact .notBetween (value low (by simp [values])) (value high (by simp [values]))
  | isNull => exact .isNull
  | notNull => exact .notNull
  | isEmpty => exact .isEmpty
  | notEmpty => exact .notEmpty
  | findInSet value' => exact .findInSet (value value' (by simp [values]))

theorem Predicate.Twin.self {predicate : Predicate}
    (each : ∀ text ∈ predicate.texts, twin text text) :
    Predicate.Twin twin predicate predicate := by
  cases predicate with
  | raw sql => exact .raw sql
  | compare column operator => exact .compare column (Operator.Twin.self each)

/-- A condition is its own twin when its texts are related to themselves. -/
theorem Condition.Twin.self {condition : Condition}
    (each : ∀ text ∈ condition.texts, twin text text) :
    Condition.Twin twin condition condition := by
  have predicate : ∀ predicate ∈ condition.predicates, Predicate.Twin twin predicate predicate :=
    fun predicate member =>
      Predicate.Twin.self (List.forall_mem_flatMap.mp each predicate member)
  cases condition with
  | single alternative => exact .single (predicate alternative List.mem_cons_self)
  | anyOf alternatives => exact .anyOf (List.forall₂_same.mpr predicate)

/-- Conditions are their own twins when their texts are related to themselves. -/
theorem Condition.Twin.selfList {conditions : List Condition}
    (each : ∀ text ∈ conditions.flatMap Condition.texts, twin text text) :
    List.Forall₂ (Condition.Twin twin) conditions conditions :=
  List.forall₂_same.mpr fun condition member =>
    Condition.Twin.self (List.forall_mem_flatMap.mp each condition member)

end Self

/-! ## Conditions that hold for every row -/

section AlwaysTrue

variable {twin : Text → Text → Prop}

theorem Predicate.Twin.isAlwaysTrue_eq {first second : Predicate}
    (twins : Predicate.Twin twin first second) : first.isAlwaysTrue = second.isAlwaysTrue := by
  cases twins with
  | raw sql => rfl
  | compare column operators =>
      cases operators with
      | notInList values => cases values <;> rfl
      | _ => rfl

/-- Whether a condition holds for every row does not depend on texts and patterns. -/
theorem Condition.Twin.isAlwaysTrue_eq {first second : Condition}
    (twins : Condition.Twin twin first second) : first.isAlwaysTrue = second.isAlwaysTrue := by
  cases twins with
  | single predicates => exact predicates.isAlwaysTrue_eq
  | anyOf predicates =>
      simp only [isAlwaysTrue]
      induction predicates with
      | nil => rfl
      | cons head _ ih => rw [List.any_cons, List.any_cons, head.isAlwaysTrue_eq, ih]

/-- Whether all conditions of a list hold for every row does not depend on texts and patterns. -/
theorem Condition.Twin.all_isAlwaysTrue_eq {firsts seconds : List Condition}
    (twins : List.Forall₂ (Condition.Twin twin) firsts seconds) :
    firsts.all Condition.isAlwaysTrue = seconds.all Condition.isAlwaysTrue := by
  induction twins with
  | nil => rfl
  | cons head _ ih => rw [List.all_cons, List.all_cons, head.isAlwaysTrue_eq, ih]

end AlwaysTrue

/-! ## The SQL of conditions -/

section Rendering

variable {related : Text → Text → Prop} (congruence : IsCongruence related)
include congruence

/-- A column, a plain sign and an operand. -/
theorem Operator.compared_related {column column' sign operand operand' : Text}
    (columns : related column column') (plain : sign.all isPlain)
    (operands : related operand operand') :
    related (column ++ sign ++ operand) (column' ++ sign ++ operand') :=
  congruence.append (congruence.append columns (congruence.plain plain)) operands

/-- Patterns are related whatever they say, with or without a wildcard at each end. -/
theorem Operator.patterns_related {start finish : Text} (first second : Text)
    (starts : StaysIn .inStrings .single start) (finishes : StaysIn .inStrings .single finish) :
    related (Literal.inMarks (start ++ Literal.escaped first ++ finish))
      (Literal.inMarks (start ++ Literal.escaped second ++ finish)) := by
  have body : ∀ pattern,
      StaysIn .inStrings .single (start ++ Literal.escaped pattern ++ finish) :=
    fun pattern => (starts.append (staysIn_escapedWith _ pattern)).append finishes
  exact congruence.literal (body first) (body second)

variable {twin : Text → Text → Prop} {functions : FunctionSet}
  (plainNames : ∀ name ∈ functions.names, Text.isPlainWord name)
  (onText : ∀ first second, twin first second →
    related (Value.textSql functions first) (Value.textSql functions second))
include plainNames onText

/-- Twins compare a column by related SQL. -/
theorem Operator.sql_matched {column : Text} {first second : Operator}
    (onColumn : first.showsColumn → related column column)
    (twins : Operator.Twin twin first second) :
    Matched related (first.sql functions column) (second.sql functions column) := by
  have value : ∀ {first second}, Value.Twin twin first second →
      Matched related (first.sql functions) (second.sql functions) :=
    fun pair => Value.sql_matched congruence plainNames onText pair
  have list : ∀ {firsts seconds}, List.Forall₂ (Value.Twin twin) firsts seconds →
      Matched related (Value.listSql functions firsts) (Value.listSql functions seconds) :=
    fun pairs => Value.listSql_matched congruence plainNames onText pairs
  have percent := staysIn_percent
  have nothing : StaysIn .inStrings .single [] := .nil
  cases twins with
  | is values =>
      exact (value values).bind fun _ _ together =>
        .ok (compared_related congruence (onColumn rfl) rfl together)
  | isNot values =>
      exact (value values).bind fun _ _ together =>
        .ok (compared_related congruence (onColumn rfl) rfl together)
  | like first second =>
      exact .ok (compared_related congruence (onColumn rfl) rfl
        (patterns_related congruence _ _ percent percent))
  | notLike first second =>
      exact .ok (compared_related congruence (onColumn rfl) rfl
        (patterns_related congruence _ _ percent percent))
  | startWith first second =>
      exact .ok (compared_related congruence (onColumn rfl) rfl
        (patterns_related congruence first second nothing percent))
  | endWith first second =>
      have patterns := patterns_related congruence first second percent nothing
      rw [List.append_nil, List.append_nil] at patterns
      exact .ok (compared_related congruence (onColumn rfl) rfl patterns)
  | inList values =>
      -- Nothing is known of the column if the list is empty, but then it is not written.
      cases values with
      | nil => exact .ok (congruence.plain rfl)
      | cons head rest =>
          exact (list (.cons head rest)).bind fun _ _ together =>
            .ok (congruence.opened " IN " rfl (onColumn rfl) together)
  | notInList values =>
      cases values with
      | nil => exact .ok (congruence.plain rfl)
      | cons head rest =>
          exact (list (.cons head rest)).bind fun _ _ together =>
            .ok (congruence.opened " NOT IN " rfl (onColumn rfl) together)
  | between lows highs =>
      exact (value lows).bind fun _ _ low => (value highs).bind fun _ _ high =>
        .ok (compared_related congruence
          (compared_related congruence (onColumn rfl) rfl low) rfl high)
  | notBetween lows highs =>
      exact (value lows).bind fun _ _ low => (value highs).bind fun _ _ high =>
        .ok (compared_related congruence
          (compared_related congruence (onColumn rfl) rfl low) rfl high)
  | isNull => exact .ok (congruence.append (onColumn rfl) (congruence.plain rfl))
  | notNull => exact .ok (congruence.append (onColumn rfl) (congruence.plain rfl))
  | isEmpty =>
      have blank : related (" = " ++ Literal.inMarks []) (" = " ++ Literal.inMarks []) :=
        congruence.append (congruence.plain rfl) (congruence.literal nothing nothing)
      exact .ok (congruence.append (onColumn rfl) blank)
  | notEmpty =>
      have blank : related (" != " ++ Literal.inMarks []) (" != " ++ Literal.inMarks []) :=
        congruence.append (congruence.plain rfl) (congruence.literal nothing nothing)
      exact .ok (congruence.append (onColumn rfl) blank)
  | findInSet values =>
      refine (value values).bind fun first second together => .ok ?_
      have comma : related ", " ", " := congruence.plain rfl
      have arguments := congruence.append (congruence.append together comma) (onColumn rfl)
      have whole := congruence.opened "FIND_IN_SET" rfl congruence.empty arguments
      simpa using whole

/-- The SQL of twins is related, or there is none for the same kind of reason. -/
theorem Predicate.sql_matched {first second : Predicate}
    (onTrusted : ∀ fragment ∈ first.trusted, related fragment fragment)
    (twins : Predicate.Twin twin first second) :
    Matched related (first.sql functions) (second.sql functions) := by
  cases twins with
  | raw sql => exact .ok (onTrusted sql List.mem_cons_self)
  | @compare column first second operators =>
      refine Operator.sql_matched congruence plainNames onText (fun shows => ?_) operators
      have inTrusted : (Predicate.compare column first).trusted = Column.trusted column :=
        if_pos shows
      rw [inTrusted] at onTrusted
      exact Column.sql_related congruence onTrusted

/-- The SQL of predicates that are twins one by one is related one by one. -/
theorem Predicate.mapM_sql_matched {firsts seconds : List Predicate}
    (onTrusted : ∀ fragment ∈ firsts.flatMap Predicate.trusted, related fragment fragment)
    (twins : List.Forall₂ (Predicate.Twin twin) firsts seconds) :
    Matched (List.Forall₂ related) (firsts.mapM (Predicate.sql functions))
      (seconds.mapM (Predicate.sql functions)) :=
  Matched.mapM twins fun first member _ pair =>
    Predicate.sql_matched congruence plainNames onText
      (List.forall_mem_flatMap.mp onTrusted first member) pair

/-- The SQL of twins is related, or there is none for the same kind of reason. -/
theorem Condition.sql_matched {first second : Condition}
    (onTrusted : ∀ fragment ∈ first.trusted, related fragment fragment)
    (twins : Condition.Twin twin first second) :
    Matched related (first.sql functions) (second.sql functions) := by
  cases twins with
  | @single first second predicates =>
      have same : (Condition.single first).trusted = first.trusted := List.flatMap_singleton _ _
      rw [same] at onTrusted
      exact Predicate.sql_matched congruence plainNames onText onTrusted predicates
  | anyOf predicates =>
      have alternatives :=
        Predicate.mapM_sql_matched congruence plainNames onText onTrusted predicates
      cases predicates with
      | nil => exact .ok (congruence.plain rfl)
      | cons head rest =>
          exact alternatives.bind fun _ _ together =>
            .ok (congruence.parenthesized (congruence.joined _ rfl together))

/-- Conditions that are twins one by one are joined to related SQL, if there are any. -/
theorem Condition.listSql?_matched {firsts seconds : List Condition}
    (onTrusted : ∀ fragment ∈ firsts.flatMap Condition.trusted, related fragment fragment)
    (twins : List.Forall₂ (Condition.Twin twin) firsts seconds) :
    Matched (Option.Rel related) (Condition.listSql? functions firsts)
      (Condition.listSql? functions seconds) := by
  have pieces : Matched (List.Forall₂ related) (firsts.mapM (Condition.sql functions))
      (seconds.mapM (Condition.sql functions)) :=
    Matched.mapM twins fun first member _ pair =>
      Condition.sql_matched congruence plainNames onText
        (List.forall_mem_flatMap.mp onTrusted first member) pair
  cases twins with
  | nil => exact .ok .none
  | cons head rest =>
      exact pieces.bind fun _ _ together => .ok (.some (congruence.joined _ rfl together))

/-- The clauses of conditions that are twins one by one are related. -/
theorem Condition.clauseSql_matched {keyword : Text} (plain : keyword.all isPlain)
    {firsts seconds : List Condition}
    (onTrusted : ∀ fragment ∈ firsts.flatMap Condition.trusted, related fragment fragment)
    (twins : List.Forall₂ (Condition.Twin twin) firsts seconds) :
    Matched related (Condition.clauseSql functions keyword firsts)
      (Condition.clauseSql functions keyword seconds) := by
  refine (Condition.listSql?_matched congruence plainNames onText onTrusted twins).bind ?_
  rintro _ _ (together | _)
  · exact .ok (congruence.append (congruence.plain plain) together)
  · exact .ok congruence.empty

end Rendering

end SqlComposer
