import Mathlib.Data.List.Nodup
import SqlComposer.Proofs.Params.Condition
import SqlComposer.Proofs.Params.Members

/-!
# The grammar of condition objects

A condition object has one of three forms: a comparison of a named column by one
operator, a check of the column that is its operand, or a single key that must equal
its value.  Here the forms are told by which members an object has
(`Predicate.HasForm`), without the order in which a reader looks for them, and so are
the operands of the seventeen operator keys.  A table gives for each key what its
operand must be and which operator it makes (`OperatorKey.form`); what a JSON value
stands for, as a value or as a pattern, is a relation of its own.

An object has at most one form and stands for one predicate at most.  It is read
exactly when it has a form, and then as the predicate of that form; two operator
keys are refused whatever else the object says (`Condition.listOfJson_object_iff`).
-/

namespace SqlComposer

set_option autoImplicit false

/-! ## Operands -/

/-- What a JSON value stands for as a value: a scalar for itself, and an object with one key for the
call of the function that the key names. -/
inductive Value.DenotedBy : Json → Value → Prop
  | null : DenotedBy .null .null
  | bool (value : Bool) : DenotedBy (.bool value) (.bool value)
  | number (value : Json.Number) : DenotedBy (.number value) (.ofNumber value)
  | string (value : Text) : DenotedBy (.string value) (.text value)
  | call (function : Text) {argument : Json} {value : Value} (inside : DenotedBy argument value) :
      DenotedBy (.object [(function, argument)]) (.call function value)

/-- What a JSON value stands for as a pattern: a string for itself, and a truth value or a number,
which must be finite, for its SQL. -/
inductive Operator.PatternDenotedBy : Json → Text → Prop
  | string (value : Text) : PatternDenotedBy (.string value) value
  | bool (value : Bool) : PatternDenotedBy (.bool value) (Value.boolSql value)
  | int (value : Int64) :
      PatternDenotedBy (.number (.int value)) (Number.signedDigits value.toInt)
  | uint (value : UInt64) :
      PatternDenotedBy (.number (.uint value)) (Number.digits value.toNat)
  | float {value : Double} (isFinite : value.isFinite) :
      PatternDenotedBy (.number (.float value)) value.plainText

/-- What the operand of an operator key must be, with the operator that it makes. -/
inductive OperandForm
  | value (operator : Value → Operator)
  | pattern (operator : Text → Operator)
  | list (operator : List Value → Operator)
  | bounds (operator : Value → Value → Operator)
  | flag (whenTrue whenFalse : Operator)

/-- What the operand of each operator key must be. -/
def OperatorKey.form : OperatorKey → OperandForm
  | .is => .value .is
  | .notIs => .value .isNot
  | .like => .pattern .like
  | .notLike => .pattern .notLike
  | .startWith => .pattern .startWith
  | .endWith => .pattern .endWith
  | .inList => .list .inList
  | .notIn => .list .notInList
  | .between | .isBetween => .bounds .between
  | .notBetween => .bounds .notBetween
  | .isNull => .flag .isNull .notNull
  | .notNull | .isNotNull => .flag .notNull .isNull
  | .isEmpty => .flag .isEmpty .notEmpty
  | .notEmpty => .flag .notEmpty .isEmpty
  | .findInSet => .value .findInSet

namespace OperandForm

/-- An operand has the right form, and makes an operator. -/
inductive Takes : OperandForm → Json → Operator → Prop
  | value {operator : Value → Operator} {operand : Json} {value : Value}
      (denoted : Value.DenotedBy operand value) :
      Takes (.value operator) operand (operator value)
  | pattern {operator : Text → Operator} {operand : Json} {pattern : Text}
      (denoted : Operator.PatternDenotedBy operand pattern) :
      Takes (.pattern operator) operand (operator pattern)
  | items {operator : List Value → Operator} {items : List Json} {values : List Value}
      (each : List.Forall₂ Value.DenotedBy items values) :
      Takes (.list operator) (.array items) (operator values)
  | alone {operator : List Value → Operator} {operand : Json} {value : Value}
      (notNull : operand ≠ .null) (denoted : Value.DenotedBy operand value) :
      Takes (.list operator) operand (operator [value])
  | bounds {operator : Value → Value → Operator} {low high : Json} {lowValue highValue : Value}
      (lowDenoted : Value.DenotedBy low lowValue) (highDenoted : Value.DenotedBy high highValue) :
      Takes (.bounds operator) (.array [low, high]) (operator lowValue highValue)
  | whenTrue {whenTrue whenFalse : Operator} :
      Takes (.flag whenTrue whenFalse) (.bool true) whenTrue
  | whenFalse {whenTrue whenFalse : Operator} :
      Takes (.flag whenTrue whenFalse) (.bool false) whenFalse

/-- The operator that an operand of a form makes under a key, which errors name. -/
def read (key : OperatorKey) : OperandForm → Json → Except Error Operator
  | .value operator, operand => return operator (← Value.ofJson operand)
  | .pattern operator, operand => return operator (← Operator.patternOfJson key operand)
  | .list operator, operand => return operator (← Operator.listOfJson key operand)
  | .bounds operator, operand => do
      let (low, high) ← Operator.boundsOfJson key operand
      return operator low high
  | .flag whenTrue whenFalse, operand => Operator.flagOfJson key whenTrue whenFalse operand

end OperandForm

/-! ## Operands that are read -/

/-- A JSON value is read as the value that it stands for. -/
theorem Value.ofJson_eq_ok_iff {json : Json} {value : Value} :
    ofJson json = .ok value ↔ DenotedBy json value := by
  constructor
  · intro ok
    fun_induction ofJson json generalizing value with
    | case1 => cases ok; exact .null
    | case2 value => cases ok; exact .bool value
    | case3 number => cases ok; exact .number number
    | case4 text => cases ok; exact .string text
    | case5 function argument ih =>
        obtain ⟨inner, inside, same⟩ := bind_eq_ok.mp ok
        cases same
        exact .call function (ih inside)
    | case6 => cases ok
    | case7 => cases ok
  · intro denoted
    induction denoted with
    | call function inside ih =>
        rw [ofJson, ih]
        rfl
    | _ => rfl

namespace Operator

variable {key : OperatorKey} {operand : Json}

theorem patternOfJson_eq_ok_iff {pattern : Text} :
    patternOfJson key operand = .ok pattern ↔ PatternDenotedBy operand pattern := by
  constructor
  · intro ok
    unfold patternOfJson at ok
    split at ok
    · cases ok; exact .string _
    · cases ok; exact .bool _
    · cases ok; exact .int _
    · cases ok; exact .uint _
    · rw [Double.sql] at ok
      split_ifs at ok with isFinite
      cases ok
      exact .float isFinite
    · cases ok
  · intro denoted
    cases denoted with
    | float isFinite => exact if_pos isFinite
    | _ => rfl

theorem listOfJson_eq_ok_iff {values : List Value} :
    listOfJson key operand = .ok values ↔
      (∃ items, operand = .array items ∧ List.Forall₂ Value.DenotedBy items values) ∨
        operand ≠ .null ∧ ∃ value, Value.DenotedBy operand value ∧ values = [value] := by
  constructor
  · intro ok
    unfold listOfJson at ok
    split at ok
    · rename_i items
      simp only [mapM_eq_ok, Value.ofJson_eq_ok_iff] at ok
      exact .inl ⟨items, rfl, ok⟩
    · cases ok
    · rename_i _ notNull
      obtain ⟨value, single, same⟩ := bind_eq_ok.mp ok
      cases same
      exact .inr ⟨notNull, value, Value.ofJson_eq_ok_iff.mp single, rfl⟩
  · rintro (⟨items, rfl, each⟩ | ⟨notNull, value, denoted, rfl⟩)
    · simp only [listOfJson, mapM_eq_ok, Value.ofJson_eq_ok_iff]
      exact each
    · have single := Value.ofJson_eq_ok_iff.mpr denoted
      cases denoted with
      | null => exact absurd rfl notNull
      | _ => exact bind_eq_ok.mpr ⟨_, single, rfl⟩

theorem boundsOfJson_eq_ok_iff {lowValue highValue : Value} :
    boundsOfJson key operand = .ok (lowValue, highValue) ↔
      ∃ low high, operand = .array [low, high] ∧
        Value.DenotedBy low lowValue ∧ Value.DenotedBy high highValue := by
  simp only [← Value.ofJson_eq_ok_iff]
  constructor
  · intro ok
    unfold boundsOfJson at ok
    split at ok
    · rename_i low high
      obtain ⟨_, lowRead, ok⟩ := bind_eq_ok.mp ok
      obtain ⟨_, highRead, same⟩ := bind_eq_ok.mp ok
      cases same
      exact ⟨low, high, rfl, lowRead, highRead⟩
    · cases ok
  · rintro ⟨low, high, rfl, lowRead, highRead⟩
    rw [boundsOfJson, lowRead, highRead]
    rfl

theorem flagOfJson_eq_ok_iff {whenTrue whenFalse operator : Operator} :
    flagOfJson key whenTrue whenFalse operand = .ok operator ↔
      operand = .bool true ∧ operator = whenTrue ∨
        operand = .bool false ∧ operator = whenFalse := by
  constructor
  · intro ok
    unfold flagOfJson at ok
    split at ok
    · cases ok; exact .inl ⟨rfl, rfl⟩
    · cases ok; exact .inr ⟨rfl, rfl⟩
    · cases ok
  · rintro (⟨rfl, rfl⟩ | ⟨rfl, rfl⟩) <;> rfl

end Operator

/-- An operand is read under a form exactly when it has the form. -/
theorem OperandForm.read_eq_ok_iff {key : OperatorKey} {form : OperandForm} {operand : Json}
    {operator : Operator} : form.read key operand = .ok operator ↔ form.Takes operand operator := by
  constructor
  · intro ok
    cases form with
    | value make =>
        obtain ⟨value, denoted, same⟩ := bind_eq_ok.mp ok
        cases same
        exact .value (Value.ofJson_eq_ok_iff.mp denoted)
    | pattern make =>
        obtain ⟨pattern, denoted, same⟩ := bind_eq_ok.mp ok
        cases same
        exact .pattern (Operator.patternOfJson_eq_ok_iff.mp denoted)
    | list make =>
        obtain ⟨values, denoted, same⟩ := bind_eq_ok.mp ok
        cases same
        rcases Operator.listOfJson_eq_ok_iff.mp denoted with
          ⟨items, rfl, each⟩ | ⟨notNull, value, single, rfl⟩
        · exact .items each
        · exact .alone notNull single
    | bounds make =>
        obtain ⟨⟨lowValue, highValue⟩, denoted, same⟩ := bind_eq_ok.mp ok
        cases same
        obtain ⟨low, high, rfl, lowDenoted, highDenoted⟩ :=
          Operator.boundsOfJson_eq_ok_iff.mp denoted
        exact .bounds lowDenoted highDenoted
    | flag whenTrue whenFalse =>
        rcases Operator.flagOfJson_eq_ok_iff.mp ok with ⟨rfl, rfl⟩ | ⟨rfl, rfl⟩
        · exact .whenTrue
        · exact .whenFalse
  · intro takes
    cases takes with
    | value denoted => exact bind_eq_ok.mpr ⟨_, Value.ofJson_eq_ok_iff.mpr denoted, rfl⟩
    | pattern denoted =>
        exact bind_eq_ok.mpr ⟨_, Operator.patternOfJson_eq_ok_iff.mpr denoted, rfl⟩
    | items each =>
        exact bind_eq_ok.mpr ⟨_, Operator.listOfJson_eq_ok_iff.mpr (.inl ⟨_, rfl, each⟩), rfl⟩
    | alone notNull denoted =>
        exact bind_eq_ok.mpr
          ⟨_, Operator.listOfJson_eq_ok_iff.mpr (.inr ⟨notNull, _, denoted, rfl⟩), rfl⟩
    | bounds lowDenoted highDenoted =>
        exact bind_eq_ok.mpr
          ⟨_, Operator.boundsOfJson_eq_ok_iff.mpr ⟨_, _, rfl, lowDenoted, highDenoted⟩, rfl⟩
    | whenTrue => rfl
    | whenFalse => rfl

/-- The operator of a key is made as the form of its operand says. -/
theorem Operator.ofJson_eq_ok_iff {key : OperatorKey} {operand : Json} {operator : Operator} :
    ofJson key operand = .ok operator ↔ key.form.Takes operand operator := by
  have asForm : ofJson key operand = key.form.read key operand := by cases key <;> rfl
  rw [asForm, OperandForm.read_eq_ok_iff]

/-- The keys whose operand may be the column are those whose operand is a flag otherwise. -/
theorem Operator.check?_eq_some_iff {key : OperatorKey} {operator : Operator} :
    check? key = some operator ↔ ∃ whenFalse, key.form = .flag operator whenFalse := by
  cases key <;> simp [check?, OperatorKey.form]

/-! ## Forms of objects -/

namespace Predicate

/-- The forms of a condition object. -/
inductive Form
  | comparison
  | check
  | equation

/-- Exactly one column key is there, its value is a string, and the column is what is left of the
string without the blanks around it, which is something. -/
def NamesColumn (members : List (Text × Json)) (column : Text) : Prop :=
  ∃ key ∈ columnKeys, ∃ written, (key, .string written) ∈ members ∧
    (∀ other ∈ columnKeys, other ∈ Json.keys members → other = key) ∧
      column = Text.trimmed written ∧ column ≠ []

/-- No column key is there. -/
def NamesNoColumn (members : List (Text × Json)) : Prop :=
  ∀ key ∈ columnKeys, key ∉ Json.keys members

/-- An object has a form, and stands for a predicate. -/
inductive HasForm : List (Text × Json) → Form → Predicate → Prop
  | comparison {members : List (Text × Json)} {column : Text} {key : OperatorKey} {operand : Json}
      {operator : Operator} (named : NamesColumn members column)
      (compared : (key.spelling, operand) ∈ members)
      (only : ∀ other : OperatorKey, other.spelling ∈ Json.keys members → other = key)
      (noOther : ∀ name ∈ Json.keys members,
        name ∈ columnKeys ∨ ∃ key : OperatorKey, name = key.spelling)
      (takes : key.form.Takes operand operator) :
      HasForm members .comparison (.compare column operator)
  | check {key : OperatorKey} {written column : Text} {operator whenFalse : Operator}
      (isFlag : key.form = .flag operator whenFalse) (trimmed : column = Text.trimmed written)
      (notBlank : column ≠ []) :
      HasForm [(key.spelling, .string written)] .check (.compare column operator)
  | equation {column : Text} {json : Json} {value : Value} (notColumnKey : column ∉ columnKeys)
      (notOperator : ∀ key : OperatorKey, column ≠ key.spelling)
      (denoted : Value.DenotedBy json value) :
      HasForm [(column, json)] .equation (.compare column (.is value))

end Predicate

/-! ## Members that are found -/

/-- Distinct items are a single one exactly when it is among them and no other one is. -/
theorem eq_singleton_iff_of_nodup {α : Type} {items : List α} (distinct : items.Nodup) {item : α} :
    items = [item] ↔ item ∈ items ∧ ∀ other ∈ items, other = item := by
  constructor
  · rintro rfl
    exact ⟨List.mem_singleton_self item, fun other => List.mem_singleton.mp⟩
  · rintro ⟨member, each⟩
    refine List.perm_singleton.mp
      ((List.perm_ext_iff_of_nodup distinct (List.nodup_singleton item)).mpr fun other => ?_)
    rw [List.mem_singleton]
    exact ⟨each other, fun same => same ▸ member⟩

namespace Json

theorem mem_keys_iff {key : Text} {members : List (Text × Json)} :
    key ∈ keys members ↔ ∃ value, (key, value) ∈ members := by
  simp [keys]

theorem member?_eq_none_iff {key : Text} {members : List (Text × Json)} :
    member? key members = none ↔ key ∉ keys members := by
  rw [member?, List.lookup_eq_none_iff]
  simp only [keys, List.mem_map, bne_iff_ne, not_exists, not_and]
  exact forall₂_congr fun entry _ => ne_comm

end Json

/-- A key is recognised as the operator key that is written so. -/
theorem OperatorKey.ofText?_eq_some_iff {text : Text} {key : OperatorKey} :
    ofText? text = some key ↔ text = key.spelling := by
  constructor
  · intro found
    have spelled := List.find?_some (p := fun key : OperatorKey => key.spelling = text) found
    exact (of_decide_eq_true spelled).symm
  · rintro rfl
    exact ofText?_spelling key

theorem OperatorKey.ofText?_eq_none_iff {text : Text} :
    ofText? text = none ↔ ∀ key : OperatorKey, text ≠ key.spelling := by
  rw [Option.eq_none_iff_forall_ne_some]
  exact forall_congr' fun key => not_congr ofText?_eq_some_iff

theorem OperatorKey.spelling_injective {key key' : OperatorKey}
    (same : key.spelling = key'.spelling) : key = key' := by
  have recognised := ofText?_spelling key
  rw [same, ofText?_spelling] at recognised
  exact (Option.some.inj recognised).symm

theorem OperatorKey.spelling_notMem_columnKeys (key : OperatorKey) :
    key.spelling ∉ Predicate.columnKeys := by
  cases key <;> decide

namespace Predicate

variable {members : List (Text × Json)}

/-- The operators of an object are the members under operator keys. -/
theorem mem_operatorsOf_iff {key : OperatorKey} {operand : Json} :
    (key, operand) ∈ operatorsOf members ↔ (key.spelling, operand) ∈ members := by
  simp only [operatorsOf, List.mem_filterMap, Prod.exists, Option.map_eq_some_iff,
    OperatorKey.ofText?_eq_some_iff, Prod.mk.injEq]
  constructor
  · rintro ⟨_, _, member, _, rfl, rfl, rfl⟩
    exact member
  · intro member
    exact ⟨_, _, member, _, rfl, rfl, rfl⟩

/-- The operator keys of an object stand in the order in which they are written. -/
theorem operatorsOf_spellings :
    (operatorsOf members).map (·.1.spelling) =
      (Json.keys members).filter fun name => (OperatorKey.ofText? name).isSome := by
  induction members with
  | nil => rfl
  | cons entry rest ih =>
      obtain ⟨name, value⟩ := entry
      simp only [operatorsOf, Json.keys, List.filterMap_cons, List.map_cons,
        List.filter_cons] at ih ⊢
      cases recognised : OperatorKey.ofText? name with
      | none => simpa using ih
      | some key =>
          obtain rfl := OperatorKey.ofText?_eq_some_iff.mp recognised
          simpa using ih

theorem operatorsOf_eq_nil_iff :
    operatorsOf members = [] ↔ ∀ key : OperatorKey, key.spelling ∉ Json.keys members := by
  rw [List.eq_nil_iff_forall_not_mem]
  simp only [Prod.forall, mem_operatorsOf_iff, Json.mem_keys_iff, not_exists]

/-- The operators are a single one when its key is the only operator key. -/
theorem operatorsOf_eq_singleton_iff (distinct : (Json.keys members).Nodup) {key : OperatorKey}
    {operand : Json} :
    operatorsOf members = [(key, operand)] ↔ (key.spelling, operand) ∈ members ∧
      ∀ other : OperatorKey, other.spelling ∈ Json.keys members → other = key := by
  have spellings : ((operatorsOf members).map (·.1.spelling)).Nodup := by
    rw [operatorsOf_spellings]
    exact distinct.filter _
  rw [eq_singleton_iff_of_nodup (.of_map _ spellings), mem_operatorsOf_iff]
  refine and_congr_right fun member => ⟨fun each other isKey => ?_, fun only entry isOperator => ?_⟩
  · obtain ⟨value, isMember⟩ := Json.mem_keys_iff.mp isKey
    exact congrArg Prod.fst (each (other, value) (mem_operatorsOf_iff.mpr isMember))
  · obtain ⟨other, value⟩ := entry
    have isMember := mem_operatorsOf_iff.mp isOperator
    obtain rfl := only other (Json.mem_keys_iff.mpr ⟨value, isMember⟩)
    have found := (lookup_eq_some_iff_mem distinct).mpr isMember
    rw [(lookup_eq_some_iff_mem distinct).mpr member] at found
    rw [Option.some.inj found]

/-- What is left are the members under keys that are neither operator keys nor column keys. -/
theorem mem_othersOf_iff {name : Text} {value : Json} :
    (name, value) ∈ othersOf members ↔
      (name, value) ∈ members ∧ name ∉ columnKeys ∧ ∀ key : OperatorKey, name ≠ key.spelling := by
  rw [othersOf, List.mem_filter, Bool.and_eq_true, Option.isNone_iff_eq_none,
    OperatorKey.ofText?_eq_none_iff, Bool.not_eq_true', ← Bool.not_eq_true,
    List.contains_iff_mem]
  exact and_congr_right fun _ => and_comm

theorem othersOf_eq_nil_iff :
    othersOf members = [] ↔ ∀ name ∈ Json.keys members,
      name ∈ columnKeys ∨ ∃ key : OperatorKey, name = key.spelling := by
  rw [List.eq_nil_iff_forall_not_mem]
  simp only [Prod.forall, mem_othersOf_iff, Json.mem_keys_iff]
  constructor
  · rintro none name ⟨value, member⟩
    by_contra neither
    rw [not_or, not_exists] at neither
    exact none name value ⟨member, neither⟩
  · rintro known name value ⟨member, notColumnKey, notOperator⟩
    rcases known name ⟨value, member⟩ with isColumnKey | ⟨key, isOperator⟩
    · exact notColumnKey isColumnKey
    · exact notOperator key isOperator

/-- When one column key is there alone, its value decides which column is named. -/
theorem columnOf?_of_only {key : Text} (isKey : key ∈ columnKeys) {named : Json}
    (found : Json.member? key members = some named)
    (only : ∀ other ∈ columnKeys, other ≠ key → Json.member? other members = none) :
    columnOf? members =
      named.string?.elim (.error (.conditionShape .columnNotString)) fun written =>
        if (Text.trimmed written).isEmpty then .error (.missingField .comparedColumn)
        else .ok (some (Text.trimmed written)) := by
  rcases List.mem_pair.mp isKey with rfl | rfl
  · rw [columnOf?, found, only "column" (by decide) (by decide)]
    cases named <;> rfl
  · rw [columnOf?, found, only "field" (by decide) (by decide)]
    cases named <;> rfl

/-- A column is named exactly when one column key is there, alone and with a string that is not
blank. -/
theorem columnOf?_eq_some_iff (distinct : (Json.keys members).Nodup) {column : Text} :
    columnOf? members = .ok (some column) ↔ NamesColumn members column := by
  constructor
  · intro ok
    have alone : ∃ key ∈ columnKeys, ∃ named, Json.member? key members = some named ∧
        ∀ other ∈ columnKeys, other ≠ key → Json.member? other members = none := by
      unfold columnOf? at ok
      split at ok
      · cases ok
      · cases ok
      · rename_i named field noColumn
        refine ⟨"field", by decide, named, field, fun other otherKey different => ?_⟩
        rcases List.mem_pair.mp otherKey with rfl | rfl
        · exact absurd rfl different
        · exact noColumn
      · rename_i named noField column
        refine ⟨"column", by decide, named, column, fun other otherKey different => ?_⟩
        rcases List.mem_pair.mp otherKey with rfl | rfl
        · exact noField
        · exact absurd rfl different
    obtain ⟨key, isKey, named, found, only⟩ := alone
    rw [columnOf?_of_only isKey found only] at ok
    cases named with
    | string written =>
        simp only [Json.string?, Option.elim_some] at ok
        split_ifs at ok with blank
        cases ok
        refine ⟨key, isKey, written, (lookup_eq_some_iff_mem distinct).mp found,
          fun other otherKey present => ?_, rfl, fun empty => blank (List.isEmpty_iff.mpr empty)⟩
        by_contra different
        exact Json.member?_eq_none_iff.mp (only other otherKey different) present
    | _ => cases ok
  · rintro ⟨key, isKey, written, member, only, rfl, notBlank⟩
    have found := (lookup_eq_some_iff_mem distinct).mpr member
    have absent : ∀ other ∈ columnKeys, other ≠ key → Json.member? other members = none :=
      fun other otherKey different => Json.member?_eq_none_iff.mpr fun present =>
        different (only other otherKey present)
    rw [columnOf?_of_only isKey found absent]
    exact if_neg fun blank => notBlank (List.isEmpty_iff.mp blank)

theorem columnOf?_eq_none_iff : columnOf? members = .ok none ↔ NamesNoColumn members := by
  simp only [NamesNoColumn, ← Json.member?_eq_none_iff]
  constructor
  · intro ok key isKey
    unfold columnOf? at ok
    split at ok
    · cases ok
    · rename_i noField noColumn
      rcases List.mem_pair.mp isKey with rfl | rfl
      · exact noField
      · exact noColumn
    all_goals
      split at ok
      · cases ok
      · split_ifs at ok
        cases ok
  · intro none
    rw [columnOf?, none "field" (by decide), none "column" (by decide)]

theorem namesNoColumn_singleton {name : Text} {value : Json} (notColumnKey : name ∉ columnKeys) :
    NamesNoColumn [(name, value)] := by
  intro key isColumnKey isKey
  obtain rfl := List.mem_singleton.mp isKey
  exact notColumnKey isColumnKey

/-- An object is read in one of three ways. -/
theorem ofMembers_eq_ok_iff {predicate : Predicate} :
    ofMembers members = .ok predicate ↔
      (∃ column key operand operator, columnOf? members = .ok (some column) ∧
        operatorsOf members = [(key, operand)] ∧ othersOf members = [] ∧
          Operator.ofJson key operand = .ok operator ∧ predicate = .compare column operator) ∨
      (∃ key operand, columnOf? members = .ok none ∧ operatorsOf members = [(key, operand)] ∧
        othersOf members = [] ∧ checkOfJson key operand = .ok predicate) ∨
      ∃ column json value, columnOf? members = .ok none ∧ operatorsOf members = [] ∧
        othersOf members = [(column, json)] ∧ Value.ofJson json = .ok value ∧
          predicate = .compare column (.is value) := by
  unfold ofMembers
  constructor
  · intro ok
    obtain ⟨named, columnRead, ok⟩ := bind_eq_ok.mp ok
    split at ok
    · cases ok
    · cases ok
    · rename_i column key operand operators others
      obtain ⟨operator, operandRead, same⟩ := bind_eq_ok.mp ok
      cases same
      exact .inl ⟨column, key, operand, operator, columnRead, operators, others, operandRead, rfl⟩
    · cases ok
    · rename_i key operand operators others
      exact .inr (.inl ⟨key, operand, columnRead, operators, others, ok⟩)
    · rename_i column json operators others
      obtain ⟨value, valueRead, same⟩ := bind_eq_ok.mp ok
      cases same
      exact .inr (.inr ⟨column, json, value, columnRead, operators, others, valueRead, rfl⟩)
    · cases ok
    · cases ok
  · rintro (⟨column, key, operand, operator, columnRead, operators, others, operandRead, rfl⟩ |
      ⟨key, operand, columnRead, operators, others, ok⟩ |
      ⟨column, json, value, columnRead, operators, others, valueRead, rfl⟩)
    · refine bind_eq_ok.mpr ⟨some column, columnRead, ?_⟩
      rw [operators, others]
      exact bind_eq_ok.mpr ⟨operator, operandRead, rfl⟩
    · refine bind_eq_ok.mpr ⟨none, columnRead, ?_⟩
      rw [operators, others]
      exact ok
    · refine bind_eq_ok.mpr ⟨none, columnRead, ?_⟩
      rw [operators, others]
      exact bind_eq_ok.mpr ⟨value, valueRead, rfl⟩

theorem checkOfJson_eq_ok_iff {key : OperatorKey} {operand : Json} {predicate : Predicate} :
    checkOfJson key operand = .ok predicate ↔
      ∃ written operator whenFalse, operand = .string written ∧
        key.form = .flag operator whenFalse ∧ Text.trimmed written ≠ [] ∧
          predicate = .compare (Text.trimmed written) operator := by
  constructor
  · intro ok
    unfold checkOfJson at ok
    split at ok
    · rename_i written operator isString isCheck
      split_ifs at ok with blank
      cases ok
      obtain ⟨whenFalse, isFlag⟩ := Operator.check?_eq_some_iff.mp isCheck
      cases operand with
      | string text =>
          cases isString
          exact ⟨written, operator, whenFalse, rfl, isFlag,
            fun empty => blank (List.isEmpty_iff.mpr empty), rfl⟩
      | _ => cases isString
    · cases ok
  · rintro ⟨written, operator, whenFalse, rfl, isFlag, notBlank, rfl⟩
    have isCheck := Operator.check?_eq_some_iff.mpr ⟨whenFalse, isFlag⟩
    simp only [checkOfJson, Json.string?, isCheck]
    exact if_neg fun blank => notBlank (List.isEmpty_iff.mp blank)

/-- An object of one operator that names no column and has nothing else is that one member. -/
theorem eq_singleton_of_operator (distinct : (Json.keys members).Nodup)
    (noColumn : NamesNoColumn members) {key : OperatorKey} {operand : Json}
    (operators : operatorsOf members = [(key, operand)]) (others : othersOf members = []) :
    members = [(key.spelling, operand)] := by
  obtain ⟨member, _⟩ := (operatorsOf_eq_singleton_iff distinct).mp operators
  refine (eq_singleton_iff_of_nodup (.of_map _ distinct)).mpr ⟨member, fun entry isMember => ?_⟩
  obtain ⟨name, value⟩ := entry
  have isKey : name ∈ Json.keys members := Json.mem_keys_iff.mpr ⟨value, isMember⟩
  rcases othersOf_eq_nil_iff.mp others name isKey with isColumnKey | ⟨other, rfl⟩
  · exact absurd isKey (noColumn name isColumnKey)
  · have isOperator := mem_operatorsOf_iff.mpr isMember
    rw [operators, List.mem_singleton] at isOperator
    cases isOperator
    rfl

/-- An object of one other key that names no column and has no operator is that one member. -/
theorem eq_singleton_of_other (distinct : (Json.keys members).Nodup)
    (noColumn : NamesNoColumn members) {column : Text} {value : Json}
    (operators : operatorsOf members = []) (others : othersOf members = [(column, value)]) :
    members = [(column, value)] := by
  have left : ∀ entry ∈ members, entry ∈ othersOf members := by
    rintro ⟨name, value⟩ isMember
    have isKey : name ∈ Json.keys members := Json.mem_keys_iff.mpr ⟨value, isMember⟩
    refine mem_othersOf_iff.mpr ⟨isMember, fun isColumnKey => noColumn name isColumnKey isKey, ?_⟩
    rintro key rfl
    exact operatorsOf_eq_nil_iff.mp operators key isKey
  have member : (column, value) ∈ othersOf members := others ▸ List.mem_singleton_self _
  refine (eq_singleton_iff_of_nodup (.of_map _ distinct)).mpr
    ⟨(mem_othersOf_iff.mp member).1, fun entry isMember => ?_⟩
  exact List.mem_singleton.mp (others ▸ left entry isMember)

/-! ## Objects that are read -/

/-- An object is read as the predicate of the form that it has. -/
theorem ofMembers_eq_ok_iff_hasForm (distinct : (Json.keys members).Nodup)
    {predicate : Predicate} :
    ofMembers members = .ok predicate ↔ ∃ form, HasForm members form predicate := by
  rw [ofMembers_eq_ok_iff]
  constructor
  · rintro (⟨column, key, operand, operator, named, operators, others, operandRead, rfl⟩ |
      ⟨key, operand, noColumn, operators, others, ok⟩ |
      ⟨column, json, value, noColumn, operators, others, valueRead, rfl⟩)
    · obtain ⟨compared, only⟩ := (operatorsOf_eq_singleton_iff distinct).mp operators
      exact ⟨.comparison, .comparison ((columnOf?_eq_some_iff distinct).mp named) compared only
        (othersOf_eq_nil_iff.mp others) (Operator.ofJson_eq_ok_iff.mp operandRead)⟩
    · obtain ⟨written, operator, whenFalse, rfl, isFlag, notBlank, rfl⟩ :=
        checkOfJson_eq_ok_iff.mp ok
      obtain rfl :=
        eq_singleton_of_operator distinct (columnOf?_eq_none_iff.mp noColumn) operators others
      exact ⟨.check, .check isFlag rfl notBlank⟩
    · have left : (column, json) ∈ othersOf members := others ▸ List.mem_singleton_self _
      obtain ⟨_, notColumnKey, notOperator⟩ := mem_othersOf_iff.mp left
      obtain rfl :=
        eq_singleton_of_other distinct (columnOf?_eq_none_iff.mp noColumn) operators others
      exact ⟨.equation,
        .equation notColumnKey notOperator (Value.ofJson_eq_ok_iff.mp valueRead)⟩
  · rintro ⟨form, hasForm⟩
    cases hasForm with
    | @comparison _ column key operand operator named compared only noOther takes =>
        exact .inl ⟨column, key, operand, operator, (columnOf?_eq_some_iff distinct).mpr named,
          (operatorsOf_eq_singleton_iff distinct).mpr ⟨compared, only⟩,
          othersOf_eq_nil_iff.mpr noOther, Operator.ofJson_eq_ok_iff.mpr takes, rfl⟩
    | @check key written _ operator whenFalse isFlag trimmed notBlank =>
        subst trimmed
        refine .inr (.inl ⟨key, .string written,
          columnOf?_eq_none_iff.mpr (namesNoColumn_singleton key.spelling_notMem_columnKeys),
          (operatorsOf_eq_singleton_iff distinct).mpr ⟨List.mem_singleton_self _, ?_⟩,
          othersOf_eq_nil_iff.mpr ?_,
          checkOfJson_eq_ok_iff.mpr ⟨written, operator, whenFalse, rfl, isFlag, notBlank, rfl⟩⟩)
        · intro other isKey
          exact OperatorKey.spelling_injective (List.mem_singleton.mp isKey)
        · intro name isKey
          exact .inr ⟨key, List.mem_singleton.mp isKey⟩
    | @equation column json value notColumnKey notOperator denoted =>
        refine .inr (.inr ⟨column, json, value,
          columnOf?_eq_none_iff.mpr (namesNoColumn_singleton notColumnKey),
          operatorsOf_eq_nil_iff.mpr ?_, ?_, Value.ofJson_eq_ok_iff.mpr denoted, rfl⟩)
        · intro key isKey
          exact notOperator key (List.mem_singleton.mp isKey).symm
        · have left := mem_othersOf_iff.mpr
            ⟨List.mem_singleton_self (column, json), notColumnKey, notOperator⟩
          refine (eq_singleton_iff_of_nodup ((List.Nodup.of_map _ distinct).filter _)).mpr
            ⟨left, fun entry isLeft => ?_⟩
          exact List.mem_singleton.mp (List.mem_of_mem_filter isLeft)

/-- What the keys of an object show of its form. -/
def Form.IsShown (members : List (Text × Json)) : Form → Prop
  | .comparison => ∃ column, NamesColumn members column
  | .check => NamesNoColumn members ∧ ∃ key : OperatorKey, key.spelling ∈ Json.keys members
  | .equation => NamesNoColumn members ∧ ∀ key : OperatorKey, key.spelling ∉ Json.keys members

theorem HasForm.isShown {form : Form} {predicate : Predicate}
    (hasForm : HasForm members form predicate) : form.IsShown members := by
  cases hasForm with
  | comparison named => exact ⟨_, named⟩
  | check =>
      exact ⟨namesNoColumn_singleton (OperatorKey.spelling_notMem_columnKeys _),
        _, List.mem_singleton_self _⟩
  | equation notColumnKey notOperator =>
      exact ⟨namesNoColumn_singleton notColumnKey,
        fun key isKey => notOperator key (List.mem_singleton.mp isKey).symm⟩

/-- An object has one form only. -/
theorem HasForm.form_unique {form form' : Form} {predicate predicate' : Predicate}
    (hasForm : HasForm members form predicate) (hasForm' : HasForm members form' predicate') :
    form = form' := by
  have notBoth : (∃ column, NamesColumn members column) → ¬ NamesNoColumn members := by
    rintro ⟨column, key, isKey, written, member, _⟩ noColumn
    exact noColumn key isKey (Json.mem_keys_iff.mpr ⟨_, member⟩)
  have shown := hasForm.isShown
  have shown' := hasForm'.isShown
  cases form with
  | comparison =>
      cases form' with
      | comparison => rfl
      | check | equation => exact absurd shown'.1 (notBoth shown)
  | check =>
      cases form' with
      | comparison => exact absurd shown.1 (notBoth shown')
      | check => rfl
      | equation =>
          obtain ⟨key, isKey⟩ := shown.2
          exact absurd isKey (shown'.2 key)
  | equation =>
      cases form' with
      | comparison => exact absurd shown.1 (notBoth shown')
      | check =>
          obtain ⟨key, isKey⟩ := shown'.2
          exact absurd isKey (shown.2 key)
      | equation => rfl

/-- Two operator keys are refused, by an error that names all operator keys of the object unless
its column is named wrongly. -/
theorem ofMembers_of_twoOperators {key key' : OperatorKey} (different : key ≠ key')
    (isKey : key.spelling ∈ Json.keys members) (isKey' : key'.spelling ∈ Json.keys members) :
    ∃ fault, ofMembers members = .error fault ∧
      ∀ named, columnOf? members = .ok named → fault = .ambiguousKeys (.operators
        ((Json.keys members).filter fun name => (OperatorKey.ofText? name).isSome)) := by
  obtain ⟨operand, isMember⟩ := Json.mem_keys_iff.mp isKey
  obtain ⟨operand', isMember'⟩ := Json.mem_keys_iff.mp isKey'
  have isOperator := mem_operatorsOf_iff.mpr isMember
  have isOperator' := mem_operatorsOf_iff.mpr isMember'
  have spellings := @operatorsOf_spellings members
  unfold ofMembers
  cases columnRead : columnOf? members with
  | error fault => exact ⟨fault, rfl, nofun⟩
  | ok named =>
      refine ⟨_, ?_, fun _ _ => rfl⟩
      rw [← spellings]
      match operators : operatorsOf members, isOperator, isOperator' with
      | [_], isOperator, isOperator' =>
          rw [List.mem_singleton] at isOperator isOperator'
          cases isOperator.trans isOperator'.symm
          exact absurd rfl different
      | first :: second :: more, _, _ => cases named <;> rfl

end Predicate

namespace Condition

open Predicate (Form HasForm NamesColumn NamesNoColumn)

/-- The conditions of an object are the one predicate for which it stands. -/
theorem listOfJson_object_eq_ok_iff {members : List (Text × Json)}
    (distinct : (Json.keys members).Nodup) {conditions : List Condition} :
    listOfJson (.object members) = .ok conditions ↔
      ∃ form predicate, HasForm members form predicate ∧ conditions = [.single predicate] := by
  rw [listOfJson, bind_eq_ok]
  simp only [Predicate.ofMembers_eq_ok_iff_hasForm distinct]
  constructor
  · rintro ⟨predicate, ⟨form, hasForm⟩, same⟩
    cases same
    exact ⟨form, predicate, hasForm, rfl⟩
  · rintro ⟨form, predicate, hasForm, rfl⟩
    exact ⟨predicate, ⟨form, hasForm⟩, rfl⟩

/-- An object with distinct keys is read exactly when it has one of the three forms and no other,
and then as the predicate of the form.  An object with two operator keys is never read; unless its
column is named wrongly, the error names all its operator keys in the order in which they are
written. -/
theorem listOfJson_object_iff {members : List (Text × Json)}
    (distinct : (Json.keys members).Nodup) :
    ((∃ conditions, listOfJson (.object members) = .ok conditions) ↔
      ∃! form, ∃ predicate, HasForm members form predicate) ∧
    (∀ conditions, listOfJson (.object members) = .ok conditions ↔
      ∃ form predicate, HasForm members form predicate ∧ conditions = [.single predicate]) ∧
    ∀ key key' : OperatorKey, key ≠ key' → key.spelling ∈ Json.keys members →
      key'.spelling ∈ Json.keys members →
        ∃ fault, listOfJson (.object members) = .error fault ∧
          (NamesNoColumn members ∨ (∃ column, NamesColumn members column) →
            fault = .ambiguousKeys (.operators
              ((Json.keys members).filter fun name => (OperatorKey.ofText? name).isSome))) := by
  refine ⟨?_, fun conditions => listOfJson_object_eq_ok_iff distinct, ?_⟩
  · simp only [listOfJson_object_eq_ok_iff distinct]
    constructor
    · rintro ⟨_, form, predicate, hasForm, rfl⟩
      exact ⟨form, ⟨predicate, hasForm⟩,
        fun other ⟨_, hasOther⟩ => hasOther.form_unique hasForm⟩
    · rintro ⟨form, ⟨predicate, hasForm⟩, _⟩
      exact ⟨_, form, predicate, hasForm, rfl⟩
  · intro key key' different isKey isKey'
    obtain ⟨fault, failed, named⟩ := Predicate.ofMembers_of_twoOperators different isKey isKey'
    refine ⟨fault, bind_eq_error.mpr (.inl failed), ?_⟩
    rintro (noColumn | ⟨column, namesColumn⟩)
    · exact named none (Predicate.columnOf?_eq_none_iff.mpr noColumn)
    · exact named (some column) ((Predicate.columnOf?_eq_some_iff distinct).mpr namesColumn)

/-- A comparison with a list that holds a call, a check, and a comparison with two operators. -/
theorem listOfJson_object_iff_guests :
    ((Json.keys [("not_in", .array [.null, .object [("md5", .string "x")]]),
        ("column", .string " id ")]).Nodup ∧
      listOfJson (.object [("not_in", .array [.null, .object [("md5", .string "x")]]),
          ("column", .string " id ")]) =
        .ok [.single (.compare "id" (.notInList [.null, .call "md5" (.text "x")]))]) ∧
    ((Json.keys [("is_empty", .string " email ")]).Nodup ∧
      ∃! form, ∃ predicate, HasForm [("is_empty", .string " email ")] form predicate) ∧
    (Json.keys [("like", .string "x"), ("field", .string "name"), ("is", .null)]).Nodup ∧
    listOfJson (.object [("like", .string "x"), ("field", .string "name"), ("is", .null)]) =
      .error (.ambiguousKeys (.operators ["like", "is"])) := by
  refine ⟨⟨by decide, ?_⟩, ⟨by decide, ?_⟩, by decide, ?_⟩
  · have each : List.Forall₂ Value.DenotedBy [.null, .object [("md5", .string "x")]]
        [.null, .call "md5" (.text "x")] :=
      .cons .null (.cons (.call "md5" (.string "x")) .nil)
    have comparison : HasForm [("not_in", .array [.null, .object [("md5", .string "x")]]),
        ("column", .string " id ")] .comparison
          (.compare "id" (.notInList [.null, .call "md5" (.text "x")])) :=
      @HasForm.comparison _ _ .notIn _ _
        ⟨"column", by decide, " id ", by simp, by decide, by decide, by decide⟩
        List.mem_cons_self (fun other => by cases other <;> decide)
        (List.forall_mem_cons.mpr ⟨.inr ⟨.notIn, rfl⟩,
          List.forall_mem_singleton.mpr (.inl (by decide))⟩)
        (.items each)
    exact ((listOfJson_object_iff (by decide)).2.1 _).mpr ⟨_, _, comparison, rfl⟩
  · have read : listOfJson (.object [("is_empty", .string " email ")]) =
        .ok [.single (.compare "email" .isEmpty)] := rfl
    exact (listOfJson_object_iff (by decide)).1.mp ⟨_, read⟩
  · have distinct : (Json.keys [("like", .string "x"), ("field", .string "name"),
        ("is", .null)]).Nodup := by decide
    obtain ⟨fault, failed, named⟩ := (listOfJson_object_iff distinct).2.2 .like .is
      (by decide) (by decide) (by decide)
    rw [failed, named]
    · rfl
    · exact .inr ⟨"name", "field", by decide, "name", by simp, by decide, by decide, by decide⟩

end Condition

end SqlComposer
