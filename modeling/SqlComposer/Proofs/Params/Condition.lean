import SqlComposer.Params.Condition
import SqlComposer.Proofs.Condition.Rendering

/-!
# Writing values and conditions as JSON

Values, operators and conditions have a canonical form in JSON (`toJson`): a call is
an object with the function as its only key, a comparison an object of its column
and its operator, and a group of alternatives an array.  Reading the canonical form
gives back what was written (`Value.ofJson_toJson`, `Condition.ofJson_toJson`).

This holds of what JSON can represent (`isRepresentable`).  A point in time, a
number that is not finite and a small unsigned number are read back as something
else, and a compared column is read without the blanks around it.  What is written
is a JSON value as a reader of JSON delivers it (`Json.IsDelivered`).
-/

namespace SqlComposer

set_option autoImplicit false

/-! ## JSON values that a reader delivers -/

/-- Whether a number is in the form in which it is read: signed if a signed word holds it. -/
def Json.Number.isDelivered : Json.Number → Bool
  | .int _ => true
  | .uint value => Int64.maxValue.toInt < value.toNat
  | .float value => value.isFinite

/-- The number of an unsigned word. -/
def Json.Number.ofWord (value : UInt64) : Json.Number :=
  if Int64.maxValue.toInt < value.toNat then .uint value else .int value.toInt64

theorem Json.Number.ofWord_isDelivered (value : UInt64) : (ofWord value).isDelivered := by
  unfold ofWord
  split_ifs with large
  · simpa [isDelivered] using large
  · rfl

/-- A JSON value whose numbers are in the form in which they are read, and whose objects have
distinct keys. -/
inductive Json.IsDelivered : Json → Prop
  | null : IsDelivered .null
  | bool (value : Bool) : IsDelivered (.bool value)
  | number {value : Json.Number} (isDelivered : value.isDelivered) : IsDelivered (.number value)
  | string (value : Text) : IsDelivered (.string value)
  | array {items : List Json} (each : ∀ item ∈ items, IsDelivered item) :
      IsDelivered (.array items)
  | object {members : List (Text × Json)} (distinct : (keys members).Nodup)
      (each : ∀ entry ∈ members, IsDelivered entry.2) : IsDelivered (.object members)

/-- A written list is delivered when each of its items is. -/
theorem Json.IsDelivered.arrayOf {α : Type} {write : α → Json} {items : List α}
    (each : ∀ item ∈ items, IsDelivered (write item)) : IsDelivered (.array (items.map write)) := by
  refine .array fun written member => ?_
  obtain ⟨item, inItems, rfl⟩ := List.mem_map.mp member
  exact each item inItems

/-- Strings are delivered as they are. -/
theorem Json.IsDelivered.strings (texts : List Text) :
    IsDelivered (.array (texts.map Json.string)) :=
  .arrayOf fun text _ => .string text

/-- An object with one member is delivered when its member is. -/
theorem Json.IsDelivered.single {key : Text} {value : Json} (delivered : IsDelivered value) :
    IsDelivered (.object [(key, value)]) := by
  refine .object (List.pairwise_singleton _ _) fun entry member => ?_
  rw [List.mem_singleton.mp member]
  exact delivered

/-- An object with two members is delivered when its members are and their keys differ. -/
theorem Json.IsDelivered.pair {key key' : Text} {value value' : Json} (different : key ≠ key')
    (delivered : IsDelivered value) (delivered' : IsDelivered value') :
    IsDelivered (.object [(key, value), (key', value')]) := by
  have distinct : [key, key'].Nodup := List.nodup_cons.mpr
    ⟨fun member => different (List.mem_singleton.mp member), List.pairwise_singleton _ _⟩
  refine .object distinct fun entry member => ?_
  rcases List.mem_cons.mp member with rfl | later
  · exact delivered
  · rw [List.mem_singleton.mp later]
    exact delivered'

/-! ## Values -/

namespace Value

/-- Whether JSON has a value of its own for a value. -/
def isRepresentable : Value → Bool
  | .null | .bool _ | .int _ | .text _ => true
  | .uint value => Int64.maxValue.toInt < value.toNat
  | .float value => value.isFinite
  | .dateTime _ => false
  | .call _ argument => argument.isRepresentable

/-- A value in JSON. -/
def toJson : Value → Json
  | .null => .null
  | .bool value => .bool value
  | .int value => .number (.int value)
  | .uint value => .number (.ofWord value)
  | .float value => .number (.float value)
  | .text value => .string value
  | .dateTime value => .string value.text
  | .call function argument => .object [(function, argument.toJson)]

/-- A representable value is read back from its JSON. -/
theorem ofJson_toJson {value : Value} (representable : value.isRepresentable) :
    ofJson value.toJson = .ok value := by
  induction value with
  | null => rfl
  | bool value => rfl
  | int value => rfl
  | text value => rfl
  | float value => rfl
  | dateTime value => cases representable
  | uint value =>
      have large : Int64.maxValue.toInt < value.toNat := of_decide_eq_true representable
      rw [toJson, Json.Number.ofWord, if_pos large]
      rfl
  | call function argument ih =>
      rw [toJson, ofJson, ih representable]
      rfl

theorem toJson_isDelivered {value : Value} (representable : value.isRepresentable) :
    value.toJson.IsDelivered := by
  induction value with
  | null => exact .null
  | bool value => exact .bool value
  | int value => exact .number rfl
  | text value => exact .string value
  | float value => exact .number representable
  | dateTime value => cases representable
  | uint value => exact .number (Json.Number.ofWord_isDelivered value)
  | call function argument ih => exact .single (ih representable)

end Value

/-! ## Operators -/

namespace Operator

/-- The operand of an operator in JSON; a check without an operand is written as true. -/
def operandJson : Operator → Json
  | .is value | .isNot value | .findInSet value => value.toJson
  | .like pattern | .notLike pattern | .startWith pattern | .endWith pattern => .string pattern
  | .inList values | .notInList values => .array (values.map Value.toJson)
  | .between low high | .notBetween low high => .array [low.toJson, high.toJson]
  | .isNull | .notNull | .isEmpty | .notEmpty => .bool true

/-- Whether JSON has a value of its own for the operand. -/
def isRepresentable (operator : Operator) : Bool :=
  operator.values.all Value.isRepresentable

/-- A list of representable values is read back from its JSON. -/
theorem listOfJson_toJson (key : OperatorKey) (values : List Value)
    (representable : values.all Value.isRepresentable) :
    listOfJson key (.array (values.map Value.toJson)) = .ok values :=
  mapM_map_eq_ok fun value member =>
    Value.ofJson_toJson (List.all_eq_true.mp representable value member)

/-- Representable bounds are read back from their JSON. -/
theorem boundsOfJson_toJson (key : OperatorKey) {low high : Value}
    (representable : [low, high].all Value.isRepresentable) :
    boundsOfJson key (.array [low.toJson, high.toJson]) = .ok (low, high) := by
  have lowRead := Value.ofJson_toJson (List.all_eq_true.mp representable low (by simp))
  have highRead := Value.ofJson_toJson (List.all_eq_true.mp representable high (by simp))
  rw [boundsOfJson, lowRead, highRead]
  rfl

/-- An operator is read back from its key and its operand. -/
theorem ofJson_operandJson {operator : Operator} (representable : operator.isRepresentable) :
    ofJson operator.key operator.operandJson = .ok operator := by
  have value : ∀ value ∈ operator.values, Value.ofJson value.toJson = .ok value :=
    fun value member => Value.ofJson_toJson (List.all_eq_true.mp representable value member)
  cases operator with
  | is operand | isNot operand | findInSet operand =>
      simp only [key, operandJson, ofJson, value operand (by simp [values])]
      rfl
  | inList operands | notInList operands =>
      simp only [key, operandJson, ofJson, listOfJson_toJson _ operands representable]
      rfl
  | between low high | notBetween low high =>
      simp only [key, operandJson, ofJson, boundsOfJson_toJson _ representable]
      rfl
  | _ => rfl

theorem operandJson_isDelivered {operator : Operator} (representable : operator.isRepresentable) :
    operator.operandJson.IsDelivered := by
  have value : ∀ value ∈ operator.values, value.toJson.IsDelivered :=
    fun value member => Value.toJson_isDelivered (List.all_eq_true.mp representable value member)
  cases operator with
  | is operand | isNot operand | findInSet operand => exact value operand List.mem_cons_self
  | like pattern | notLike pattern | startWith pattern | endWith pattern => exact .string pattern
  | inList operands | notInList operands => exact .arrayOf value
  | between low high | notBetween low high => exact .arrayOf value
  | isNull | notNull | isEmpty | notEmpty => exact .bool true

end Operator

/-! ## Predicates -/

/-- Whether a name is read as it is written: it is not blank and has no blanks around it. -/
def Text.isTrimmedName (name : Text) : Bool :=
  !name.isEmpty && trimmed name == name

/-- The key of an operator is recognised as that operator. -/
theorem OperatorKey.ofText?_spelling (key : OperatorKey) : ofText? key.spelling = some key := by
  cases key <;> rfl

namespace Predicate

/-- Whether JSON has a value of its own for a predicate. -/
def isRepresentable : Predicate → Bool
  | .raw _ => true
  | .compare column operator => column.isTrimmedName && operator.isRepresentable

/-- A predicate in JSON. -/
def toJson : Predicate → Json
  | .raw sql => .string sql
  | .compare column operator =>
      .object [("field", .string column), (operator.key.spelling, operator.operandJson)]

/-- A column and an operator are told apart in an object of both. -/
theorem ofMembers_field {column : Text} (isName : column.isTrimmedName) (key : OperatorKey)
    (operand : Json) :
    ofMembers [("field", .string column), (key.spelling, operand)] =
      (Operator.ofJson key operand).map (.compare column) := by
  obtain ⟨notEmpty, sameTrimmed⟩ := Bool.and_eq_true_iff.mp isName
  have named : columnOf? [("field", .string column), (key.spelling, operand)] =
      .ok (some column) := by
    have noColumn : Json.member? "column" [("field", .string column), (key.spelling, operand)] =
        none := by cases key <;> rfl
    have field : Json.member? "field" [("field", .string column), (key.spelling, operand)] =
        some (.string column) := rfl
    rw [columnOf?, noColumn, field]
    simp only [Json.string?, eq_of_beq sameTrimmed]
    rw [if_neg (by simpa using notEmpty)]
  have notOperator : OperatorKey.ofText? "field" = none := rfl
  have columnKey : columnKeys.contains "field" = true := rfl
  have operators : operatorsOf [("field", .string column), (key.spelling, operand)] =
      [(key, operand)] := by
    simp only [operatorsOf, List.filterMap_cons, List.filterMap_nil, notOperator,
      OperatorKey.ofText?_spelling, Option.map_none, Option.map_some]
  have others : othersOf [("field", .string column), (key.spelling, operand)] = [] := by
    simp only [othersOf, List.filter_cons, List.filter_nil, columnKey,
      OperatorKey.ofText?_spelling, Bool.not_true, Bool.and_false, Option.isNone_some,
      Bool.false_and, Bool.false_eq_true, if_false]
  rw [ofMembers, named, operators, others]
  -- Of all the forms of an object only this one is left: a column with its one operator.
  change (Operator.ofJson key operand >>= fun operator => pure (compare column operator)) = _
  cases Operator.ofJson key operand <;> rfl

/-- A comparison is read back from its object. -/
theorem ofMembers_compare {column : Text} {operator : Operator}
    (representable : (compare column operator).isRepresentable) :
    ofMembers [("field", .string column), (operator.key.spelling, operator.operandJson)] =
      .ok (.compare column operator) := by
  obtain ⟨isName, operand⟩ := Bool.and_eq_true_iff.mp representable
  rw [ofMembers_field isName, Operator.ofJson_operandJson operand]
  rfl

/-- A representable predicate is read back from its JSON. -/
theorem ofJson_toJson {predicate : Predicate} (representable : predicate.isRepresentable) :
    ofJson predicate.toJson = .ok predicate := by
  cases predicate with
  | raw sql => rfl
  | compare column operator => exact ofMembers_compare representable

theorem toJson_isDelivered {predicate : Predicate} (representable : predicate.isRepresentable) :
    predicate.toJson.IsDelivered := by
  cases predicate with
  | raw sql => exact .string sql
  | compare column operator =>
      obtain ⟨_, operand⟩ := Bool.and_eq_true_iff.mp representable
      have different : ("field" : Text) ≠ operator.key.spelling := by
        cases operator.key <;> decide
      exact .pair different (.string column) (Operator.operandJson_isDelivered operand)

end Predicate

/-! ## Conditions -/

namespace Condition

/-- Whether JSON has a value of its own for a condition. -/
def isRepresentable (condition : Condition) : Bool :=
  condition.predicates.all Predicate.isRepresentable

/-- A condition in JSON. -/
def toJson : Condition → Json
  | .single predicate => predicate.toJson
  | .anyOf alternatives => .array (alternatives.map Predicate.toJson)

/-- Conditions in JSON. -/
def listToJson (conditions : List Condition) : Json :=
  .array (conditions.map toJson)

/-- A representable condition is read back from its JSON. -/
theorem ofJson_toJson {condition : Condition} (representable : condition.isRepresentable) :
    ofJson condition.toJson = .ok condition := by
  have each := List.all_eq_true.mp representable
  cases condition with
  | single predicate =>
      cases predicate with
      | raw sql => rfl
      | compare column operator =>
          simp only [toJson, Predicate.toJson, ofJson,
            Predicate.ofMembers_compare (each _ List.mem_cons_self)]
          rfl
  | anyOf alternatives =>
      have members : (alternatives.map Predicate.toJson).mapM Predicate.ofJson =
          .ok alternatives :=
        mapM_map_eq_ok fun predicate member => Predicate.ofJson_toJson (each predicate member)
      simp only [toJson, ofJson, members]
      rfl

/-- Representable conditions are read back from their JSON. -/
theorem listOfJson_listToJson {conditions : List Condition}
    (representable : conditions.all isRepresentable) :
    listOfJson (listToJson conditions) = .ok conditions :=
  mapM_map_eq_ok fun condition member =>
    ofJson_toJson (List.all_eq_true.mp representable condition member)

theorem listToJson_isDelivered {conditions : List Condition}
    (representable : conditions.all isRepresentable) : (listToJson conditions).IsDelivered := by
  refine .arrayOf fun condition member => ?_
  have each := List.all_eq_true.mp (List.all_eq_true.mp representable condition member)
  cases condition with
  | single predicate => exact Predicate.toJson_isDelivered (each predicate List.mem_cons_self)
  | anyOf alternatives =>
      exact .arrayOf fun predicate inGroup => Predicate.toJson_isDelivered (each predicate inGroup)

end Condition

end SqlComposer
