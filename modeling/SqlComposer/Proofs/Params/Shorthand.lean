import SqlComposer.Proofs.Params.Parallel
import SqlComposer.Proofs.Query.Deletion

/-!
# Single values in place of lists

Many parameters take a list or, in its place, a single entry: conditions, joins, grouping
and ordering, the projection, the rows of an insertion, and the operand of a membership.
An entry means the same as the list of it alone (`Params.build_listed_unless_blank`), also
inside the entries of other lists.

Blank strings are the exception.  A blank string in place of a list of conditions, or of
columns to group or order by, stands for no entry at all, whereas in a list it is an
entry like any other (`Condition.listOfJson_array_string_eq_iff`).  For a removal the
difference is whether it is refused (`Params.build_removal_of_blank`).
-/

namespace SqlComposer

set_option autoImplicit false

/-! ## Values that become lists -/

/-- A value that is kept, or a single entry that becomes the list of it alone. -/
inductive Json.Listed (alone : Json → Prop) (kept entry : Json → Json → Prop) : Json → Json → Prop
  | kept {first second : Json} (related : kept first second) : Listed alone kept entry first second
  | listed {first second : Json} (single : alone first) (related : entry first second) :
      Listed alone kept entry first (.array [second])

/-- A value and the list it becomes are read alike when an entry is read as the list of it alone. -/
theorem Json.Listed.matched {α : Type} {read : Json → Except Error α} {alone : Json → Prop}
    {kept entry : Json → Json → Prop} {first second : Json}
    (listed : Listed alone kept entry first second)
    (single : ∀ json, alone json → read (.array [json]) = read json)
    (keeps : ∀ first second, kept first second → Matched Eq (read first) (read second))
    (entries : ∀ first second, entry first second →
      Matched Eq (read (.array [first])) (read (.array [second]))) :
    Matched Eq (read first) (read second) := by
  cases listed with
  | kept related => exact keeps _ _ related
  | listed isAlone related =>
      rw [← single first isAlone]
      exact entries _ _ related

theorem Json.Listed.null_iff {alone : Json → Prop} {kept entry : Json → Json → Prop}
    {first second : Json} (listed : Listed alone kept entry first second)
    (notNull : ¬ alone .null)
    (keeps : ∀ first second, kept first second → (first = .null ↔ second = .null)) :
    first = .null ↔ second = .null := by
  cases listed with
  | kept related => exact keeps _ _ related
  | listed isAlone _ =>
      constructor
      · rintro rfl
        exact absurd isAlone notNull
      · exact nofun

/-- A value that is kept as it is, or becomes the list of itself. -/
def Json.ListedAsIs (alone : Json → Prop) : Json → Json → Prop :=
  Listed alone Eq Eq

theorem Json.ListedAsIs.matched {α : Type} {read : Json → Except Error α} {alone : Json → Prop}
    {first second : Json} (listed : ListedAsIs alone first second)
    (single : ∀ json, alone json → read (.array [json]) = read json) :
    Matched Eq (read first) (read second) :=
  Listed.matched listed single (fun first _ same => same ▸ .refl (read first))
    fun first _ same => same ▸ .refl (read (.array [first]))

open Json

variable {first second : Json}

/-! ## Operands of membership -/

/-- The operand of a membership may be listed when it is neither null nor a list. -/
def Operator.OperandListed (name : Text) : Json → Json → Prop :=
  match OperatorKey.ofText? name with
  | some .inList | some .notIn =>
      ListedAsIs fun json => json.kind ≠ .null ∧ json.kind ≠ .array
  | _ => Eq

theorem Operator.listOfJson_array_single (key : OperatorKey) {json : Json}
    (alone : json.kind ≠ .null ∧ json.kind ≠ .array) :
    listOfJson key (.array [json]) = listOfJson key json := by
  have single : listOfJson key (.array [json]) = (do return [← Value.ofJson json]) := by
    simp [listOfJson]
  cases json with
  | null => exact absurd rfl alone.1
  | array _ => exact absurd rfl alone.2
  | _ => exact single

theorem Predicate.checkOfJson_of_noCheck {key : OperatorKey}
    (noCheck : Operator.check? key = none) (json : Json) :
    checkOfJson key json = .error (.missingField (.comparedColumnOf key.spelling)) := by
  unfold checkOfJson
  rw [noCheck]
  cases json.string? <;> rfl

/-- A key that is no operator keeps its value. -/
theorem Operator.OperandListed.eq_of_noKey {name : Text} (listed : OperandListed name first second)
    (noKey : OperatorKey.ofText? name = none) : first = second := by
  unfold OperandListed at listed
  rw [noKey] at listed
  exact listed

theorem Predicate.readsListed : Predicate.ReadsAlike Operator.OperandListed where
  column name isColumn value other listed := by
    have noKey : ∀ name ∈ columnKeys, OperatorKey.ofText? name = none := by decide
    rw [listed.eq_of_noKey (noKey name isColumn)]
  operand name key isKey value other listed := by
    unfold Operator.OperandListed at listed
    rw [isKey] at listed
    cases key with
    | inList | notIn =>
        exact (listed.matched fun json => Operator.listOfJson_array_single _).followed _
    | _ =>
        obtain rfl : value = other := listed
        exact .refl _
  check name key isKey value other listed := by
    unfold Operator.OperandListed at listed
    rw [isKey] at listed
    cases key with
    | inList | notIn =>
        rw [checkOfJson_of_noCheck rfl, checkOfJson_of_noCheck rfl]
        exact .refl _
    | _ =>
        obtain rfl : value = other := listed
        exact .refl _
  value name noKey value other listed := by
    obtain rfl := listed.eq_of_noKey noKey
    exact .refl _

/-! ## Conditions -/

/-- The same members but for listed operands. -/
def Predicate.MembersListed : List (Text × Json) → List (Text × Json) → Prop :=
  Alongside Operator.OperandListed

theorem Predicate.ofMembers_listed (members others : List (Text × Json))
    (listed : MembersListed members others) :
    Matched Eq (ofMembers members) (ofMembers others) :=
  ofMembers_matched (.of_alongside listed) readsListed

namespace Condition

/-- The same condition but for listed operands, also in its alternatives. -/
def EntryListed : Json → Json → Prop :=
  Alike (List.Forall₂ (Alike Eq Predicate.MembersListed)) Predicate.MembersListed

/-- What may stand in place of a list of conditions: an object or a string that is not blank. -/
def standsAlone (json : Json) : Prop :=
  (json.kind = .string ∨ json.kind = .object) ∧ Params.isUnset json = false

/-- The same conditions but for listed operands, with a single condition or the list of it. -/
def Listed : Json → Json → Prop :=
  Json.Listed standsAlone (Alike (List.Forall₂ EntryListed) Predicate.MembersListed) EntryListed

theorem Listed.null_iff (listed : Listed first second) : first = .null ↔ second = .null :=
  Json.Listed.null_iff listed (fun alone => nomatch alone.2) fun _ _ alike => alike.null_iff

theorem ofJson_listed (listed : EntryListed first second) :
    Matched Eq (ofJson first) (ofJson second) := by
  refine ofJson_matched listed ?_ Predicate.ofMembers_listed
  refine fun items others each => .mapM_eq each fun item other listed => ?_
  exact Predicate.ofJson_matched listed Predicate.ofMembers_listed

theorem listOfJson_array_single {json : Json} (alone : standsAlone json) :
    listOfJson (.array [json]) = listOfJson json := by
  obtain ⟨isSingle, notUnset⟩ := alone
  cases json with
  | string sql =>
      have notBlank : (Text.trimmed sql).isEmpty = false := notUnset
      simp [listOfJson, ofJson, notBlank, raw]
  | object members => simp [listOfJson, ofJson]
  | _ => simp [Json.kind] at isSingle

/-- A single condition is read as the list of it alone. -/
theorem listOfJson_listed (listed : Listed first second) :
    Matched Eq (listOfJson first) (listOfJson second) := by
  refine listed.matched (fun _ => listOfJson_array_single) ?_ ?_
  · intro first second alike
    exact listOfJson_matched alike (fun _ _ each => .mapM_eq each fun _ _ => ofJson_listed)
      Predicate.ofMembers_listed
  · exact fun _ _ listed => .mapM_eq (.cons listed .nil) fun _ _ => ofJson_listed

/-- A string means the same as the list of it alone exactly when it is not blank. -/
theorem listOfJson_array_string_eq_iff (sql : Text) :
    listOfJson (.array [.string sql]) = listOfJson (.string sql) ↔
      (Text.trimmed sql).isEmpty = false := by
  have listed : listOfJson (.array [.string sql]) = .ok [raw sql] := rfl
  have single : listOfJson (.string sql) =
      .ok (if (Text.trimmed sql).isEmpty then [] else [raw sql]) := rfl
  rw [listed, single]
  cases (Text.trimmed sql).isEmpty <;> simp

end Condition

/-! ## Joins -/

namespace Join

/-- The same members but for the conditions, which may be listed. -/
def MembersListed : List (Text × Json) → List (Text × Json) → Prop :=
  Alongside fun name => if name = "on" then Condition.Listed else Eq

/-- The same tuple but for the conditions, which may be listed. -/
inductive TupleListed : List Json → List Json → Prop
  | same (items : List Json) : TupleListed items items
  | conditions (kind table : Json) {first second : Json} (listed : Condition.Listed first second) :
      TupleListed [kind, table, first] [kind, table, second]

/-- The same join but for the conditions, which may be listed. -/
def EntryListed : Json → Json → Prop :=
  Alike TupleListed MembersListed

/-- The same joins but for listed conditions, with a single object or the list of it. -/
def Listed : Json → Json → Prop :=
  Json.Listed (fun json => json.kind = .object) (Alike (List.Forall₂ EntryListed) MembersListed)
    EntryListed

theorem readsListed : ReadsAlike fun name => if name = "on" then Condition.Listed else Eq where
  scalar name isScalar value other listed := by
    rcases isScalar with rfl | rfl
    all_goals
      obtain rfl : value = other := listed
      exact .same value
  null name isConstraint value other listed := by
    rcases isConstraint with rfl | rfl
    · exact Condition.Listed.null_iff listed
    · obtain rfl : value = other := listed
      exact Iff.rfl
  conditions value other listed := Condition.listOfJson_listed listed
  sharedColumns value other listed := by
    obtain rfl : value = other := listed
    exact .refl _

theorem ofMembers_listed (members others : List (Text × Json))
    (listed : MembersListed members others) :
    Matched Eq (ofMembers members) (ofMembers others) :=
  ofMembers_matched (.of_alongside listed) readsListed

theorem ofJson_listed (listed : EntryListed first second) :
    Matched Eq (ofJson first) (ofJson second) := by
  refine ofJson_matched listed ?_ ofMembers_listed
  intro items others listed
  cases listed with
  | same => exact .refl _
  | conditions kind table listed =>
      exact ofTuple_matched rfl rfl (Condition.listOfJson_listed listed)

/-- A single join is read as the list of it alone. -/
theorem listOfJson_listed (listed : Listed first second) :
    Matched Eq (listOfJson first) (listOfJson second) := by
  refine listed.matched ?_ ?_ ?_
  · intro json isObject
    cases json with
    | object members => simp [listOfJson, ofJson]
    | _ => cases isObject
  · intro first second alike
    exact listOfJson_matched alike (fun _ _ each => .mapM_eq each fun _ _ => ofJson_listed)
      ofMembers_listed
  · exact fun _ _ listed => .mapM_eq (.cons listed .nil) fun _ _ => ofJson_listed

end Join

/-! ## Columns and rows -/

/-- A single expression is read as the list of it alone. -/
theorem Projected.listOfJson_listed
    (listed : ListedAsIs (fun json => json.kind = .string) first second) :
    Matched Eq (listOfJson first) (listOfJson second) := by
  refine listed.matched fun json isString => ?_
  cases json with
  | string expression => rfl
  | _ => cases isString

/-- A single row is read as the list of it alone. -/
theorem Insert.rowsOfJson_listed
    (listed : ListedAsIs (fun json => json.kind = .object) first second) :
    Matched Eq (rowsOfJson first) (rowsOfJson second) := by
  refine listed.matched fun json isObject => ?_
  cases json with
  | object members => simp [rowsOfJson, rowOfJson]
  | _ => cases isObject

/-! ## Parameters -/

namespace Params

/-- A string means the same as the list of it alone exactly when it is not blank. -/
theorem stringsOfJson_array_string_eq_iff (name value : Text) :
    stringsOfJson name (.array [.string value]) = stringsOfJson name (.string value) ↔
      (Text.trimmed value).isEmpty = false := by
  have listed : stringsOfJson name (.array [.string value]) = .ok [value] := rfl
  have single : stringsOfJson name (.string value) =
      .ok (if (Text.trimmed value).isEmpty then [] else [value]) := rfl
  rw [listed, single]
  cases (Text.trimmed value).isEmpty <;> simp

/-- Columns that are listed: a string that is not blank may become the list of it. -/
def StringsListed : Json → Json → Prop :=
  ListedAsIs fun json => json.kind = .string ∧ isUnset json = false

theorem stringsOfJson_listed (name : Text) (listed : StringsListed first second) :
    Matched Eq (stringsOfJson name first) (stringsOfJson name second) := by
  refine listed.matched fun json alone => ?_
  obtain ⟨isString, notUnset⟩ := alone
  cases json with
  | string value => exact (stringsOfJson_array_string_eq_iff name value).mpr notUnset
  | _ => cases isString

/-- How the value of a parameter may be listed.  Only an insertion has several rows. -/
def Kind.lists (kind : Kind) (name : Text) : Json → Json → Prop :=
  if name = "where" ∨ name = "having" then Condition.Listed
  else if name = "joins" then Join.Listed
  else if name = "group_by" ∨ name = "order_by" then StringsListed
  else if name = "columns" ∨ name = "fields" then ListedAsIs fun json => json.kind = .string
  else if name = "data" ∧ kind = .insert then ListedAsIs fun json => json.kind = .object
  else Eq

/-- The same parameters but for single values in place of lists. -/
def Listed (kind : Kind) : List (Text × Json) → List (Text × Json) → Prop :=
  Alongside kind.lists

theorem Kind.lists_refl (kind : Kind) (name : Text) (json : Json) : kind.lists name json json := by
  unfold lists
  split_ifs
  · exact .kept (.same json)
  · exact .kept (.same json)
  all_goals first | exact .kept rfl | rfl

theorem Kind.lists_of_scalar (kind : Kind) {name : Text} (isScalar : name ∈ scalarKeys) :
    kind.lists name = Eq := by
  simp only [scalarKeys, List.mem_cons, List.not_mem_nil, or_false] at isScalar
  rcases isScalar with rfl | rfl | rfl | rfl | rfl <;> rfl

theorem Kind.lists_of_projection (kind : Kind) {name : Text}
    (isProjection : name = "columns" ∨ name = "fields") :
    kind.lists name = ListedAsIs fun json => json.kind = .string := by
  rcases isProjection with rfl | rfl <;> rfl

theorem Kind.readsListed (kind : Kind) : ReadsAlike kind.lists where
  null name := kind.lists_refl name .null
  scalar name isScalar value other listed := by
    rw [kind.lists_of_scalar isScalar] at listed
    exact listed ▸ .same value
  conditions name isFilter value other listed := by
    rw [lists, if_pos isFilter] at listed
    exact Condition.listOfJson_listed listed
  joins value other listed := Join.listOfJson_listed listed
  strings name isOrder value other listed := by
    rcases isOrder with rfl | rfl
    · exact stringsOfJson_listed _ listed
    · exact stringsOfJson_listed _ listed

/-- A single value means the same as the list of it alone, but for blank strings: parameters that
differ in this are built to the same statement, or refused with errors of one kind, and among the
strings for conditions, and for columns to group and order by, exactly the blank ones are read in
another way in a list. -/
theorem build_listed_unless_blank (functions : FunctionSet) :
    (∀ kind first second, Listed kind first second →
      Matched Eq (build functions kind (.object first)) (build functions kind (.object second))) ∧
    (∀ sql, Condition.listOfJson (.array [.string sql]) = Condition.listOfJson (.string sql) ↔
      (Text.trimmed sql).isEmpty = false) ∧
    ∀ name value, stringsOfJson name (.array [.string value]) = stringsOfJson name (.string value) ↔
      (Text.trimmed value).isEmpty = false := by
  refine ⟨?_, Condition.listOfJson_array_string_eq_iff, stringsOfJson_array_string_eq_iff⟩
  intro kind first second listed
  have corresponding := Corresponding.of_alongside listed
  have reads := kind.readsListed
  cases kind with
  | select =>
      refine Matched.followed (Select.ofJson_matched corresponding reads ?_ ?_) _
      · intro name isProjection value other listed
        rw [Kind.lists_of_projection _ isProjection] at listed
        exact listed.null_iff nofun fun _ _ same => same ▸ Iff.rfl
      · intro name isProjection value other listed
        rw [Kind.lists_of_projection _ isProjection] at listed
        exact Projected.listOfJson_listed listed
  | insert =>
      have read : Matched (fun query other => query.table = other.table ∧ query.rows = other.rows)
          (Insert.ofJson (.object first)) (Insert.ofJson (.object second)) :=
        Insert.ofJson_matched corresponding reads fun _ _ => Insert.rowsOfJson_listed
      refine read.bind ?_
      rintro ⟨table, rows⟩ ⟨_, _⟩ ⟨rfl, rfl⟩
      exact .refl _
  | update =>
      refine (Update.ofJson_matched corresponding reads fun value other same => ?_).followed _
      -- A change has one row, which is no list.
      obtain rfl : value = other := same
      exact .refl _
  | delete => exact (Delete.ofJson_matched corresponding reads).followed _

/-- Orders of a guest, with single values throughout. -/
def ordersShort : List (Text × Json) :=
  [("table", .string "orders AS o"),
    ("joins", .object [("table", .string "guests AS g"), ("on", .string "g.id = o.guest")]),
    ("where", .object [("field", .string "g.id"), ("in", .number (.int 7))]),
    ("group_by", .string "o.day")]

/-- Orders of a guest, with lists throughout. -/
def ordersLong : List (Text × Json) :=
  [("table", .string "orders AS o"),
    ("joins", .array [.object
      [("table", .string "guests AS g"), ("on", .array [.string "g.id = o.guest"])]]),
    ("where", .array [.object [("field", .string "g.id"), ("in", .array [.number (.int 7)])]]),
    ("group_by", .array [.string "o.day"])]

/-- The two descriptions are built to one statement. -/
theorem build_listed_unless_blank_orders :
    Listed .select ordersShort ordersLong ∧
      (∃ statement, build .standard .select (.object ordersShort) = .ok statement) ∧
      Matched Eq (build .standard .select (.object ordersShort))
        (build .standard .select (.object ordersLong)) := by
  have filter : Condition.Listed (.string "g.id = o.guest") (.array [.string "g.id = o.guest"]) :=
    .listed ⟨.inl rfl, rfl⟩ (.same _)
  have join : Join.EntryListed
      (.object [("table", .string "guests AS g"), ("on", .string "g.id = o.guest")])
      (.object [("table", .string "guests AS g"), ("on", .array [.string "g.id = o.guest"])]) :=
    .objects (.cons ⟨rfl, rfl⟩ (.cons ⟨rfl, filter⟩ .nil))
  have operand : Operator.OperandListed "in" (.number (.int 7)) (.array [.number (.int 7)]) :=
    .listed ⟨by decide, by decide⟩ rfl
  have condition : Condition.EntryListed
      (.object [("field", .string "g.id"), ("in", .number (.int 7))])
      (.object [("field", .string "g.id"), ("in", .array [.number (.int 7)])]) :=
    .objects (.cons ⟨rfl, rfl⟩ (.cons ⟨rfl, operand⟩ .nil))
  have listed : Listed .select ordersShort ordersLong :=
    .cons ⟨rfl, rfl⟩ (.cons ⟨rfl, .listed rfl join⟩
      (.cons ⟨rfl, .listed ⟨.inr rfl, rfl⟩ condition⟩
        (.cons ⟨rfl, .listed ⟨rfl, rfl⟩ rfl⟩ .nil)))
  exact ⟨listed, ⟨_, rfl⟩, (build_listed_unless_blank .standard).1 _ _ _ listed⟩

/-! ## Blank conditions of a removal -/

/-- The parameters of a removal with one condition. -/
def removal (table : Text) (condition : Json) : Json :=
  .object [("table", .string table), ("where", condition)]

/-- A blank condition of a removal counts as missing, but in a list it gets past the refusal to
empty the table. -/
theorem build_removal_of_blank (functions : FunctionSet) {table blank : Text}
    {reference : TableRef} (resolved : Query.resolveTable table = .ok reference)
    (isBlank : (Text.trimmed blank).isEmpty) :
    build functions .delete (removal table (.string blank)) =
        .error (.missingField .deletionFilter) ∧
      build functions .delete (removal table (.array [.string blank])) =
        .ok ⟨.delete, "DELETE FROM " ++ reference.fullName ++ " WHERE " ++ blank ++ ";"⟩ := by
  have read : ∀ {condition conditions}, Condition.listOfJson condition = .ok conditions →
      Delete.ofJson (removal table condition) = .ok { table, conditions, allowAll := false } := by
    intro condition conditions restricted
    refine Delete.ofJson_object ?_ rfl resolved rfl restricted
    simp only [keys, List.map_cons, List.map_nil]
    decide
  have dropped : Condition.listOfJson (.string blank) = .ok [] := by
    simp only [Condition.listOfJson, isBlank]
    rfl
  have kept : Condition.listOfJson (.array [.string blank]) = .ok [.raw blank] := rfl
  constructor
  · rw [build, read dropped]
    exact Delete.build_of_isGuarded resolved rfl
  · rw [build, read kept]
    have clause : Condition.clauseSql functions " WHERE " [.raw blank] =
        .ok (" WHERE " ++ Text.joined " AND " [blank]) := rfl
    have single : Text.joined " AND " [blank] = blank := by simp [Text.joined]
    rw [single] at clause
    refine (Delete.build_eq_ok resolved rfl).mpr ⟨_, clause, ?_⟩
    simp only [List.append_assoc]

/-- A removal is refused with a blank string as its condition, and built with the list of it. -/
theorem blank_removal_is_built :
    build .standard .delete (removal "guests" (.string "")) =
        .error (.missingField .deletionFilter) ∧
      build .standard .delete (removal "guests" (.array [.string ""])) =
        .ok ⟨.delete, "DELETE FROM `guests` WHERE ;"⟩ := by
  have resolved : Query.resolveTable "guests" = .ok ⟨none, "guests", none⟩ := rfl
  exact build_removal_of_blank .standard resolved rfl

end Params

end SqlComposer
