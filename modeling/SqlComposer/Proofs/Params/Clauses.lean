import SqlComposer.Params.Join
import SqlComposer.Params.Projection
import SqlComposer.Proofs.Params.Condition
import SqlComposer.Proofs.Query.Clauses

/-!
# Writing rows, joins and projections as JSON

A row is written as an object of its columns, and a join as an object with the
keyword of its kind.  A projection has two forms (`ProjectionForm`): a list may hold
expressions with and without an alias, and a mapping from aliases may hold
functions.  Reading gives back what was written (`Row.ofMembers_toMembers`,
`Join.ofJson_toJson`, `Projected.listOfJson_listToJson`).

The aliases of a mapping have to be distinct, and a function that is called by its
name must not have the key of one of the three functions with a form of their own.
-/

namespace SqlComposer

set_option autoImplicit false

/-! ## Rows -/

namespace Row

/-- A column that is not yet there is assigned at the end. -/
theorem put_of_notMem {column : Text} {value : Value} {entries : List (Text × Value)}
    (isNew : column ∉ entries.map Prod.fst) :
    put column value entries = entries ++ [(column, value)] := by
  induction entries with
  | nil => rfl
  | cons entry rest ih =>
      obtain ⟨other, old⟩ := entry
      rw [List.map_cons, List.mem_cons, not_or] at isNew
      rw [put, if_neg fun same => isNew.1 same.symm, ih isNew.2]
      rfl

/-- Assignments of columns that are all new and distinct are added in order. -/
theorem entries_assignAll {row : Row} {assignments : List (Text × Value)}
    (distinct : ((row.entries ++ assignments).map Prod.fst).Nodup) :
    (row.assignAll assignments).entries = row.entries ++ assignments := by
  -- The row grows with each assignment, and the columns still to come stay new to it.
  induction assignments generalizing row with
  | nil => exact (List.append_nil _).symm
  | cons assignment rest ih =>
      obtain ⟨column, value⟩ := assignment
      have isNew : column ∉ row.entries.map Prod.fst := by
        intro member
        rw [List.map_append, List.map_cons] at distinct
        exact (List.nodup_append.mp distinct).2.2 column member column List.mem_cons_self rfl
      have assigned : (row.assign column value).entries = row.entries ++ [(column, value)] :=
        put_of_notMem isNew
      have step : row.assignAll ((column, value) :: rest) =
          (row.assign column value).assignAll rest := rfl
      rw [step, ih, assigned, List.append_assoc]
      · rfl
      · rw [assigned, List.append_assoc]
        exact distinct

/-- The entries of a row make that row. -/
theorem ofList_entries (row : Row) : ofList row.entries = row := by
  have entries : (ofList row.entries).entries = row.entries := entries_assignAll row.distinct
  generalize ofList row.entries = made at entries
  obtain ⟨written, distinct⟩ := made
  obtain rfl : written = row.entries := entries
  rfl

/-- Whether JSON has values of its own for the values of a row. -/
def isRepresentable (row : Row) : Bool :=
  row.entries.all fun entry => entry.2.isRepresentable

/-- The columns and the values of a row in JSON. -/
def toMembers (row : Row) : List (Text × Json) :=
  row.entries.map fun entry => (entry.1, entry.2.toJson)

/-- A representable row is read back from its members. -/
theorem ofMembers_toMembers {row : Row} (representable : row.isRepresentable) :
    ofMembers row.toMembers = .ok row := by
  have entries : row.toMembers.mapM entryOfMember = .ok row.entries := by
    refine mapM_map_eq_ok fun entry member => ?_
    have value := Value.ofJson_toJson (List.all_eq_true.mp representable entry member)
    rw [entryOfMember, value]
    rfl
  rw [ofMembers, entries]
  exact congrArg Except.ok (ofList_entries row)

theorem toMembers_isDelivered {row : Row} (representable : row.isRepresentable) :
    (Json.object row.toMembers).IsDelivered := by
  refine .object ?_ fun written member => ?_
  · have same : Json.keys row.toMembers = row.entries.map Prod.fst := by
      rw [Json.keys, toMembers, List.map_map]
      rfl
    rw [same]
    exact row.distinct
  · obtain ⟨entry, inRow, rfl⟩ := List.mem_map.mp member
    exact Value.toJson_isDelivered (List.all_eq_true.mp representable entry inRow)

end Row

/-! ## Joins -/

/-- The keyword of a kind is read back as that kind. -/
theorem JoinKind.parse_keyword (kind : JoinKind) : parse kind.keyword = .ok kind := by
  cases kind <;> rfl

namespace Join

/-- Whether JSON has a value of its own for a join. -/
def isRepresentable (join : Join) : Bool :=
  join.table.isTrimmedName && join.conditions.all Condition.isRepresentable

/-- The constraint of a join as members of its object. -/
def constraintMembers : JoinConstraint → List (Text × Json)
  | .conditions conditions => [("on", Condition.listToJson conditions)]
  | .sharedColumns columns => [("using", .array (columns.map Json.string))]
  | .unconstrained => []

/-- A join as members of an object. -/
def toMembers (join : Join) : List (Text × Json) :=
  ("type", .string join.kind.keyword) :: ("table", .string join.table) ::
    constraintMembers join.constraint

/-- A join in JSON. -/
def toJson (join : Join) : Json :=
  .object join.toMembers

/-- The keys of the object of a join are distinct. -/
theorem nodup_keys_toMembers (join : Join) : (Json.keys join.toMembers).Nodup := by
  obtain ⟨kind, table, constraint⟩ := join
  cases constraint with
  | conditions conditions => exact (by decide : (["type", "table", "on"] : List Text).Nodup)
  | sharedColumns columns => exact (by decide : (["type", "table", "using"] : List Text).Nodup)
  | unconstrained => exact (by decide : (["type", "table"] : List Text).Nodup)

theorem find?_unknown (join : Join) :
    (Json.keys join.toMembers).find? (fun key => !objectKeys.contains key) = none := by
  obtain ⟨kind, table, constraint⟩ := join
  cases constraint <;> rfl

/-- A constraint is read back from its members. -/
theorem constraintOfMembers_toMembers {join : Join} (representable : join.isRepresentable) :
    constraintOfMembers join.table join.toMembers = .ok join.constraint := by
  obtain ⟨_, conditionsRepresentable⟩ := Bool.and_eq_true_iff.mp representable
  obtain ⟨kind, table, constraint⟩ := join
  cases constraint with
  | conditions conditions =>
      have read := Condition.listOfJson_listToJson conditionsRepresentable
      change (Condition.listOfJson (Condition.listToJson conditions) >>= fun conditions =>
        pure (JoinConstraint.conditions conditions)) = _
      rw [show Condition.listOfJson (Condition.listToJson conditions) = .ok conditions from read]
      rfl
  | sharedColumns columns =>
      have read : (columns.map Json.string).mapM sharedColumnOfJson = .ok columns :=
        mapM_map_eq_ok fun column _ => rfl
      change ((columns.map Json.string).mapM sharedColumnOfJson >>= fun columns =>
        pure (JoinConstraint.sharedColumns columns)) = _
      rw [read]
      rfl
  | unconstrained => rfl

/-- A representable join is read back from its JSON. -/
theorem ofJson_toJson {join : Join} (representable : join.isRepresentable) :
    ofJson join.toJson = .ok join := by
  obtain ⟨isName, _⟩ := Bool.and_eq_true_iff.mp representable
  obtain ⟨notEmpty, sameTrimmed⟩ := Bool.and_eq_true_iff.mp isName
  have kind : kindOfJson (Json.member? "type" join.toMembers) = .ok join.kind :=
    JoinKind.parse_keyword join.kind
  have table : tableOfMembers join.toMembers = .ok join.table := by
    change tableOfJson (.string join.table) = _
    simp only [tableOfJson, Json.string?, eq_of_beq sameTrimmed]
    rw [if_neg (by simpa using notEmpty)]
  rw [toJson, ofJson, ofMembers, find?_unknown join]
  simp only [kind, table, bind, Except.bind, constraintOfMembers_toMembers representable]
  rfl

theorem toJson_isDelivered {join : Join} (representable : join.isRepresentable) :
    join.toJson.IsDelivered := by
  obtain ⟨_, conditionsRepresentable⟩ := Bool.and_eq_true_iff.mp representable
  refine .object join.nodup_keys_toMembers ?_
  obtain ⟨kind, table, constraint⟩ := join
  have text := Json.IsDelivered.string
  cases constraint with
  | conditions conditions =>
      have written := Condition.listToJson_isDelivered conditionsRepresentable
      simpa [toMembers, constraintMembers] using ⟨text _, text _, written⟩
  | sharedColumns columns =>
      have written := Json.IsDelivered.strings columns
      simpa [toMembers, constraintMembers] using ⟨text _, text _, written⟩
  | unconstrained => simpa [toMembers, constraintMembers] using ⟨text _, text _⟩

end Join

/-! ## Projections -/

namespace ProjectionFunction

/-- The key that chooses a function. -/
def key : ProjectionFunction → Text
  | .countDistinct _ => "count_distinct"
  | .concat _ => "concat"
  | .groupConcat _ => "group_concat"
  | .call name _ => name

/-- The columns of a function in JSON: one string, or a list where any number is allowed. -/
def argumentsJson : ProjectionFunction → Json
  | .countDistinct column | .call _ column => .string column
  | .concat columns | .groupConcat columns => .array (columns.map Json.string)

/-- Whether the key of a function chooses no other one. -/
def hasOwnKey : ProjectionFunction → Bool
  | .call name _ => name != "count_distinct" && name != "concat" && name != "group_concat"
  | _ => true

/-- A function is chosen by its key. -/
theorem ofKey_key {function : ProjectionFunction} (ownKey : function.hasOwnKey) :
    ofKey function.key function.columns = .ok function := by
  cases function with
  | call name column =>
      obtain ⟨notCountOrConcat, notGroup⟩ := Bool.and_eq_true_iff.mp ownKey
      obtain ⟨notCount, notConcat⟩ := Bool.and_eq_true_iff.mp notCountOrConcat
      change ofKey name [column] = _
      rw [ofKey, if_neg (bne_iff_ne.mp notCount), if_neg (bne_iff_ne.mp notConcat),
        if_neg (bne_iff_ne.mp notGroup)]
      rfl
  | _ => rfl

/-- The columns of a function are read back from its arguments. -/
theorem argumentsOfJson_argumentsJson (function : ProjectionFunction) :
    Projected.argumentsOfJson function.argumentsJson = .ok function.columns := by
  have list : ∀ columns : List Text,
      Projected.argumentsOfJson (.array (columns.map Json.string)) = .ok columns :=
    fun columns => mapM_map_eq_ok fun column _ => rfl
  cases function with
  | concat columns | groupConcat columns => exact list columns
  | _ => rfl

theorem argumentsJson_isDelivered (function : ProjectionFunction) :
    function.argumentsJson.IsDelivered := by
  cases function with
  | countDistinct column => exact .string column
  | call name column => exact .string column
  | concat columns | groupConcat columns => exact .strings columns

end ProjectionFunction

/-- The two ways to write a projection: as a list of columns, or as a mapping from their aliases. -/
inductive ProjectionForm
  | list
  | mapping
  deriving DecidableEq

namespace Projected

/-- A column as an entry of a list; a computed column has no such form. -/
def entryJson : Projected → Json
  | .raw expression => .string expression
  | .aliased expression aliasName =>
      .object [("field", .string expression), ("alias", .string aliasName)]
  | .computed .. => .null

/-- The alias of a column and what it stands for; a column without an alias has no such form. -/
def aliasMember : Projected → Text × Json
  | .raw _ => ([], .null)
  | .aliased expression aliasName => (aliasName, .string expression)
  | .computed function aliasName => (aliasName, .object [(function.key, function.argumentsJson)])

/-- A projection in JSON. -/
def listToJson (columns : List Projected) : ProjectionForm → Json
  | .list => .array (columns.map entryJson)
  | .mapping => .object (columns.map aliasMember)

/-- Whether a column can be written in a form. -/
def fits : ProjectionForm → Projected → Bool
  | .list, .raw _ | .list, .aliased .. | .mapping, .aliased .. => true
  | .mapping, .computed function _ => function.hasOwnKey
  | .list, .computed .. | .mapping, .raw _ => false

/-- Whether a projection can be written in a form: in a mapping, no alias stands twice. -/
def isRepresentable (columns : List Projected) : ProjectionForm → Bool
  | .list => columns.all (fits .list)
  | .mapping => columns.all (fits .mapping) && decide (columns.map (aliasMember · |>.1)).Nodup

/-- A column is read back from its entry in a list. -/
theorem ofJson_entryJson {column : Projected} (fitting : column.fits .list) :
    ofJson column.entryJson = .ok column := by
  cases column with
  | raw expression => rfl
  | aliased expression aliasName => rfl
  | computed function aliasName => cases fitting

/-- A column is read back from its alias and what that stands for. -/
theorem ofMember_aliasMember {column : Projected} (fitting : column.fits .mapping) :
    ofMember column.aliasMember = .ok column := by
  cases column with
  | raw expression => cases fitting
  | aliased expression aliasName => rfl
  | computed function aliasName =>
      simp only [aliasMember, ofMember, function.argumentsOfJson_argumentsJson, bind, Except.bind,
        ProjectionFunction.ofKey_key fitting]
      rfl

/-- A representable projection is read back from its JSON. -/
theorem listOfJson_listToJson {columns : List Projected} {form : ProjectionForm}
    (representable : isRepresentable columns form) :
    listOfJson (listToJson columns form) = .ok columns := by
  cases form with
  | list =>
      exact mapM_map_eq_ok fun column member =>
        ofJson_entryJson (List.all_eq_true.mp representable column member)
  | mapping =>
      obtain ⟨fitting, _⟩ := Bool.and_eq_true_iff.mp representable
      exact mapM_map_eq_ok fun column member =>
        ofMember_aliasMember (List.all_eq_true.mp fitting column member)

theorem listToJson_isDelivered {columns : List Projected} {form : ProjectionForm}
    (representable : isRepresentable columns form) : (listToJson columns form).IsDelivered := by
  cases form with
  | list =>
      refine .arrayOf fun column member => ?_
      have fitting := List.all_eq_true.mp representable column member
      cases column with
      | raw expression => exact .string expression
      | aliased expression aliasName => exact .pair (by decide) (.string _) (.string _)
      | computed function aliasName => cases fitting
  | mapping =>
      obtain ⟨fitting, distinct⟩ := Bool.and_eq_true_iff.mp representable
      refine .object ?_ fun written member => ?_
      · have same : Json.keys (columns.map aliasMember) = columns.map (aliasMember · |>.1) := by
          rw [Json.keys, List.map_map]
          rfl
        rw [same]
        exact of_decide_eq_true distinct
      · obtain ⟨column, inColumns, rfl⟩ := List.mem_map.mp member
        have fits := List.all_eq_true.mp fitting column inColumns
        cases column with
        | raw expression => cases fits
        | aliased expression aliasName => exact .string expression
        | computed function aliasName => exact .single function.argumentsJson_isDelivered

end Projected

end SqlComposer
