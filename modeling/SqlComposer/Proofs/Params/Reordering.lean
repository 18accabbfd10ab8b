import SqlComposer.Proofs.Params.Clauses
import SqlComposer.Proofs.Params.Parallel
import SqlComposer.Proofs.Query.RowOrder

/-!
# The order of keys

The order of the keys in an object carries no meaning: parameters that differ in it are
built to the same statement, or refused with errors of one kind
(`Params.build_reordered`).  The exceptions are the objects that list columns: a mapping
from aliases, the assignments of a change, and the first row of an insertion keep the
order of their own keys (`Json.ReorderedInside`).

Keys may be in another order at any depth (`Json.Reordered`).  Each reader is shown to
read reordered values alike, from values up to conditions, joins and projections, and
the queries follow from how their parameters are read (`Params.ReadsAlike`).
-/

namespace SqlComposer

set_option autoImplicit false

/-! ## Reordered values -/

namespace Json

/-- The same distinct keys in any order, with related values. -/
structure Rearranged (related : Text → Json → Json → Prop)
    (first second : List (Text × Json)) : Prop where
  distinct : (keys first).Nodup
  arranged : ∃ middle, Alongside related first middle ∧ middle.Perm second

namespace Rearranged

variable {related : Text → Json → Json → Prop} {first second : List (Text × Json)}

theorem corresponding (rearranged : Rearranged related first second) :
    Corresponding related first second := by
  obtain ⟨distinct, middle, alongside, order⟩ := rearranged
  exact .of_perm distinct alongside order

theorem picked (rearranged : Rearranged related first second) : Picked related first second := by
  obtain ⟨_, middle, alongside, order⟩ := rearranged
  exact .of_perm alongside order

end Rearranged

/-- The same value but for the order of keys in its objects, at any depth. -/
inductive Reordered : Json → Json → Prop
  | same (json : Json) : Reordered json json
  | array {items others : List Json} (each : List.Forall₂ Reordered items others) :
      Reordered (.array items) (.array others)
  | object {first middle second : List (Text × Json)} (distinct : (keys first).Nodup)
      (sameKeys : keys first = keys middle)
      (values : List.Forall₂ Reordered (first.map Prod.snd) (middle.map Prod.snd))
      (order : middle.Perm second) : Reordered (.object first) (.object second)

/-- Lists are reordered item by item, and objects may be rearranged on top of that. -/
theorem Reordered.alike {first second : Json} (reordered : Reordered first second) :
    Alike (List.Forall₂ Reordered) (Rearranged fun _ => Reordered) first second := by
  cases reordered with
  | same => exact .same first
  | array each => exact .arrays each
  | object distinct sameKeys values order =>
      exact .objects ⟨distinct, _, .of_values sameKeys values, order⟩

/-- Items that are read by their strings are read alike from reordered lists. -/
theorem Reordered.mapM_matched {α : Type} {read : Json → Except Error α}
    (byString : ∀ first second, first.string? = second.string? → read first = read second)
    {items others : List Json} (each : List.Forall₂ Reordered items others) :
    Matched Eq (items.mapM read) (others.mapM read) := by
  refine .mapM_eq each fun item other reordered => ?_
  rw [byString item other reordered.alike.string?_eq]
  exact .refl _

/-- The same value but for the order of keys in its objects, save for its own keys. -/
inductive ReorderedInside : Json → Json → Prop
  | members {first second : List (Text × Json)}
      (alongside : Alongside (fun _ => Reordered) first second) :
      ReorderedInside (.object first) (.object second)
  | other {first second : Json} (noObject : first.kind ≠ .object)
      (reordered : Reordered first second) : ReorderedInside first second

theorem ReorderedInside.null_iff {first second : Json} (reordered : ReorderedInside first second) :
    first = .null ↔ second = .null := by
  cases reordered with
  | members _ => simp
  | other _ reordered => exact reordered.alike.null_iff

/-- What keeps the order of its own keys is read alike when its members are, and when lists of
reordered items are. -/
theorem ReorderedInside.matched {α : Type} {read : Json → Except Error α} {first second : Json}
    (reordered : ReorderedInside first second)
    (arrays : ∀ items others, List.Forall₂ Reordered items others →
      Matched Eq (read (.array items)) (read (.array others)))
    (objects : ∀ members others, Alongside (fun _ => Reordered) members others →
      Matched Eq (read (.object members)) (read (.object others))) :
    Matched Eq (read first) (read second) := by
  cases reordered with
  | members alongside => exact objects _ _ alongside
  | other noObject reordered =>
      cases reordered.alike with
      | same => exact .refl _
      | arrays each => exact arrays _ _ each
      | objects _ => exact absurd rfl noObject

end Json

open Json

variable {first second : Json}

/-! ## Values and conditions -/

/-- Reordered values stand for the same value.  A call is an object with one key, and an object
with several is refused in any order. -/
theorem Value.ofJson_reordered (reordered : Reordered first second) :
    Matched Eq (ofJson first) (ofJson second) := by
  induction first using Value.ofJson.induct generalizing second with
  | case5 function argument ih =>
      cases reordered.alike with
      | same => exact .refl _
      | objects rearranged =>
          cases rearranged.picked with
          | one values => exact (ih values).followed _
  | case6 members notSingle =>
      cases reordered.alike with
      | same => exact .refl _
      | objects rearranged =>
          cases rearranged.picked with
          | none => exact .error rfl
          | one _ => cases notSingle _ _ rfl
          | several => exact .error rfl
  | case7 items =>
      cases reordered.alike with
      | same => exact .refl _
      | arrays _ => exact .error rfl
  | _ =>
      cases reordered
      exact .refl _

theorem Value.mapM_ofJson_reordered {items others : List Json}
    (each : List.Forall₂ Reordered items others) :
    Matched Eq (items.mapM Value.ofJson) (others.mapM Value.ofJson) :=
  .mapM_eq each fun _ _ => Value.ofJson_reordered

/-- Every fault of a value is an invalid value. -/
theorem Value.kind_of_ofJson_eq_error {json : Json} {fault : Error}
    (failed : ofJson json = .error fault) : fault.kind = .invalidValue := by
  induction json using Value.ofJson.induct generalizing fault with
  | case5 function argument ih =>
      rcases bind_eq_error.mp failed with inside | ⟨_, _, impossible⟩
      · exact ih inside
      · cases impossible
  | case6 members notSingle =>
      rw [Value.ofJson.eq_6 _ notSingle] at failed
      cases failed
      rfl
  | _ =>
      cases failed <;> rfl

namespace Operator

theorem patternOfJson_matched (key : OperatorKey) (scalar : SameScalar first second) :
    Matched Eq (patternOfJson key first) (patternOfJson key second) :=
  Alike.matched scalar (fun _ _ _ => .error rfl) fun _ _ _ => .error rfl

theorem flagOfJson_matched (key : OperatorKey) (whenTrue whenFalse : Operator)
    (scalar : SameScalar first second) :
    Matched Eq (flagOfJson key whenTrue whenFalse first)
      (flagOfJson key whenTrue whenFalse second) :=
  Alike.matched scalar (fun _ _ _ => .error rfl) fun _ _ _ => .error rfl

theorem listOfJson_reordered (key : OperatorKey) (reordered : Reordered first second) :
    Matched Eq (listOfJson key first) (listOfJson key second) := by
  have single := Value.ofJson_reordered reordered
  cases reordered.alike with
  | same => exact .refl _
  | arrays each => exact Value.mapM_ofJson_reordered each
  | objects _ => exact single.followed _

theorem boundsOfJson_reordered (key : OperatorKey) (reordered : Reordered first second) :
    Matched Eq (boundsOfJson key first) (boundsOfJson key second) := by
  refine reordered.alike.matched (fun items others each => ?_) fun _ _ _ => .error rfl
  match each with
  | .nil => exact .error rfl
  | .cons _ .nil => exact .error rfl
  | .cons _ (.cons _ (.cons _ _)) => exact .error rfl
  | .cons low (.cons high .nil) =>
      refine (Value.ofJson_reordered low).bind ?_
      rintro low _ rfl
      exact (Value.ofJson_reordered high).followed _

/-- Reordered operands are read as the same operator. -/
theorem ofJson_reordered (key : OperatorKey) (reordered : Reordered first second) :
    Matched Eq (ofJson key first) (ofJson key second) := by
  have scalar := reordered.alike.sameScalar
  cases key with
  | is | notIs | findInSet => exact (Value.ofJson_reordered reordered).followed _
  | like | notLike | startWith | endWith => exact (patternOfJson_matched _ scalar).followed _
  | inList | notIn => exact (listOfJson_reordered _ reordered).followed _
  | between | isBetween | notBetween => exact (boundsOfJson_reordered _ reordered).followed _
  | isNull | notNull | isNotNull | isEmpty | notEmpty => exact flagOfJson_matched _ _ _ scalar

end Operator

theorem Predicate.checkOfJson_eq (key : OperatorKey) (same : first.string? = second.string?) :
    checkOfJson key first = checkOfJson key second := by
  rw [checkOfJson, checkOfJson, same]

theorem Predicate.readsReordered : Predicate.ReadsAlike fun _ => Reordered where
  column _ _ _ _ reordered := reordered.alike.string?_eq
  operand _ key _ _ _ reordered := Operator.ofJson_reordered key reordered
  check _ key _ _ _ reordered := checkOfJson_eq key reordered.alike.string?_eq ▸ .refl _
  value _ _ _ _ reordered := Value.ofJson_reordered reordered

theorem Predicate.ofMembers_reordered (members others : List (Text × Json))
    (rearranged : Rearranged (fun _ => Reordered) members others) :
    Matched Eq (ofMembers members) (ofMembers others) :=
  ofMembers_matched rearranged.corresponding readsReordered

namespace Condition

theorem ofJson_reordered (reordered : Reordered first second) :
    Matched Eq (ofJson first) (ofJson second) :=
  ofJson_matched reordered.alike
    (fun _ _ each => .mapM_eq each fun _ _ reordered =>
      Predicate.ofJson_matched reordered.alike Predicate.ofMembers_reordered)
    Predicate.ofMembers_reordered

/-- Reordered conditions are read as the same conditions. -/
theorem listOfJson_reordered (reordered : Reordered first second) :
    Matched Eq (listOfJson first) (listOfJson second) :=
  listOfJson_matched reordered.alike (fun _ _ each => .mapM_eq each fun _ _ => ofJson_reordered)
    Predicate.ofMembers_reordered

end Condition

/-! ## Joins -/

namespace Join

theorem sharedColumnsOfJson_reordered (reordered : Reordered first second) :
    Matched Eq (sharedColumnsOfJson first) (sharedColumnsOfJson second) := by
  refine reordered.alike.matched ?_ fun _ _ _ => .error rfl
  refine fun items others => Reordered.mapM_matched fun item other same => ?_
  rw [sharedColumnOfJson, sharedColumnOfJson, same]

theorem readsReordered : ReadsAlike fun _ => Reordered where
  scalar _ _ _ _ reordered := reordered.alike.sameScalar
  null _ _ _ _ reordered := reordered.alike.null_iff
  conditions _ _ := Condition.listOfJson_reordered
  sharedColumns _ _ := sharedColumnsOfJson_reordered

theorem ofMembers_reordered (members others : List (Text × Json))
    (rearranged : Rearranged (fun _ => Reordered) members others) :
    Matched Eq (ofMembers members) (ofMembers others) :=
  ofMembers_matched rearranged.corresponding readsReordered

theorem ofTuple_reordered {items others : List Json} (each : List.Forall₂ Reordered items others) :
    Matched Eq (ofTuple items) (ofTuple others) := by
  match each with
  | .nil => exact .error rfl
  | .cons _ .nil => exact .error rfl
  | .cons _ (.cons _ .nil) => exact .error rfl
  | .cons _ (.cons _ (.cons _ (.cons _ rest))) =>
      simp only [ofTuple, List.length_cons]
      exact .error rfl
  | .cons kind (.cons table (.cons conditions .nil)) =>
      exact ofTuple_matched kind.alike.string?_eq table.alike.string?_eq
        (Condition.listOfJson_reordered conditions)

/-- Reordered joins are read as the same joins. -/
theorem listOfJson_reordered (reordered : Reordered first second) :
    Matched Eq (listOfJson first) (listOfJson second) := by
  refine listOfJson_matched reordered.alike ?_ ofMembers_reordered
  refine fun items others each => .mapM_eq each fun item other reordered => ?_
  exact ofJson_matched reordered.alike (fun _ _ => ofTuple_reordered) ofMembers_reordered

end Join

/-! ## Projections -/

namespace Projected

theorem argumentsOfJson_reordered (reordered : Reordered first second) :
    Matched Eq (argumentsOfJson first) (argumentsOfJson second) := by
  refine reordered.alike.matched ?_ fun _ _ _ => .error rfl
  refine fun items others => Reordered.mapM_matched fun item other same => ?_
  rw [argumentOfJson, argumentOfJson, same]

/-- An alias stands for the same when its function object is reordered. -/
theorem ofMember_reordered (aliasName : Text) (reordered : Reordered first second) :
    Matched Eq (ofMember (aliasName, first)) (ofMember (aliasName, second)) := by
  cases reordered.alike with
  | same => exact .refl _
  | arrays _ => exact .error rfl
  | objects rearranged =>
      cases rearranged.picked with
      | none => exact .error rfl
      | one values => exact (argumentsOfJson_reordered values).followed _
      | several => exact .error rfl

/-- An object of an expression and its alias is read alike in any order. -/
theorem ofMembers_reordered {members others : List (Text × Json)}
    (rearranged : Rearranged (fun _ => Reordered) members others) :
    Matched Eq (ofMembers members) (ofMembers others) := by
  have corresponding := rearranged.corresponding
  have string?_eq : ∀ key,
      (member? key members).bind string? = (member? key others).bind string? := by
    intro key
    exact corresponding.string?_eq fun _ _ reordered => reordered.alike.string?_eq
  have unknown := corresponding.find?_keys_rel fun key => !objectKeys.contains key
  unfold ofMembers
  rw [string?_eq "field", string?_eq "alias"]
  generalize (keys members).find? (fun key => !objectKeys.contains key) = unknown?,
    (keys others).find? (fun key => !objectKeys.contains key) = unknown' at unknown ⊢
  cases unknown with
  | some _ => exact .error rfl
  | none => exact .refl _

/-- A projection is read alike when only its mapping keeps the order of its keys. -/
theorem listOfJson_reordered (reordered : ReorderedInside first second) :
    Matched Eq (listOfJson first) (listOfJson second) := by
  refine reordered.matched ?_ ?_
  · refine fun items others each => .mapM_eq each fun item other reordered => ?_
    exact reordered.alike.matched (fun _ _ _ => .error rfl) fun _ _ => ofMembers_reordered
  · refine fun members others alongside => .mapM_eq alongside fun entry other related => ?_
    obtain ⟨aliasName, value⟩ := entry
    obtain ⟨_, value'⟩ := other
    obtain ⟨rfl, values⟩ := related
    exact ofMember_reordered aliasName values

end Projected

/-! ## Rows -/

namespace Row

theorem entryOfMember_reordered {entry other : Text × Json}
    (related : entry.1 = other.1 ∧ Reordered entry.2 other.2) :
    Matched Eq (entryOfMember entry) (entryOfMember other) := by
  obtain ⟨column, value⟩ := entry
  obtain ⟨_, value'⟩ := other
  obtain ⟨rfl, values⟩ := related
  exact (Value.ofJson_reordered values).followed _

/-- Entries of columns in order are read alike when their values are reordered. -/
theorem mapM_entryOfMember_reordered {members others : List (Text × Json)}
    (alongside : Alongside (fun _ => Reordered) members others) :
    Matched Eq (members.mapM entryOfMember) (others.mapM entryOfMember) :=
  .mapM_eq alongside fun _ _ => entryOfMember_reordered

/-- An object is read as the same row when the order of its own keys is kept. -/
theorem ofMembers_reordered {members others : List (Text × Json)}
    (alongside : Alongside (fun _ => Reordered) members others) :
    Matched Eq (ofMembers members) (ofMembers others) :=
  (mapM_entryOfMember_reordered alongside).followed _

/-- The row of distinct assignments has them as its entries. -/
theorem entries_ofList {assignments : List (Text × Value)}
    (distinct : (assignments.map Prod.fst).Nodup) :
    (ofList assignments).entries = assignments := by
  rw [ofList, entries_assignAll]
  · rfl
  · exact distinct

/-- The columns of entries are the keys they are read from. -/
theorem columns_of_mapM_entryOfMember {members : List (Text × Json)}
    {entries : List (Text × Value)} (ok : members.mapM entryOfMember = .ok entries) :
    entries.map Prod.fst = keys members := by
  have pairs := mapM_eq_ok.mp ok
  clear ok
  induction pairs with
  | nil => rfl
  | cons head _ ih =>
      obtain ⟨value, _, read⟩ := bind_eq_ok.mp head
      cases read
      rw [keys, List.map_cons, List.map_cons, ih, keys]

/-- An object is read as a row of the same values when its keys are in another order. -/
theorem ofMembers_rearranged {members others : List (Text × Json)}
    (rearranged : Json.Rearranged (fun _ => Reordered) members others) :
    Matched Rearranged (ofMembers members) (ofMembers others) := by
  obtain ⟨distinct, middle, alongside, order⟩ := rearranged
  -- Another entry may be the first to fail, but all entries fail with errors of one kind.
  have faults : ∀ entry fault, entryOfMember entry = .error fault → fault.kind = .invalidValue := by
    intro entry fault failed
    rcases bind_eq_error.mp failed with inside | ⟨_, _, impossible⟩
    · exact Value.kind_of_ofJson_eq_error inside
    · cases impossible
  have columns : ∀ entries, members.mapM entryOfMember = .ok entries →
      (entries.map Prod.fst).Nodup := by
    intro entries ok
    rw [columns_of_mapM_entryOfMember ok]
    exact distinct
  have values := (mapM_entryOfMember_reordered alongside).trans_eq (.mapM_perm faults order)
  refine (values.and_of_ok columns).bind ?_
  rintro entries others ⟨order, distinct⟩
  have distinct' : (others.map Prod.fst).Nodup := (order.map Prod.fst).nodup_iff.mp distinct
  refine .ok ?_
  rw [Rearranged, entries_ofList distinct, entries_ofList distinct']
  exact order

end Row

/-- Assignments are read alike when their columns keep their order. -/
theorem Update.dataOfJson_reordered (reordered : ReorderedInside first second) :
    Matched Eq (dataOfJson first) (dataOfJson second) :=
  reordered.matched (fun _ _ _ => .error rfl) fun _ _ => Row.ofMembers_reordered

/-- The same rows but for the order of keys, save for the own keys of the first row. -/
inductive Json.ReorderedRows : Json → Json → Prop
  | single {first second : Json} (noArray : first.kind ≠ .array)
      (row : ReorderedInside first second) : ReorderedRows first second
  | none : ReorderedRows (.array []) (.array [])
  | several {first second : Json} {rest others : List Json} (head : ReorderedInside first second)
      (tail : List.Forall₂ Reordered rest others) :
      ReorderedRows (.array (first :: rest)) (.array (second :: others))

namespace Insert

/-- A first row is read alike when its columns keep their order. -/
theorem rowOfJson_reorderedInside (reordered : ReorderedInside first second) :
    Matched Eq (rowOfJson first) (rowOfJson second) :=
  reordered.matched (fun _ _ _ => .error rfl) fun _ _ => Row.ofMembers_reordered

/-- A later row is read as a row of the same values. -/
theorem rowOfJson_reordered (reordered : Reordered first second) :
    Matched Row.Rearranged (rowOfJson first) (rowOfJson second) := by
  cases reordered.alike with
  | same => exact .self fun row _ => .refl row.entries
  | arrays _ => exact .error rfl
  | objects rearranged => exact Row.ofMembers_rearranged rearranged

/-- Reordered rows are read as the same rows but for the order of columns after the first. -/
theorem rowsOfJson_reordered (reordered : ReorderedRows first second) :
    Matched SameRows (rowsOfJson first) (rowsOfJson second) := by
  cases reordered with
  | none => exact .error rfl
  | several head tail =>
      unfold rowsOfJson
      dsimp only
      rw [List.mapM_cons, List.mapM_cons]
      refine (rowOfJson_reorderedInside head).bind ?_
      rintro row _ rfl
      refine (Matched.mapM tail fun _ _ _ => rowOfJson_reordered).bind ?_
      intro rows others each
      exact .ok ⟨rfl, .cons (.refl row.entries) each⟩
  | single noArray row =>
      cases row with
      | members alongside =>
          refine (Row.ofMembers_reordered alongside).bind ?_
          rintro row _ rfl
          exact .ok (.refl [row])
      | other noObject reordered =>
          cases reordered.alike with
          | same => exact .self fun rows _ => .refl rows
          | objects _ => exact absurd rfl noObject
          | arrays _ => exact absurd rfl noArray

end Insert

/-! ## Parameters -/

namespace Params

/-- How the value of a parameter may be reordered.  Where columns are listed, the keys that list
them keep their order. -/
def Kind.reorders (kind : Kind) (name : Text) : Json → Json → Prop :=
  match kind with
  | .select =>
      if name = "columns" ∨ name = "fields" then ReorderedInside else Json.Reordered
  | .insert => if name = "data" then ReorderedRows else Json.Reordered
  | .update => if name = "data" then ReorderedInside else Json.Reordered
  | .delete => Json.Reordered

/-- The same parameters but for the order of keys at any depth, save where columns are listed. -/
inductive Reordered (kind : Kind) : Json → Json → Prop
  | members {first second : List (Text × Json)}
      (rearranged : Rearranged kind.reorders first second) :
      Reordered kind (.object first) (.object second)
  | other {first second : Json} (noObject : first.kind ≠ .object)
      (reordered : Json.Reordered first second) : Reordered kind first second

/-- The parameters that may list columns. -/
def listingKeys : List Text := ["columns", "fields", "data"]

theorem Kind.reorders_of_notMem (kind : Kind) {name : Text} (noListing : name ∉ listingKeys) :
    kind.reorders name = Json.Reordered := by
  have notListed : ∀ listing ∈ listingKeys, name ≠ listing := fun listing member same =>
    noListing (same ▸ member)
  have noData : name ≠ "data" := notListed "data" (by decide)
  cases kind with
  | select =>
      refine if_neg ?_
      rintro (isColumns | isFields)
      · exact notListed "columns" (by decide) isColumns
      · exact notListed "fields" (by decide) isFields
  | insert => exact if_neg noData
  | update => exact if_neg noData
  | delete => rfl

theorem Kind.readsReordered (kind : Kind) : ReadsAlike kind.reorders where
  null name := by
    have inside : ReorderedInside .null .null := .other (by decide) (.same .null)
    cases kind with
    | delete => exact .same .null
    | select | update =>
        simp only [Kind.reorders]
        split_ifs
        · exact inside
        · exact .same .null
    | insert =>
        simp only [Kind.reorders]
        split_ifs
        · exact .single (by decide) inside
        · exact .same .null
  scalar name isScalar value other related := by
    have noListing : ∀ name ∈ scalarKeys, name ∉ listingKeys := by decide
    rw [kind.reorders_of_notMem (noListing name isScalar)] at related
    exact related.alike.sameScalar
  conditions name isFilter value other related := by
    rw [kind.reorders_of_notMem (by rcases isFilter with rfl | rfl <;> decide)] at related
    exact Condition.listOfJson_reordered related
  joins value other related := by
    rw [kind.reorders_of_notMem (by decide)] at related
    exact Join.listOfJson_reordered related
  strings name isOrder value other related := by
    rw [kind.reorders_of_notMem (by rcases isOrder with rfl | rfl <;> decide)] at related
    refine related.alike.matched ?_ fun _ _ _ => .error rfl
    refine fun items others => Json.Reordered.mapM_matched fun item other same => ?_
    rw [stringOfEntry, stringOfEntry, same]

/-- The order of keys carries no meaning except where columns are listed: reordered parameters are
built to the same statement, or refused with errors of one kind. -/
theorem build_reordered (functions : FunctionSet) {kind : Kind} {first second : Json}
    (reordered : Reordered kind first second) :
    Matched Eq (build functions kind first) (build functions kind second) := by
  cases reordered with
  | other noObject reordered =>
      have noObject' : second.kind ≠ .object := reordered.alike.kind_eq ▸ noObject
      obtain ⟨fault, failed, ofKind⟩ := build_of_kind_ne_object functions kind noObject
      obtain ⟨fault', failed', ofKind'⟩ := build_of_kind_ne_object functions kind noObject'
      rw [failed, failed']
      exact .error (ofKind.trans ofKind'.symm)
  | members rearranged =>
      have corresponding := rearranged.corresponding
      have reads := kind.readsReordered
      cases kind with
      | select =>
          have inside : ∀ name : Text, name = "columns" ∨ name = "fields" → ∀ value other,
              Kind.select.reorders name value other → ReorderedInside value other := by
            intro name isProjection value other related
            rwa [Kind.reorders, if_pos isProjection] at related
          refine Matched.followed (Select.ofJson_matched corresponding reads ?_ ?_) _
          · intro name isProjection value other related
            exact (inside name isProjection value other related).null_iff
          · intro name isProjection value other related
            exact Projected.listOfJson_reordered (inside name isProjection value other related)
      | insert =>
          have rows := Insert.ofJson_matched corresponding reads fun _ _ =>
            Insert.rowsOfJson_reordered
          refine rows.bind ?_
          rintro query other ⟨table, rows⟩
          exact Insert.build_rearranged functions table rows
      | update =>
          exact (Update.ofJson_matched corresponding reads fun _ _ =>
            Update.dataOfJson_reordered).followed _
      | delete => exact (Delete.ofJson_matched corresponding reads).followed _

/-- Two rows, of which the second has its columns in the order that is given. -/
def guests (second : List (Text × Json)) : Json :=
  .array [.object [("name", .string "Ann"), ("age", .number (.int 7))], .object second]

/-- The columns of a later row and the parameters themselves may change their order. -/
theorem build_reordered_guests :
    let ordered := Json.object
      [("table", .string "guests"),
        ("data", guests [("name", .string "Bob"), ("age", .number (.int 8))])]
    let turned := Json.object
      [("data", guests [("age", .number (.int 8)), ("name", .string "Bob")]),
        ("table", .string "guests")]
    Reordered .insert ordered turned ∧
      (∃ statement, build .standard .insert ordered = .ok statement) ∧
      Matched Eq (build .standard .insert ordered) (build .standard .insert turned) := by
  intro ordered turned
  have later : Json.Reordered (.object [("name", .string "Bob"), ("age", .number (.int 8))])
      (.object [("age", .number (.int 8)), ("name", .string "Bob")]) :=
    .object (by decide) rfl (.cons (.same _) (.cons (.same _) .nil)) (.swap _ _ _)
  have row : ReorderedInside (.object [("name", .string "Ann"), ("age", .number (.int 7))])
      (.object [("name", .string "Ann"), ("age", .number (.int 7))]) :=
    .members (.self fun _ => .same)
  have reordered : Reordered .insert ordered turned := by
    refine .members ⟨by decide, _, ?_, .swap _ _ _⟩
    exact .cons ⟨rfl, .same _⟩ (.cons ⟨rfl, .several row (.cons later .nil)⟩ .nil)
  exact ⟨reordered, ⟨_, rfl⟩, build_reordered .standard reordered⟩

end Params

end SqlComposer
