import Mathlib.Data.List.Forall2
import Mathlib.Data.List.Perm.Basic
import SqlComposer.Json.Basic
import SqlComposer.Proofs.Outcome

/-!
# Corresponding members

Two objects may say the same in different ways: their members stand in another
order, or some of their values are written otherwise.  `Json.Alongside` relates
members with the same keys in the same order, given how the values of each key are
related, and `Json.Corresponding` relates them in any order.  To be found by its key
a member must not be hidden by another one with that key, so an order may be changed
only among distinct keys (`Corresponding.of_perm`).

What is read from members is a value under a key, or the members that are picked by
their keys.  Values under a key correspond (`Corresponding.member?`), and of picked
members either there are none in both objects, or one in each, under the same key
and with corresponding values, or several in both (`Picked`).
-/

namespace SqlComposer

set_option autoImplicit false

/-! ## Distinct keys -/

section Lookup

variable {κ ν : Type} [BEq κ] [LawfulBEq κ]

/-- Among distinct keys an entry is found by its key. -/
theorem lookup_eq_some_iff_mem {entries : List (κ × ν)} (distinct : (entries.map Prod.fst).Nodup)
    {key : κ} {value : ν} : entries.lookup key = some value ↔ (key, value) ∈ entries := by
  rw [List.lookup_eq_some_iff]
  constructor
  · rintro ⟨before, behind, rfl, _⟩
    exact List.mem_append_right _ List.mem_cons_self
  · intro member
    obtain ⟨before, behind, rfl⟩ := List.append_of_mem member
    refine ⟨before, behind, rfl, fun entry inBefore => ?_⟩
    rw [List.map_append, List.map_cons] at distinct
    have different := (List.nodup_append.mp distinct).2.2 entry.1
      (List.mem_map.mpr ⟨entry, inBefore, rfl⟩) key List.mem_cons_self
    exact bne_iff_ne.mpr fun same => different same.symm

/-- Among distinct keys the order does not matter for what is found. -/
theorem lookup_eq_of_perm {first second : List (κ × ν)} (distinct : (first.map Prod.fst).Nodup)
    (order : first.Perm second) (key : κ) : first.lookup key = second.lookup key := by
  have distinct' : (second.map Prod.fst).Nodup := (order.map Prod.fst).nodup_iff.mp distinct
  refine Option.ext fun value => ?_
  rw [lookup_eq_some_iff_mem distinct, lookup_eq_some_iff_mem distinct', order.mem_iff]

end Lookup

/-- Whether some item passes a test does not depend on the order. -/
theorem find?_rel_of_perm {α : Type} {first second : List α} (order : first.Perm second)
    (test : α → Bool) :
    Option.Rel (fun _ _ => True) (first.find? test) (second.find? test) := by
  have bothNone : first.find? test = none ↔ second.find? test = none := by
    simp only [List.find?_eq_none, order.mem_iff]
  cases found : first.find? test with
  | none =>
      rw [bothNone.mp found]
      exact .none
  | some item =>
      cases found' : second.find? test with
      | none =>
          rw [bothNone.mpr found'] at found
          cases found
      | some other => exact .some trivial

namespace Json

variable {κ : Type}

/-! ## Members in the same order -/

/-- The same keys in the same order, with related values. -/
def Alongside (related : κ → Json → Json → Prop) (first second : List (κ × Json)) : Prop :=
  List.Forall₂ (fun entry other => entry.1 = other.1 ∧ related entry.1 entry.2 other.2)
    first second

namespace Alongside

variable {related : κ → Json → Json → Prop} {first second : List (κ × Json)}

/-- Members stand alongside themselves when their values are related to themselves. -/
theorem self {members : List (κ × Json)} (each : ∀ key value, related key value value) :
    Alongside related members members :=
  List.forall₂_same.mpr fun entry _ => ⟨rfl, each entry.1 entry.2⟩

/-- Members stand alongside others with the same keys when the values do in order. -/
theorem of_values {relatedValues : Json → Json → Prop}
    (sameKeys : first.map Prod.fst = second.map Prod.fst)
    (values : List.Forall₂ relatedValues (first.map Prod.snd) (second.map Prod.snd)) :
    Alongside (fun _ => relatedValues) first second := by
  induction first generalizing second with
  | nil =>
      obtain rfl : second = [] := List.map_eq_nil_iff.mp sameKeys.symm
      exact .nil
  | cons entry rest ih =>
      cases second with
      | nil => cases sameKeys
      | cons other more =>
          obtain ⟨sameKey, sameRest⟩ := List.cons.inj sameKeys
          obtain ⟨value, valuesRest⟩ := List.forall₂_cons.mp values
          exact .cons ⟨sameKey, value⟩ (ih sameRest valuesRest)

theorem keys_eq (alongside : Alongside related first second) :
    first.map Prod.fst = second.map Prod.fst := by
  induction alongside with
  | nil => rfl
  | cons head _ ih => rw [List.map_cons, List.map_cons, head.1, ih]

/-- The members that a test of keys lets through stand alongside each other. -/
theorem filter (alongside : Alongside related first second) (keep : κ → Bool) :
    Alongside (fun key value other => keep key ∧ related key value other)
      (first.filter (keep ·.1)) (second.filter (keep ·.1)) := by
  induction alongside with
  | nil => exact .nil
  | cons head rest ih =>
      obtain ⟨sameKey, values⟩ := head
      rw [List.filter_cons, List.filter_cons, ← sameKey]
      split_ifs with kept
      · exact .cons ⟨sameKey, kept, values⟩ ih
      · exact ih

/-- The members with another key instead of their own, where they have one, stand alongside each
other. -/
theorem filterMap {ν : Type} (alongside : Alongside related first second) (name? : κ → Option ν) :
    Alongside (fun name value other => ∃ key, name? key = some name ∧ related key value other)
      (first.filterMap fun entry => (name? entry.1).map (·, entry.2))
      (second.filterMap fun entry => (name? entry.1).map (·, entry.2)) := by
  induction alongside with
  | nil => exact .nil
  | @cons entry other _ _ head rest ih =>
      obtain ⟨sameKey, values⟩ := head
      rw [List.filterMap_cons, List.filterMap_cons, ← sameKey]
      cases name : name? entry.1 with
      | none => exact ih
      | some found => exact .cons ⟨rfl, entry.1, name, values⟩ ih

/-- The values of a key are related, or it is missing in both. -/
theorem lookup [BEq κ] [LawfulBEq κ] (alongside : Alongside related first second) (key : κ) :
    Option.Rel (related key) (first.lookup key) (second.lookup key) := by
  induction alongside with
  | nil => exact .none
  | @cons entry other _ _ head rest ih =>
      obtain ⟨sameKey, values⟩ := head
      obtain ⟨name, value⟩ := entry
      obtain ⟨name', value'⟩ := other
      obtain rfl : name = name' := sameKey
      rw [List.lookup_cons, List.lookup_cons]
      cases found : key == name with
      | true =>
          rw [eq_of_beq found]
          exact .some values
      | false => exact ih

end Alongside

/-! ## Members in any order -/

/-- Members picked from two objects: none, one under the same key with related values, or
several. -/
inductive Picked (related : κ → Json → Json → Prop) : List (κ × Json) → List (κ × Json) → Prop
  | none : Picked related [] []
  | one {key : κ} {value other : Json} (values : related key value other) :
      Picked related [(key, value)] [(key, other)]
  | several {first second first' second' : κ × Json} {rest rest' : List (κ × Json)} :
      Picked related (first :: second :: rest) (first' :: second' :: rest')

/-- Members that stand alongside members in another order are picked alike. -/
theorem Picked.of_perm {related : κ → Json → Json → Prop} {first middle second : List (κ × Json)}
    (alongside : Alongside related first middle) (order : middle.Perm second) :
    Picked related first second := by
  cases alongside with
  | nil =>
      obtain rfl : second = [] := order.nil_eq.symm
      exact .none
  | @cons entry other rest others head tail =>
      cases tail with
      | nil =>
          obtain rfl : second = [other] := List.perm_singleton.mp order.symm
          obtain ⟨key, value⟩ := entry
          obtain ⟨key', value'⟩ := other
          obtain ⟨rfl, values⟩ := head
          exact .one values
      | cons next more =>
          match second, order.length_eq with
          | _ :: _ :: _, _ => exact .several

/-- The same keys in any order, with related values under each key. -/
structure Corresponding (related : Text → Json → Json → Prop)
    (first second : List (Text × Json)) : Prop where
  member? : ∀ key, Option.Rel (related key) (Json.member? key first) (Json.member? key second)
  arranged : ∃ middle, Alongside related first middle ∧ middle.Perm second

namespace Corresponding

variable {related : Text → Json → Json → Prop} {first middle second : List (Text × Json)}

theorem of_alongside (alongside : Alongside related first second) :
    Corresponding related first second :=
  ⟨alongside.lookup, second, alongside, .refl second⟩

/-- Among distinct keys the order may change. -/
theorem of_perm (distinct : (keys first).Nodup) (alongside : Alongside related first middle)
    (order : middle.Perm second) : Corresponding related first second := by
  refine ⟨fun key => ?_, middle, alongside, order⟩
  have distinct' : (middle.map Prod.fst).Nodup := alongside.keys_eq ▸ distinct
  rw [Json.member?, Json.member?, ← lookup_eq_of_perm distinct' order key]
  exact alongside.lookup key

/-- The members that a test of keys lets through are picked alike. -/
theorem filter (corresponding : Corresponding related first second) (keep : Text → Bool) :
    Picked (fun key value other => keep key ∧ related key value other)
      (first.filter (keep ·.1)) (second.filter (keep ·.1)) := by
  obtain ⟨middle, alongside, order⟩ := corresponding.arranged
  exact .of_perm (alongside.filter keep) (order.filter _)

/-- The members whose key has another name are picked alike. -/
theorem filterMap {ν : Type} (corresponding : Corresponding related first second)
    (name? : Text → Option ν) :
    Picked (fun name value other => ∃ key, name? key = some name ∧ related key value other)
      (first.filterMap fun entry => (name? entry.1).map (·, entry.2))
      (second.filterMap fun entry => (name? entry.1).map (·, entry.2)) := by
  obtain ⟨middle, alongside, order⟩ := corresponding.arranged
  exact .of_perm (alongside.filterMap name?) (order.filterMap _)

/-- Whether some key passes a test does not depend on the order. -/
theorem find?_keys_rel (corresponding : Corresponding related first second)
    (test : Text → Bool) :
    Option.Rel (fun _ _ => True) ((keys first).find? test) ((keys second).find? test) := by
  obtain ⟨middle, alongside, order⟩ := corresponding.arranged
  rw [keys, alongside.keys_eq]
  exact find?_rel_of_perm (order.map Prod.fst) test

/-- The values of a key are related when null, which stands for a missing one, is related to
itself. -/
theorem memberOrNull (corresponding : Corresponding related first second) {key : Text}
    (null : related key .null .null) :
    related key (Json.memberOrNull key first) (Json.memberOrNull key second) := by
  have found := corresponding.member? key
  unfold Json.memberOrNull
  generalize Json.member? key first = value?, Json.member? key second = other? at found ⊢
  cases found with
  | none => exact null
  | some values => exact values

/-- The values of a key are related, or in both objects it is missing or null. -/
theorem presentMember? (corresponding : Corresponding related first second) {key : Text}
    (nulls : ∀ value other, related key value other → (value = .null ↔ other = .null)) :
    Option.Rel (related key) (Json.presentMember? key first)
      (Json.presentMember? key second) := by
  have found := corresponding.member? key
  unfold Json.presentMember?
  generalize Json.member? key first = value?, Json.member? key second = other? at found ⊢
  cases found with
  | none => exact .none
  | @some value other values =>
      have bothNull := nulls value other values
      split
      · rename_i isNull
        cases isNull
        rw [bothNull.mp rfl]
        exact .none
      · rename_i present
        split
        · rename_i otherIsNull
          cases otherIsNull
          exact (present (congrArg some (bothNull.mpr rfl))).elim
        · exact .some values

/-- A key has the same string, or none, when its values have. -/
theorem string?_eq (corresponding : Corresponding related first second) {key : Text}
    (strings : ∀ value other, related key value other → value.string? = other.string?) :
    (Json.member? key first).bind string? = (Json.member? key second).bind string? := by
  have found := corresponding.member? key
  generalize Json.member? key first = value?, Json.member? key second = other? at found ⊢
  cases found with
  | none => rfl
  | some values => exact strings _ _ values

end Corresponding

/-! ## Values of one kind -/

/-- Equal values, or two lists or two objects in a relation. -/
inductive Alike (items : List Json → List Json → Prop)
    (members : List (Text × Json) → List (Text × Json) → Prop) : Json → Json → Prop
  | same (json : Json) : Alike items members json json
  | arrays {first second : List Json} (related : items first second) :
      Alike items members (.array first) (.array second)
  | objects {first second : List (Text × Json)} (related : members first second) :
      Alike items members (.object first) (.object second)

/-- Nothing that a reader of scalars can tell apart: equal values, two lists, or two objects. -/
def SameScalar : Json → Json → Prop :=
  Alike (fun _ _ => True) (fun _ _ => True)

namespace Alike

variable {items : List Json → List Json → Prop}
  {members : List (Text × Json) → List (Text × Json) → Prop} {first second : Json}

theorem sameScalar (alike : Alike items members first second) : SameScalar first second := by
  cases alike with
  | same => exact .same first
  | arrays _ => exact .arrays trivial
  | objects _ => exact .objects trivial

theorem null_iff (alike : Alike items members first second) : first = .null ↔ second = .null := by
  cases alike <;> simp

theorem kind_eq (alike : Alike items members first second) : first.kind = second.kind := by
  cases alike <;> rfl

theorem string?_eq (alike : Alike items members first second) :
    first.string? = second.string? := by
  cases alike <;> rfl

/-- Alike values are read alike when related lists are, and related objects. -/
theorem matched {α : Type} {read : Json → Except Error α} (alike : Alike items members first second)
    (arrays : ∀ first second, items first second →
      Matched Eq (read (.array first)) (read (.array second)))
    (objects : ∀ first second, members first second →
      Matched Eq (read (.object first)) (read (.object second))) :
    Matched Eq (read first) (read second) := by
  cases alike with
  | same => exact .refl (read first)
  | arrays related => exact arrays _ _ related
  | objects related => exact objects _ _ related

end Alike

end Json

end SqlComposer
