import Mathlib.Data.Char
import Mathlib.Data.List.Induction
import Mathlib.Data.List.Lex
import Mathlib.Data.List.Sort
import Mathlib.Tactic.SplitIfs
import SqlComposer.Proofs.Text.Bytes
import SqlComposer.Proofs.Text.Trimming
import SqlComposer.Value.Encoding

/-!
# The last decision about a function

A set of allowed functions starts with the standard functions or with those that a caller
names (`FunctionSet.Start`) and goes through a sequence of changes.  Each change decides about
some names (`Change.verdict?`), and for every name only the last decision counts: a function
is allowed if it was allowed last, or if no change has mentioned it and it was there from the
start (`FunctionSet.AllowedBy`).  Names are compared in one spelling throughout, without the
blanks around them and in upper case, and a blank name is never allowed.

The set keeps each allowed name once and in order (`FunctionSet.IsOrderly`).  Two orderly sets
with the same members are the same, so that the order of the changes and the spelling of the
names leave no trace in the set, nor in the SQL of any value.
-/

namespace SqlComposer

set_option autoImplicit false

/-! ## Normal names -/

namespace Text

/-- A letter is as little a blank as the same letter in upper case. -/
theorem isBlank_toUpper (character : Char) : isBlank character.toUpper = isBlank character := by
  by_cases small : character.toNat < 128
  · exact of_ascii (fun other => isBlank other.toUpper = isBlank other) (by decide) small
  · rw [toUpper_eq_self small]

/-- Trimming and letter case do not interfere. -/
theorem trimmed_uppercase (text : Text) : trimmed (uppercase text) = uppercase (trimmed text) := by
  have sameBlanks : isBlank ∘ Char.toUpper = isBlank := funext isBlank_toUpper
  unfold trimmed stripWhere stripEndWhere uppercase
  rw [List.dropWhile_map, sameBlanks, ← List.map_reverse, List.dropWhile_map, sameBlanks,
    List.map_reverse]

end Text

namespace FunctionSet

/-- A normal name is trimmed and in upper case. -/
theorem normalName_isNormal (function : Text) :
    Text.trimmed (normalName function) = normalName function ∧
      Text.uppercase (normalName function) = normalName function := by
  constructor
  · rw [normalName, Text.trimmed_uppercase, Text.trimmed_trimmed]
  · exact Text.uppercase_uppercase _

/-! ## Names in order -/

theorem mem_insertName {name other : Text} {names : List Text} :
    other ∈ insertName name names ↔ other = name ∨ other ∈ names := by
  induction names with
  | nil => simp [insertName]
  | cons first rest ih =>
      unfold insertName
      split_ifs with less same
      · simp
      · simp [same]
      · simp [ih, or_left_comm]

theorem insertName_pairwise {name : Text} {names : List Text} (sorted : names.Pairwise (· < ·)) :
    (insertName name names).Pairwise (· < ·) := by
  induction names with
  | nil => exact List.pairwise_singleton _ _
  | cons first rest ih =>
      obtain ⟨least, others⟩ := List.pairwise_cons.mp sorted
      unfold insertName
      split_ifs with less same
      · refine List.pairwise_cons.mpr ⟨?_, sorted⟩
        intro other member
        rcases List.mem_cons.mp member with rfl | later
        · exact less
        · exact lt_trans less (least other later)
      · exact sorted
      · have greater : first < name := lt_of_le_of_ne (not_lt.mp less) (Ne.symm same)
        refine List.pairwise_cons.mpr ⟨?_, ih others⟩
        intro other member
        rcases mem_insertName.mp member with rfl | later
        · exact greater
        · exact least other later

/-- The names of the set are in order, and each of them is normal and not empty. -/
structure IsOrderly (functions : FunctionSet) : Prop where
  sorted : functions.names.Pairwise (· < ·)
  normal : ∀ name ∈ functions.names, name ≠ [] ∧ ∃ function, name = normalName function

/-- Orderly sets with the same members are the same. -/
theorem IsOrderly.eq_of_mem_iff {first second : FunctionSet} (orderly : first.IsOrderly)
    (orderly' : second.IsOrderly) (same : ∀ name, name ∈ first.names ↔ name ∈ second.names) :
    first = second := by
  have names : first.names = second.names :=
    orderly.sorted.eq_of_mem_iff orderly'.sorted same
  exact congrArg FunctionSet.mk names

theorem mem_allow {functions : FunctionSet} {function name : Text} :
    name ∈ (functions.allow function).names ↔
      (name ≠ [] ∧ normalName function = name) ∨ name ∈ functions.names := by
  unfold allow
  split_ifs with blank
  · have isEmpty : normalName function = [] := List.isEmpty_iff.mp blank
    simp [isEmpty, eq_comm]
  · have nonempty : normalName function ≠ [] := fun isEmpty => blank (List.isEmpty_iff.mpr isEmpty)
    rw [mem_insertName]
    constructor
    · rintro (rfl | member)
      · exact .inl ⟨nonempty, rfl⟩
      · exact .inr member
    · rintro (⟨_, rfl⟩ | member)
      · exact .inl rfl
      · exact .inr member

theorem mem_allowAll {functions : FunctionSet} {added : List Text} {name : Text} :
    name ∈ (functions.allowAll added).names ↔
      (name ≠ [] ∧ name ∈ added.map normalName) ∨ name ∈ functions.names := by
  induction added generalizing functions with
  | nil => simp [allowAll]
  | cons first rest ih =>
      have step : functions.allowAll (first :: rest) = (functions.allow first).allowAll rest := rfl
      rw [step, ih, mem_allow, List.map_cons, List.mem_cons]
      constructor
      · rintro (⟨nonempty, member⟩ | ⟨nonempty, same⟩ | member)
        · exact .inl ⟨nonempty, .inr member⟩
        · exact .inl ⟨nonempty, .inl same.symm⟩
        · exact .inr member
      · rintro (⟨nonempty, same | member⟩ | member)
        · exact .inr (.inl ⟨nonempty, same.symm⟩)
        · exact .inl ⟨nonempty, member⟩
        · exact .inr (.inr member)

theorem mem_deny {functions : FunctionSet} {function name : Text} :
    name ∈ (functions.deny function).names ↔
      name ∈ functions.names ∧ normalName function ≠ name := by
  rw [deny, List.mem_filter, bne_iff_ne, ne_comm]

theorem allow_isOrderly {functions : FunctionSet} (orderly : functions.IsOrderly)
    (function : Text) : (functions.allow function).IsOrderly := by
  constructor
  · unfold allow
    split_ifs
    · exact orderly.sorted
    · exact insertName_pairwise orderly.sorted
  · intro name member
    rcases mem_allow.mp member with ⟨nonempty, normal⟩ | old
    · exact ⟨nonempty, function, normal.symm⟩
    · exact orderly.normal name old

theorem allowAll_isOrderly {functions : FunctionSet} (orderly : functions.IsOrderly)
    (added : List Text) : (functions.allowAll added).IsOrderly := by
  induction added generalizing functions with
  | nil => exact orderly
  | cons first rest ih => exact ih (allow_isOrderly orderly first)

theorem deny_isOrderly {functions : FunctionSet} (orderly : functions.IsOrderly)
    (function : Text) : (functions.deny function).IsOrderly := by
  constructor
  · exact orderly.sorted.filter _
  · intro name member
    exact orderly.normal name (mem_deny.mp member).1

/-! ## Changes -/

/-- What a change decides about a normal name, if it mentions the name. -/
def Change.verdict? (name : Text) : Change → Option Bool
  | .allow function => if normalName function = name then some true else none
  | .allowAll functions => if name ∈ functions.map normalName then some true else none
  | .deny function => if normalName function = name then some false else none

/-- What the last change that mentions a normal name decides about it. -/
def lastVerdict? (changes : List Change) (name : Text) : Option Bool :=
  (changes.filterMap (Change.verdict? name)).getLast?

theorem lastVerdict?_concat (changes : List Change) (last : Change) (name : Text) :
    lastVerdict? (changes ++ [last]) name =
      (last.verdict? name).or (lastVerdict? changes name) := by
  unfold lastVerdict?
  rw [List.filterMap_append, List.getLast?_append]
  cases verdict : last.verdict? name <;> simp [verdict]

/-- A change keeps the set in order. -/
theorem apply_isOrderly {functions : FunctionSet} (orderly : functions.IsOrderly)
    (change : Change) : (functions.apply change).IsOrderly := by
  cases change with
  | allow function => exact allow_isOrderly orderly function
  | allowAll added => exact allowAll_isOrderly orderly added
  | deny function => exact deny_isOrderly orderly function

/-- A name that is not blank is in the set after a change if the change allows it, or if it was in
the set and the change does not mention it. -/
theorem mem_apply {functions : FunctionSet} {change : Change} {name : Text}
    (nonempty : name ≠ []) :
    name ∈ (functions.apply change).names ↔
      change.verdict? name = some true ∨
        change.verdict? name = none ∧ name ∈ functions.names := by
  cases change with
  | allow function =>
      rw [apply, mem_allow, Change.verdict?]
      by_cases same : normalName function = name <;> simp [same, nonempty]
  | allowAll added =>
      rw [apply, mem_allowAll, Change.verdict?]
      by_cases mentioned : name ∈ added.map normalName
      · rw [if_pos mentioned]
        simp [mentioned, nonempty]
      · rw [if_neg mentioned]
        simp [mentioned]
  | deny function =>
      rw [apply, mem_deny, Change.verdict?]
      by_cases same : normalName function = name <;> simp [same]

theorem applyAll_concat (functions : FunctionSet) (changes : List Change) (last : Change) :
    functions.applyAll (changes ++ [last]) = (functions.applyAll changes).apply last :=
  List.foldl_append

/-- Changes keep the set in order. -/
theorem applyAll_isOrderly {functions : FunctionSet} (orderly : functions.IsOrderly)
    (changes : List Change) : (functions.applyAll changes).IsOrderly := by
  induction changes using List.reverseRecOn with
  | nil => exact orderly
  | append_singleton earlier last ih =>
      rw [applyAll_concat]
      exact apply_isOrderly ih last

/-- A name that is not blank is in the set after changes if it was allowed last, or if it was in the
set and no change mentions it. -/
theorem mem_applyAll {functions : FunctionSet} {changes : List Change} {name : Text}
    (nonempty : name ≠ []) :
    name ∈ (functions.applyAll changes).names ↔
      lastVerdict? changes name = some true ∨
        lastVerdict? changes name = none ∧ name ∈ functions.names := by
  induction changes using List.reverseRecOn with
  | nil => simp [applyAll, lastVerdict?]
  | append_singleton earlier last ih =>
      rw [applyAll_concat, mem_apply nonempty, ih, lastVerdict?_concat]
      cases last.verdict? name <;> simp

/-! ## Histories -/

/-- The functions that a set starts with. -/
inductive Start
  | standard
  | only (functions : List Text)
  deriving DecidableEq

/-- The functions of a start, as they are spelled. -/
def Start.functions : Start → List Text
  | .standard => standardNames
  | .only functions => functions

/-- The set with which changes begin. -/
def Start.set : Start → FunctionSet
  | .standard => FunctionSet.standard
  | .only functions => ofNames functions

/-- A function is allowed by a history if its name is not blank and either the last change that
mentions it allows it, or no change mentions it and it was there from the start. -/
def AllowedBy (start : Start) (changes : List Change) (function : Text) : Prop :=
  normalName function ≠ [] ∧
    (lastVerdict? changes (normalName function) = some true ∨
      lastVerdict? changes (normalName function) = none ∧
        normalName function ∈ start.functions.map normalName)

instance AllowedBy.decidable (start : Start) (changes : List Change) (function : Text) :
    Decidable (AllowedBy start changes function) :=
  inferInstanceAs (Decidable (_ ∧ _))

theorem Start.set_eq (start : Start) : start.set = ofNames start.functions := by
  cases start <;> rfl

theorem Start.set_isOrderly (start : Start) : start.set.IsOrderly := by
  have noNames : IsOrderly ⟨[]⟩ := ⟨List.Pairwise.nil, by simp⟩
  rw [Start.set_eq]
  exact allowAll_isOrderly noNames _

variable {start start' : Start} {changes changes' : List Change}

/-- Functions are looked up by their normal names. -/
theorem allows_iff {functions : FunctionSet} {function : Text} :
    functions.allows function ↔ normalName function ∈ functions.names :=
  List.contains_iff_mem

/-- A function is in the set exactly when its history allows it. -/
theorem normalName_mem_iff {function : Text} :
    normalName function ∈ (start.set.applyAll changes).names ↔
      AllowedBy start changes function := by
  have orderly := applyAll_isOrderly start.set_isOrderly changes
  by_cases blank : normalName function = []
  · constructor
    · intro member
      exact absurd blank (orderly.normal _ member).1
    · intro allowed
      exact absurd blank allowed.1
  · have fromStart : normalName function ∈ start.set.names ↔
        normalName function ∈ start.functions.map normalName := by
      rw [Start.set_eq, ofNames, mem_allowAll]
      simp [blank]
    rw [mem_applyAll blank, fromStart, AllowedBy, and_iff_right blank]

/-- Histories that allow the same functions lead to the same set. -/
theorem set_eq_iff :
    start.set.applyAll changes = start'.set.applyAll changes' ↔
      ∀ function, AllowedBy start changes function ↔ AllowedBy start' changes' function := by
  constructor
  · intro same function
    rw [← normalName_mem_iff, same, normalName_mem_iff]
  · intro same
    have orderly := applyAll_isOrderly start.set_isOrderly changes
    have orderly' := applyAll_isOrderly start'.set_isOrderly changes'
    apply orderly.eq_of_mem_iff orderly'
    intro name
    constructor
    · intro member
      obtain ⟨_, function, rfl⟩ := orderly.normal name member
      rwa [normalName_mem_iff, ← same, ← normalName_mem_iff]
    · intro member
      obtain ⟨_, function, rfl⟩ := orderly'.normal name member
      rwa [normalName_mem_iff, same, ← normalName_mem_iff]

/-- However a set was made, it allows a function exactly when the history of the function does.  It
lists the normal names of just these functions, each of them not empty, trimmed and in upper case,
and in strictly increasing order of bytes.  Sets list the same names exactly when their histories
allow the same functions, and then every value has the same SQL under both. -/
theorem applyAll_decidedLast (start : Start) (changes : List Change) :
    (∀ function,
      (start.set.applyAll changes).allows function ↔ AllowedBy start changes function) ∧
    (∀ name, name ∈ (start.set.applyAll changes).names ↔
      ∃ function, AllowedBy start changes function ∧ name = normalName function) ∧
    (∀ name ∈ (start.set.applyAll changes).names,
      name ≠ [] ∧ Text.trimmed name = name ∧ Text.uppercase name = name) ∧
    (start.set.applyAll changes).names.Pairwise
      (fun first second => Text.bytes first < Text.bytes second) ∧
    ∀ start' changes',
      ((start.set.applyAll changes).names = (start'.set.applyAll changes').names ↔
        ∀ function, AllowedBy start changes function ↔ AllowedBy start' changes' function) ∧
      ((start.set.applyAll changes).names = (start'.set.applyAll changes').names →
        ∀ value : Value,
          value.sql (start.set.applyAll changes) = value.sql (start'.set.applyAll changes')) := by
  have orderly := applyAll_isOrderly start.set_isOrderly changes
  refine ⟨?_, ?_, ?_, ?_, ?_⟩
  · intro function
    rw [allows_iff, normalName_mem_iff]
  · intro name
    constructor
    · intro member
      obtain ⟨_, function, rfl⟩ := orderly.normal name member
      exact ⟨function, normalName_mem_iff.mp member, rfl⟩
    · rintro ⟨function, allowed, rfl⟩
      exact normalName_mem_iff.mpr allowed
  · intro name member
    obtain ⟨nonempty, function, rfl⟩ := orderly.normal name member
    exact ⟨nonempty, normalName_isNormal function⟩
  · exact orderly.sorted.imp Text.bytes_lt_bytes
  · intro start' changes'
    have same_iff : (start.set.applyAll changes).names = (start'.set.applyAll changes').names ↔
        start.set.applyAll changes = start'.set.applyAll changes' := by
      constructor
      · intro names
        exact congrArg FunctionSet.mk names
      · intro same
        rw [same]
    refine ⟨same_iff.trans set_eq_iff, ?_⟩
    intro names value
    rw [same_iff.mp names]

/-- A function is allowed, denied and allowed again in different spellings, and another one is
allowed only in between. -/
def backAndForth : List Change :=
  [.deny "NOW", .allow "sleep", .allowAll ["Now ", ""], .deny " Sleep"]

/-- What is left of such a history is the set that allows the function at once. -/
theorem applyAll_decidedLast_now :
    (Start.set (.only [" now", "md5"])).applyAll backAndForth = ⟨["MD5", "NOW"]⟩ ∧
      AllowedBy (.only [" now", "md5"]) backAndForth "noW" ∧
      ¬ ((Start.set (.only [" now", "md5"])).applyAll backAndForth).allows "SLEEP" ∧
      ∀ value : Value,
        value.sql ((Start.set (.only [" now", "md5"])).applyAll backAndForth) =
          value.sql ((Start.set (.only ["MD5"])).applyAll [.allow "nOw"]) := by
  obtain ⟨allows, _, _, _, others⟩ := applyAll_decidedLast (.only [" now", "md5"]) backAndForth
  refine ⟨by decide, by decide, ?_, ?_⟩
  · rw [allows]
    decide
  · exact (others (.only ["MD5"]) [.allow "nOw"]).2 (by decide)

end FunctionSet

end SqlComposer
