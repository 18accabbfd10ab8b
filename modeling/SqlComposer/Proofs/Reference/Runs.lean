import SqlComposer.Proofs.Lexical.Runs
import SqlComposer.Proofs.Reference.Rendering

/-!
# The quoted runs of table references

A table reference is written in three ways, and each of them should show its names as
quoted runs of their own, with a point, an alias separator or the sign for all columns
around them and nothing else (`TableRef.IsWellQuoted`).  Writing puts the names between
grave accents as they are.  So a reference is well quoted exactly when none of its names
holds a grave accent (`TableRef.isWellQuoted_iff`).

Reading a reference drops all grave accents, so whatever it was read from it is well
quoted.  A bare table and an alias that is attached later are taken as they are, and are
well quoted only if the caller left grave accents out (`TableRef.isWellQuoted_of_made`).
-/

namespace SqlComposer

set_option autoImplicit false

open Lexical (Element ShowsAs isPlain)

/-! ## Names between plain characters -/

/-- A plain character, or a name between grave accents. -/
def Lexical.Element.isNamePart : Element → Bool
  | .bare character => isPlain character
  | .run mark _ => mark == .tick

/-- Names between grave accents are read as they were written exactly when they hold none. -/
theorem Lexical.showsAs_names_iff {elements : List Element}
    (parts : elements.all Element.isNamePart) :
    ShowsAs .inStrings (elements.flatMap Element.written) elements ↔
      ∀ name, .run .tick name ∈ elements → Text.tick ∉ name := by
  have part := List.all_eq_true.mp parts
  rw [showsAs_written_iff fun character member => part _ member]
  constructor
  · exact fun stay name member => staysIn_tick_iff.mp (stay .tick name member)
  · intro noTick mark name member
    obtain rfl : mark = .tick := eq_of_beq (part _ member)
    exact staysIn_tick_iff.mpr (noTick name member)

namespace TableRef

/-! ## The elements of a reference -/

/-- The path to a table: its names, and a point between them. -/
def nameElements (reference : TableRef) : List Element :=
  match reference.database with
  | some database => [.run .tick database, .bare '.', .run .tick reference.table]
  | none => [.run .tick reference.table]

/-- The path to a table, and behind a separator the alias. -/
def fullNameElements (reference : TableRef) : List Element :=
  match reference.aliasName with
  | some aliasName => reference.nameElements ++ aliasSeparator.map .bare ++ [.run .tick aliasName]
  | none => reference.nameElements

/-- The alias or the path to a table, and the sign for all of its columns. -/
def allColumnsElements (reference : TableRef) : List Element :=
  (match reference.aliasName with
    | some aliasName => [.run .tick aliasName]
    | none => reference.nameElements) ++ [.bare '.', .bare '*']

/-- The three ways to write a reference are closed and show its names, each as one run. -/
structure IsWellQuoted (reference : TableRef) : Prop where
  name : ShowsAs .inStrings reference.name reference.nameElements
  fullName : ShowsAs .inStrings reference.fullName reference.fullNameElements
  allColumns : ShowsAs .inStrings reference.allColumns reference.allColumnsElements

variable {reference : TableRef}

theorem written_nameElements :
    reference.nameElements.flatMap Element.written = reference.name := by
  unfold nameElements name
  cases reference.database with
  | none => exact List.append_nil _
  | some database =>
      simp only [List.flatMap_cons, List.flatMap_nil, List.append_nil]
      rfl

theorem written_bare (text : Text) : (text.map Element.bare).flatMap Element.written = text := by
  induction text with
  | nil => rfl
  | cons character rest ih => exact congrArg (character :: ·) ih

theorem written_fullNameElements :
    reference.fullNameElements.flatMap Element.written = reference.fullName := by
  unfold fullNameElements fullName
  cases reference.aliasName with
  | none => exact written_nameElements
  | some aliasName =>
      dsimp only
      rw [List.flatMap_append, List.flatMap_append, written_nameElements, written_bare,
        List.flatMap_singleton]
      rfl

theorem written_allColumnsElements :
    reference.allColumnsElements.flatMap Element.written = reference.allColumns := by
  unfold allColumnsElements allColumns
  rw [List.flatMap_append]
  cases reference.aliasName with
  | none =>
      rw [written_nameElements]
      rfl
  | some aliasName =>
      rw [List.flatMap_singleton]
      rfl

theorem nameElements_parts : reference.nameElements.all Element.isNamePart := by
  unfold nameElements
  cases reference.database with
  | none => rfl
  | some database => rfl

theorem fullNameElements_parts : reference.fullNameElements.all Element.isNamePart := by
  unfold fullNameElements
  cases reference.aliasName with
  | none => exact nameElements_parts
  | some aliasName =>
      dsimp only
      rw [List.all_append, List.all_append, nameElements_parts]
      rfl

theorem allColumnsElements_parts : reference.allColumnsElements.all Element.isNamePart := by
  unfold allColumnsElements
  rw [List.all_append]
  cases reference.aliasName with
  | none =>
      rw [nameElements_parts]
      rfl
  | some aliasName => rfl

theorem run_mem_nameElements {name : Text} :
    .run .tick name ∈ reference.nameElements ↔
      name ∈ reference.database ∨ name = reference.table := by
  unfold nameElements
  cases reference.database with
  | none => simp
  | some database => simp [eq_comm]

theorem run_mem_fullNameElements {name : Text} :
    .run .tick name ∈ reference.fullNameElements ↔
      name ∈ reference.database ∨ name = reference.table ∨ name ∈ reference.aliasName := by
  unfold fullNameElements
  cases reference.aliasName with
  | none => simp [run_mem_nameElements]
  | some aliasName => simp [run_mem_nameElements, or_assoc, eq_comm]

theorem run_mem_allColumnsElements {name : Text}
    (member : .run .tick name ∈ reference.allColumnsElements) :
    .run .tick name ∈ reference.fullNameElements := by
  unfold allColumnsElements at member
  unfold fullNameElements
  cases aliasName : reference.aliasName with
  | none => simpa [aliasName] using member
  | some written =>
      rw [aliasName] at member
      simp only [List.cons_append, List.nil_append, List.mem_cons, reduceCtorEq, List.not_mem_nil,
        or_false] at member
      rw [member]
      exact List.mem_append_right _ List.mem_cons_self

/-! ## Well quoted references -/

/-- The names of a reference that is shown hold no grave accent. -/
theorem Unticked.notMem (unticked : reference.Unticked) {name : Text}
    (member : .run .tick name ∈ reference.fullNameElements) : Text.tick ∉ name := by
  rcases run_mem_fullNameElements.mp member with inDatabase | rfl | inAlias
  · exact unticked.database name inDatabase
  · exact unticked.table
  · exact unticked.aliasName name inAlias

/-- A reference is well quoted exactly when none of its names holds a grave accent. -/
theorem isWellQuoted_iff : reference.IsWellQuoted ↔ reference.Unticked := by
  constructor
  · intro wellQuoted
    have shows := wellQuoted.fullName
    rw [← written_fullNameElements, Lexical.showsAs_names_iff fullNameElements_parts] at shows
    simp only [run_mem_fullNameElements] at shows
    exact
      { database := fun name member => shows name (.inl member)
        table := shows _ (.inr (.inl rfl))
        aliasName := fun name member => shows name (.inr (.inr member)) }
  · intro unticked
    refine ⟨?_, ?_, ?_⟩
    · rw [← written_nameElements, Lexical.showsAs_names_iff nameElements_parts]
      intro name member
      have inPath : name ∈ reference.database ∨ name = reference.table ∨
          name ∈ reference.aliasName := (run_mem_nameElements.mp member).imp_right Or.inl
      exact unticked.notMem (run_mem_fullNameElements.mpr inPath)
    · rw [← written_fullNameElements, Lexical.showsAs_names_iff fullNameElements_parts]
      exact fun name member => unticked.notMem member
    · rw [← written_allColumnsElements, Lexical.showsAs_names_iff allColumnsElements_parts]
      exact fun name member => unticked.notMem (run_mem_allColumnsElements member)

/-- Under another alias only the alias can make a difference. -/
theorem unticked_withAlias_iff {aliasName : Text} :
    (reference.withAlias aliasName).Unticked ↔
      (∀ name ∈ reference.database, Text.tick ∉ name) ∧ Text.tick ∉ reference.table ∧
        Text.tick ∉ aliasName := by
  constructor
  · intro unticked
    exact ⟨unticked.database, unticked.table, unticked.aliasName aliasName rfl⟩
  · rintro ⟨database, table, inAlias⟩
    refine ⟨database, table, ?_⟩
    rintro name ⟨⟩
    exact inAlias

/-- A bare table is the reference to it. -/
theorem ofTable_eq_ok {table : Text} (ok : ofTable table = .ok reference) :
    reference = { database := none, table, aliasName := none } := by
  unfold ofTable at ok
  split at ok
  · exact (Except.ok.inj ok).symm
  · cases ok

/-- Every reference that was read is well quoted, also under an alias without a grave accent.  A
reference to a bare table is well quoted exactly when the table holds no grave accent, and under an
alias exactly when neither of them does. -/
theorem isWellQuoted_of_made (reference : TableRef) :
    (∀ raw, resolve raw = .ok reference → reference.IsWellQuoted ∧
      ∀ aliasName, (reference.withAlias aliasName).IsWellQuoted ↔ Text.tick ∉ aliasName) ∧
    ∀ table, ofTable table = .ok reference →
      (reference.IsWellQuoted ↔ Text.tick ∉ table) ∧
        ∀ aliasName, (reference.withAlias aliasName).IsWellQuoted ↔
          Text.tick ∉ table ∧ Text.tick ∉ aliasName := by
  constructor
  · intro raw ok
    have unticked := unticked_of_resolve ok
    refine ⟨isWellQuoted_iff.mpr unticked, fun aliasName => ?_⟩
    rw [isWellQuoted_iff, unticked_withAlias_iff]
    exact ⟨fun all => all.2.2, fun inAlias => ⟨unticked.database, unticked.table, inAlias⟩⟩
  · intro table ok
    obtain rfl := ofTable_eq_ok ok
    have noName : ∀ name ∈ (none : Option Text), Text.tick ∉ name := by rintro name ⟨⟩
    constructor
    · rw [isWellQuoted_iff]
      exact ⟨Unticked.table, fun noTick => ⟨noName, noTick, noName⟩⟩
    · intro aliasName
      rw [isWellQuoted_iff, unticked_withAlias_iff]
      exact ⟨And.right, fun noTick => ⟨noName, noTick⟩⟩

/-- Names with other marks, a parenthesis and a separator in them, read and taken as they are. -/
theorem isWellQuoted_of_made_oddNames :
    resolve "`sh(op`.it's AS \x22g" = .ok ⟨some "sh(op", "it's", some "\x22g"⟩ ∧
      IsWellQuoted ⟨some "sh(op", "it's", some "\x22g"⟩ ∧
        ofTable "a AS b" = .ok ⟨none, "a AS b", none⟩ ∧
          IsWellQuoted (withAlias "it's" ⟨none, "a AS b", none⟩) := by
  have read : resolve "`sh(op`.it's AS \x22g" = .ok ⟨some "sh(op", "it's", some "\x22g"⟩ := by
    decide
  have taken : ofTable "a AS b" = .ok ⟨none, "a AS b", none⟩ := by decide
  have noTick : Text.tick ∉ ("a AS b" : Text) ∧ Text.tick ∉ ("it's" : Text) := by decide
  exact ⟨read, ((isWellQuoted_of_made _).1 _ read).1, taken,
    (((isWellQuoted_of_made _).2 _ taken).2 _).mpr noTick⟩

/-- A grave accent in a bare table leaves its name open, and one in an alias lets the alias end
early and begin another name. -/
theorem tick_ends_name_early :
    ofTable "a`b" = .ok ⟨none, "a`b", none⟩ ∧
      Lexical.isClosed .inStrings (name ⟨none, "a`b", none⟩) = false ∧
        fullName (withAlias "g`, `orders" ⟨none, "guests", none⟩) =
          "`guests` AS `g`, `orders`".toList ∧
          ¬ IsWellQuoted (withAlias "g`, `orders" ⟨none, "guests", none⟩) := by
  refine ⟨by decide, by decide, by decide, fun wellQuoted => ?_⟩
  exact absurd wellQuoted.fullName.read (by decide)

end TableRef

end SqlComposer
