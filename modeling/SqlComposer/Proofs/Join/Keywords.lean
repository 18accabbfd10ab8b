import Mathlib.Data.List.DropRight
import SqlComposer.Join
import SqlComposer.Proofs.Params.Members

/-!
# The keywords of joins

The kind of a join is named by its keyword, in any letter case and with any blanks between
the words; a full outer join also has a short name.  The word `JOIN` may follow, as it does
in the SQL that is written for the join (`JoinKind.IsDescribedBy`).

When a kind is read, all words `JOIN` at the end are dropped before the rest is looked up.
So a name with several of them is still read as a kind (`JoinKind.parse_eq_ok_iff`).
Reading accepts just the descriptions of kinds exactly for the texts that are no such names
(`JoinKind.parse_describes_iff`).  Words `JOIN` alone name nothing, and every text that
names nothing is refused.
-/

namespace SqlComposer

set_option autoImplicit false

/-! ## Marks at the end of a list -/

section Marks

variable {α : Type} [BEq α] [LawfulBEq α] {mark : α}

/-- A list without the marks at its end is the front that some marks follow and no mark ends. -/
theorem rdropWhile_eq_iff {items front : List α} :
    items.rdropWhile (· == mark) = front ↔
      mark ∉ front.getLast? ∧ ∃ count, items = front ++ List.replicate count mark := by
  have ends : mark ∉ front.getLast? ↔ front.rdropWhile (· == mark) = front := by
    rw [List.rdropWhile_eq_self_iff]
    constructor
    · intro other nonempty isMark
      exact other (eq_of_beq isMark ▸ List.getLast?_eq_getLast_of_ne_nil nonempty)
    · intro other isLast
      obtain ⟨nonempty, same⟩ := List.mem_getLast?_eq_getLast isLast
      exact other nonempty (beq_iff_eq.mpr same.symm)
  constructor
  · rintro rfl
    refine ⟨ends.mpr (List.rdropWhile_idempotent _ _), (items.rtakeWhile (· == mark)).length, ?_⟩
    have isMark : ∀ item ∈ items.rtakeWhile (· == mark), (item == mark) = true :=
      fun _ => List.mem_rtakeWhile_imp
    have marks := List.eq_replicate_of_mem fun item member => eq_of_beq (isMark item member)
    rw [← marks, List.rdropWhile_append_rtakeWhile]
  · rintro ⟨other, count, rfl⟩
    rw [ends] at other
    induction count with
    | zero => rw [List.replicate_zero, List.append_nil, other]
    | succ count ih =>
        rw [List.replicate_succ', ← List.append_assoc, List.rdropWhile_concat_pos _ _ _ (by simp), ih]

end Marks

namespace JoinKind

/-! ## Names of kinds -/

/-- The words of a text in upper case. -/
def upperWords (text : Text) : List Text :=
  (Text.words text).map Text.uppercase

/-- The words are the keyword of a kind, or the short name of a full outer join. -/
def IsNamedBy (kind : JoinKind) (words : List Text) : Prop :=
  words = Text.words kind.keyword ∨ kind = .fullOuter ∧ words = [("FULL" : Text)]

/-- The words are the name of a kind, perhaps with the word `JOIN` behind it. -/
def IsDescribedBy (kind : JoinKind) (words : List Text) : Prop :=
  ∃ name, kind.IsNamedBy name ∧ (words = name ∨ words = name ++ [("JOIN" : Text)])

instance (kind : JoinKind) (words : List Text) : Decidable (kind.IsNamedBy words) :=
  inferInstanceAs (Decidable (_ ∨ _))

theorem lookup_spellings {words : List Text} {kind : JoinKind} :
    spellings.lookup words = some kind ↔ kind.IsNamedBy words := by
  have distinct : (spellings.map Prod.fst).Nodup := by decide
  have named : ∀ entry ∈ spellings, entry.2.IsNamedBy entry.1 := by decide
  rw [lookup_eq_some_iff_mem distinct]
  refine ⟨named (words, kind), ?_⟩
  rintro (rfl | ⟨rfl, rfl⟩)
  · cases kind <;> decide
  · decide

/-- No name of a kind ends in the word `JOIN`. -/
theorem IsNamedBy.last_ne {kind : JoinKind} {name : List Text} (named : kind.IsNamedBy name) :
    ("JOIN" : Text) ∉ name.getLast? := by
  rcases named with rfl | ⟨_, rfl⟩
  · cases kind <;> decide
  · decide

/-! ## Reading a kind -/

theorem kindWords_eq (text : Text) :
    kindWords text = (upperWords text).rdropWhile (· == ("JOIN" : Text)) :=
  rfl

theorem parse_eq_ok_iff_kindWords {text : Text} {kind : JoinKind} :
    parse text = .ok kind ↔ kind.IsNamedBy (kindWords text) := by
  rw [← lookup_spellings, parse]
  cases spellings.lookup (kindWords text) <;> simp

/-- A text is read as a kind when it is a name of the kind with any number of words `JOIN` behind it. -/
theorem parse_eq_ok_iff {text : Text} {kind : JoinKind} :
    parse text = .ok kind ↔ ∃ name count, kind.IsNamedBy name ∧
      upperWords text = name ++ List.replicate count ("JOIN" : Text) := by
  rw [parse_eq_ok_iff_kindWords]
  constructor
  · intro named
    obtain ⟨_, count, whole⟩ := rdropWhile_eq_iff.mp (kindWords_eq text).symm
    exact ⟨kindWords text, count, named, whole⟩
  · rintro ⟨name, count, named, whole⟩
    have front : kindWords text = name := rdropWhile_eq_iff.mpr ⟨named.last_ne, count, whole⟩
    rwa [front]

/-- A text that is not read as a kind is refused with its own words. -/
theorem parse_eq_error {text : Text} (noKind : ∀ kind, parse text ≠ .ok kind) :
    parse text = .error (.joinShape (.unknownKind text)) := by
  rw [parse] at noKind ⊢
  cases found : spellings.lookup (kindWords text) with
  | none => rfl
  | some kind => exact absurd (by rw [found]) (noKind kind)

/-- A description is a name with at most one word `JOIN` behind it. -/
theorem isDescribedBy_iff {kind : JoinKind} {words : List Text} :
    kind.IsDescribedBy words ↔ ∃ name count, kind.IsNamedBy name ∧ count ≤ 1 ∧
      words = name ++ List.replicate count ("JOIN" : Text) := by
  constructor
  · rintro ⟨name, named, whole | whole⟩
    · exact ⟨name, 0, named, Nat.zero_le _, by simpa using whole⟩
    · exact ⟨name, 1, named, Nat.le_refl _, whole⟩
  · rintro ⟨name, count, named, few, whole⟩
    refine ⟨name, named, ?_⟩
    rcases Nat.le_one_iff_eq_zero_or_eq_one.mp few with rfl | rfl
    · exact .inl (by simpa using whole)
    · exact .inr whole

/-- The name and the number of words `JOIN` behind it can be told from the words. -/
theorem count_unique {kind other : JoinKind} {name otherName : List Text}
    (named : kind.IsNamedBy name) (otherNamed : other.IsNamedBy otherName) {count otherCount : Nat}
    (same : name ++ List.replicate count ("JOIN" : Text) =
      otherName ++ List.replicate otherCount ("JOIN" : Text)) :
    count = otherCount := by
  have front := rdropWhile_eq_iff.mpr ⟨named.last_ne, count, rfl⟩
  have otherFront := rdropWhile_eq_iff.mpr ⟨otherNamed.last_ne, otherCount, same⟩
  have lengths := congrArg List.length same
  rw [front.symm.trans otherFront] at lengths
  simpa using lengths

/-- Reading accepts a text as the kind that it describes, and no other text, unless the text is a
name with several words `JOIN` behind it.  Any number of them is dropped from behind a name, and
what is then no name is refused. -/
theorem parse_describes_iff (text : Text) :
    ((∀ kind, parse text = .ok kind ↔ kind.IsDescribedBy (upperWords text)) ↔
      ∀ (kind : JoinKind) (name : List Text) (count : Nat), kind.IsNamedBy name →
        upperWords text ≠ name ++ List.replicate (count + 2) ("JOIN" : Text)) ∧
    (∀ kind, parse text = .ok kind ↔ ∃ name count, kind.IsNamedBy name ∧
      upperWords text = name ++ List.replicate count ("JOIN" : Text)) ∧
    ((∀ kind, parse text ≠ .ok kind) → parse text = .error (.joinShape (.unknownKind text))) := by
  refine ⟨⟨?_, ?_⟩, fun kind => parse_eq_ok_iff, parse_eq_error⟩
  · intro describes kind name count named whole
    have read : parse text = .ok kind := parse_eq_ok_iff.mpr ⟨name, count + 2, named, whole⟩
    obtain ⟨other, few, otherNamed, atMostOne, otherWhole⟩ :=
      isDescribedBy_iff.mp ((describes kind).mp read)
    have same := count_unique named otherNamed (whole.symm.trans otherWhole)
    omega
  · intro noneRepeated kind
    rw [parse_eq_ok_iff, isDescribedBy_iff]
    constructor
    · rintro ⟨name, count, named, whole⟩
      refine ⟨name, count, named, Nat.le_of_not_lt fun several => ?_, whole⟩
      obtain ⟨more, rfl⟩ := Nat.exists_eq_add_of_le' several
      exact noneRepeated kind name more named whole
    · rintro ⟨name, count, named, _, whole⟩
      exact ⟨name, count, named, whole⟩

/-- A keyword in small letters with one word behind it is read, and another word is refused. -/
theorem parse_describes_iff_leftOuter :
    (∀ (kind : JoinKind) (name : List Text) (count : Nat), kind.IsNamedBy name →
        upperWords "left  outer Join" ≠ name ++ List.replicate (count + 2) ("JOIN" : Text)) ∧
      parse "left  outer Join" = .ok .leftOuter ∧
        parse "sideways" = .error (.joinShape (.unknownKind "sideways")) := by
  have words : upperWords "left  outer Join" = [("LEFT" : Text), ("OUTER" : Text)] ++
      List.replicate 1 ("JOIN" : Text) := by decide
  have named : leftOuter.IsNamedBy [("LEFT" : Text), ("OUTER" : Text)] := by decide
  have notRepeated : ∀ (kind : JoinKind) (name : List Text) (count : Nat), kind.IsNamedBy name →
      upperWords "left  outer Join" ≠ name ++ List.replicate (count + 2) ("JOIN" : Text) := by
    intro kind name count otherNamed whole
    have same := count_unique named otherNamed (words.symm.trans whole)
    omega
  have noKind : ∀ kind, parse "sideways" ≠ .ok kind := by
    intro kind
    cases kind <;> decide
  refine ⟨notRepeated, ?_, (parse_describes_iff "sideways").2.2 noKind⟩
  exact ((parse_describes_iff _).1.mpr notRepeated .leftOuter).mpr
    (isDescribedBy_iff.mpr ⟨_, 1, named, Nat.le_refl 1, words⟩)

/-- A name with two words `JOIN` behind it is no description of a kind, and still it is read. -/
theorem repeated_join_is_read :
    parse "LEFT JOIN JOIN" = .ok .left ∧
      ∀ kind : JoinKind, ¬ kind.IsDescribedBy (upperWords "LEFT JOIN JOIN") := by
  have words : upperWords "LEFT JOIN JOIN" = [("LEFT" : Text)] ++
      List.replicate 2 ("JOIN" : Text) := by decide
  have named : left.IsNamedBy [("LEFT" : Text)] := by decide
  refine ⟨parse_eq_ok_iff.mpr ⟨_, 2, named, words⟩, fun kind described => ?_⟩
  obtain ⟨name, count, otherNamed, atMostOne, whole⟩ := isDescribedBy_iff.mp described
  have same := count_unique named otherNamed (words.symm.trans whole)
  omega

end JoinKind

end SqlComposer
