import Mathlib.Data.List.DropRight
import SqlComposer.Text.Blank

/-!
# The ends of texts

Taking the marks off both ends of a text leaves the other characters where they are
(`Text.mem_stripWhere_iff`).  A text is trimmed when it neither starts nor ends with a
blank, and blanks around a text make no difference to what it is trimmed to
(`Text.trimmed_surrounded`).
-/

namespace SqlComposer

set_option autoImplicit false

namespace Text

/-! ## Characters that stay -/

theorem mem_dropWhile_iff {isMark : Char → Bool} {character : Char}
    (notMark : ¬ isMark character) {text : Text} :
    character ∈ text.dropWhile isMark ↔ character ∈ text := by
  induction text with
  | nil => rfl
  | cons first rest ih =>
      by_cases mark : isMark first
      · have other : character ≠ first := by
          rintro rfl
          exact notMark mark
        rw [List.dropWhile_cons_of_pos mark, ih, List.mem_cons, or_iff_right other]
      · rw [List.dropWhile_cons_of_neg mark]

/-- Taking marks off the ends of a text leaves all its other characters in. -/
theorem mem_stripWhere_iff {isMark : Char → Bool} {character : Char}
    (notMark : ¬ isMark character) {text : Text} :
    character ∈ stripWhere isMark text ↔ character ∈ text := by
  rw [stripWhere, stripEndWhere, List.mem_reverse, mem_dropWhile_iff notMark,
    List.mem_reverse, mem_dropWhile_iff notMark]

theorem trimmed_subset (text : Text) : trimmed text ⊆ text := by
  intro character member
  have withoutEnd := List.mem_reverse.mp member
  have withoutStart := List.mem_reverse.mp (List.dropWhile_subset _ withoutEnd)
  exact List.dropWhile_subset _ withoutStart

/-! ## Trimmed texts -/

/-- A text that neither starts nor ends with a blank is trimmed. -/
theorem trimmed_eq_self {text : Text} (start : ∀ first ∈ text.head?, isBlank first = false)
    (stop : ∀ last ∈ text.getLast?, isBlank last = false) : trimmed text = text := by
  have fromStart : text.dropWhile isBlank = text := by
    cases text with
    | nil => rfl
    | cons first rest => rw [List.dropWhile_cons_of_neg (by simp [start first rfl])]
  rw [trimmed, stripWhere, fromStart]
  refine List.rdropWhile_eq_self_iff.mpr fun nonempty => ?_
  rw [stop _ (List.getLast?_eq_getLast_of_ne_nil nonempty)]
  exact Bool.false_ne_true

/-- A text without blanks is trimmed. -/
theorem trimmed_of_noBlank {text : Text} (noBlank : ∀ character ∈ text, isBlank character = false) :
    trimmed text = text :=
  trimmed_eq_self (fun _ here => noBlank _ (List.mem_of_mem_head? here))
    fun _ here => noBlank _ (List.mem_of_mem_getLast? here)

/-- A trimmed text does not start with a blank. -/
theorem isBlank_head?_trimmed {text : Text} {first : Char} (here : first ∈ (trimmed text).head?) :
    isBlank first = false := by
  obtain ⟨rest, whole⟩ := List.rdropWhile_prefix isBlank (text.dropWhile isBlank)
  have atStart : (text.dropWhile isBlank).head? = some first := by
    rw [← whole, List.head?_append]
    exact congrArg (Option.or · rest.head?) (Option.mem_def.mp here)
  have notBlank := List.head?_dropWhile_not isBlank text
  rwa [atStart] at notBlank

/-- A trimmed text does not end with a blank. -/
theorem isBlank_getLast?_trimmed {text : Text} {last : Char}
    (here : last ∈ (trimmed text).getLast?) : isBlank last = false := by
  obtain ⟨nonempty, rfl⟩ := List.mem_getLast?_eq_getLast here
  exact Bool.eq_false_iff.mpr (List.rdropWhile_last_not isBlank (text.dropWhile isBlank) nonempty)

/-- Trimming a text again changes nothing. -/
theorem trimmed_trimmed (text : Text) : trimmed (trimmed text) = trimmed text :=
  trimmed_eq_self (fun _ => isBlank_head?_trimmed) (fun _ => isBlank_getLast?_trimmed)

theorem trimmed_isInfix (text : Text) : trimmed text <:+: text :=
  (List.rdropWhile_prefix isBlank _).isInfix.trans (List.dropWhile_suffix isBlank).isInfix

/-- A text is its trimmed part with blanks around it. -/
theorem exists_surrounded (text : Text) :
    ∃ before after, (∀ character ∈ before ++ after, isBlank character) ∧
      text = before ++ trimmed text ++ after := by
  have atStart : text.takeWhile isBlank ++ text.dropWhile isBlank = text :=
    List.takeWhile_append_dropWhile
  have atEnd : trimmed text ++ (text.dropWhile isBlank).rtakeWhile isBlank =
      text.dropWhile isBlank :=
    List.rdropWhile_append_rtakeWhile
  refine ⟨text.takeWhile isBlank, (text.dropWhile isBlank).rtakeWhile isBlank, ?_, ?_⟩
  · exact List.forall_mem_append.mpr
      ⟨fun _ => List.mem_takeWhile_imp, fun _ => List.mem_rtakeWhile_imp⟩
  · rw [List.append_assoc, atEnd, atStart]

/-- Blanks around a text are trimmed away. -/
theorem trimmed_surrounded {before after : Text} (text : Text)
    (blanks : ∀ character ∈ before ++ after, isBlank character) :
    trimmed (before ++ text ++ after) = trimmed text := by
  obtain ⟨blankBefore, blankAfter⟩ := List.forall_mem_append.mp blanks
  have behind : ∀ character ∈ after.reverse, isBlank character :=
    fun character member => blankAfter character (List.mem_reverse.mp member)
  unfold trimmed stripWhere stripEndWhere
  rw [List.append_assoc, List.dropWhile_append_of_pos blankBefore, List.dropWhile_append]
  split_ifs with noText
  · rw [List.isEmpty_iff.mp noText, List.dropWhile_eq_nil_iff.mpr blankAfter]
  · rw [List.reverse_append, List.dropWhile_append_of_pos behind]

end Text

end SqlComposer
