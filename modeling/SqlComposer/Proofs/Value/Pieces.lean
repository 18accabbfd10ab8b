import SqlComposer.Proofs.Lexical.Congruence
import SqlComposer.Proofs.Value.Reading

/-!
# The pieces of values

The SQL of a value is made of the pieces that congruences speak about.  Numbers
consist of digits and signs, an infinity and what is not a number aside
(`Double.sql_isNumeral`).  The body of a literal stays between its marks, since
escaping puts a backslash in front of each mark and each backslash
(`staysIn_escapedWith`), and so does the text of a point in time
(`staysIn_dateTime`).
-/

namespace SqlComposer

set_option autoImplicit false

open Lexical (isPlain StaysIn IsCongruence)

/-! ## Numbers -/

/-- A digit, or a sign that stands in a number. -/
def isNumeral (character : Char) : Bool :=
  character.isDigit || ['-', '.'].contains character

theorem isNumeral_of_isDigit {character : Char} (digit : character.isDigit) :
    isNumeral character := by
  rw [isNumeral, digit]
  rfl

/-- A number is plain. -/
theorem isPlain_of_isNumeral {text : Text} (numeral : text.all isNumeral) :
    text.all isPlain := by
  refine List.all_eq_true.mpr fun character member => ?_
  rcases Bool.or_eq_true_iff.mp (List.all_eq_true.mp numeral character member) with digit | sign
  · simp [isPlain, Char.isAlphanum, digit]
  · have signs : (['-', '.'] : Text).all isPlain := rfl
    exact List.all_eq_true.mp signs character (List.contains_iff_mem.mp sign)

namespace Number

theorem isDigit_of_mem_digits {number : Nat} {character : Char}
    (member : character ∈ digits number) : character.isDigit :=
  Nat.isDigit_of_mem_toDigits (by decide) (by decide) member

theorem digits_isNumeral (number : Nat) : (digits number).all isNumeral :=
  List.all_eq_true.mpr fun _ member => isNumeral_of_isDigit (isDigit_of_mem_digits member)

theorem zeros_isNumeral (count : Nat) : (zeros count).all isNumeral := by
  refine List.all_eq_true.mpr fun character member => ?_
  rw [List.eq_of_mem_replicate member]
  rfl

theorem signedDigits_isNumeral (number : Int) : (signedDigits number).all isNumeral := by
  unfold signedDigits
  split_ifs
  · exact Bool.and_eq_true_iff.mpr ⟨rfl, digits_isNumeral _⟩
  · exact digits_isNumeral _

theorem isDigit_of_mem_paddedDigits {width number : Nat} {character : Char}
    (member : character ∈ paddedDigits width number) : character.isDigit := by
  rcases List.mem_append.mp member with zero | digit
  · rw [List.eq_of_mem_replicate zero]
    rfl
  · exact isDigit_of_mem_digits digit

end Number

/-- A decimal without an exponent consists of digits and at most a point. -/
theorem Decimal.positional_isNumeral (decimal : Decimal) :
    (decimal.positional []).all isNumeral := by
  have run : (Number.digits decimal.digits).all isNumeral := Number.digits_isNumeral _
  have part : ∀ {some : Text}, some ⊆ Number.digits decimal.digits → some.all isNumeral :=
    fun subset => List.all_eq_true.mpr fun character member =>
      List.all_eq_true.mp run character (subset member)
  dsimp only [positional]
  split_ifs
  · simp only [List.all_append, Bool.and_eq_true]
    exact ⟨⟨run, Number.zeros_isNumeral _⟩, rfl⟩
  · simp only [List.all_append, List.all_cons, Bool.and_eq_true]
    exact ⟨part (List.take_subset _ _), rfl, part (List.drop_subset _ _)⟩
  · simp only [List.cons_append, List.all_append, List.all_cons, Bool.and_eq_true]
    exact ⟨rfl, rfl, Number.zeros_isNumeral _, run⟩

theorem Double.withSign_isNumeral {negative : Bool} {text : Text} (numeral : text.all isNumeral) :
    (withSign negative text).all isNumeral := by
  cases negative with
  | false => exact numeral
  | true => exact Bool.and_eq_true_iff.mpr ⟨rfl, numeral⟩

/-- The SQL of a double, if it has any, is a number. -/
theorem Double.sql_isNumeral {number : Double} {written : Text} (ok : number.sql = .ok written) :
    written.all isNumeral := by
  cases number with
  | nan => simp [Double.sql, isFinite] at ok
  | infinite negative => simp [Double.sql, isFinite] at ok
  | finite negative significand exponent canonical =>
      simp only [Double.sql, isFinite, if_true, Except.ok.injEq] at ok
      subst ok
      refine withSign_isNumeral ?_
      split_ifs
      · rfl
      · exact Decimal.positional_isNumeral _

/-! ## Names of functions -/

/-- An allowed function is named by a plain word when all names of the set are plain words. -/
theorem FunctionSet.isPlainWord_of_allows {functions : FunctionSet}
    (plainNames : ∀ name ∈ functions.names, Text.isPlainWord name) {function : Text}
    (allowed : functions.allows function) : Text.isPlainWord (normalName function) :=
  plainNames _ (List.contains_iff_mem.mp allowed)

/-! ## Bodies of literals -/

/-- What a character becomes in a literal does not lead out of the literal. -/
theorem staysIn_escapedCharacter (percentSigns : Literal.PercentSigns) (character : Char) :
    StaysIn .inStrings .single (Literal.escapedCharacter percentSigns character) := by
  rcases Literal.escapedCharacter_cases percentSigns character with
    ⟨letter, _, escape⟩ | ⟨plain, same⟩
  · rw [escape]
    exact .escaped _ rfl
  · obtain ⟨notMark, notBackslash⟩ := Literal.ne_of_notMem_letters plain
    rw [same]
    exact .ordinary notMark fun backslash => absurd backslash notBackslash

/-- An escaped text does not lead out of its literal. -/
theorem staysIn_escapedWith (percentSigns : Literal.PercentSigns) (text : Text) :
    StaysIn .inStrings .single (Literal.escapedWith percentSigns text) :=
  StaysIn.flatMap (staysIn_escapedCharacter percentSigns) text

theorem staysIn_percent : StaysIn .inStrings .single ['%'] :=
  .ordinary (by decide) fun backslash => absurd backslash (by decide)

/-- A digit, or a sign that stands in or between the fields of a point in time. -/
def isTimeCharacter (character : Char) : Bool :=
  character.isDigit || ['-', '+', ' ', ':'].contains character

theorem paddedDigits_isTime (width number : Nat) :
    ∀ character ∈ Number.paddedDigits width number, isTimeCharacter character := by
  intro character member
  rw [isTimeCharacter, Number.isDigit_of_mem_paddedDigits member]
  rfl

theorem yearText_isTime (year : Int) :
    ∀ character ∈ DateTime.yearText year, isTimeCharacter character := by
  unfold DateTime.yearText
  split_ifs
  · exact List.forall_mem_cons.mpr ⟨rfl, paddedDigits_isTime _ _⟩
  · exact List.forall_mem_cons.mpr ⟨rfl, paddedDigits_isTime _ _⟩
  · exact paddedDigits_isTime _ _

theorem dateTime_text_isTime (time : DateTime) :
    ∀ character ∈ time.text, isTimeCharacter character := by
  have field := paddedDigits_isTime 2
  simp only [DateTime.text, List.forall_mem_append, List.forall_mem_cons]
  exact ⟨⟨⟨⟨⟨yearText_isTime _, rfl, field _⟩, rfl, field _⟩, rfl, field _⟩, rfl, field _⟩, rfl,
    field _⟩

/-- The text of a point in time does not lead out of its literal. -/
theorem staysIn_dateTime (time : DateTime) : StaysIn .inStrings .single time.text := by
  have isTime := dateTime_text_isTime time
  refine StaysIn.of_forall (fun character member same => ?_) fun backslash => ?_
  · subst same
    exact absurd (isTime _ member) (by decide)
  · exact absurd (isTime _ backslash) (by decide)

end SqlComposer
