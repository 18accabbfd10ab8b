import Mathlib.Data.List.TakeWhile
import Mathlib.Data.Nat.Digits.Defs
import SqlComposer.Number.Literal
import SqlComposer.Proofs.Value.Pieces

/-!
# Whole numbers as doubles

Up to a size the doubles contain all whole numbers.  Beyond it they are further and
further apart: a whole number of `b` bits with `b > 53` lies among multiples of
`2 ^ (b - 53)`, its `Double.spacing`.  Rounding takes it to the nearest of these
multiples, a tie going to the even one (`Double.nearestWhole`), and the integer part of
the double is that multiple again (`Double.ofQuotient_whole`).  So a whole number
survives exactly when it is itself a multiple (`Double.nearestWhole_eq_iff`).

A run of digits is read as the whole number that they denote, and as nothing else.  A
word of 64 bits has too few digits for the rounding of literals to cut anything off,
hence it goes through `Double.nearestWhole` alone (`DecimalLiteral.toDouble_digits`).
-/

namespace SqlComposer

set_option autoImplicit false

open Number (digits digitsValue roundedQuotient dividedByPower)

/-! ## Rounded quotients -/

namespace Number

/-- A quotient is rounded to its integer part or to the next number. -/
theorem roundedQuotient_eq_or (numerator denominator : Nat) :
    roundedQuotient numerator denominator = numerator / denominator ∨
      roundedQuotient numerator denominator = numerator / denominator + 1 := by
  unfold roundedQuotient
  dsimp only
  split_ifs
  · exact .inr rfl
  · exact .inl rfl

/-- A quotient without a rest is not rounded. -/
theorem roundedQuotient_mul (quotient : Nat) {denominator : Nat} (positive : 0 < denominator) :
    roundedQuotient (quotient * denominator) denominator = quotient := by
  have noRest : ¬ (denominator < 2 * 0 ∨ (2 * 0 = denominator ∧ quotient % 2 = 1)) := by omega
  unfold roundedQuotient
  dsimp only
  rw [Nat.mul_mod_left, Nat.mul_div_cancel _ positive, if_neg noRest]

/-- Rounding a quotient loses nothing exactly when there is no rest. -/
theorem roundedQuotient_mul_eq_iff {numerator denominator : Nat} (positive : 0 < denominator) :
    roundedQuotient numerator denominator * denominator = numerator ↔
      denominator ∣ numerator := by
  constructor
  · exact fun same => ⟨_, same.symm.trans (Nat.mul_comm _ _)⟩
  · intro divides
    obtain ⟨quotient, rfl⟩ := exists_eq_mul_left_of_dvd divides
    rw [roundedQuotient_mul quotient positive]

/-- A quotient divided by a power whose exponent is not negative. -/
theorem dividedByPower_natCast (base numerator denominator exponent : Nat) :
    dividedByPower base numerator denominator exponent =
      (numerator, denominator * base ^ exponent) :=
  if_pos (Int.natCast_nonneg exponent)

/-- A quotient multiplied by a power. -/
theorem dividedByPower_neg (base numerator denominator exponent : Nat) :
    dividedByPower base numerator denominator (-(exponent : Int)) =
      (numerator * base ^ exponent, denominator) := by
  cases exponent with
  | zero =>
      rw [Nat.pow_zero, Nat.mul_one]
      exact congrArg (Prod.mk numerator) (Nat.mul_one denominator)
  | succ exponent => exact if_neg (Int.not_le.mpr (Int.negSucc_lt_zero exponent))

end Number

/-! ## Rounding whole numbers -/

namespace Double

/-- How far apart the doubles of the size of a whole number are, where they are all whole, and one
where they are not. -/
def spacing (number : Nat) : Nat :=
  2 ^ (number.log2 - 52)

/-- The nearest to a whole number among the multiples of its spacing. -/
def nearestWhole (number : Nat) : Nat :=
  roundedQuotient number (spacing number) * spacing number

theorem spacing_pos (number : Nat) : 0 < spacing number :=
  Nat.two_pow_pos _

/-- A whole number is nearest to itself exactly when its spacing divides it. -/
theorem nearestWhole_eq_iff {number : Nat} :
    nearestWhole number = number ↔ spacing number ∣ number :=
  Number.roundedQuotient_mul_eq_iff (spacing_pos number)

/-- The integer part of a double with an exponent that is not negative. -/
theorem wholePart_natCast (significand exponent : Nat) :
    wholePart significand exponent = significand * 2 ^ exponent := by
  rw [wholePart, magnitude, Number.dividedByPower_neg]
  exact Nat.div_one _

/-- The integer part of a double whose fraction has zeros only. -/
theorem wholePart_neg (number places : Nat) :
    wholePart (number * 2 ^ places) (-(places : Int)) = number := by
  rw [wholePart, magnitude, Int.neg_neg, Number.dividedByPower_natCast, Nat.one_mul]
  exact Nat.mul_div_cancel _ (Nat.two_pow_pos _)

end Double

namespace Format

/-- The exponent of a whole number is that at which its first bit is the first one of the
significand. -/
theorem exponentOf_whole {number : Nat} (positive : number ≠ 0) :
    binary64.exponentOf number 1 = (number.log2 : Int) - 52 := by
  have leading : 2 ^ number.log2 ≤ number := Nat.log2_self_le positive
  have reached :
      Nat.pow 2 binary64.precision * (dividedByPower 2 number 1 ((number.log2 : Int) - 53)).2 ≤
        (dividedByPower 2 number 1 ((number.log2 : Int) - 53)).1 := by
    rcases Nat.le_total 53 number.log2 with large | small
    · obtain ⟨more, size⟩ := Nat.exists_eq_add_of_le large
      have exponent : (number.log2 : Int) - 53 = (more : Int) := by omega
      rw [exponent, Number.dividedByPower_natCast, Nat.one_mul]
      refine Nat.le_trans (Nat.le_of_eq ?_) leading
      rw [size, Nat.pow_add]
      rfl
    · obtain ⟨fewer, size⟩ := Nat.exists_eq_add_of_le small
      have exponent : (number.log2 : Int) - 53 = -(fewer : Int) := by omega
      have full : Nat.pow 2 binary64.precision = 2 ^ (number.log2 + fewer) := by
        rw [← size]
        rfl
      rw [exponent, Number.dividedByPower_neg, Nat.mul_one, full, Nat.pow_add]
      exact Nat.mul_le_mul_right _ leading
  have low : (number.log2 : Int) - (Nat.log2 1 : Nat) - binary64.precision =
      (number.log2 : Int) - 53 := by
    have one : Nat.log2 1 = 0 := rfl
    have precision : binary64.precision = 53 := rfl
    omega
  have least : binary64.minExponent = -1074 := rfl
  unfold exponentOf
  dsimp only
  rw [low, if_pos reached, least]
  omega

theorem ne_zero_of_log2 {number exponent : Nat} (size : number.log2 = 52 + exponent) :
    number ≠ 0 := by
  rintro rfl
  rw [Nat.log2_zero] at size
  omega

/-- A whole number with more bits than the significand is rounded to a multiple of a power of
two. -/
theorem round_large {number exponent : Nat} (size : number.log2 = 52 + exponent) :
    binary64.round number 1 =
      if roundedQuotient number (2 ^ exponent) = 2 ^ 53 then (2 ^ 52, (exponent : Int) + 1)
      else (roundedQuotient number (2 ^ exponent), (exponent : Int)) := by
  have positive := ne_zero_of_log2 size
  have same : (number.log2 : Int) - 52 = (exponent : Int) := by omega
  unfold round
  rw [if_neg positive]
  dsimp only
  rw [exponentOf_whole positive, same, Number.dividedByPower_natCast, Nat.one_mul]
  rfl

/-- A whole number with at most the bits of the significand is continued with zeros. -/
theorem round_small {number places : Nat} (positive : number ≠ 0)
    (size : number.log2 + places = 52) :
    binary64.round number 1 = (number * 2 ^ places, -(places : Int)) ∧
      2 ^ 52 ≤ number * 2 ^ places ∧ number * 2 ^ places < 2 ^ 53 := by
  have same : (number.log2 : Int) - 52 = -(places : Int) := by omega
  have whole : roundedQuotient (number * 2 ^ places) 1 = number * 2 ^ places := by
    simpa using Number.roundedQuotient_mul (number * 2 ^ places) Nat.one_pos
  have filled : 2 ^ 52 ≤ number * 2 ^ places := by
    rw [← size, Nat.pow_add]
    exact Nat.mul_le_mul_right _ (Nat.log2_self_le positive)
  have notOver : number * 2 ^ places < 2 ^ 53 := by
    have bits : 53 = number.log2 + 1 + places := by omega
    rw [bits, Nat.pow_add]
    exact Nat.mul_lt_mul_of_pos_right Nat.lt_log2_self (Nat.two_pow_pos _)
  refine ⟨?_, filled, notOver⟩
  unfold round
  rw [if_neg positive]
  dsimp only
  rw [exponentOf_whole positive, same, Number.dividedByPower_neg, whole]
  exact if_neg (Nat.ne_of_lt notOver)

end Format

namespace Double

/-- A whole number with at most the bits of the significand is a double. -/
theorem ofQuotient_small {number places : Nat} (positive : number ≠ 0)
    (size : number.log2 + places = 52) :
    ∃ significand exponent canonical,
      ofQuotient false number 1 = .finite false significand exponent canonical ∧
        wholePart significand exponent = number := by
  obtain ⟨rounded, filled, notOver⟩ := Format.round_small positive size
  have canonical : IsCanonical (number * 2 ^ places) (-(places : Int)) :=
    ⟨notOver, by omega, by omega, .inr filled⟩
  refine ⟨_, _, canonical, ?_, wholePart_neg number places⟩
  rw [ofQuotient, rounded]
  exact dif_pos canonical

/-- A whole number with more bits than the significand becomes a multiple of a power of two. -/
theorem ofQuotient_large {number exponent : Nat} (size : number.log2 = 52 + exponent)
    (inRange : exponent < 971) :
    ∃ significand power canonical,
      ofQuotient false number 1 = .finite false significand power canonical ∧
        wholePart significand power = roundedQuotient number (2 ^ exponent) * 2 ^ exponent := by
  have positive := Format.ne_zero_of_log2 size
  have filled : 2 ^ 52 ≤ number / 2 ^ exponent := by
    rw [Nat.le_div_iff_mul_le (Nat.two_pow_pos _), ← Nat.pow_add, ← size]
    exact Nat.log2_self_le positive
  have notOver : number / 2 ^ exponent < 2 ^ 53 := by
    have bits : number.log2 + 1 = 53 + exponent := by omega
    rw [Nat.div_lt_iff_lt_mul (Nat.two_pow_pos _), ← Nat.pow_add, ← bits]
    exact Nat.lt_log2_self
  have bounds := Number.roundedQuotient_eq_or number (2 ^ exponent)
  rw [ofQuotient, Format.round_large size]
  split_ifs with carried
  · have canonical : IsCanonical (2 ^ 52) ((exponent : Int) + 1) :=
      ⟨by decide, by omega, by omega, .inr (Nat.le_refl _)⟩
    refine ⟨_, _, canonical, dif_pos canonical, ?_⟩
    rw [← Int.natCast_succ, wholePart_natCast, carried, Nat.pow_succ]
    omega
  · generalize roundedQuotient number (2 ^ exponent) = significand at bounds carried ⊢
    have canonical : IsCanonical significand (exponent : Int) :=
      ⟨by rw [Nat.pow_eq]; omega, by omega, by omega, .inr (by rw [Nat.pow_eq]; omega)⟩
    exact ⟨_, _, canonical, dif_pos canonical, wholePart_natCast significand exponent⟩

/-- A whole number becomes a double whose integer part is the nearest to it. -/
theorem ofQuotient_whole {number : Nat} (inRange : number.log2 < 1023) :
    ∃ significand exponent canonical,
      ofQuotient false number 1 = .finite false significand exponent canonical ∧
        wholePart significand exponent = nearestWhole number := by
  rcases Nat.le_total 52 number.log2 with large | small
  · obtain ⟨exponent, size⟩ := Nat.exists_eq_add_of_le large
    have spacing_eq : spacing number = 2 ^ exponent := by
      rw [spacing, size, Nat.add_sub_cancel_left]
    rw [nearestWhole, spacing_eq]
    exact ofQuotient_large size (by omega)
  · have spacing_eq : spacing number = 1 := by
      rw [spacing, Nat.sub_eq_zero_of_le small, Nat.pow_zero]
    have whole : nearestWhole number = number :=
      nearestWhole_eq_iff.mpr (spacing_eq ▸ Nat.one_dvd number)
    rw [whole]
    by_cases positive : number = 0
    · subst positive
      have nothing := wholePart_neg 0 1074
      rw [Nat.zero_mul] at nothing
      exact ⟨0, -1074, by decide, by decide, nothing⟩
    · obtain ⟨places, size⟩ := Nat.exists_eq_add_of_le small
      exact ofQuotient_small positive size.symm

end Double

/-! ## Runs of digits -/

/-- A digit is no sign, has no letter case, and is not blank. -/
theorem Number.of_isDigit {character : Char} (digit : character.isDigit) :
    character ≠ '-' ∧ character ≠ '+' ∧ character.toLower = character ∧
      Text.isBlank character = false := by
  have inWord : Text.isWordCharacter character := by
    simp [Text.isWordCharacter, Char.isAlphanum, digit]
  have small := toNat_lt_of_isPlain (isPlain_of_isWordCharacter inWord)
  exact Text.of_ascii (fun other => other.isDigit → other ≠ '-' ∧ other ≠ '+' ∧
    other.toLower = other ∧ Text.isBlank other = false) (by decide) small digit

/-- The digits of a whole number denote it. -/
theorem Number.digitsValue_digits (number : Nat) : digitsValue (digits number) = number :=
  Nat.ofDigitChars_ten_toDigits

theorem Number.digits_injective {first second : Nat} (same : digits first = digits second) :
    first = second := by
  rw [← digitsValue_digits first, same, digitsValue_digits]

namespace DecimalLiteral

/-- A run of digits is the literal of the number that it denotes. -/
theorem read?_run {run : Text} (nonempty : run ≠ []) (allDigits : ∀ digit ∈ run, digit.isDigit) :
    read? run = some (.number false (digitsValue run) 0) := by
  have taken : run.takeWhile Char.isDigit = run := List.takeWhile_eq_self_iff.mpr allDigits
  have dropped : run.dropWhile Char.isDigit = [] := List.dropWhile_eq_nil_iff.mpr allDigits
  have magnitude : readMagnitude? run = some (digitsValue run, 0) := by
    have isRun : run.isEmpty = false := List.isEmpty_eq_false_iff.mpr nonempty
    unfold readMagnitude?
    rw [taken, dropped]
    dsimp only [readFraction]
    rw [isRun, List.append_nil]
    rfl
  obtain ⟨first, rest, rfl⟩ := List.exists_cons_of_ne_nil nonempty
  obtain ⟨notMinus, notPlus, lower, _⟩ :=
    Number.of_isDigit (allDigits first List.mem_cons_self)
  have unsigned : readSign (first :: rest) = (false, first :: rest) := by
    unfold readSign
    split
    · exact absurd (List.cons.inj ‹_›).1 notMinus
    · exact absurd (List.cons.inj ‹_›).1 notPlus
    · rfl
  -- The words for what is not a number begin with letters.
  have noWord : ∀ letter letters, letter.isDigit = false →
      Text.lowercase (first :: rest) ≠ letter :: letters := by
    intro letter letters notDigit same
    have atStart : first.toLower = letter := (List.cons.inj same).1
    rw [← atStart, lower, allDigits first List.mem_cons_self] at notDigit
    cases notDigit
  have noInfinity : ¬ (Text.lowercase (first :: rest) = "inf" ∨
      Text.lowercase (first :: rest) = "infinity") :=
    not_or.mpr ⟨noWord _ _ rfl, noWord _ _ rfl⟩
  have noNan : Text.lowercase (first :: rest) ≠ "nan" := noWord _ _ rfl
  unfold read?
  rw [unsigned]
  dsimp only
  rw [if_neg noInfinity, if_neg noNan, magnitude]
  rfl

/-- The digits of a whole number are the literal of that number. -/
theorem read?_digits (number : Nat) :
    read? (digits number) = some (.number false number 0) := by
  have nonempty : digits number ≠ [] := Nat.toDigits_ne_nil
  rw [read?_run nonempty fun _ => Number.isDigit_of_mem_digits, Number.digitsValue_digits]

/-- The literal of an unsigned word is rounded as the whole number that it is. -/
theorem toDouble_word {number : Nat} (word : number < UInt64.size) :
    toDouble (.number false number 0) = Double.ofQuotient false number 1 := by
  have short : Number.digitCount number ≤ 20 :=
    Nat.toDigits_length 10 number 20 (by decide) (Nat.lt_trans word (by decide))
  unfold toDouble roundWith
  dsimp only
  split_ifs with noSize large
  · have zero : number = 0 := by omega
    rw [zero]
  · omega
  · have whole : dividedByPower 10 number 1 (-0) = (number, 1) := rfl
    rw [whole]

end DecimalLiteral

end SqlComposer
