import SqlComposer.Proofs.Value.Reading

/-!
# Escaping undone

Escaping can be undone by a reader that knows its table the other way around:
each letter behind a backslash is the character that is written by it, and any
other character behind a backslash is that character itself (`unescape?`).  The
reader meets no backslash without a character behind it, so every text comes
back, whether percent signs are escaped or not.

A literal ends where it is meant to end.  A reader that passes over the character
behind each backslash takes the body of a literal up to the first mark that it
does not pass over (`splitAtMark?`, `literalIn?`).  In what escaping wrote that
mark is the last character of the literal, whatever stands behind the literal,
and no mark of the other sort is met on the way.

Both follow from what one escaped character looks like: a backslash with one
letter, or a single character that is neither a mark nor a backslash.
-/

namespace SqlComposer

set_option autoImplicit false

namespace Literal

/-! ## The text that was escaped -/

/-- The character that is written by a letter behind a backslash. -/
def characterOfLetter : Char → Char
  | '0' => '\x00'
  | 'b' => '\x08'
  | 't' => '\t'
  | 'z' => '\x1a'
  | 'n' => '\n'
  | 'r' => '\r'
  | character => character

/-- A text without its escapes; there is none when a backslash stands at the end with nothing behind
it. -/
def unescape? : Text → Option Text
  | [] => some []
  | ['\\'] => none
  | '\\' :: letter :: rest => (unescape? rest).map (characterOfLetter letter :: ·)
  | character :: rest => (unescape? rest).map (character :: ·)

theorem unescape?_cons {character : Char} (notBackslash : character ≠ '\\') (rest : Text) :
    unescape? (character :: rest) = (unescape? rest).map (character :: ·) := by
  rw [unescape?]
  · exact fun backslash _ => notBackslash backslash
  · exact fun _ _ backslash => absurd backslash notBackslash

/-- Each letter is read as the character that is written by it. -/
theorem characterOfLetter_of_mem (percentSigns : PercentSigns) :
    ∀ pair ∈ letters percentSigns, characterOfLetter pair.1 = pair.2 := by
  cases percentSigns <;> decide

theorem unescape?_escapedCharacter_append (percentSigns : PercentSigns) (character : Char)
    (rest : Text) :
    unescape? (escapedCharacter percentSigns character ++ rest)
      = (unescape? rest).map (character :: ·) := by
  rcases escapedCharacter_cases percentSigns character with
    ⟨letter, named, escape⟩ | ⟨plain, same⟩
  · have meant : characterOfLetter letter = character :=
      characterOfLetter_of_mem percentSigns _ named
    rw [escape, List.cons_append, List.singleton_append, unescape?, meant]
  · rw [same, List.singleton_append, unescape?_cons (ne_of_notMem_letters plain).2]

/-- Undoing the escapes of an escaped text gives back the text. -/
theorem unescape?_escapedWith (percentSigns : PercentSigns) (text : Text) :
    unescape? (escapedWith percentSigns text) = some text := by
  unfold escapedWith
  induction text with
  | nil => rfl
  | cons character text ih =>
      rw [List.flatMap_cons, unescape?_escapedCharacter_append, ih, Option.map_some]

/-! ## The mark that closes a literal -/

/-- What stands before and behind the first mark of a sort that no backslash takes along. -/
def splitAtMark? (mark : Char) : Text → Option (Text × Text)
  | [] => none
  | ['\\'] => none
  | '\\' :: letter :: rest =>
      (splitAtMark? mark rest).map fun split => ('\\' :: letter :: split.1, split.2)
  | character :: rest =>
      if character = mark then some ([], rest)
      else (splitAtMark? mark rest).map fun split => (character :: split.1, split.2)

/-- The body of the literal with which a text begins, and what stands behind that literal. -/
def literalIn? : Text → Option (Text × Text)
  | '\x27' :: rest => splitAtMark? '\x27' rest
  | _ => none

theorem splitAtMark?_cons {mark character : Char} (notMark : character ≠ mark)
    (notBackslash : character ≠ '\\') (rest : Text) :
    splitAtMark? mark (character :: rest) =
      (splitAtMark? mark rest).map fun split => (character :: split.1, split.2) := by
  rw [splitAtMark?]
  · rw [if_neg notMark]
  · exact fun backslash _ => notBackslash backslash
  · exact fun _ _ backslash => absurd backslash notBackslash

variable {percentSigns : PercentSigns} {mark : Char}

/-- A mark that has a letter is not met in an escaped character. -/
theorem splitAtMark?_escapedCharacter_append
    (isEscaped : mark ∈ (letters percentSigns).map Prod.snd) (character : Char) (rest : Text) :
    splitAtMark? mark (escapedCharacter percentSigns character ++ rest) =
      (splitAtMark? mark rest).map fun split =>
        (escapedCharacter percentSigns character ++ split.1, split.2) := by
  rcases escapedCharacter_cases percentSigns character with ⟨letter, _, escape⟩ | ⟨plain, same⟩
  · rw [escape]
    rfl
  · have notMark : character ≠ mark := by
      rintro rfl
      exact plain isEscaped
    rw [same, List.singleton_append, splitAtMark?_cons notMark (ne_of_notMem_letters plain).2]
    rfl

/-- Nor is it met in an escaped text. -/
theorem splitAtMark?_escapedWith_append
    (isEscaped : mark ∈ (letters percentSigns).map Prod.snd) (text rest : Text) :
    splitAtMark? mark (escapedWith percentSigns text ++ rest) =
      (splitAtMark? mark rest).map fun split =>
        (escapedWith percentSigns text ++ split.1, split.2) := by
  unfold escapedWith
  induction text with
  | nil => simp
  | cons character text ih =>
      rw [List.flatMap_cons, List.append_assoc, splitAtMark?_escapedCharacter_append isEscaped, ih,
        Option.map_map]
      simp only [Function.comp_def, List.append_assoc]

/-- Escaping is undone exactly, and it closes: whatever stands behind the literal of a text, the
first mark of a string that no backslash takes along is the last character of the literal, and no
such mark of the other sort stands before it. -/
theorem escaping_isReversible_and_closed (percentSigns : PercentSigns) (text behind : Text) :
    unescape? (escapedWith percentSigns text) = some text ∧
    literalIn? (inMarks (escapedWith percentSigns text) ++ behind) =
      some (escapedWith percentSigns text, behind) ∧
    splitAtMark? '\x22' (escapedWith percentSigns text) = none := by
  have singleEscaped : '\x27' ∈ (letters percentSigns).map Prod.snd := by
    cases percentSigns <;> decide
  have doubleEscaped : '\x22' ∈ (letters percentSigns).map Prod.snd := by
    cases percentSigns <;> decide
  refine ⟨unescape?_escapedWith percentSigns text, ?_, ?_⟩
  · have closing : splitAtMark? '\x27' ('\x27' :: behind) = some ([], behind) := rfl
    rw [inMarks, List.cons_append, List.cons_append, literalIn?, List.append_assoc,
      List.singleton_append, splitAtMark?_escapedWith_append singleEscaped, closing,
      Option.map_some, List.append_nil]
  · have nothing : splitAtMark? '\x22' [] = none := rfl
    rw [← List.append_nil (escapedWith percentSigns text),
      splitAtMark?_escapedWith_append doubleEscaped, nothing, Option.map_none]

end Literal

end SqlComposer
