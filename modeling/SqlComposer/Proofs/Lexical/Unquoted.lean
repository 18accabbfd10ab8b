import SqlComposer.Proofs.Lexical.Scan
import SqlComposer.Text.Word

/-!
# What stands outside of quotes

A reader that skips quoted runs sees two things of a text: the characters outside
of quotes (`unquoted`), and, with the closing marks added, the text without the
contents of its quoted runs (`erase`).  Both are read off piece by piece, each
piece in the mode that the one before it leaves.

Three sorts of pieces make up rendered SQL.  A run between two marks, whose body
never leaves the marks (`StaysIn`), is closed, and nothing is seen of it but the
marks.  Plain characters (`isPlain`) are all outside and keep a reader outside;
every word is made of them (`isPlain_of_isPlainWord`).  Everything else is put
together from these by writing pieces side by side and between parentheses.
-/

namespace SqlComposer

set_option autoImplicit false

namespace Lexical

variable {rule : EscapeRule}

/-! ## Two views of a text -/

/-- The characters that are read outside of quotes, marks that open a quoted run included. -/
def unquoted (rule : EscapeRule) : Mode → Text → Text
  | _, [] => []
  | mode, character :: rest =>
      if mode = .outside then character :: unquoted rule (mode.step rule character) rest
      else unquoted rule (mode.step rule character) rest

/-- The text without the characters strictly inside of quoted runs. -/
def erase (rule : EscapeRule) : Mode → Text → Text
  | _, [] => []
  | mode, character :: rest =>
      if mode = .outside ∨ mode.step rule character = .outside then
        character :: erase rule (mode.step rule character) rest
      else erase rule (mode.step rule character) rest

/-- Nothing is read outside of quotes but characters of the text. -/
theorem unquoted_subset (mode : Mode) {text : Text} : unquoted rule mode text ⊆ text := by
  induction text generalizing mode with
  | nil => exact List.Subset.refl []
  | cons character rest ih =>
      rw [unquoted]
      split_ifs
      · exact List.cons_subset_cons character (ih _)
      · exact List.subset_cons_of_subset character (ih _)

theorem unquoted_append (mode : Mode) (first second : Text) :
    unquoted rule mode (first ++ second) =
      unquoted rule mode first ++ unquoted rule (run rule mode first) second := by
  induction first generalizing mode with
  | nil => rfl
  | cons character rest ih =>
      simp only [List.cons_append, unquoted, run_cons, ih]
      split <;> rfl

theorem erase_append (mode : Mode) (first second : Text) :
    erase rule mode (first ++ second) =
      erase rule mode first ++ erase rule (run rule mode first) second := by
  induction first generalizing mode with
  | nil => rfl
  | cons character rest ih =>
      simp only [List.cons_append, erase, run_cons, ih]
      split <;> rfl

/-- A text of which nothing is read outside of quotes does not change the depth. -/
theorem scan_of_unquoted_eq_nil {mode : Mode} {text : Text}
    (nothing : unquoted rule mode text = []) (depth : Nat) :
    scan rule mode depth text = some (run rule mode text, depth) := by
  induction text generalizing mode with
  | nil => rfl
  | cons character rest ih =>
      have inside : mode ≠ .outside := by
        rintro rfl
        simp [unquoted] at nothing
      rw [unquoted, if_neg inside] at nothing
      rw [scan_cons, depthAfter_of_ne_outside inside, Option.bind_some]
      exact ih nothing

/-- A text of which nothing is read outside of quotes, and which does not end there, is erased. -/
theorem erase_of_unquoted_eq_nil {mode : Mode} {text : Text}
    (nothing : unquoted rule mode text = []) (within : run rule mode text ≠ .outside) :
    erase rule mode text = [] := by
  induction text generalizing mode with
  | nil => rfl
  | cons character rest ih =>
      have inside : mode ≠ .outside := by
        rintro rfl
        simp [unquoted] at nothing
      rw [unquoted, if_neg inside] at nothing
      have still : mode.step rule character ≠ .outside := by
        intro left
        cases rest with
        | nil => exact within left
        | cons next more => simp [unquoted, left] at nothing
      rw [erase, if_neg (not_or.mpr ⟨inside, still⟩)]
      exact ih nothing within

/-! ## Runs between marks -/

/-- A body that a reader between two marks of the sort passes without leaving them. -/
structure StaysIn (rule : EscapeRule) (mark : QuoteMark) (body : Text) : Prop where
  nothingOutside : unquoted rule (.quoted mark) body = []
  comesBack : run rule (.quoted mark) body = .quoted mark

namespace StaysIn

variable {mark : QuoteMark}

theorem nil : StaysIn rule mark [] := ⟨rfl, rfl⟩

theorem append {first second : Text} (before : StaysIn rule mark first)
    (after : StaysIn rule mark second) : StaysIn rule mark (first ++ second) := by
  constructor
  · rw [unquoted_append, before.nothingOutside, before.comesBack, after.nothingOutside]
    rfl
  · rw [run_append, before.comesBack, after.comesBack]

/-- A character that is neither the mark nor a backslash that counts. -/
theorem ordinary {character : Char} (notMark : character ≠ mark.character)
    (notEscape : character = '\\' → rule mark = false) : StaysIn rule mark [character] := by
  have stays : (Mode.quoted mark).step rule character = .quoted mark := by
    simp only [Mode.step, if_neg notMark]
    split_ifs with escapes
    · simp [notEscape escapes.1] at escapes
    · rfl
  constructor
  · simp [unquoted]
  · exact stays

/-- A backslash that counts, with the character it takes along. -/
theorem escaped (character : Char) (counts : rule mark = true) :
    StaysIn rule mark ['\\', character] := by
  constructor <;> simp [unquoted, Mode.step, counts]

theorem flatMap {written : Char → Text} (each : ∀ character, StaysIn rule mark (written character))
    (text : Text) : StaysIn rule mark (text.flatMap written) := by
  induction text with
  | nil => exact nil
  | cons character rest ih => exact (each character).append ih

/-- A text of ordinary characters. -/
theorem of_forall {text : Text} (each : ∀ character ∈ text, character ≠ mark.character)
    (noEscape : '\\' ∈ text → rule mark = false) : StaysIn rule mark text := by
  induction text with
  | nil => exact nil
  | cons character rest ih =>
      have head : StaysIn rule mark [character] :=
        ordinary (each character List.mem_cons_self) fun same =>
          noEscape (same ▸ List.mem_cons_self)
      exact head.append (ih (fun other member => each other (List.mem_cons_of_mem _ member))
        fun member => noEscape (List.mem_cons_of_mem _ member))

end StaysIn

/-- A body between two marks of one sort. -/
def QuoteMark.enclose (mark : QuoteMark) (body : Text) : Text :=
  mark.character :: body ++ [mark.character]

section Enclosed

variable {mark : QuoteMark} {body : Text}

theorem step_open (mark : QuoteMark) : Mode.outside.step rule mark.character = .quoted mark := by
  cases mark <;> rfl

theorem step_close (mark : QuoteMark) :
    (Mode.quoted mark).step rule mark.character = .outside := by
  cases mark <;> simp [Mode.step, QuoteMark.character, Text.tick]

theorem run_enclose (stays : StaysIn rule mark body) :
    run rule .outside (mark.enclose body) = .outside := by
  rw [QuoteMark.enclose, List.cons_append, run_cons, step_open, run_append, stays.comesBack,
    run_cons, step_close, run_nil]

theorem isClosed_enclose (stays : StaysIn rule mark body) : isClosed rule (mark.enclose body) := by
  have opened : Mode.outside.depthAfter 0 mark.character = some 0 := by cases mark <;> rfl
  rw [isClosed_iff, QuoteMark.enclose, List.cons_append, scan_cons, opened, Option.bind_some,
    step_open, scan_append, scan_of_unquoted_eq_nil stays.nothingOutside, stays.comesBack,
    Option.bind_some, scan_cons, step_close]
  rfl

/-- Of a quoted run only its opening mark is read outside of quotes. -/
theorem unquoted_enclose (stays : StaysIn rule mark body) :
    unquoted rule .outside (mark.enclose body) = [mark.character] := by
  rw [QuoteMark.enclose, List.cons_append, unquoted, if_pos rfl, step_open, unquoted_append,
    stays.nothingOutside, stays.comesBack]
  rfl

/-- Erasing leaves the two marks of a quoted run. -/
theorem erase_enclose (stays : StaysIn rule mark body) :
    erase rule .outside (mark.enclose body) = [mark.character, mark.character] := by
  have within : run rule (.quoted mark) body ≠ .outside := by simp [stays.comesBack]
  rw [QuoteMark.enclose, List.cons_append, erase, if_pos (.inl rfl), step_open, erase_append,
    erase_of_unquoted_eq_nil stays.nothingOutside within, stays.comesBack, erase,
    if_pos (.inr (step_close mark))]
  rfl

end Enclosed

/-! ## Plain characters -/

/-- The characters that SQL is written with outside of quotes, besides parentheses. -/
def isPlain (character : Char) : Bool :=
  character.isAlphanum || (" _$.,=!-*".toList).contains character

theorem ne_of_isPlain {character other : Char} (plain : isPlain character)
    (notPlain : isPlain other = false) : character ≠ other := by
  rintro rfl
  simp [plain] at notPlain

/-- A plain character opens no quoted run. -/
theorem step_plain {character : Char} (plain : isPlain character) :
    Mode.outside.step rule character = .outside := by
  have noMark : QuoteMark.ofCharacter? character = none := by
    rw [QuoteMark.ofCharacter?_eq_none_iff]
    intro mark
    cases mark <;> exact ne_of_isPlain plain (by decide)
  simp [Mode.step, noMark]

/-- A plain character does not change the depth. -/
theorem depthAfter_plain {character : Char} (plain : isPlain character) (depth : Nat) :
    Mode.outside.depthAfter depth character = some depth := by
  have notOpening : character ≠ '(' := ne_of_isPlain plain (by decide)
  have notClosing : character ≠ ')' := ne_of_isPlain plain (by decide)
  simp [Mode.depthAfter, notOpening, notClosing]

theorem isClosed_of_plain {text : Text} (plain : text.all isPlain) : isClosed rule text := by
  rw [isClosed_iff]
  induction text with
  | nil => rfl
  | cons character rest ih =>
      obtain ⟨first, others⟩ := Bool.and_eq_true_iff.mp plain
      rw [scan_cons, depthAfter_plain first, step_plain first]
      exact ih others

/-- Of a plain text everything is read outside of quotes. -/
theorem unquoted_of_plain {text : Text} (plain : text.all isPlain) :
    unquoted rule .outside text = text := by
  induction text with
  | nil => rfl
  | cons character rest ih =>
      obtain ⟨first, others⟩ := Bool.and_eq_true_iff.mp plain
      rw [unquoted, if_pos rfl, step_plain first, ih others]

end Lexical

/-! ## Words -/

open Lexical (isPlain)

theorem isPlain_of_isWordCharacter {character : Char}
    (inWord : Text.isWordCharacter character) : isPlain character := by
  rcases Bool.or_eq_true_iff.mp inWord with alphanumeric | underscore
  · simp [isPlain, alphanumeric]
  · rw [eq_of_beq underscore]
    rfl

theorem isPlain_of_isPlainWord {word : Text} (isWord : Text.isPlainWord word) :
    word.all isPlain := by
  cases word with
  | nil => simp [Text.isPlainWord] at isWord
  | cons first rest =>
      obtain ⟨start, others⟩ := Bool.and_eq_true_iff.mp isWord
      refine Bool.and_eq_true_iff.mpr ⟨?_, List.all_eq_true.mpr fun character member => ?_⟩
      · rcases Bool.or_eq_true_iff.mp start with letter | underscore
        · simp [isPlain, Char.isAlphanum, letter]
        · rw [eq_of_beq underscore]
          rfl
      · have wordCharacter := List.all_eq_true.mp others character member
        rcases Bool.or_eq_true_iff.mp wordCharacter with inWord | dollar
        · exact isPlain_of_isWordCharacter inWord
        · rw [eq_of_beq dollar]
          rfl

/-- Plain characters are characters of ASCII. -/
theorem toNat_lt_of_isPlain {character : Char} (plain : isPlain character) :
    character.toNat < 128 := by
  have atMost : ∀ code : UInt32, code.toNat < 128 → character.val ≤ code →
      character.toNat < 128 :=
    fun _ small below => Nat.lt_of_le_of_lt (UInt32.le_iff_toNat_le.mp below) small
  rcases Bool.or_eq_true_iff.mp plain with alphanumeric | sign
  · rcases Bool.or_eq_true_iff.mp alphanumeric with letter | digit
    · rcases Bool.or_eq_true_iff.mp letter with upper | lower
      · exact atMost 90 (by decide) (of_decide_eq_true upper).2
      · exact atMost 122 (by decide) (of_decide_eq_true (Bool.and_eq_true_iff.mp lower).2)
    · exact atMost 57 (by decide) (of_decide_eq_true (Bool.and_eq_true_iff.mp digit).2)
  · have signs : (" _$.,=!-*".toList.all fun other => other.toNat < 128) = true := rfl
    exact of_decide_eq_true (List.all_eq_true.mp signs character (List.contains_iff_mem.mp sign))

/-- Letter case makes no difference to being plain. -/
theorem uppercase_isPlain {text : Text} (plain : text.all isPlain) :
    (Text.uppercase text).all isPlain := by
  rw [Text.uppercase, List.all_map, List.all_eq_true]
  intro character member
  have ofText := List.all_eq_true.mp plain character member
  exact Text.of_ascii (fun other => isPlain other → isPlain other.toUpper) (by decide)
    (toNat_lt_of_isPlain ofText) ofText

end SqlComposer
