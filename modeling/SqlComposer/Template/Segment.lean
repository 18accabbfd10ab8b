import SqlComposer.Template.Piece
import SqlComposer.Text.Utf8

/-!
# The scan of a template

A template is scanned byte by byte (`segmentsFrom?`).  The scan knows the byte of the
quotation mark that is open, the index of the next byte, and the index at which the text
starts that is not reported yet.  Behind a backslash in a string it jumps over one byte,
into a character of several bytes or past the end of the template.  What it reports is
sliced out of the template, and a slice fails inside of a character.

No slice does.  The scan goes along with the reader of characters that cuts a template
into pieces: where that reader is outside of quotes or in them, the index is at the
boundary behind the characters read, and behind a backslash it is one byte further
(`openMark`, `ahead`).  From there the scan runs on to the end of the character, whose
other bytes are none of the marks it looks for (`segmentsFrom?_step`).  So it always has a
result, and the pieces of what it reports are the pieces of the template
(`exists_segments?`).
-/

namespace SqlComposer

set_option autoImplicit false

open Lexical

namespace Template

/-! ## The scan -/

/-- A run of text without markers, or a marker. -/
inductive Segment
  | text (run : Text)
  | positional
  | named (name : Text)

/-- The number of bytes in the run of name characters behind the byte at an index. -/
def nameLength? (template : Text) (index : Nat) : Option Nat := do
  let rest ← Text.slice? template (index + 1) (Text.bytes template).length
  return Text.byteLength (rest.takeWhile Text.isWordCharacter)

/-- The segments of a template from an index in its bytes on, where `quote` is the byte of the mark
that is open and the text to be reported next starts at `start`. -/
def segmentsFrom? (template : Text) (quote : Option UInt8) (start index : Nat) :
    Option (List Segment) :=
  if inside : index < (Text.bytes template).length then
    let octet := (Text.bytes template)[index]
    match quote with
    | some mark =>
        if octet = '\\'.toUInt8 ∧ mark ≠ Text.tick.toUInt8 then
          -- This may lead into a character of several bytes, or past the end.
          segmentsFrom? template (some mark) start (index + 2)
        else if octet = mark then segmentsFrom? template none start (index + 1)
        else segmentsFrom? template (some mark) start (index + 1)
    | none =>
        if octet = '\x27'.toUInt8 ∨ octet = '\x22'.toUInt8 ∨ octet = Text.tick.toUInt8 then
          segmentsFrom? template (some octet) start (index + 1)
        else if octet = '?'.toUInt8 then do
          let run ← Text.slice? template start index
          let others ← segmentsFrom? template none (index + 1) (index + 1)
          return .text run :: .positional :: others
        else if octet = ':'.toUInt8 then do
          let behindColon :=
            decide (0 < index) && (Text.bytes template)[index - 1]? == some ':'.toUInt8
          let length ← nameLength? template index
          let name ← Text.slice? template (index + 1) (index + 1 + length)
          if !behindColon && Text.isPlainWord name then
            let run ← Text.slice? template start index
            let others ← segmentsFrom? template none (index + 1 + length) (index + 1 + length)
            return .text run :: .named name :: others
          else segmentsFrom? template none start (index + 1)
        else segmentsFrom? template none start (index + 1)
  else do
    let length := (Text.bytes template).length
    let run ← Text.slice? template (min start length) length
    return [.text run]
  termination_by (Text.bytes template).length - index

/-- The segments of a template, if no slice of it fails. -/
def segments? (template : Text) : Option (List Segment) :=
  segmentsFrom? template none 0 0

/-! ## Bytes and modes -/

/-- The byte of the quotation mark that is open in a mode. -/
def openMark : Mode → Option UInt8
  | .outside => none
  | .quoted mark => some mark.character.toUInt8
  | .escaped mark => some mark.character.toUInt8

/-- The number of bytes of the next character that are already passed in a mode. -/
def ahead : Mode → Nat
  | .escaped _ => 1
  | _ => 0

section Bytes

variable {before rest : Text} {character : Char} {start offset : Nat}

/-- A byte of a character is there, and is a mark only when the character is that mark. -/
theorem exists_octet_iff (before rest : Text) (inside : offset < character.utf8Size) :
    ∃ within : Text.byteLength before + offset <
        (Text.bytes (before ++ character :: rest)).length,
      ∀ mark : Char, mark.utf8Size = 1 →
        ((Text.bytes (before ++ character :: rest))[Text.byteLength before + offset] =
          mark.toUInt8 ↔ character = mark) := by
  have fits : offset < (String.utf8EncodeChar character).length := by
    rwa [String.length_utf8EncodeChar]
  have encoded := List.getElem?_eq_getElem fits
  obtain ⟨within, same⟩ :=
    List.getElem?_eq_some_iff.mp ((Text.getElem?_bytes inside).trans encoded)
  refine ⟨within, fun _ ascii => ?_⟩
  rw [same]
  exact Text.octet_eq_iff_of_ascii ascii encoded

theorem character_utf8Size (mark : QuoteMark) : mark.character.utf8Size = 1 := by
  cases mark <;> rfl

theorem ne_tick_iff (mark : QuoteMark) :
    mark.character.toUInt8 ≠ Text.tick.toUInt8 ↔ EscapeRule.inStrings mark := by
  cases mark <;> decide

/-- In quotes the scan looks for a backslash and for the mark that is open. -/
theorem segmentsFrom?_quoted (inside : offset < character.utf8Size) (mark : QuoteMark) :
    segmentsFrom? (before ++ character :: rest) (some mark.character.toUInt8) start
        (Text.byteLength before + offset) =
      if character = '\\' ∧ EscapeRule.inStrings mark then
        segmentsFrom? (before ++ character :: rest) (some mark.character.toUInt8) start
          (Text.byteLength before + offset + 2)
      else if character = mark.character then
        segmentsFrom? (before ++ character :: rest) none start
          (Text.byteLength before + offset + 1)
      else
        segmentsFrom? (before ++ character :: rest) (some mark.character.toUInt8) start
          (Text.byteLength before + offset + 1) := by
  obtain ⟨within, isMark⟩ := exists_octet_iff before rest inside
  rw [segmentsFrom?, dif_pos within]
  simp only [isMark '\\' rfl, isMark _ (character_utf8Size mark), ne_tick_iff]

/-- Outside of quotes the scan opens quotes as a reader of the character does. -/
theorem segmentsFrom?_outside (inside : offset < character.utf8Size) (notQuestion : character ≠ '?')
    (notColon : character ≠ ':') :
    segmentsFrom? (before ++ character :: rest) none start (Text.byteLength before + offset) =
      segmentsFrom? (before ++ character :: rest)
        (openMark (Mode.outside.step .inStrings character)) start
        (Text.byteLength before + offset + 1) := by
  obtain ⟨within, isMark⟩ := exists_octet_iff before rest inside
  rw [segmentsFrom?, dif_pos within]
  simp only [isMark '\x27' rfl, isMark '\x22' rfl, isMark Text.tick rfl, isMark '?' rfl,
    isMark ':' rfl, if_neg notQuestion, if_neg notColon]
  cases quote : QuoteMark.ofCharacter? character with
  | some mark =>
      obtain rfl := QuoteMark.ofCharacter?_eq_some_iff.mp quote
      have opens : mark.character = '\x27' ∨ mark.character = '\x22' ∨
          mark.character = Text.tick := by
        cases mark <;> decide
      rw [if_pos opens, (isMark _ (character_utf8Size mark)).mpr rfl, Mode.step, quote]
      rfl
  | none =>
      have noMark := QuoteMark.ofCharacter?_eq_none_iff.mp quote
      have opensNone : ¬ (character = '\x27' ∨ character = '\x22' ∨ character = Text.tick) := by
        rintro (single | double | tick)
        · exact noMark .single single
        · exact noMark .double double
        · exact noMark .tick tick
      rw [if_neg opensNone, Mode.step, quote]
      rfl

/-- A character outside of ASCII opens and closes nothing. -/
theorem step_of_large (large : ¬ character.utf8Size = 1) (mode : Mode) :
    openMark (mode.step .inStrings character) = openMark mode ∧
      ahead (mode.step .inStrings character) = 0 := by
  have noMark : ∀ mark : Char, mark.utf8Size = 1 → character ≠ mark := fun _ ascii same =>
    large (same ▸ ascii)
  cases mode with
  | outside =>
      have noQuote : QuoteMark.ofCharacter? character = none :=
        QuoteMark.ofCharacter?_eq_none_iff.mpr fun mark => noMark _ (character_utf8Size mark)
      rw [Mode.step, noQuote]
      exact ⟨rfl, rfl⟩
  | quoted mark =>
      rw [Mode.step, if_neg fun both => noMark _ rfl both.1,
        if_neg (noMark _ (character_utf8Size mark))]
      exact ⟨rfl, rfl⟩
  | escaped mark => exact ⟨rfl, rfl⟩

/-- No byte of a character outside of ASCII is a mark. -/
theorem segmentsFrom?_inside (inside : offset < character.utf8Size)
    (large : ¬ character.utf8Size = 1) (mode : Mode) :
    segmentsFrom? (before ++ character :: rest) (openMark mode) start
        (Text.byteLength before + offset) =
      segmentsFrom? (before ++ character :: rest) (openMark mode) start
        (Text.byteLength before + (offset + 1)) := by
  have noMark : ∀ mark : Char, mark.utf8Size = 1 → character ≠ mark := fun _ ascii same =>
    large (same ▸ ascii)
  have inQuotes : ∀ mark, segmentsFrom? (before ++ character :: rest)
      (openMark (.quoted mark)) start (Text.byteLength before + offset) =
    segmentsFrom? (before ++ character :: rest) (openMark (.quoted mark)) start
      (Text.byteLength before + (offset + 1)) := by
    intro mark
    refine (segmentsFrom?_quoted inside mark).trans ?_
    rw [if_neg fun both => noMark '\\' rfl both.1, if_neg (noMark _ (character_utf8Size mark))]
    rfl
  cases mode with
  | outside =>
      refine (segmentsFrom?_outside inside (noMark _ rfl) (noMark _ rfl)).trans ?_
      rw [(step_of_large large .outside).1]
      rfl
  | quoted mark => exact inQuotes mark
  | escaped mark => exact inQuotes mark

/-- The scan passes the rest of a character outside of ASCII. -/
theorem segmentsFrom?_passed (within : offset ≤ character.utf8Size)
    (large : ¬ character.utf8Size = 1) (mode : Mode) :
    segmentsFrom? (before ++ character :: rest) (openMark mode) start
        (Text.byteLength before + offset) =
      segmentsFrom? (before ++ character :: rest) (openMark mode) start
        (Text.byteLength (before ++ [character])) := by
  have whole : Text.byteLength (before ++ [character]) =
      Text.byteLength before + character.utf8Size := Text.byteLength_append before [character]
  rw [whole]
  -- The induction is on the number of bytes that are left.
  generalize left : character.utf8Size - offset = count
  induction count generalizing offset with
  | zero => rw [Nat.le_antisymm within (Nat.sub_eq_zero_iff_le.mp left)]
  | succ count ih => rw [segmentsFrom?_inside (by omega) large, ih (by omega) (by omega)]

/-- A character that is no marker leads the scan on as it leads a reader of characters. -/
theorem segmentsFrom?_step {mode : Mode}
    (silent : mode = .outside → character ≠ '?' ∧ character ≠ ':') :
    segmentsFrom? (before ++ character :: rest) (openMark mode) start
        (Text.byteLength before + ahead mode) =
      segmentsFrom? (before ++ character :: rest) (openMark (mode.step .inStrings character)) start
        (Text.byteLength (before ++ [character]) + ahead (mode.step .inStrings character)) := by
  have positive := character.utf8Size_pos
  by_cases ascii : character.utf8Size = 1
  · have length : Text.byteLength (before ++ [character]) = Text.byteLength before + 1 := by
      rw [Text.byteLength_append, Text.byteLength, ascii]
      rfl
    rw [length]
    cases mode with
    | outside =>
        obtain ⟨notQuestion, notColon⟩ := silent rfl
        have stays : ahead (Mode.outside.step .inStrings character) = 0 := by
          rw [Mode.step]
          split <;> rfl
        rw [stays]
        exact segmentsFrom?_outside positive notQuestion notColon
    | quoted mark =>
        refine (segmentsFrom?_quoted positive mark).trans ?_
        rw [Mode.step]
        by_cases escapes : character = '\\' ∧ EscapeRule.inStrings mark
        · simp only [if_pos escapes]
          rfl
        by_cases closes : character = mark.character
        · simp only [if_neg escapes, if_pos closes]
          rfl
        · simp only [if_neg escapes, if_neg closes]
          rfl
    | escaped mark => rfl
  · obtain ⟨sameMark, notAhead⟩ := step_of_large ascii mode
    have within : ahead mode ≤ character.utf8Size := by
      cases mode with
      | escaped mark => exact positive
      | _ => exact Nat.zero_le _
    rw [sameMark, notAhead]
    exact segmentsFrom?_passed within ascii mode

end Bytes

/-! ## What the scan reports -/

section Reports

variable (front kept rest : Text)

/-- At the end the scan reports what is left, also when it jumped past the end. -/
theorem segmentsFrom?_end (mode : Mode) :
    segmentsFrom? (front ++ kept) (openMark mode) (Text.byteLength front)
        (Text.byteLength (front ++ kept) + ahead mode) = some [.text kept] := by
  have atMost : Text.byteLength front ≤ Text.byteLength (front ++ kept) := by
    rw [Text.byteLength_append]
    exact Nat.le_add_right _ _
  have whole := Text.slice?_append front kept []
  rw [List.append_nil] at whole
  have behind : ¬ Text.byteLength (front ++ kept) + ahead mode <
      (Text.bytes (front ++ kept)).length := by
    rw [Text.length_bytes]
    exact Nat.not_lt.mpr (Nat.le_add_right _ _)
  rw [segmentsFrom?, dif_neg behind]
  simp only [Text.length_bytes, Nat.min_eq_left atMost, whole, Option.bind_eq_bind,
    Option.bind_some]
  rfl

/-- The byte in front of an index shows whether a colon stands there. -/
theorem behindColon_iff (before rest : Text) :
    (decide (0 < Text.byteLength before) &&
        (Text.bytes (before ++ rest))[Text.byteLength before - 1]? == some ':'.toUInt8) ↔
      before.getLast? = some ':' := by
  rcases List.eq_nil_or_concat before with rfl | ⟨others, last, rfl⟩
  · exact iff_of_false (by simp [Text.byteLength]) (by simp)
  · have positive := last.utf8Size_pos
    have length : Text.byteLength (others.concat last) =
        Text.byteLength others + last.utf8Size := by
      rw [List.concat_eq_append]
      exact Text.byteLength_append others [last]
    have place : Text.byteLength (others.concat last) - 1 =
        Text.byteLength others + (last.utf8Size - 1) := by omega
    obtain ⟨within, isMark⟩ := exists_octet_iff others rest (Nat.sub_lt positive Nat.one_pos)
    have isPositive : 0 < Text.byteLength (others.concat last) := by omega
    rw [place, decide_eq_true isPositive, List.concat_eq_append, List.append_assoc,
      List.singleton_append, List.getElem?_eq_getElem within, List.getLast?_concat]
    simp [isMark ':' rfl]

/-- At a question mark the scan reports what stands in front of it and starts anew behind it. -/
theorem segmentsFrom?_positional :
    segmentsFrom? (front ++ kept ++ '?' :: rest) none (Text.byteLength front)
        (Text.byteLength (front ++ kept)) =
      (segmentsFrom? (front ++ kept ++ '?' :: rest) none
          (Text.byteLength (front ++ kept ++ ['?'])) (Text.byteLength (front ++ kept ++ ['?']))).map
        fun others => .text kept :: .positional :: others := by
  have length : Text.byteLength (front ++ kept ++ ['?']) =
      Text.byteLength (front ++ kept) + 1 := Text.byteLength_append _ ['?']
  have report := Text.slice?_append front kept ('?' :: rest)
  obtain ⟨within, isMark⟩ :=
    exists_octet_iff (front ++ kept) rest (show 0 < '?'.utf8Size from Nat.one_pos)
  have isQuestion := (isMark '?' rfl).mpr rfl
  simp only [Nat.add_zero] at within isQuestion
  have noQuote : ¬ ('?'.toUInt8 = '\x27'.toUInt8 ∨ '?'.toUInt8 = '\x22'.toUInt8 ∨
      '?'.toUInt8 = Text.tick.toUInt8) := by decide
  rw [length, segmentsFrom?, dif_pos within]
  simp only [isQuestion, if_neg noQuote, if_true, report, Option.bind_eq_bind,
    Option.bind_some, Option.map_eq_bind]
  rfl

/-- The run of name characters behind a colon, found by its number of bytes. -/
theorem nameLength?_eq (before rest : Text) :
    nameLength? (before ++ ':' :: rest) (Text.byteLength before) =
      some (Text.byteLength (rest.takeWhile Text.isWordCharacter)) := by
  have place : Text.byteLength (before ++ [':']) = Text.byteLength before + 1 :=
    Text.byteLength_append _ [':']
  have whole := Text.slice?_append (before ++ [':']) rest []
  rw [List.append_nil, List.append_assoc, List.singleton_append, place] at whole
  rw [nameLength?, Text.length_bytes, whole]
  rfl

theorem slice?_name (before rest : Text) :
    Text.slice? (before ++ ':' :: rest) (Text.byteLength before + 1)
        (Text.byteLength before + 1 + Text.byteLength (rest.takeWhile Text.isWordCharacter)) =
      some (rest.takeWhile Text.isWordCharacter) := by
  have place : Text.byteLength (before ++ [':']) = Text.byteLength before + 1 :=
    Text.byteLength_append _ [':']
  have whole := Text.slice?_append (before ++ [':']) (rest.takeWhile Text.isWordCharacter)
    (rest.dropWhile Text.isWordCharacter)
  rwa [List.append_assoc, List.takeWhile_append_dropWhile, List.append_assoc,
    List.singleton_append, Text.byteLength_append (before ++ [':']), place] at whole

/-- At a colon the scan decides as the reader of characters does whether a marker starts. -/
theorem segmentsFrom?_colon {name : Text} {behindColon : Bool}
    (isName : name = rest.takeWhile Text.isWordCharacter)
    (colon : (front ++ kept).getLast? = some ':' ↔ behindColon) :
    segmentsFrom? (front ++ kept ++ ':' :: rest) none (Text.byteLength front)
        (Text.byteLength (front ++ kept)) =
      if !behindColon && Text.isPlainWord name then
        (segmentsFrom? (front ++ kept ++ ':' :: rest) none
            (Text.byteLength (front ++ kept ++ ':' :: name))
            (Text.byteLength (front ++ kept ++ ':' :: name))).map
          fun others => .text kept :: .named name :: others
      else
        segmentsFrom? (front ++ kept ++ ':' :: rest) none (Text.byteLength front)
          (Text.byteLength (front ++ kept ++ [':'])) := by
  have behindSign : Text.byteLength (front ++ kept ++ [':']) =
      Text.byteLength (front ++ kept) + 1 := Text.byteLength_append _ [':']
  have behindName : Text.byteLength (front ++ kept ++ ':' :: name) =
      Text.byteLength (front ++ kept) + 1 + Text.byteLength name := by
    rw [List.append_cons, Text.byteLength_append, behindSign]
  have report := Text.slice?_append front kept (':' :: rest)
  have lookBehind := Bool.eq_iff_iff.mpr ((behindColon_iff _ (':' :: rest)).trans colon)
  obtain ⟨within, isMark⟩ :=
    exists_octet_iff (front ++ kept) rest (show 0 < ':'.utf8Size from Nat.one_pos)
  have isColon := (isMark ':' rfl).mpr rfl
  have noQuote : ¬ (':'.toUInt8 = '\x27'.toUInt8 ∨ ':'.toUInt8 = '\x22'.toUInt8 ∨
      ':'.toUInt8 = Text.tick.toUInt8) := by decide
  have noQuestion : ¬ ':'.toUInt8 = '?'.toUInt8 := by decide
  simp only [Nat.add_zero] at within isColon
  rw [behindSign, behindName, segmentsFrom?, dif_pos within]
  simp only [isColon, if_neg noQuote, if_neg noQuestion, if_true, nameLength?_eq,
    slice?_name, lookBehind, report, Option.bind_eq_bind, Option.bind_some, Option.map_eq_bind,
    isName]
  rfl

end Reports

/-! ## Segments and pieces -/

def Segment.pieces : Segment → List Piece
  | .text run => run.map .character
  | .positional => [.positional]
  | .named name => [.named name]

/-- From where a reader of characters stands, the scan has a result.  It reports first what that
reader kept since the last report, and then what that reader finds. -/
theorem exists_segmentsFrom? (mode : Mode) (behindColon : Bool) (passed : Nat)
    (front kept rest : Text)
    (colon : mode = .outside → ((front ++ kept).getLast? = some ':' ↔ behindColon ∧ passed = 0)) :
    ∃ segments, segmentsFrom? (front ++ kept ++ rest.drop passed) (openMark mode)
        (Text.byteLength front) (Text.byteLength (front ++ kept) + ahead mode) = some segments ∧
      segments.flatMap Segment.pieces =
        kept.map .character ++ piecesFrom mode behindColon passed rest := by
  induction mode, behindColon, passed, rest using piecesFrom.induct generalizing front kept with
  | case1 mode behindColon passed =>
      rw [List.drop_nil, List.append_nil, piecesFrom, List.append_nil]
      exact ⟨_, segmentsFrom?_end front kept mode, List.flatMap_singleton ..⟩
  | case2 mode behindColon passed character rest ih =>
      rw [piecesFrom]
      exact ih front kept fun outside => by simpa using colon outside
  | case3 behindColon rest ih =>
      obtain ⟨segments, ok, pieces⟩ :=
        ih (front ++ kept ++ ['?']) [] fun _ => by simp
      rw [List.append_nil, List.append_assoc, List.drop_zero, List.singleton_append] at ok
      refine ⟨_, (segmentsFrom?_positional front kept rest).trans (congrArg _ ok), ?_⟩
      rw [piecesFrom, if_pos rfl]
      simpa [Segment.pieces] using pieces
  | case4 behindColon rest name found notQuestion ih =>
      obtain ⟨isMarker, isName⟩ := Option.ite_none_right_eq_some.mp found
      obtain rfl := Option.some.inj isName
      have plain := (Bool.and_eq_true_iff.mp isMarker).2
      have isWord : rest.takeWhile Text.isWordCharacter ≠ [] := by
        intro empty
        rw [empty] at plain
        cases plain
      obtain ⟨segments, ok, pieces⟩ :=
        ih (front ++ kept ++ ':' :: rest.takeWhile Text.isWordCharacter) []
          fun _ => by
            rw [List.append_nil, List.append_cons]
            exact iff_of_false (getLast?_ne_colon isWord List.all_takeWhile) (by simp)
      have behindName : rest.takeWhile Text.isWordCharacter ++
          rest.drop (rest.takeWhile Text.isWordCharacter).length = rest :=
        List.prefix_iff_eq_append.mp (List.takeWhile_prefix _)
      have atColon := segmentsFrom?_colon front kept rest rfl
        ((colon rfl).trans (and_iff_left rfl))
      rw [if_pos isMarker] at atColon
      rw [List.append_nil, List.append_assoc, List.cons_append, behindName] at ok
      refine ⟨_, atColon.trans (congrArg _ ok), ?_⟩
      simp only [piecesFrom, if_neg notQuestion, reduceIte, found]
      simpa [Segment.pieces] using pieces
  | case5 behindColon rest noName notQuestion ih =>
      obtain ⟨segments, ok, pieces⟩ := ih front (kept ++ [':']) fun _ => by simp
      have noMarker :
          ¬ (!behindColon && Text.isPlainWord (rest.takeWhile Text.isWordCharacter)) := by
        intro isMarker
        rw [markerName?, if_pos isMarker] at noName
        cases noName
      have atColon := segmentsFrom?_colon front kept rest rfl
        ((colon rfl).trans (and_iff_left rfl))
      rw [if_neg noMarker] at atColon
      rw [← List.append_assoc, List.drop_zero, List.append_assoc (front ++ kept),
        List.singleton_append] at ok
      refine ⟨segments, atColon.trans ok, ?_⟩
      simp only [piecesFrom, if_neg notQuestion, reduceIte, noName]
      rw [pieces, List.map_append, List.append_assoc]
      rfl
  | case6 behindColon character rest notQuestion notColon ih =>
      obtain ⟨segments, ok, pieces⟩ := ih front (kept ++ [character])
        fun _ => by simpa using notColon
      rw [← List.append_assoc, List.drop_zero, List.append_assoc (front ++ kept),
        List.singleton_append] at ok
      refine ⟨segments, (segmentsFrom?_step fun _ => ⟨notQuestion, notColon⟩).trans ok, ?_⟩
      rw [piecesFrom, if_neg notQuestion, if_neg notColon, pieces, List.map_append,
        List.append_assoc]
      rfl
  | case7 mode behindColon character rest inside ih =>
      obtain ⟨segments, ok, pieces⟩ := ih front (kept ++ [character])
        fun left => by simpa using ne_colon_of_step inside left
      rw [← List.append_assoc, List.drop_zero, List.append_assoc (front ++ kept),
        List.singleton_append] at ok
      refine ⟨segments, (segmentsFrom?_step fun outside => absurd outside inside).trans ok, ?_⟩
      rw [piecesFrom.eq_4 _ _ _ _ inside, pieces, List.map_append, List.append_assoc]
      rfl

/-- The scan always has a result, and the pieces in it are those of the template. -/
theorem exists_segments? (template : Text) :
    ∃ segments, segments? template = some segments ∧
      segments.flatMap Segment.pieces = pieces template :=
  exists_segmentsFrom? .outside false 0 [] [] template fun _ => by simp

theorem isSome_segments? (template : Text) : (segments? template).isSome := by
  obtain ⟨_, ok, _⟩ := exists_segments? template
  exact Option.isSome_of_eq_some ok

def segments (template : Text) : List Segment :=
  (segments? template).get (isSome_segments? template)

theorem flatMap_segments (template : Text) :
    (segments template).flatMap Segment.pieces = pieces template := by
  obtain ⟨_, ok, same⟩ := exists_segments? template
  rwa [segments, Option.get_of_eq_some _ ok]

end Template

end SqlComposer
