import Mathlib.Tactic.SplitIfs
import SqlComposer.Value.Encoding

/-!
# What literals denote

The server reads a string literal from its opening mark to its closing mark and
undoes the escapes in between.  What a letter behind a backslash stands for is
the reader's own table, kept apart here from the table by which texts are
escaped: a text comes back only where the two agree.

Whatever the table is, a literal that escaping wrote is read to its last
character, and each character of the text is seen on its own, as what the table
has for the letter it was written by (`SeenAs`, `denoted?_inMarks_escapedWith`).
Under the server's table outside patterns two characters are seen as others
(`seenAs_received`).  An escaped percent sign keeps its backslash, which the
server leaves in place for a pattern that may follow.  And U+001A is written with
a small `z`, where the server's table has a capital one.  So a text is stored as
it was given exactly when it holds neither of them (`Value.stored_iff`).
-/

namespace SqlComposer

set_option autoImplicit false

namespace Literal

/-! ## Reading a literal -/

/-- What the rest of a literal denotes, read behind its opening mark; there is nothing to read when
the literal ends too early or not at all. -/
def readBody? (meaning : Char → Text) : Text → Option Text
  | [] => none
  | '\x27' :: rest => if rest.isEmpty then some [] else none
  | ['\\'] => none
  | '\\' :: letter :: rest => (readBody? meaning rest).map (meaning letter ++ ·)
  | character :: rest => (readBody? meaning rest).map (character :: ·)

/-- What a literal denotes to a reader who has a meaning for each character behind a backslash. -/
def denoted? (meaning : Char → Text) : Text → Option Text
  | '\x27' :: rest => readBody? meaning rest
  | _ => none

theorem readBody?_cons (meaning : Char → Text) {character : Char} (notMark : character ≠ '\x27')
    (notBackslash : character ≠ '\\') (rest : Text) :
    readBody? meaning (character :: rest) = (readBody? meaning rest).map (character :: ·) := by
  rw [readBody?]
  · exact notMark
  · exact fun backslash _ => notBackslash backslash
  · exact fun _ _ backslash => absurd backslash notBackslash

/-- Reading goes over plain text and on to what stands behind. -/
theorem readBody?_plain_append (meaning : Char → Text) {plain : Text} (noMark : '\x27' ∉ plain)
    (noBackslash : '\\' ∉ plain) (rest : Text) :
    readBody? meaning (plain ++ rest) = (readBody? meaning rest).map (plain ++ ·) := by
  induction plain with
  | nil => simp
  | cons character plain ih =>
      rw [List.mem_cons, not_or] at noMark noBackslash
      rw [List.cons_append, readBody?_cons meaning (Ne.symm noMark.1) (Ne.symm noBackslash.1),
        ih noMark.2 noBackslash.2, Option.map_map]
      rfl

/-! ## Reading what was escaped -/

/-- The letters that stand behind a backslash, each with the character that is written so. -/
def letters (percentSigns : PercentSigns) : List (Char × Char) :=
  [('0', '\x00'), ('b', '\x08'), ('t', '\t'), ('z', '\x1a'), ('n', '\n'), ('r', '\r'),
    ('\x22', '\x22'), ('\x27', '\x27'), ('\\', '\\')] ++
  match percentSigns with
  | .kept => []
  | .escaped => [('%', '%')]

/-- A character is written by its letter, or it stands for itself when it has none. -/
theorem escapedCharacter_cases (percentSigns : PercentSigns) (character : Char) :
    (∃ letter, (letter, character) ∈ letters percentSigns ∧
      escapedCharacter percentSigns character = ['\\', letter]) ∨
    (character ∉ (letters percentSigns).map Prod.snd ∧
      escapedCharacter percentSigns character = [character]) := by
  generalize same : escapedCharacter percentSigns character = written
  unfold escapedCharacter at same
  split_ifs at same with nul backspace tab substitute newline carriageReturn special percent
  all_goals subst same
  · exact .inl ⟨'0', by simp [letters, nul], rfl⟩
  · exact .inl ⟨'b', by simp [letters, backspace], rfl⟩
  · exact .inl ⟨'t', by simp [letters, tab], rfl⟩
  · exact .inl ⟨'z', by simp [letters, substitute], rfl⟩
  · exact .inl ⟨'n', by simp [letters, newline], rfl⟩
  · exact .inl ⟨'r', by simp [letters, carriageReturn], rfl⟩
  · exact .inl ⟨character, by rcases special with rfl | rfl | rfl <;> simp [letters], rfl⟩
  · exact .inl ⟨'%', by simp [letters, percent], rfl⟩
  · refine .inr ⟨?_, rfl⟩
    cases percentSigns <;> simp_all [letters]

/-- How the characters of a text are seen by a reader of its literal. -/
structure SeenAs (meaning : Char → Text) (percentSigns : PercentSigns) (seen : Char → Text) :
    Prop where
  ofLetter : ∀ pair ∈ letters percentSigns, meaning pair.1 = seen pair.2
  ofOther : ∀ character ∉ (letters percentSigns).map Prod.snd, seen character = [character]

variable {meaning seen : Char → Text} {percentSigns : PercentSigns}

/-- A character without a letter is neither a mark nor a backslash. -/
theorem ne_of_notMem_letters {character : Char}
    (plain : character ∉ (letters percentSigns).map Prod.snd) :
    character ≠ '\x27' ∧ character ≠ '\\' := by
  constructor <;> rintro rfl <;> exact plain (by cases percentSigns <;> decide)

theorem readBody?_escapedCharacter_append (seenAs : SeenAs meaning percentSigns seen)
    (character : Char) (rest : Text) :
    readBody? meaning (escapedCharacter percentSigns character ++ rest)
      = (readBody? meaning rest).map (seen character ++ ·) := by
  rcases escapedCharacter_cases percentSigns character with
    ⟨letter, named, escape⟩ | ⟨plain, same⟩
  · rw [escape, ← seenAs.ofLetter _ named]
    rfl
  · obtain ⟨notMark, notBackslash⟩ := ne_of_notMem_letters plain
    rw [same, seenAs.ofOther character plain]
    exact readBody?_cons meaning notMark notBackslash rest

/-- Reading goes through an escaped text character by character and on to what stands behind. -/
theorem readBody?_escapedWith_append (seenAs : SeenAs meaning percentSigns seen)
    (text rest : Text) :
    readBody? meaning (escapedWith percentSigns text ++ rest)
      = (readBody? meaning rest).map (text.flatMap seen ++ ·) := by
  unfold escapedWith
  induction text with
  | nil => simp
  | cons character text ih =>
      rw [List.flatMap_cons, List.append_assoc, readBody?_escapedCharacter_append seenAs, ih,
        Option.map_map, List.flatMap_cons]
      congr 1
      funext behind
      exact (List.append_assoc _ _ _).symm

/-- The literal of a text denotes what its characters are seen as. -/
theorem denoted?_inMarks_escapedWith (seenAs : SeenAs meaning percentSigns seen) (text : Text) :
    denoted? meaning (inMarks (escapedWith percentSigns text)) = some (text.flatMap seen) := by
  have closing : readBody? meaning ['\x27'] = some [] := rfl
  rw [inMarks, List.cons_append, denoted?, readBody?_escapedWith_append seenAs, closing,
    Option.map_some, List.append_nil]

/-- A text is seen as it is when all its characters are, if a character that is seen otherwise
begins with another one. -/
theorem flatMap_eq_self_iff
    (apart : ∀ character, seen character = [character] ∨
      ∃ first rest, seen character = first :: rest ∧ first ≠ character)
    (text : Text) :
    text.flatMap seen = text ↔ ∀ character ∈ text, seen character = [character] := by
  induction text with
  | nil => simp
  | cons character text ih =>
      rw [List.flatMap_cons, List.forall_mem_cons]
      rcases apart character with same | ⟨first, rest, other, ne⟩
      · simp [same, ih]
      · have notSame : seen character ≠ [character] := fun same => by
          rw [same] at other
          exact ne (List.head_eq_of_cons_eq other).symm
        simp [other, ne]

/-! ## The server outside patterns -/

/-- What a character behind a backslash stands for outside patterns. -/
def serverMeaning : Char → Text
  | '0' => ['\x00']
  | 'b' => ['\x08']
  | 't' => ['\t']
  | 'n' => ['\n']
  | 'r' => ['\r']
  | 'Z' => ['\x1a']
  | '%' => "\\%"
  | '_' => "\\_"
  | character => [character]

/-- What the server receives for a character of a text. -/
def received (percentSigns : PercentSigns) (character : Char) : Text :=
  if character = '\x1a' then "z"
  else if character = '%' ∧ percentSigns = .escaped then "\\%"
  else [character]

/-- Outside patterns the server has another character for two letters only. -/
theorem seenAs_received (percentSigns : PercentSigns) :
    SeenAs serverMeaning percentSigns (received percentSigns) where
  ofLetter := by cases percentSigns <;> decide
  ofOther := by
    intro character plain
    unfold received
    split_ifs with substitute percent
    · subst substitute
      exact absurd (by cases percentSigns <;> decide) plain
    · obtain ⟨rfl, rfl⟩ := percent
      exact absurd (by decide) plain
    · rfl

theorem received_eq_singleton_iff (percentSigns : PercentSigns) (character : Char) :
    received percentSigns character = [character]
      ↔ ¬ (character = '%' ∧ percentSigns = .escaped) ∧ character ≠ '\x1a' := by
  unfold received
  split_ifs with substitute percent
  · simp [substitute]
  · simp [percent]
  · simp [substitute, percent]

theorem received_apart (percentSigns : PercentSigns) (character : Char) :
    received percentSigns character = [character] ∨
      ∃ first rest, received percentSigns character = first :: rest ∧ first ≠ character := by
  unfold received
  split_ifs with substitute percent
  · exact .inr ⟨_, _, rfl, by rw [substitute]; decide⟩
  · exact .inr ⟨_, _, rfl, by rw [percent.1]; decide⟩
  · exact .inl rfl

/-- The server receives a text character by character. -/
theorem denoted?_serverMeaning (percentSigns : PercentSigns) (text : Text) :
    denoted? serverMeaning (inMarks (escapedWith percentSigns text))
      = some (text.flatMap (received percentSigns)) :=
  denoted?_inMarks_escapedWith (seenAs_received percentSigns) text

/-- The server receives the text itself when it receives each character itself. -/
theorem denoted?_serverMeaning_eq_iff (percentSigns : PercentSigns) (text : Text) :
    denoted? serverMeaning (inMarks (escapedWith percentSigns text)) = some text
      ↔ ¬ ('%' ∈ text ∧ percentSigns = .escaped) ∧ '\x1a' ∉ text := by
  rw [denoted?_serverMeaning, Option.some.injEq,
    flatMap_eq_self_iff (received_apart percentSigns)]
  simp only [received_eq_singleton_iff]
  constructor
  · intro each
    exact ⟨fun percent => (each _ percent.1).1 ⟨rfl, percent.2⟩,
      fun substitute => (each _ substitute).2 rfl⟩
  · rintro ⟨noPercent, noSubstitute⟩ character member
    refine ⟨?_, ?_⟩
    · rintro ⟨rfl, signs⟩
      exact noPercent ⟨member, signs⟩
    · rintro rfl
      exact noSubstitute member

end Literal

/-! ## What is stored -/

namespace Value

/-- A text that is neither a call nor a quoted path is written as a literal, and the server receives
it as it was given exactly when no percent sign and no U+001A stand in it.  The literal that keeps
percent signs is received as given exactly when no U+001A stands in it. -/
theorem stored_iff (functions : FunctionSet) (text : Text) :
    (functions.call? text = none → isQuotedPath 3 text = false →
      ∃ written, sql functions (.text text) = .ok written ∧
        Literal.denoted? Literal.serverMeaning written
          = some (text.flatMap (Literal.received .escaped)) ∧
        (Literal.denoted? Literal.serverMeaning written = some text
          ↔ '%' ∉ text ∧ '\x1a' ∉ text)) ∧
    Literal.denoted? Literal.serverMeaning (Literal.exactLiteral text)
      = some (text.flatMap (Literal.received .kept)) ∧
    (Literal.denoted? Literal.serverMeaning (Literal.exactLiteral text) = some text
      ↔ '\x1a' ∉ text) := by
  refine ⟨fun notCall notPath => ?_, Literal.denoted?_serverMeaning .kept text, ?_⟩
  · have written : textSql functions text = Literal.literal text := by
      simp [textSql, notCall, notPath]
    refine ⟨Literal.literal text, ?_, Literal.denoted?_serverMeaning .escaped text, ?_⟩
    · rw [sql, written]
    · rw [Literal.literal, Literal.escaped, Literal.denoted?_serverMeaning_eq_iff]
      simp
  · rw [Literal.exactLiteral, Literal.denoted?_serverMeaning_eq_iff]
    simp

/-- Marks, backslashes and control characters reach the server unchanged. -/
theorem stored_marks_and_controls :
    ∃ written, sql FunctionSet.standard (.text "C:\\new \"it's\"\n\t") = .ok written ∧
      Literal.denoted? Literal.serverMeaning written = some "C:\\new \"it's\"\n\t".toList := by
  obtain ⟨written, ok, _, stored⟩ :=
    (stored_iff FunctionSet.standard "C:\\new \"it's\"\n\t").1 (by decide) (by decide)
  exact ⟨written, ok, stored.mpr (by decide)⟩

/-- A percentage is stored with a backslash in it; and U+001A as the letter that names it, even
where percent signs are kept. -/
theorem percentage_is_stored_with_backslash :
    FunctionSet.standard.call? "50%" = none ∧ isQuotedPath 3 "50%" = false ∧
    sql FunctionSet.standard (.text "50%") = .ok "'50\\%'".toList ∧
    Literal.denoted? Literal.serverMeaning "'50\\%'" = some "50\\%".toList ∧
    Literal.denoted? Literal.serverMeaning (Literal.exactLiteral "a\x1a") = some "az".toList := by
  decide

end Value

end SqlComposer
