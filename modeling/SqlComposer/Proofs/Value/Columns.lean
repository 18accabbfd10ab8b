import SqlComposer.Proofs.Reference.Quoting
import SqlComposer.Proofs.Value.Forms

/-!
# Columns as values

A column stands for a value as the text of its quoted path, and a text is told from a
column by its form alone.  So the two must not be mixed up: what quoting a name makes has
to be what encoding takes for a path, whatever the name is.

A name has a quoted path exactly when it has at most three pieces between points, none of
them blank or with a NUL character in it (`Column.quote_eq_error_iff`).  The path consists
of trimmed segments without grave accents, which is the language of paths that encoding
leaves alone (`Column.isPath_of_quote`).  A path begins with a grave accent, so it is the
call of no function and no string literal, and quoting it changes nothing.  All this is put
together in `Value.column_staysReference`.
-/

namespace SqlComposer

set_option autoImplicit false

open Text (trimmed)

/-! ## What makes a segment -/

/-- A segment is accepted when it is not empty and holds no NUL character. -/
theorem Reference.checkSegment_eq_ok_iff {segment : Text} :
    checkSegment segment = .ok () ↔ segment ≠ [] ∧ '\x00' ∉ segment := by
  unfold checkSegment
  split_ifs with empty nul
  · simp [List.isEmpty_iff.mp empty]
  · simp [List.contains_iff_mem.mp nul]
  · have nonempty : segment ≠ [] := fun same => empty (List.isEmpty_iff.mpr same)
    have noNul : '\x00' ∉ segment := fun member => nul (List.contains_iff_mem.mpr member)
    exact ⟨fun _ => ⟨nonempty, noNul⟩, fun _ => rfl⟩

namespace Column

/-- The parts of a name between points, without its grave accents. -/
def pieces (name : Text) : List Text :=
  (Reference.unquoted name).splitOn '.'

theorem segments_eq (name : Text) : segments name = (pieces name).map trimmed := rfl

/-- A name cannot be quoted when it has too many pieces, or a blank one, or one with a NUL
character. -/
theorem quote_eq_error_iff {name : Text} :
    (∃ fault, quote name = .error fault) ↔
      3 < (pieces name).length ∨ ∃ piece ∈ pieces name, trimmed piece = [] ∨ '\x00' ∈ piece := by
  have nul : ¬ Text.isBlank '\x00' := by decide
  have accepted : (∀ segment ∈ segments name, Reference.checkSegment segment = .ok ()) ↔
      ∀ piece ∈ pieces name, trimmed piece ≠ [] ∧ '\x00' ∉ piece := by
    simp only [segments_eq, List.forall_mem_map, Reference.checkSegment_eq_ok_iff, trimmed,
      Text.mem_stripWhere_iff nul]
  have isOk : (∃ quoted, quote name = .ok quoted) ↔
      (pieces name).length ≤ 3 ∧ ∀ piece ∈ pieces name, trimmed piece ≠ [] ∧ '\x00' ∉ piece := by
    have length : (segments name).length = (pieces name).length := List.length_map trimmed
    constructor
    · rintro ⟨quoted, ok⟩
      obtain ⟨short, each, _⟩ := quote_eq_ok.mp ok
      exact ⟨length ▸ short, accepted.mp each⟩
    · rintro ⟨short, each⟩
      exact ⟨_, quote_eq_ok.mpr ⟨length ▸ short, accepted.mpr each, rfl⟩⟩
  rw [exists_error_iff, isOk, not_and_or, Nat.not_le]
  simp only [not_forall, not_and_or, not_not, exists_prop]

variable {name quoted : Text} (ok : quote name = .ok quoted)
include ok

/-- A quoted name is a path as encoding knows it. -/
theorem isPath_of_quote : Value.IsPath quoted := by
  obtain ⟨short, accepted, rfl⟩ := quote_eq_ok.mp ok
  refine ⟨segments name, segments_ne_nil name, short, fun segment member => ?_, rfl⟩
  exact ⟨(Reference.checkSegment_eq_ok_iff.mp (accepted segment member)).1,
    (of_mem_segments member).2.1⟩

/-- Quoting a quoted name changes nothing. -/
theorem quote_of_quote : quote quoted = .ok quoted := by
  have same := segments_of_quote ok
  obtain ⟨short, accepted, written⟩ := quote_eq_ok.mp ok
  exact quote_eq_ok.mpr (by rw [same]; exact ⟨short, accepted, written⟩)

end Column

/-! ## Paths among other texts -/

namespace Value.IsPath

variable {path : Text} (isPath : IsPath path)
include isPath

/-- A path begins with a grave accent. -/
theorem head?_eq : path.head? = some Text.tick := by
  obtain ⟨names, nonempty, _, _, rfl⟩ := isPath
  obtain ⟨first, others, rfl⟩ := List.exists_cons_of_ne_nil nonempty
  cases others with
  | nil =>
      rw [List.map_singleton, Text.joined_singleton]
      rfl
  | cons second more =>
      rw [path_cons_cons]
      rfl

/-- No function is called by a path. -/
theorem call?_eq_none (functions : FunctionSet) : functions.call? path = none := by
  refine FunctionSet.call?_eq_none_iff.mpr fun name arguments isCall => ?_
  have start := isPath.head?_eq
  have inName := FunctionSet.isWordCharacter_of_mem_name isCall.isName
  have isName := isCall.isName
  rw [isCall.whole] at start
  cases name with
  | nil => cases isName
  | cons first rest =>
      obtain rfl : first = Text.tick := Option.some.inj start
      exact absurd (inName _ List.mem_cons_self) (by decide)

/-- A path is no string literal. -/
theorem ne_literal (text : Text) : path ≠ Literal.literal text := by
  rintro rfl
  exact absurd (Option.some.inj isPath.head?_eq) (by decide)

/-- A path closes its quotes. -/
theorem isClosed : Lexical.isClosed .inStrings path := by
  have congruence : Lexical.IsCongruence fun first second =>
      Lexical.Sealed (fun _ => True) first ∧ Lexical.Sealed (fun _ => True) second :=
    Lexical.sealed_isCongruence fun _ _ => trivial
  exact (congruence.quotedPath (isQuotedPath_three_iff.mpr isPath)).1.closed

/-- Encoding leaves a path alone. -/
theorem sql_text (functions : FunctionSet) : sql functions (.text path) = .ok path := by
  rw [sql, textSql, isPath.call?_eq_none functions]
  exact congrArg Except.ok (if_pos (isQuotedPath_three_iff.mpr isPath))

end Value.IsPath

/-! ## Columns as values -/

/-- A name stands for a column exactly when it has at most three pieces between points and none of
them is blank or holds a NUL character.  Then its text is a quoted path that is closed, quoted as
itself, and encoded as itself under every set of functions: neither as a call nor as a literal. -/
theorem Value.column_staysReference (name : Text) :
    ((∃ fault, column name = .error fault) ↔ ∃ fault, Column.quote name = .error fault) ∧
    ((∃ fault, Column.quote name = .error fault) ↔
      3 < (Column.pieces name).length ∨
        ∃ piece ∈ Column.pieces name, trimmed piece = [] ∨ '\x00' ∈ piece) ∧
    ∀ quoted, Column.quote name = .ok quoted →
      column name = .ok (.text quoted) ∧ isQuotedPath 3 quoted ∧
        Lexical.isClosed .inStrings quoted ∧ Column.quote quoted = .ok quoted ∧
          ∀ functions : FunctionSet, sql functions (.text quoted) = .ok quoted ∧
            functions.call? quoted = none ∧ ∀ other, quoted ≠ Literal.literal other := by
  refine ⟨?_, Column.quote_eq_error_iff, fun quoted ok => ?_⟩
  · unfold column
    cases Column.quote name <;> simp [Except.map]
  · have isPath := Column.isPath_of_quote ok
    refine ⟨?_, isQuotedPath_three_iff.mpr isPath, isPath.isClosed, Column.quote_of_quote ok, ?_⟩
    · rw [column, ok]
      rfl
    · exact fun functions =>
        ⟨isPath.sql_text functions, isPath.call?_eq_none functions, isPath.ne_literal⟩

/-- A path of three segments with a line break, a parenthesis and odd blanks in it. -/
theorem Value.column_staysReference_lineBreak :
    Column.quote "shop\t.`NOW()`. a\nb\u2003" = .ok "`shop`.`NOW()`.`a\nb`".toList ∧
      column "shop\t.`NOW()`. a\nb\u2003" = .ok (.text "`shop`.`NOW()`.`a\nb`") ∧
        sql .standard (.text "`shop`.`NOW()`.`a\nb`") = .ok "`shop`.`NOW()`.`a\nb`".toList := by
  have ok : Column.quote "shop\t.`NOW()`. a\nb\u2003" = .ok "`shop`.`NOW()`.`a\nb`".toList := by
    decide
  obtain ⟨isColumn, _, _, _, encoded⟩ := (column_staysReference _).2.2 _ ok
  exact ⟨ok, isColumn, (encoded .standard).1⟩

end SqlComposer
