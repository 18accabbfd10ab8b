import SqlComposer.Proofs.Lexical.Tokens
import SqlComposer.Proofs.Value.Columns

/-!
# Rendering columns again

A column that is written where an expression may stand is told from an expression by its
text, without the blanks around it and without grave accents.  It is a path when this text
is one to three plain words with points between them, or one or two and a star
(`Column.isPath_iff`); then it is written as these words between grave accents, however it
was quoted before.  Any other text is kept (`Column.sql_cases`).

What is written for a path is the same path again, and what is kept is kept again.  So
rendering a column twice changes nothing (`Column.sql_sql`).  The same holds of an item to
order by, although its direction is cut off at the last blank first: a path holds no
blanks, so the last blank of what was written is the one in front of the direction
(`Column.orderSql_orderSql`).

Where nothing but a column may stand, blanks count around no segment.  For a path of plain
words this makes no difference, and both ways to write it agree (`Column.quote_of_isWordPath`).
-/

namespace SqlComposer

set_option autoImplicit false

open Text (ticked trimmed uppercase isBlank isPlainWord)

/-! ## The characters of paths -/

namespace Text

/-- The characters of a plain word are not blank, and neither points nor grave accents nor NUL. -/
theorem of_mem_plainWord {word : Text} (isWord : isPlainWord word) {character : Char}
    (member : character ∈ word) :
    isBlank character = false ∧ character ≠ '.' ∧ character ≠ tick ∧ character ≠ '\x00' := by
  have inWord := List.all_eq_true.mp (Lexical.isWordPart_of_isPlainWord isWord).2 _ member
  have small := toNat_lt_of_isPlain (Lexical.isPlain_of_isWordPart inWord)
  exact of_ascii (fun other => Lexical.isWordPart other →
    isBlank other = false ∧ other ≠ '.' ∧ other ≠ tick ∧ other ≠ '\x00') (by decide) small inWord

theorem noBlank_of_any {text : Text} (none : text.any isBlank = false) :
    ∀ character ∈ text, isBlank character = false :=
  fun character member => Bool.eq_false_iff.mpr (List.any_eq_false.mp none character member)

/-- Behind several pieces one more is joined with a separator in front of it. -/
theorem joined_append_singleton (separator : Text) {pieces : List Text} (nonempty : pieces ≠ [])
    (last : Text) : joined separator (pieces ++ [last]) = joined separator pieces ++ separator ++ last := by
  induction pieces with
  | nil => exact absurd rfl nonempty
  | cons first rest ih =>
      cases rest with
      | nil => rw [List.singleton_append, joined_cons_cons, joined_singleton, joined_singleton]
      | cons next more =>
          rw [List.cons_append, List.cons_append, joined_cons_cons, ← List.cons_append,
            ih (List.cons_ne_nil _ _), joined_cons_cons]
          simp only [List.append_assoc]

end Text

namespace Column

/-! ## Blanks around a name -/

/-- Blanks around pieces without points between them are trimmed away with those of the pieces. -/
theorem map_trimmed_splitOn_surrounded {pieces : List Text} (nonempty : pieces ≠ [])
    (noPoint : ∀ piece ∈ pieces, '.' ∉ piece) {before after : Text}
    (blanks : ∀ character ∈ before ++ after, isBlank character) :
    ((before ++ Text.joined "." pieces ++ after).splitOn '.').map trimmed =
      pieces.map trimmed := by
  have lacksPoint : ∀ blank : Text, (∀ character ∈ blank, isBlank character) → '.' ∉ blank :=
    fun _ blanks member => absurd (blanks _ member) (by decide)
  induction pieces generalizing before with
  | nil => exact absurd rfl nonempty
  | cons first rest ih =>
      obtain ⟨head, others⟩ := List.forall_mem_cons.mp noPoint
      obtain ⟨blankBefore, blankAfter⟩ := List.forall_mem_append.mp blanks
      cases rest with
      | nil =>
          have whole : '.' ∉ before ++ first ++ after := by
            simp [lacksPoint before blankBefore, head, lacksPoint after blankAfter]
          rw [Text.joined_singleton, List.splitOn_eq_singleton whole, List.map_singleton,
            List.map_singleton, Text.trimmed_surrounded first blanks]
      | cons next more =>
          have start : '.' ∉ before ++ first := by simp [lacksPoint before blankBefore, head]
          have regroup : before ++ Text.joined "." (first :: next :: more) ++ after =
              (before ++ first) ++ '.' :: ([] ++ Text.joined "." (next :: more) ++ after) := by
            rw [Text.joined_cons_cons]
            simp
          have firstTrimmed : trimmed (before ++ first ++ []) = trimmed first :=
            Text.trimmed_surrounded first (by rwa [List.append_nil])
          have later : (([] ++ Text.joined "." (next :: more) ++ after).splitOn '.').map trimmed =
              (next :: more).map trimmed := ih (List.cons_ne_nil _ _) others blankAfter
          rw [List.append_nil] at firstTrimmed
          rw [regroup, List.splitOn_append_cons_self_of_not_mem start, List.map_cons, firstTrimmed,
            later, ← List.map_cons]

/-- Blanks around a name make no difference to its segments. -/
theorem segments_trimmed (name : Text) : segments (trimmed name) = segments name := by
  obtain ⟨before, after, blanks, whole⟩ := Text.exists_surrounded name
  have noTick : ∀ blank : Text, blank ⊆ before ++ after → Reference.unquoted blank = blank :=
    fun blank part => Reference.unquoted_of_notMem fun tick =>
      absurd (blanks _ (part tick)) (by decide)
  have pieces : Text.joined "." ((Reference.unquoted (trimmed name)).splitOn '.') =
      Reference.unquoted (trimmed name) :=
    List.intercalate_splitOn '.'
  have unquoted : Reference.unquoted name =
      before ++ Reference.unquoted (trimmed name) ++ after := by
    conv_lhs => rw [whole]
    rw [Reference.unquoted_append, Reference.unquoted_append,
      noTick before (List.subset_append_left _ _), noTick after (List.subset_append_right _ _)]
  rw [segments, segments, unquoted, ← pieces]
  rw [map_trimmed_splitOn_surrounded (List.splitOn_ne_nil _ _)
    (fun _ member => Text.notMem_of_mem_splitOn member) blanks, pieces]

/-! ## Paths of plain words -/

/-- A text is plain words with points between them: one or more, and at most as many as the limit. -/
structure IsWordPath (limit : Nat) (text : Text) (words : List Text) : Prop where
  nonempty : words ≠ []
  short : words.length ≤ limit
  plain : ∀ word ∈ words, isPlainWord word
  whole : text = Text.joined "." words

namespace IsWordPath

variable {limit : Nat} {text : Text} {words : List Text} (isPath : IsWordPath limit text words)
include isPath

theorem splitOn_eq : text.splitOn '.' = words := by
  rw [isPath.whole]
  exact List.splitOn_intercalate '.' (fun word member point =>
    (Text.of_mem_plainWord (isPath.plain word member) point).2.1 rfl) isPath.nonempty

theorem tick_notMem : ∀ word ∈ words, Text.tick ∉ word := fun word member tick =>
  (Text.of_mem_plainWord (isPath.plain word member) tick).2.2.1 rfl

/-- The path is found between the grave accents that it is written with. -/
theorem unquoted_quotedPath : Reference.unquoted (quotedPath words) = text := by
  rw [Column.unquoted_quotedPath isPath.tick_notMem, isPath.whole]

theorem quotedPath_ne_nil : quotedPath words ≠ [] := by
  obtain ⟨first, rest, rfl⟩ := List.exists_cons_of_ne_nil isPath.nonempty
  cases rest <;> simp [quotedPath, Text.joined, ticked]

theorem quotedPath_noBlank : ∀ character ∈ quotedPath words, isBlank character = false := by
  have ofTick : isBlank Text.tick = false := by decide
  refine Text.joined_of_forall (fun text => ∀ character ∈ text, isBlank character = false) (by simp)
    (fun first second => ?_) fun written member => ?_
  · have point : isBlank '.' = false := by decide
    intro character inside
    rcases List.mem_append.mp inside with inside | inSecond
    · rcases List.mem_append.mp inside with inFirst | isPoint
      · exact first character inFirst
      · obtain rfl : character = '.' := List.mem_singleton.mp isPoint
        exact point
    · exact second character inSecond
  · obtain ⟨word, inPath, rfl⟩ := List.mem_map.mp member
    intro character inside
    rcases List.mem_cons.mp inside with rfl | inside
    · exact ofTick
    · rcases List.mem_append.mp inside with inWord | isTick
      · exact (Text.of_mem_plainWord (isPath.plain word inPath) inWord).1
      · rw [List.mem_singleton.mp isTick, ofTick]

end IsWordPath

/-- A text is a path of plain words with a star at its end. -/
def IsStarPath (text : Text) (words : List Text) : Prop :=
  ∃ front, text = front ++ ".*" ∧ IsWordPath 2 front words

theorem IsStarPath.splitOn_eq {text : Text} {words : List Text} (isPath : IsStarPath text words) :
    text.splitOn '.' = words ++ [("*" : Text)] := by
  obtain ⟨front, rfl, isWordPath⟩ := isPath
  have star : ("*" : Text).splitOn '.' = [("*" : Text)] := by decide
  exact (List.splitOn_append_cons_self front "*".toList).trans
    (congrArg₂ (· ++ ·) isWordPath.splitOn_eq star)

theorem isPathTail_iff {segments : List Text} :
    isPathTail segments ↔
      (∀ segment ∈ segments, isPlainWord segment) ∨
        ∃ words, (∀ word ∈ words, isPlainWord word) ∧ segments = words ++ [("*" : Text)] := by
  have starOnly : ∀ words : List Text, ([] : List Text) ≠ words ++ [("*" : Text)] :=
    fun words same => absurd same (by simp)
  induction segments using isPathTail.induct with
  | case1 => simp [isPathTail]
  | case2 last =>
      rw [isPathTail, Bool.or_eq_true, beq_iff_eq, List.forall_mem_singleton]
      refine or_congr Iff.rfl ⟨?_, ?_⟩
      · rintro rfl
        exact ⟨[], by simp, rfl⟩
      · rintro ⟨words, _, same⟩
        cases words with
        | nil => exact (List.cons.inj same).1
        | cons first rest => exact absurd (List.cons.inj same).2 (starOnly rest)
  | case3 segment rest several ih =>
      have tail : isPathTail rest ↔ (∀ segment ∈ rest, isPlainWord segment) ∨
          ∃ words, (∀ word ∈ words, isPlainWord word) ∧ rest = words ++ [("*" : Text)] := ih
      rw [isPathTail.eq_3 _ _ several, Bool.and_eq_true, tail, List.forall_mem_cons, and_or_left]
      refine or_congr Iff.rfl ⟨?_, ?_⟩
      · rintro ⟨head, words, plain, rfl⟩
        exact ⟨segment :: words, List.forall_mem_cons.mpr ⟨head, plain⟩, rfl⟩
      · rintro ⟨words, plain, same⟩
        cases words with
        | nil => exact absurd (List.cons.inj same).2 several
        | cons first more =>
            obtain ⟨rfl, rfl⟩ := List.cons.inj same
            obtain ⟨head, others⟩ := List.forall_mem_cons.mp plain
            exact ⟨head, more, others, rfl⟩

/-- The segments of a text make a path when it is a path of words, or one with a star at its end. -/
theorem isPath_iff {text : Text} :
    isPath (text.splitOn '.') ↔
      (∃ words, IsWordPath 3 text words) ∨ ∃ words, IsStarPath text words := by
  have whole : Text.joined "." (text.splitOn '.') = text := List.intercalate_splitOn '.'
  constructor
  · intro isPath
    cases segments : text.splitOn '.' with
    | nil => exact absurd segments (List.splitOn_ne_nil _ _)
    | cons first rest =>
        rw [segments] at isPath whole
        rw [Column.isPath, Bool.and_eq_true, Bool.and_eq_true, decide_eq_true_iff, isPathTail_iff]
          at isPath
        obtain ⟨⟨head, short⟩, others | ⟨words, others, rfl⟩⟩ := isPath
        · exact .inl ⟨first :: rest, List.cons_ne_nil _ _, Nat.succ_le_succ short,
            List.forall_mem_cons.mpr ⟨head, others⟩, whole.symm⟩
        · rw [← List.cons_append, Text.joined_append_singleton "." (List.cons_ne_nil _ _),
            List.append_assoc] at whole
          rw [List.length_append] at short
          exact .inr ⟨first :: words, Text.joined "." (first :: words), whole.symm,
            List.cons_ne_nil _ _, short, List.forall_mem_cons.mpr ⟨head, others⟩, rfl⟩
  · rintro (⟨words, isWordPath⟩ | ⟨words, isStarPath⟩)
    · rw [isWordPath.splitOn_eq]
      obtain ⟨nonempty, short, plain, _⟩ := isWordPath
      obtain ⟨first, rest, rfl⟩ := List.exists_cons_of_ne_nil nonempty
      obtain ⟨head, others⟩ := List.forall_mem_cons.mp plain
      rw [Column.isPath, head, isPathTail_iff.mpr (.inl others), Bool.true_and, Bool.and_true]
      exact decide_eq_true (Nat.le_of_succ_le_succ short)
    · rw [isStarPath.splitOn_eq]
      obtain ⟨_, _, nonempty, short, plain, _⟩ := isStarPath
      obtain ⟨first, rest, rfl⟩ := List.exists_cons_of_ne_nil nonempty
      obtain ⟨head, others⟩ := List.forall_mem_cons.mp plain
      rw [List.cons_append, Column.isPath, head, isPathTail_iff.mpr (.inr ⟨rest, others, rfl⟩),
        Bool.true_and, Bool.and_true, List.length_append]
      exact decide_eq_true short

/-! ## Rendering a column -/

theorem segmentSql_of_plain {word : Text} (isWord : isPlainWord word) :
    segmentSql word = ticked word := by
  refine if_neg ?_
  rintro rfl
  cases isWord

section Rendering

variable {raw : Text} {words : List Text}

/-- A path of words is written between grave accents. -/
theorem sql_of_isWordPath (isPath : IsWordPath 3 (Reference.unquoted (trimmed raw)) words) :
    sql raw = quotedPath words := by
  have segments : words.map segmentSql = words.map ticked :=
    List.map_congr_left fun word member => segmentSql_of_plain (isPath.plain word member)
  refine (if_pos (isPath_iff.mpr (.inl ⟨words, isPath⟩))).trans ?_
  rw [isPath.splitOn_eq, segments, quotedPath]

/-- The star at the end of a path is not quoted. -/
theorem sql_of_isStarPath (isPath : IsStarPath (Reference.unquoted (trimmed raw)) words) :
    sql raw = quotedPath words ++ ".*" := by
  refine (if_pos (isPath_iff.mpr (.inr ⟨words, isPath⟩))).trans ?_
  rw [isPath.splitOn_eq]
  obtain ⟨_, _, isWordPath⟩ := isPath
  have segments : words.map segmentSql = words.map ticked :=
    List.map_congr_left fun word member => segmentSql_of_plain (isWordPath.plain word member)
  have star : segmentSql "*" = "*".toList := rfl
  have nonempty : words.map ticked ≠ [] := fun none =>
    isWordPath.nonempty (List.map_eq_nil_iff.mp none)
  rw [List.map_append, segments, List.map_singleton, star,
    Text.joined_append_singleton "." nonempty, List.append_assoc, quotedPath]
  rfl

/-- What is no path is kept as it is written. -/
theorem sql_of_noPath (noPath : ∀ words, ¬ IsWordPath 3 (Reference.unquoted (trimmed raw)) words)
    (noStar : ∀ words, ¬ IsStarPath (Reference.unquoted (trimmed raw)) words) :
    sql raw = trimmed raw := by
  refine if_neg fun isPath => ?_
  rcases isPath_iff.mp isPath with ⟨words, isWordPath⟩ | ⟨words, isStarPath⟩
  · exact noPath words isWordPath
  · exact noStar words isStarPath

/-- Where only a column may stand, a path of words is written in the same way. -/
theorem quote_of_isWordPath (isPath : IsWordPath 3 (Reference.unquoted (trimmed raw)) words) :
    quote raw = .ok (quotedPath words) := by
  have trimmedWords : words.map trimmed = words :=
    (List.map_congr_left fun word member => Text.trimmed_of_noBlank fun _ inWord =>
      (Text.of_mem_plainWord (isPath.plain word member) inWord).1).trans (List.map_id _)
  have ofName : segments raw = words := by
    rw [← segments_trimmed, segments, isPath.splitOn_eq, trimmedWords]
  refine quote_eq_ok.mpr ⟨ofName ▸ isPath.short, fun word member => ?_, by rw [ofName]⟩
  have isWord := isPath.plain word (ofName ▸ member)
  refine Reference.checkSegment_eq_ok_iff.mpr ⟨?_, fun nul => ?_⟩
  · rintro rfl
    cases isWord
  · exact (Text.of_mem_plainWord isWord nul).2.2.2 rfl

end Rendering

/-! ## Rendering a column again -/

/-- Blanks around a column make no difference. -/
theorem sql_trimmed (raw : Text) : sql (trimmed raw) = sql raw := by
  rw [sql, Text.trimmed_trimmed, sql]

/-- What is written for a path depends on its text without grave accents alone. -/
theorem sql_of_samePath {raw other : Text}
    (isPath : isPath ((Reference.unquoted (trimmed raw)).splitOn '.'))
    (same : Reference.unquoted (trimmed other) = Reference.unquoted (trimmed raw)) :
    sql other = sql raw := by
  rw [sql, sql, same]
  exact (if_pos isPath).trans (if_pos isPath).symm

/-- What is written for a path: it is not empty, has no blanks, and stays as it is when it is rendered. -/
structure IsSettled (written : Text) : Prop where
  nonempty : written ≠ []
  noBlank : ∀ character ∈ written, isBlank character = false
  stays : sql written = written

/-- What is written for a path is settled when it has no blanks and is the text of the path again. -/
theorem IsSettled.of_path {raw : Text}
    (isPath : isPath ((Reference.unquoted (trimmed raw)).splitOn '.')) (nonempty : sql raw ≠ [])
    (noBlank : ∀ character ∈ sql raw, isBlank character = false)
    (sameText : Reference.unquoted (sql raw) = Reference.unquoted (trimmed raw)) :
    IsSettled (sql raw) := by
  refine ⟨nonempty, noBlank, sql_of_samePath isPath ?_⟩
  rw [Text.trimmed_of_noBlank noBlank, sameText]

/-- A column is kept, or it is a path and what is written for it is settled. -/
theorem sql_cases (raw : Text) : sql raw = trimmed raw ∨ IsSettled (sql raw) := by
  by_cases path : isPath ((Reference.unquoted (trimmed raw)).splitOn '.')
  · refine .inr ?_
    rcases isPath_iff.mp path with ⟨words, isPath⟩ | ⟨words, isPath⟩
    · have written := sql_of_isWordPath isPath
      refine .of_path path (written ▸ isPath.quotedPath_ne_nil)
        (written ▸ isPath.quotedPath_noBlank) ?_
      rw [written, isPath.unquoted_quotedPath]
    · have written := sql_of_isStarPath isPath
      have star : Reference.unquoted ".*" = ".*".toList := by decide
      obtain ⟨front, whole, ofWords⟩ := isPath
      refine .of_path path (by simp [written]) ?_ ?_
      · rw [written]
        exact List.forall_mem_append.mpr ⟨ofWords.quotedPath_noBlank, Text.noBlank_of_any rfl⟩
      · rw [written, Reference.unquoted_append, ofWords.unquoted_quotedPath, star, whole]
  · exact .inl (if_neg path)

theorem sql_sql (raw : Text) : sql (sql raw) = sql raw := by
  rcases sql_cases raw with kept | settled
  · rw [kept, sql_trimmed, kept]
  · exact settled.stays

theorem trimmed_sql (raw : Text) : trimmed (sql raw) = sql raw := by
  rcases sql_cases raw with kept | settled
  · rw [kept, Text.trimmed_trimmed]
  · exact Text.trimmed_of_noBlank settled.noBlank

/-- Nothing is written only for blanks. -/
theorem sql_ne_nil {raw : Text} {character : Char} (member : character ∈ raw)
    (notBlank : isBlank character = false) : sql raw ≠ [] := by
  rcases sql_cases raw with kept | settled
  · have stays : character ∈ trimmed raw :=
      (Text.mem_stripWhere_iff (Bool.eq_false_iff.mp notBlank)).mpr member
    exact kept ▸ List.ne_nil_of_mem stays
  · exact settled.nonempty

/-! ## Rendering an item to order by again -/

/-- Blanks around an item to order by make no difference. -/
theorem orderSql_trimmed (item : Text) : orderSql (trimmed item) = orderSql item := by
  rw [orderSql, Text.trimmed_trimmed, orderSql]

theorem orderSql_of_noBlank {item : Text} (noBlank : ∀ character ∈ item, isBlank character = false) :
    orderSql item = sql item := by
  rw [orderSql, Text.trimmed_of_noBlank noBlank, Text.splitAtLast?_eq_none noBlank]

/-- A rendered column with a direction behind it is rendered as it stands. -/
theorem orderSql_of_direction {column direction : Text} (nonempty : sql column ≠ [])
    (isDirection : direction = "ASC" ∨ direction = "DESC") :
    orderSql (sql column ++ ' ' :: direction) = sql column ++ ' ' :: direction := by
  have ofDirection : direction ≠ [] ∧ (∀ character ∈ direction, isBlank character = false) ∧
      uppercase direction = direction := by
    rcases isDirection with rfl | rfl
    · exact ⟨by decide, Text.noBlank_of_any rfl, by decide⟩
    · exact ⟨by decide, Text.noBlank_of_any rfl, by decide⟩
  obtain ⟨someLetter, noBlank, upper⟩ := ofDirection
  have whole : trimmed (sql column ++ ' ' :: direction) = sql column ++ ' ' :: direction := by
    refine Text.trimmed_eq_self (fun first here => ?_) fun last here => ?_
    · rw [List.head?_append_of_ne_nil _ nonempty, ← trimmed_sql] at here
      exact Text.isBlank_head?_trimmed here
    · rw [List.getLast?_append_of_ne_nil _ (List.cons_ne_nil _ _),
        List.getLast?_cons_of_ne_nil someLetter] at here
      exact noBlank _ (List.mem_of_mem_getLast? here)
  rw [orderSql, whole, Text.splitAtLast?_append (by decide) noBlank]
  simp only [upper, isDirection, if_true, sql_sql]

/-- Either a direction is written behind a column, or the whole item is rendered as a column. -/
theorem orderSql_cases (item : Text) :
    (∃ column direction, sql column ≠ [] ∧ (direction = ("ASC" : Text) ∨ direction = ("DESC" : Text)) ∧
      orderSql item = sql column ++ ' ' :: direction) ∨ orderSql item = sql item := by
  have asColumn := sql_trimmed item
  rw [orderSql]
  cases parts : Text.splitAtLast? isBlank (trimmed item) with
  | none => exact .inr asColumn
  | some pair =>
      obtain ⟨column, word⟩ := pair
      dsimp only
      split
      · rename_i isDirection
        refine .inl ⟨column, uppercase word, ?_, isDirection, rfl⟩
        obtain ⟨mark, isMarked, whole⟩ := Text.eq_append_of_splitAtLast? parts
        have start : ∀ first ∈ (column ++ mark :: word).head?, isBlank first = false :=
          fun _ here => Text.isBlank_head?_trimmed (whole ▸ here)
        cases column with
        | nil => exact absurd isMarked (by simp [start mark rfl])
        | cons first rest => exact sql_ne_nil List.mem_cons_self (start first rfl)
      · exact .inr asColumn

theorem orderSql_orderSql (item : Text) : orderSql (orderSql item) = orderSql item := by
  rcases orderSql_cases item with ⟨column, direction, nonempty, isDirection, written⟩ | written
  · rw [written, orderSql_of_direction nonempty isDirection]
  · rcases sql_cases item with kept | settled
    · rw [written, kept, orderSql_trimmed, written, kept]
    · rw [written, orderSql_of_noBlank settled.noBlank, settled.stays]

/-! ## The two ways to write a column -/

/-- Rendering again changes nothing, and a path of plain words is written the same way wherever it
stands, however it was quoted.  A star behind a path is kept unquoted, and all else is only
trimmed. -/
theorem rendering_isStable (raw : Text) :
    sql (sql raw) = sql raw ∧ orderSql (orderSql raw) = orderSql raw ∧
      (∀ words, IsWordPath 3 (Reference.unquoted (trimmed raw)) words →
        quote raw = .ok (sql raw) ∧ sql raw = quotedPath words) ∧
      (∀ words, IsStarPath (Reference.unquoted (trimmed raw)) words →
        sql raw = quotedPath words ++ ".*") ∧
      ((∀ words, ¬ IsWordPath 3 (Reference.unquoted (trimmed raw)) words) →
        (∀ words, ¬ IsStarPath (Reference.unquoted (trimmed raw)) words) →
          sql raw = trimmed raw) := by
  refine ⟨sql_sql raw, orderSql_orderSql raw, fun words isPath => ?_, fun words => sql_of_isStarPath,
    sql_of_noPath⟩
  have written := sql_of_isWordPath isPath
  exact ⟨written ▸ quote_of_isWordPath isPath, written⟩

/-- A path that is half quoted, one with a star, and an expression. -/
theorem rendering_isStable_orders :
    (IsWordPath 3 (Reference.unquoted (trimmed " `shop`.orders ")) ["shop", "orders"] ∧
      quote " `shop`.orders " = .ok "`shop`.`orders`") ∧
    (IsStarPath (Reference.unquoted (trimmed "orders.*")) ["orders"] ∧
      sql "orders.*" = "`orders`.*") ∧
    ((∀ words, ¬ IsWordPath 3 (Reference.unquoted (trimmed " `a`+1")) words) ∧
      (∀ words, ¬ IsStarPath (Reference.unquoted (trimmed " `a`+1")) words) ∧
      sql " `a`+1" = "`a`+1") := by
  have half : IsWordPath 3 (Reference.unquoted (trimmed " `shop`.orders ")) ["shop", "orders"] :=
    ⟨by decide, by decide, by decide, by decide⟩
  have star : IsStarPath (Reference.unquoted (trimmed "orders.*")) ["orders"] :=
    ⟨"orders", by decide, by decide, by decide, by decide, by decide⟩
  have noPath : ¬ isPath ((Reference.unquoted (trimmed " `a`+1")).splitOn '.') := by decide
  rw [isPath_iff, not_or, not_exists, not_exists] at noPath
  obtain ⟨sameQuoted, written⟩ := (rendering_isStable " `shop`.orders ").2.2.1 _ half
  refine ⟨⟨half, ?_⟩, ⟨star, (rendering_isStable "orders.*").2.2.2.1 _ star⟩, noPath.1, noPath.2,
    (rendering_isStable " `a`+1").2.2.2.2 noPath.1 noPath.2⟩
  rw [sameQuoted, written]
  rfl

end Column

end SqlComposer
