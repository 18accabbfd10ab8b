import Mathlib.Data.List.Infix
import SqlComposer.Condition
import SqlComposer.Proofs.Text.Trimming
import SqlComposer.Proofs.Value.Reading

/-!
# What pattern operators match

The operand of `LIKE` is read twice.  As a literal it denotes a pattern
(`operandMeaning`): its escapes are undone, except that `\%` stays as it is.  In
the pattern a percent sign matches any run of characters and a low line any one
character, while a backslash makes the next character stand for itself
(`parts`).  A backslash at the very end stands for itself as well.

A text that is put into an operand is escaped for both readings at once where
percent signs are concerned, but for the literal alone where backslashes are.
So what is left of it in the pattern is `wildcardsEscaped`: its percent signs
stand for themselves, and a backslash takes the next character with it, be that
the wildcard behind the text.  The pattern is then matched by a text which does
not hold the given one (`exists_stray`).  `Operator.matches_literally_iff` says
that this is the only way in which the operators fail to take a text without low
lines literally.
-/

namespace SqlComposer

set_option autoImplicit false

namespace Pattern

/-! ## Patterns -/

/-- A part of a pattern. -/
inductive Part
  | anyRun
  | anyOne
  | exactly (character : Char)
  deriving DecidableEq

/-- The parts of a pattern in order. -/
def parts : Text → List Part
  | [] => []
  | '%' :: rest => .anyRun :: parts rest
  | '_' :: rest => .anyOne :: parts rest
  | ['\\'] => [.exactly '\\']
  | '\\' :: character :: rest => .exactly character :: parts rest
  | character :: rest => .exactly character :: parts rest

theorem parts_cons {character : Char} (notRun : character ≠ '%') (notLowLine : character ≠ '_')
    (notBackslash : character ≠ '\\') (rest : Text) :
    parts (character :: rest) = .exactly character :: parts rest := by
  rw [parts]
  · exact notRun
  · exact notLowLine
  · exact fun backslash _ => notBackslash backslash
  · exact fun _ _ backslash _ => notBackslash backslash

/-- Whether a text consists of what the parts match, one after the other. -/
def fits : List Part → Text → Bool
  | [], text => text.isEmpty
  | .anyRun :: rest, text => text.tails.any (fits rest)
  | .anyOne :: _, [] => false
  | .anyOne :: rest, _ :: behind => fits rest behind
  | .exactly _ :: _, [] => false
  | .exactly character :: rest, other :: behind => character == other && fits rest behind

/-- What a character behind a backslash stands for in the literal of a pattern. -/
def operandMeaning : Char → Text
  | '0' => ['\x00']
  | 'b' => ['\x08']
  | 't' => ['\t']
  | 'z' => ['\x1a']
  | 'n' => ['\n']
  | 'r' => ['\r']
  | '%' => "\\%"
  | character => [character]

/-- Whether a text is like the operand of a comparison. -/
def isLike (operand text : Text) : Bool :=
  match Literal.denoted? operandMeaning operand with
  | some pattern => fits (parts pattern) text
  | none => false

/-! ## Texts that fit -/

theorem fits_anyRun_iff {rest : List Part} {text : Text} :
    fits (.anyRun :: rest) text ↔ ∃ behind, behind <:+ text ∧ fits rest behind := by
  simp only [fits, List.any_eq_true, List.mem_tails]

theorem fits_nil_iff {text : Text} : fits [] text ↔ text = [] :=
  List.isEmpty_iff

/-- Characters that stand for themselves are matched by themselves. -/
theorem fits_exactly_append_iff {given : Text} {rest : List Part} {text : Text} :
    fits (given.map .exactly ++ rest) text
      ↔ ∃ behind, text = given ++ behind ∧ fits rest behind := by
  induction given generalizing text with
  | nil => simp
  | cons character given ih =>
      cases text with
      | nil => simp [fits]
      | cons other text =>
          simp only [List.map_cons, List.cons_append, fits, Bool.and_eq_true, beq_iff_eq, ih,
            List.cons.injEq]
          constructor
          · rintro ⟨rfl, behind, rfl, here⟩
            exact ⟨behind, ⟨rfl, rfl⟩, here⟩
          · rintro ⟨behind, ⟨rfl, rfl⟩, here⟩
            exact ⟨rfl, behind, rfl, here⟩

theorem fits_exactly_iff {given text : Text} : fits (given.map .exactly) text ↔ text = given := by
  rw [← List.append_nil (given.map Part.exactly), fits_exactly_append_iff]
  simp [fits_nil_iff]

/-- Any text fits a run. -/
theorem fits_run (text : Text) : fits [.anyRun] text :=
  fits_anyRun_iff.mpr ⟨[], List.nil_suffix, rfl⟩

theorem fits_exactly_run_iff {given text : Text} :
    fits (given.map .exactly ++ [.anyRun]) text ↔ given <+: text := by
  rw [fits_exactly_append_iff]
  constructor
  · rintro ⟨behind, rfl, -⟩
    exact List.prefix_append given behind
  · rintro ⟨behind, rfl⟩
    exact ⟨behind, rfl, fits_run behind⟩

theorem fits_run_exactly_iff {given text : Text} :
    fits (.anyRun :: given.map .exactly) text ↔ given <:+ text := by
  simp only [fits_anyRun_iff, fits_exactly_iff, exists_eq_right]

theorem fits_run_exactly_run_iff {given text : Text} :
    fits (.anyRun :: given.map .exactly ++ [.anyRun]) text ↔ given <:+: text := by
  rw [List.cons_append, fits_anyRun_iff]
  simp only [fits_exactly_run_iff]
  constructor
  · rintro ⟨behind, isEnd, isStart⟩
    exact isStart.isInfix.trans isEnd.isInfix
  · intro inside
    obtain ⟨behind, isStart, isEnd⟩ := List.infix_iff_prefix_suffix.mp inside
    exact ⟨behind, isEnd, isStart⟩

/-- A text as short as one that fits can be, with a low line for any one character. -/
def shortest : List Part → Text
  | [] => []
  | .anyRun :: rest => shortest rest
  | .anyOne :: rest => '_' :: shortest rest
  | .exactly character :: rest => character :: shortest rest

theorem fits_shortest (pattern : List Part) : fits pattern (shortest pattern) := by
  induction pattern with
  | nil => rfl
  | cons part rest ih =>
      cases part with
      | anyRun => exact fits_anyRun_iff.mpr ⟨_, List.suffix_rfl, ih⟩
      | anyOne => exact ih
      | exactly character => simpa [shortest, fits] using ih

/-! ## A text inside a pattern -/

/-- A character with a backslash in front if it is a percent sign. -/
def wildcardEscaped (character : Char) : Text :=
  if character = '%' then ['\\', '%'] else [character]

/-- A text with a backslash in front of its percent signs. -/
def wildcardsEscaped (text : Text) : Text :=
  text.flatMap wildcardEscaped

/-- The literal of a pattern has backslashes left in front of percent signs only. -/
theorem seenAs_wildcardEscaped : Literal.SeenAs operandMeaning .escaped wildcardEscaped where
  ofLetter := by decide
  ofOther := by
    intro character plain
    have notPercent : character ≠ '%' := by
      rintro rfl
      exact plain (by decide)
    rw [wildcardEscaped, if_neg notPercent]

/-- An operand denotes the escaped text with the wildcards around it. -/
theorem denoted?_operand {starts ends : Text} (plainStart : '\x27' ∉ starts ∧ '\\' ∉ starts)
    (plainEnd : '\x27' ∉ ends ∧ '\\' ∉ ends) (text : Text) :
    Literal.denoted? operandMeaning (Literal.inMarks (starts ++ Literal.escaped text ++ ends))
      = some (starts ++ wildcardsEscaped text ++ ends) := by
  have closing : Literal.readBody? operandMeaning ['\x27'] = some [] := rfl
  rw [Literal.inMarks, List.cons_append, Literal.denoted?, Literal.escaped, List.append_assoc,
    List.append_assoc, Literal.readBody?_plain_append operandMeaning plainStart.1 plainStart.2,
    Literal.readBody?_escapedWith_append seenAs_wildcardEscaped,
    Literal.readBody?_plain_append operandMeaning plainEnd.1 plainEnd.2, closing]
  simp [wildcardsEscaped]

/-- Characters other than low lines and backslashes stand for themselves in a pattern. -/
theorem parts_wildcardsEscaped_append {text : Text} (noLowLine : '_' ∉ text)
    (noBackslash : '\\' ∉ text) (rest : Text) :
    parts (wildcardsEscaped text ++ rest) = text.map .exactly ++ parts rest := by
  unfold wildcardsEscaped
  induction text with
  | nil => rfl
  | cons character text ih =>
      rw [List.mem_cons, not_or] at noLowLine noBackslash
      rw [List.flatMap_cons, List.append_assoc, List.map_cons, List.cons_append,
        ← ih noLowLine.2 noBackslash.2]
      by_cases percent : character = '%'
      · subst percent
        rfl
      · rw [wildcardEscaped, if_neg percent, List.singleton_append,
          parts_cons percent (Ne.symm noLowLine.1) (Ne.symm noBackslash.1)]

/-! ## What a backslash does to a pattern -/

/-- A text that a pattern matches can be as short as the pattern without its percent signs. -/
theorem shortest_parts_length_le (pattern : Text) :
    (shortest (parts pattern)).length + pattern.count '%' ≤ pattern.length := by
  induction pattern using parts.induct with
  | case1 => exact Nat.le_refl _
  | case2 rest ih =>
      simp only [parts, shortest, List.length_cons, List.count_cons_self]
      omega
  | case3 rest ih =>
      have count : ('_' :: rest).count '%' = rest.count '%' := List.count_cons_of_ne (by decide)
      simp only [parts, shortest, List.length_cons, count]
      omega
  | case4 => exact Nat.le_refl _
  | case5 character rest ih =>
      have count : ('\\' :: character :: rest).count '%' ≤ rest.count '%' + 1 := by
        rw [List.count_cons_of_ne (by decide), List.count_cons]
        split <;> omega
      simp only [parts, shortest, List.length_cons]
      omega
  | case6 character rest notRun notLowLine notLast notEscape ih =>
      have count : (character :: rest).count '%' = rest.count '%' := List.count_cons_of_ne notRun
      have notBackslash : character ≠ '\\' := by
        rintro rfl
        cases rest with
        | nil => exact notLast rfl rfl
        | cons next behind => exact notEscape next behind rfl rfl
      rw [parts_cons notRun notLowLine notBackslash]
      simp only [shortest, List.length_cons, count]
      omega

/-- Each character of a text takes one place in the escaped text, and a percent sign one more. -/
theorem wildcardsEscaped_length (text : Text) :
    (wildcardsEscaped text).length = text.length + (wildcardsEscaped text).count '%' := by
  unfold wildcardsEscaped
  induction text with
  | nil => rfl
  | cons character text ih =>
      rw [List.flatMap_cons, List.length_append, List.count_append, ih, List.length_cons]
      by_cases percent : character = '%'
      · subst percent
        have two : (wildcardEscaped '%').length = 2 ∧
            (wildcardEscaped '%').count '%' = 1 := by decide
        omega
      · have one : (wildcardEscaped character).length = 1 ∧
            (wildcardEscaped character).count '%' = 0 := by
          rw [wildcardEscaped, if_neg percent]
          exact ⟨rfl, List.count_eq_zero_of_not_mem (by simpa using Ne.symm percent)⟩
        omega

/-- A text that a pattern matches can be as short as the text put in the pattern. -/
theorem shortest_wildcardsEscaped_length_le (text : Text) {ends : Text}
    (wild : ends.length = ends.count '%') :
    (shortest (parts (wildcardsEscaped text ++ ends))).length ≤ text.length := by
  have atMost := shortest_parts_length_le (wildcardsEscaped text ++ ends)
  have length := wildcardsEscaped_length text
  rw [List.length_append, List.count_append] at atMost
  omega

/-- A backslash that takes the next character of the text with it lets a shorter text through. -/
theorem exists_shorter {before behind : Text} {next : Char} (noLowLine : '_' ∉ before)
    (noBackslash : '\\' ∉ before) (ends : Text) (wild : ends.length = ends.count '%') :
    ∃ stray, fits (parts (wildcardsEscaped (before ++ '\\' :: next :: behind) ++ ends)) stray ∧
      stray.length < (before ++ '\\' :: next :: behind).length := by
  have split : wildcardsEscaped (before ++ '\\' :: next :: behind) ++ ends
      = wildcardsEscaped before ++
        ('\\' :: wildcardEscaped next ++ (wildcardsEscaped behind ++ ends)) := by
    simp [wildcardsEscaped, wildcardEscaped]
  have shorter : (shortest (parts ('\\' :: wildcardEscaped next ++
      (wildcardsEscaped behind ++ ends)))).length ≤ behind.length + 1 := by
    have atMost := shortest_wildcardsEscaped_length_le behind wild
    by_cases percent : next = '%'
    · subst percent
      simpa [wildcardEscaped, parts, shortest] using atMost
    · simpa [wildcardEscaped, percent, parts, shortest] using atMost
  rw [split, parts_wildcardsEscaped_append noLowLine noBackslash]
  refine ⟨before ++ _, fits_exactly_append_iff.mpr ⟨_, rfl, fits_shortest _⟩, ?_⟩
  simp only [List.length_append, List.length_cons]
  omega

/-- A backslash in the text takes the next character with it, or the wildcard behind the text, so
that a text is matched which does not hold the given one. -/
theorem exists_stray {text : Text} (noLowLine : '_' ∉ text) (backslash : '\\' ∈ text) :
    ∃ stray, fits (parts (wildcardsEscaped text ++ ['%'])) stray ∧ ¬ text <:+: stray := by
  obtain ⟨before, behind, rfl, noBackslash⟩ := List.eq_append_cons_of_mem backslash
  have noneBefore : '_' ∉ before := fun member => noLowLine (List.mem_append_left _ member)
  cases behind with
  | nil =>
      have split : wildcardsEscaped (before ++ ['\\']) ++ ['%']
          = wildcardsEscaped before ++ ['\\', '%'] := by
        simp [wildcardsEscaped, wildcardEscaped]
      refine ⟨before ++ ['%'], ?_, fun inside => ?_⟩
      · rw [split, parts_wildcardsEscaped_append noneBefore noBackslash]
        exact fits_exactly_append_iff.mpr ⟨['%'], rfl, rfl⟩
      · have same : before ++ ['\\'] = before ++ ['%'] := inside.eq_of_length (by simp)
        exact absurd (List.append_cancel_left same) (by decide)
  | cons next behind =>
      obtain ⟨stray, here, shorter⟩ := exists_shorter noneBefore noBackslash ['%'] rfl
      exact ⟨stray, here, fun inside => absurd inside.length_le (by omega)⟩

/-- With no wildcard behind the text, it takes a backslash in front of the last character. -/
theorem exists_stray_of_dropLast {text : Text} (noLowLine : '_' ∉ text)
    (backslash : '\\' ∈ text.dropLast) :
    ∃ stray, fits (parts (wildcardsEscaped text)) stray ∧ ¬ text <:+: stray := by
  obtain ⟨before, behind, rfl, noBackslash⟩ :=
    List.eq_append_cons_of_mem (List.mem_of_mem_dropLast backslash)
  have noneBefore : '_' ∉ before := fun member => noLowLine (List.mem_append_left _ member)
  cases behind with
  | nil =>
      rw [List.dropLast_concat] at backslash
      exact absurd backslash noBackslash
  | cons next behind =>
      obtain ⟨stray, here, shorter⟩ := exists_shorter noneBefore noBackslash [] rfl
      rw [List.append_nil] at here
      exact ⟨stray, here, fun inside => absurd inside.length_le (by omega)⟩

/-- A text whose only backslash is its last character stands for itself at the end of a pattern. -/
theorem parts_wildcardsEscaped {text : Text} (noLowLine : '_' ∉ text)
    (noBackslash : '\\' ∉ text.dropLast) :
    parts (wildcardsEscaped text) = text.map .exactly := by
  rcases List.eq_nil_or_concat text with rfl | ⟨front, last, rfl⟩
  · rfl
  · rw [List.concat_eq_append] at noLowLine noBackslash ⊢
    rw [List.dropLast_concat] at noBackslash
    have split : wildcardsEscaped (front ++ [last])
        = wildcardsEscaped front ++ wildcardEscaped last := by
      simp [wildcardsEscaped]
    rw [List.mem_append, not_or, List.mem_singleton] at noLowLine
    rw [split, parts_wildcardsEscaped_append noLowLine.1 noBackslash, List.map_append]
    congr 1
    by_cases percent : last = '%'
    · subst percent
      rfl
    · by_cases backslash : last = '\\'
      · subst backslash
        rfl
      · rw [wildcardEscaped, if_neg percent, parts_cons percent (Ne.symm noLowLine.2) backslash]
        rfl

/-! ## Patterns that take a text literally -/

theorem startsWith_iff {given : Text} (noLowLine : '_' ∉ given) :
    (∀ text, fits (parts (wildcardsEscaped given ++ ['%'])) text ↔ given <+: text)
      ↔ '\\' ∉ given := by
  constructor
  · intro literally backslash
    obtain ⟨stray, here, notInside⟩ := exists_stray noLowLine backslash
    exact notInside ((literally stray).mp here).isInfix
  · intro noBackslash text
    rw [parts_wildcardsEscaped_append noLowLine noBackslash]
    exact fits_exactly_run_iff

theorem contains_iff {given : Text} (noLowLine : '_' ∉ given) :
    (∀ text, fits (parts ('%' :: wildcardsEscaped given ++ ['%'])) text ↔ given <:+: text)
      ↔ '\\' ∉ given := by
  constructor
  · intro literally backslash
    obtain ⟨stray, here, notInside⟩ := exists_stray noLowLine backslash
    exact notInside ((literally stray).mp (fits_anyRun_iff.mpr ⟨stray, List.suffix_rfl, here⟩))
  · intro noBackslash text
    rw [List.cons_append, parts, parts_wildcardsEscaped_append noLowLine noBackslash]
    exact fits_run_exactly_run_iff

theorem endsWith_iff {given : Text} (noLowLine : '_' ∉ given) :
    (∀ text, fits (parts ('%' :: wildcardsEscaped given)) text ↔ given <:+ text)
      ↔ '\\' ∉ given.dropLast := by
  constructor
  · intro literally backslash
    obtain ⟨stray, here, notInside⟩ := exists_stray_of_dropLast noLowLine backslash
    have ends := (literally stray).mp (fits_anyRun_iff.mpr ⟨stray, List.suffix_rfl, here⟩)
    exact notInside ends.isInfix
  · intro noBackslash text
    rw [parts, parts_wildcardsEscaped noLowLine noBackslash]
    exact fits_run_exactly_iff

end Pattern

/-! ## Operators -/

namespace Operator

open Pattern

theorem isLike_operand {starts ends : Text} (plainStart : '\x27' ∉ starts ∧ '\\' ∉ starts)
    (plainEnd : '\x27' ∉ ends ∧ '\\' ∉ ends) (given text : Text) :
    isLike (Literal.inMarks (starts ++ Literal.escaped given ++ ends)) text
      = fits (parts (starts ++ wildcardsEscaped given ++ ends)) text := by
  rw [isLike, denoted?_operand plainStart plainEnd]

/-- The operators on patterns take a text without low lines literally, percent signs included, if
and only if no backslash in it can take the next character of the pattern with it.  There is no such
backslash when the text holds none at all; and the last character of a text that others end with may
be one. -/
theorem matches_literally_iff (functions : FunctionSet) (column : Text) {pattern : Text}
    (noLowLine : '_' ∉ pattern) :
    (∃ operand, sql functions column (.startWith pattern) = .ok (column ++ " LIKE " ++ operand) ∧
      ((∀ text, isLike operand text ↔ pattern <+: text) ↔ '\\' ∉ pattern)) ∧
    (∃ operand, sql functions column (.endWith pattern) = .ok (column ++ " LIKE " ++ operand) ∧
      ((∀ text, isLike operand text ↔ pattern <:+ text) ↔ '\\' ∉ pattern.dropLast)) ∧
    (∃ operand, sql functions column (.like pattern) = .ok (column ++ " LIKE " ++ operand) ∧
      sql functions column (.notLike pattern) = .ok (column ++ " NOT LIKE " ++ operand) ∧
      ((∀ text, isLike operand text ↔ Text.stripWhere (· == '%') pattern <:+: text)
        ↔ '\\' ∉ pattern)) := by
  have plainNone : '\x27' ∉ ([] : Text) ∧ '\\' ∉ ([] : Text) := by decide
  have plainWildcard : '\x27' ∉ (['%'] : Text) ∧ '\\' ∉ (['%'] : Text) := by decide
  refine ⟨⟨_, rfl, ?_⟩, ⟨_, rfl, ?_⟩, ⟨_, rfl, rfl, ?_⟩⟩
  · have like := isLike_operand plainNone plainWildcard pattern
    simp only [List.nil_append] at like
    simp only [like]
    exact startsWith_iff noLowLine
  · have like := isLike_operand plainWildcard plainNone pattern
    simp only [List.append_nil, List.singleton_append] at like
    simp only [like]
    exact endsWith_iff noLowLine
  · have inside : ∀ {character : Char}, character ≠ '%' →
        (character ∈ Text.stripWhere (· == '%') pattern ↔ character ∈ pattern) :=
      fun other => Text.mem_stripWhere_iff (by simpa using other)
    have like := isLike_operand plainWildcard plainWildcard (Text.stripWhere (· == '%') pattern)
    simp only [List.singleton_append] at like
    simp only [containsPattern, like]
    rw [contains_iff (mt (inside (by decide)).mp noLowLine), inside (by decide)]

/-- A percentage is searched for with its percent sign, at the start and anywhere else. -/
theorem matches_literally_percentage :
    (∃ operand, sql FunctionSet.standard "`rate`" (.startWith "5%") =
        .ok ("`rate` LIKE ".toList ++ operand) ∧
      ∀ text, isLike operand text ↔ "5%".toList <+: text) ∧
    (∃ operand, sql FunctionSet.standard "`rate`" (.like "5%x%") =
        .ok ("`rate` LIKE ".toList ++ operand) ∧
      ∀ text, isLike operand text ↔ "5%x".toList <:+: text) := by
  have noLowLine : '_' ∉ "5%".toList ∧ '_' ∉ "5%x%".toList := by decide
  obtain ⟨⟨start, startOk, starts⟩, -⟩ :=
    matches_literally_iff FunctionSet.standard "`rate`" noLowLine.1
  obtain ⟨-, -, part, partOk, -, inside⟩ :=
    matches_literally_iff FunctionSet.standard "`rate`" noLowLine.2
  exact ⟨⟨start, startOk, starts.mpr (by decide)⟩, ⟨part, partOk, inside.mpr (by decide)⟩⟩

/-- A path that ends with a backslash: the backslash takes the wildcard with it, so no path that
starts with the given one is matched, but another text is. -/
theorem backslash_takes_wildcard :
    '_' ∉ "C:\\".toList ∧
    sql FunctionSet.standard "`path`" (.startWith "C:\\") = .ok "`path` LIKE 'C:\\\\%'".toList ∧
    "C:\\".toList <+: "C:\\temp".toList ∧ isLike "'C:\\\\%'" "C:\\temp" = false ∧
    ¬ "C:\\".toList <+: "C:%".toList ∧ isLike "'C:\\\\%'" "C:%" = true := by
  decide

end Operator

end SqlComposer
