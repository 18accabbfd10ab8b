import SqlComposer.Proofs.Condition.Rendering
import SqlComposer.Proofs.Lexical.Separators

/-!
# Reading conditions back

A list of conditions is written with AND between its members, and alternatives are
written with OR between them, in parentheses.  The same words stand in literals, in
quoted names and in ranges, where they separate nothing.

Values and columns show no keyword (`Value.sql_quiet`, `Column.sql_quiet`), and of all
operators only ranges do, whose AND belongs to their BETWEEN
(`Predicate.sql_selfContained`).  So a reader who splits the SQL of conditions outside of
quotes and parentheses finds the conditions again, and the alternatives in each of them
(`Condition.list_readsBack`).  It takes that trusted fragments close what they open and show no
keyword either, that no text is let through as a call, and that no allowed function is
named like a keyword.
-/

namespace SqlComposer

set_option autoImplicit false

open Lexical

/-! ## Numbers and names -/

/-- There are no letters in a number, so it is in upper case. -/
theorem uppercase_of_isNumeral {text : Text} (numeral : text.all isNumeral) :
    Text.uppercase text = text := by
  have same : ∀ character ∈ text, character.toUpper = id character := by
    intro character member
    have plain := List.all_eq_true.mp (isPlain_of_isNumeral numeral) character member
    exact Text.of_ascii (fun other => isNumeral other → other.toUpper = other) (by decide)
      (toNat_lt_of_isPlain plain) (List.all_eq_true.mp numeral character member)
  exact (List.map_congr_left same).trans (List.map_id text)

namespace Lexical

variable {letterCase : LetterCase}

/-- A word in upper case is read as it is written. -/
theorem LetterCase.read_uppercase {letters : Text} (upper : Text.uppercase letters = letters) :
    letterCase.read letters = letters := by
  cases letterCase with
  | kept => rfl
  | ignored => exact upper

/-- A word in upper case is a keyword only if it is spelled like one. -/
theorem Keyword.ofWord?_eq_none {letters : Text} (upper : Text.uppercase letters = letters)
    (different : ∀ keyword ∈ all, letters ≠ keyword.spelling) :
    ofWord? letterCase letters = none := by
  rw [ofWord?, LetterCase.read_uppercase upper]
  refine List.find?_eq_none.mpr fun keyword member same => ?_
  exact different keyword member (of_decide_eq_true same).symm

/-- A number shows no keyword. -/
theorem Quiet.of_isNumeral {text : Text} (numeral : text.all isNumeral) :
    Quiet letterCase text := by
  refine ⟨isClosed_of_plain (isPlain_of_isNumeral numeral), ?_⟩
  rintro (letters | other) member
  · have inNumber : letters.all isNumeral := List.all_eq_true.mpr fun character inWord =>
      List.all_eq_true.mp numeral character (subset_of_word_mem member inWord)
    refine Keyword.ofWord?_eq_none (uppercase_of_isNumeral inNumber) ?_
    rintro keyword _ rfl
    revert inNumber
    cases keyword <;> decide
  · rfl

/-- A name between grave accents shows no keyword. -/
theorem Quiet.ticked {name : Text} (noTick : Text.tick ∉ name) :
    Quiet letterCase (Text.ticked name) :=
  Quiet.enclose (staysIn_tick noTick)

/-- A string literal shows no keyword. -/
theorem Quiet.inMarks {body : Text} (stays : StaysIn .inStrings .single body) :
    Quiet letterCase (Literal.inMarks body) :=
  Quiet.enclose stays

/-- A reader who ignores letter case sees every keyword. -/
theorem Quiet.of_ignored {text : Text} (quiet : Quiet .ignored text) : Quiet letterCase text := by
  refine ⟨quiet.closed, fun token member => ?_⟩
  have noKeyword := quiet.noKeyword token member
  cases token with
  | other character => rfl
  | word letters =>
      cases letterCase with
      | ignored => exact noKeyword
      | kept =>
          refine List.find?_eq_none.mpr fun keyword _ same => ?_
          obtain rfl : keyword.spelling = letters := of_decide_eq_true same
          rw [Keyword.keyword?_spelling] at noKeyword
          cases noKeyword

/-- A column, a phrase without keywords and an operand. -/
theorem Quiet.phrased {before operand : Text} (phrase : Text) (columns : Quiet letterCase before)
    (phrases : Quiet .ignored (' ' :: phrase)) (operands : Quiet letterCase operand) :
    Quiet letterCase (before ++ (' ' :: phrase ++ [' ']) ++ operand) := by
  have opened : Quiet letterCase (before ++ ' ' :: phrase) := columns.append rfl phrases.of_ignored
  have whole := opened.separated (List.cons_ne_nil ' ' []) rfl operands
  simpa using whole

end Lexical

/-! ## Values and columns -/

section Rendering

variable {letterCase : LetterCase} {functions : FunctionSet}

/-- A path of quoted segments shows no keyword. -/
theorem Value.quotedPath_quiet {more : Nat} {path : Text} (quoted : isQuotedPath more path) :
    Quiet letterCase path := by
  induction more generalizing path with
  | zero => simp [isQuotedPath] at quoted
  | succ more ih =>
      obtain ⟨name, _, noTick, rfl | ⟨next, rfl, follows⟩⟩ := isQuotedPath_succ_iff.mp quoted
      · exact Quiet.ticked noTick
      · exact (Quiet.ticked noTick).append rfl (Quiet.cons_sign rfl (ih follows))

/-- A text that is no call shows no keyword. -/
theorem Value.textSql_quiet {text : Text} (noCall : functions.call? text = none) :
    Quiet letterCase (textSql functions text) := by
  rw [textSql, noCall]
  dsimp only
  split_ifs with quoted
  · exact quotedPath_quiet quoted
  · exact Quiet.inMarks (staysIn_escapedWith _ text)

/-- The SQL of a column shows no keyword when what is trusted of it shows none. -/
theorem Column.sql_quiet {raw : Text}
    (onTrusted : ∀ fragment ∈ Column.trusted raw, Quiet letterCase fragment) :
    Quiet letterCase (Column.sql raw) := by
  unfold Column.trusted at onTrusted
  dsimp only [Column.sql]
  split_ifs at onTrusted ⊢ with path
  · refine Quiet.joined (List.cons_ne_nil '.' []) rfl fun written member => ?_
    obtain ⟨segment, inPath, rfl⟩ := List.mem_map.mp member
    unfold Column.segmentSql
    split_ifs with star
    · rw [star]
      exact Quiet.of_others rfl rfl
    · exact Quiet.ticked (Reference.tick_notMem_segment (List.Subset.refl _) inPath)
  · exact onTrusted _ List.mem_cons_self

/-- The names of a set are plain words, and none of them is a keyword. -/
def FunctionSet.NamesApart (functions : FunctionSet) : Prop :=
  ∀ name ∈ functions.names,
    Text.isPlainWord name ∧ ∀ keyword ∈ Keyword.all, name ≠ keyword.spelling

variable (apart : functions.NamesApart)
include apart

/-- The name of an allowed function is no keyword. -/
theorem FunctionSet.normalName_quiet {function : Text} (allowed : functions.allows function) :
    Quiet letterCase (normalName function) := by
  obtain ⟨isWord, different⟩ := apart _ (List.contains_iff_mem.mp allowed)
  obtain ⟨nonempty, inWord⟩ := isWordPart_of_isPlainWord isWord
  exact Quiet.word nonempty inWord
    (Keyword.ofWord?_eq_none (Text.uppercase_uppercase _) different)

/-- The SQL of a value shows no keyword when none of its texts is a call. -/
theorem Value.sql_quiet {value : Value}
    (noCalls : ∀ text ∈ value.texts, functions.call? text = none) {written : Text}
    (ok : value.sql functions = .ok written) : Quiet letterCase written := by
  induction value generalizing written with
  | null =>
      cases ok
      exact Quiet.of_ignored (by decide)
  | bool value =>
      cases ok
      cases value <;> exact Quiet.of_isNumeral rfl
  | int value =>
      cases ok
      exact Quiet.of_isNumeral (Number.signedDigits_isNumeral _)
  | uint value =>
      cases ok
      exact Quiet.of_isNumeral (Number.digits_isNumeral _)
  | float number => exact Quiet.of_isNumeral (Double.sql_isNumeral ok)
  | text content =>
      cases ok
      exact textSql_quiet (noCalls content List.mem_cons_self)
  | dateTime time =>
      cases ok
      exact Quiet.inMarks (staysIn_dateTime time)
  | call function argument ih =>
      rw [sql] at ok
      split_ifs at ok with allowed
      obtain ⟨inner, argumentOk, ok⟩ := bind_eq_ok.mp ok
      cases ok
      exact Quiet.call (FunctionSet.normalName_quiet apart allowed) (ih noCalls argumentOk).closed

/-- A list of values closes what it opens. -/
theorem Value.listSql_isClosed {values : List Value}
    (noCalls : ∀ text ∈ values.flatMap Value.texts, functions.call? text = none) {written : Text}
    (ok : listSql functions values = .ok written) : isClosed .inStrings written := by
  obtain ⟨pieces, each, ok⟩ := bind_eq_ok.mp ok
  cases ok
  have quiet : Quiet .kept (Text.joined ", " pieces) := by
    refine Quiet.joined (List.cons_ne_nil ',' [' ']) rfl fun piece member => ?_
    obtain ⟨value, inList, ok⟩ := exists_mem_of_forall₂ (mapM_eq_ok.mp each) member
    exact sql_quiet apart (List.forall_mem_flatMap.mp noCalls value inList) ok
  exact quiet.closed

/-! ## Predicates -/

/-- A column compared by an operator shows no keyword, or a BETWEEN with its AND. -/
theorem Operator.sql_selfContained {operator : Operator} {column : Text}
    (onColumn : operator.showsColumn → Quiet letterCase column)
    (noCalls : ∀ text ∈ operator.values.flatMap Value.texts, functions.call? text = none)
    {written : Text} (ok : operator.sql functions column = .ok written) :
    SelfContained letterCase written := by
  have value : ∀ value ∈ operator.values, ∀ {written : Text}, value.sql functions = .ok written →
      Quiet letterCase written :=
    fun value member _ ok =>
      Value.sql_quiet apart (List.forall_mem_flatMap.mp noCalls value member) ok
  -- Behind the column stands a phrase, and behind that an operand or nothing.
  have phrased : ∀ {operand : Text} (phrase : Text), operator.showsColumn →
      Quiet .ignored (' ' :: phrase) → Quiet letterCase operand →
        SelfContained letterCase (column ++ (' ' :: phrase ++ [' ']) ++ operand) :=
    fun phrase shows phrases operands => .quiet (.phrased phrase (onColumn shows) phrases operands)
  have ended : ∀ (phrase : Text), operator.showsColumn → Quiet .ignored (' ' :: phrase) →
      SelfContained letterCase (column ++ ' ' :: phrase) :=
    fun _ shows phrases => .quiet ((onColumn shows).append rfl phrases.of_ignored)
  have pattern : ∀ (start body finish : Text), StaysIn .inStrings .single start →
      StaysIn .inStrings .single finish →
        Quiet letterCase (Literal.inMarks (start ++ Literal.escaped body ++ finish)) :=
    fun _ body _ starts finishes =>
      Quiet.inMarks ((starts.append (staysIn_escapedWith _ body)).append finishes)
  cases operator with
  | is operand =>
      obtain ⟨_, operandOk, ok⟩ := bind_eq_ok.mp ok
      cases ok
      exact phrased "=" rfl (by decide) (value operand List.mem_cons_self operandOk)
  | isNot operand =>
      obtain ⟨_, operandOk, ok⟩ := bind_eq_ok.mp ok
      cases ok
      exact phrased "!=" rfl (by decide) (value operand List.mem_cons_self operandOk)
  | like body =>
      cases ok
      exact phrased "LIKE" rfl (by decide) (pattern ['%'] _ ['%'] staysIn_percent staysIn_percent)
  | notLike body =>
      cases ok
      exact phrased "NOT LIKE" rfl (by decide)
        (pattern ['%'] _ ['%'] staysIn_percent staysIn_percent)
  | startWith body =>
      cases ok
      exact phrased "LIKE" rfl (by decide) (pattern [] body ['%'] .nil staysIn_percent)
  | endWith body =>
      cases ok
      have ending := pattern ['%'] body [] staysIn_percent .nil
      rw [List.append_nil] at ending
      exact phrased "LIKE" rfl (by decide) ending
  | inList values =>
      cases values with
      | nil =>
          cases ok
          exact .quiet (Quiet.of_ignored (by decide))
      | cons head rest =>
          obtain ⟨_, listOk, ok⟩ := bind_eq_ok.mp ok
          cases ok
          have closed := Value.listSql_isClosed apart noCalls listOk
          have whole := phrased "IN" rfl (by decide) (.parenthesized closed)
          simpa using whole
  | notInList values =>
      cases values with
      | nil =>
          cases ok
          exact .quiet (Quiet.of_ignored (by decide))
      | cons head rest =>
          obtain ⟨_, listOk, ok⟩ := bind_eq_ok.mp ok
          cases ok
          have closed := Value.listSql_isClosed apart noCalls listOk
          have whole := phrased "NOT IN" rfl (by decide) (.parenthesized closed)
          simpa using whole
  | between low high =>
      obtain ⟨_, lowOk, ok⟩ := bind_eq_ok.mp ok
      obtain ⟨_, highOk, ok⟩ := bind_eq_ok.mp ok
      cases ok
      have lows := value low List.mem_cons_self lowOk
      have highs := value high (List.mem_cons_of_mem _ List.mem_cons_self) highOk
      exact .between (onColumn rfl) lows highs
  | notBetween low high =>
      obtain ⟨_, lowOk, ok⟩ := bind_eq_ok.mp ok
      obtain ⟨_, highOk, ok⟩ := bind_eq_ok.mp ok
      cases ok
      have negated : Quiet .ignored " NOT" := by decide
      have lows := value low List.mem_cons_self lowOk
      have highs := value high (List.mem_cons_of_mem _ List.mem_cons_self) highOk
      have range := SelfContained.between ((onColumn rfl).append rfl negated.of_ignored) lows highs
      rw [List.append_assoc column] at range
      exact range
  | isNull =>
      cases ok
      exact ended "IS NULL" rfl (by decide)
  | notNull =>
      cases ok
      exact ended "IS NOT NULL" rfl (by decide)
  | isEmpty =>
      cases ok
      exact ended "= ''" rfl (by decide)
  | notEmpty =>
      cases ok
      exact ended "!= ''" rfl (by decide)
  | findInSet operand =>
      obtain ⟨_, operandOk, ok⟩ := bind_eq_ok.mp ok
      cases ok
      have name : Quiet letterCase "FIND_IN_SET" := Quiet.of_ignored (by decide)
      have arguments := (value operand List.mem_cons_self operandOk).separated
        (List.cons_ne_nil ',' [' ']) rfl (onColumn rfl)
      have whole := Quiet.call name arguments.closed
      exact .quiet (by simpa using whole)

/-- A predicate shows no keyword, or a BETWEEN with its AND. -/
theorem Predicate.sql_selfContained {predicate : Predicate}
    (onTrusted : ∀ fragment ∈ predicate.trusted, Quiet letterCase fragment)
    (noCalls : ∀ text ∈ predicate.texts, functions.call? text = none) {written : Text}
    (ok : predicate.sql functions = .ok written) : SelfContained letterCase written := by
  cases predicate with
  | raw _ =>
      cases ok
      exact .quiet (onTrusted _ List.mem_cons_self)
  | compare column operator =>
      refine Operator.sql_selfContained apart (fun shows => ?_) noCalls ok
      have inTrusted : (Predicate.compare column operator).trusted = Column.trusted column :=
        if_pos shows
      rw [inTrusted] at onTrusted
      exact Column.sql_quiet onTrusted

end Rendering

/-! ## Lists that are read back -/

section ReadingBack

variable {letterCase : LetterCase}

/-- A piece of SQL that holds what was written, up to spaces. -/
def IsPieceOf (outcome : Except Error Text) (piece : Text) : Prop :=
  ∃ written, outcome = .ok written ∧ UpToSpaces piece written

/-- Items that are written with a separator between them are found again by splitting. -/
theorem splitAt_joined_of_ok {α : Type} {separator : Keyword} (joins : separator ≠ .between)
    {render : α → Except Error Text} {items : List α} {pieces : List Text} (nonempty : items ≠ [])
    (each : List.Forall₂ (fun item piece => render item = .ok piece) items pieces)
    (contained : ∀ item ∈ items, ∀ {piece : Text}, render item = .ok piece →
      SelfContained letterCase piece) :
    isClosed .inStrings (Text.joined separator.spaced pieces) ∧
      List.Forall₂ (fun item piece => IsPieceOf (render item) piece) items
        (splitAt letterCase separator (Text.joined separator.spaced pieces)) := by
  have all : ∀ piece ∈ pieces, SelfContained letterCase piece := by
    intro piece member
    obtain ⟨item, inItems, ok⟩ := exists_mem_of_forall₂ each member
    exact contained item inItems ok
  have pieced : pieces ≠ [] := by
    rintro rfl
    exact nonempty (List.forall₂_nil_right_iff.mp each)
  have closed : ∀ piece ∈ pieces, isClosed .inStrings piece :=
    fun piece member => (all piece member).closed
  have split := splitAt_joined pieced closed fun piece member =>
    (all piece member).keepsTogether joins
  exact ⟨isClosed_joined closed, forall₂_through each split⟩

variable {functions : FunctionSet} (apart : functions.NamesApart)
include apart

/-- Alternatives are written in parentheses, and are found again by splitting at OR. -/
theorem Condition.alternatives_readBack {alternatives : List Predicate}
    (nonempty : alternatives ≠ [])
    (onTrusted : ∀ fragment ∈ (anyOf alternatives).trusted, Quiet letterCase fragment)
    (noCalls : ∀ text ∈ (anyOf alternatives).texts, functions.call? text = none) {written : Text}
    (ok : (anyOf alternatives).sql functions = .ok written) :
    ∃ inner, written = '(' :: inner ++ [')'] ∧ isClosed .inStrings inner ∧
      List.Forall₂ (fun predicate piece => IsPieceOf (predicate.sql functions) piece) alternatives
        (splitAt letterCase .or inner) := by
  cases alternatives with
  | nil => exact absurd rfl nonempty
  | cons first rest =>
      obtain ⟨pieces, each, ok⟩ := bind_eq_ok.mp ok
      cases ok
      have split := splitAt_joined_of_ok (nofun : Keyword.or ≠ .between) nonempty
        (mapM_eq_ok.mp each) fun predicate member _ ok =>
          Predicate.sql_selfContained apart (List.forall_mem_flatMap.mp onTrusted predicate member)
            (List.forall_mem_flatMap.mp noCalls predicate member) ok
      exact ⟨_, rfl, split⟩

/-- A condition shows no keyword, or a BETWEEN with its AND. -/
theorem Condition.sql_selfContained {condition : Condition}
    (onTrusted : ∀ fragment ∈ condition.trusted, Quiet letterCase fragment)
    (noCalls : ∀ text ∈ condition.texts, functions.call? text = none) {written : Text}
    (ok : condition.sql functions = .ok written) : SelfContained letterCase written := by
  cases condition with
  | single predicate =>
      exact Predicate.sql_selfContained apart
        (List.forall_mem_flatMap.mp onTrusted predicate List.mem_cons_self)
        (List.forall_mem_flatMap.mp noCalls predicate List.mem_cons_self) ok
  | anyOf alternatives =>
      by_cases nonempty : alternatives = []
      · subst nonempty
        cases ok
        exact .quiet (Quiet.of_ignored (by decide))
      · obtain ⟨inner, rfl, closed, _⟩ :=
          alternatives_readBack apart nonempty onTrusted noCalls ok
        exact .quiet (Quiet.parenthesized closed)

/-- The conditions of a list are found again by splitting its SQL at the words AND, where a BETWEEN
claims the next of them, and the alternatives in each of them by splitting at the words OR. -/
theorem Condition.list_readsBack {conditions : List Condition} (nonempty : conditions ≠ [])
    (onTrusted : ∀ fragment ∈ conditions.flatMap Condition.trusted, Quiet letterCase fragment)
    (noCalls : ∀ text ∈ conditions.flatMap Condition.texts, functions.call? text = none)
    {result : Option Text} (ok : listSql? functions conditions = .ok result) :
    ∃ written, result = some written ∧
      List.Forall₂ (fun condition piece => IsPieceOf (condition.sql functions) piece) conditions
        (splitAt letterCase .and written) ∧
      ∀ alternatives, anyOf alternatives ∈ conditions → alternatives ≠ [] →
        ∃ inner, (anyOf alternatives).sql functions = .ok ('(' :: inner ++ [')']) ∧
          List.Forall₂ (fun predicate piece => IsPieceOf (predicate.sql functions) piece)
            alternatives (splitAt letterCase .or inner) := by
  obtain ⟨pieces, each, rfl⟩ := listSql?_eq_ok.mp ok
  rw [if_neg nonempty]
  have fragments := List.forall_mem_flatMap.mp onTrusted
  have texts := List.forall_mem_flatMap.mp noCalls
  have split := splitAt_joined_of_ok (nofun : Keyword.and ≠ .between) nonempty each
    fun condition member _ ok =>
      sql_selfContained apart (fragments condition member) (texts condition member) ok
  refine ⟨_, rfl, split.2, fun alternatives member present => ?_⟩
  obtain ⟨own, ownOk⟩ := mapM_isOk_iff.mp ⟨pieces, mapM_eq_ok.mpr each⟩ _ member
  obtain ⟨inner, rfl, _, inside⟩ :=
    alternatives_readBack apart present (fragments _ member) (texts _ member) ownOk
  exact ⟨inner, ownOk, inside⟩

end ReadingBack

/-- A range, a group with separators in a literal and in a quoted name, and a comparison. -/
def Condition.rangeAndGroup : List Condition :=
  [.single (.compare "age" (.between (.int 18) (.int 65))),
    .anyOf [.compare "name" (.is (.text "A OR B")), .raw "`C AND D` = (1 OR 2)"],
    .single (.compare "id" .notNull)]

/-- What is made of such conditions. -/
def Condition.rangeAndGroupSql : Text :=
  "`age` BETWEEN 18 AND 65 AND (`name` = 'A OR B' OR `C AND D` = (1 OR 2)) AND `id` IS NOT NULL"

/-- Of four words AND and three words OR, two and one are separators. -/
theorem Condition.list_readsBack_rangeAndGroup :
    FunctionSet.standard.NamesApart ∧
    (∀ fragment ∈ rangeAndGroup.flatMap Condition.trusted, Quiet .ignored fragment) ∧
    (∀ text ∈ rangeAndGroup.flatMap Condition.texts, FunctionSet.standard.call? text = none) ∧
    listSql? FunctionSet.standard rangeAndGroup = .ok (some rangeAndGroupSql) ∧
    List.Forall₂ (fun condition piece => IsPieceOf (condition.sql FunctionSet.standard) piece)
      rangeAndGroup (splitAt .ignored .and rangeAndGroupSql) := by
  have apart : FunctionSet.standard.NamesApart := by
    unfold FunctionSet.NamesApart
    decide
  have quiet : ∀ fragment ∈ rangeAndGroup.flatMap Condition.trusted, Quiet .ignored fragment := by
    decide
  have noCalls : ∀ text ∈ rangeAndGroup.flatMap Condition.texts,
      FunctionSet.standard.call? text = none := by decide
  have ok : listSql? FunctionSet.standard rangeAndGroup = .ok (some rangeAndGroupSql) := rfl
  obtain ⟨written, same, pieces, _⟩ :=
    list_readsBack apart (List.cons_ne_nil _ _) quiet noCalls ok
  cases same
  exact ⟨apart, quiet, noCalls, ok, pieces⟩

end SqlComposer
