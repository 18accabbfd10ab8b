import SqlComposer.Proofs.Value.Rendering

/-!
# The forms of texts and calls

A text is written in one of three ways, and its form alone decides which.  The
forms are languages here, told without the readers that recognise them: a whole
call is a name, a parenthesis, arguments that close what they open and a last
parenthesis (`FunctionSet.IsCall`), and a quoted path is one to three names
between grave accents with points between them (`Value.IsPath`).  Since no name
holds a parenthesis, a text is a call in one way only (`call_unique`), and the
readers accept exactly these languages (`call?_eq_some_iff`, `isQuotedPath_iff`).

A value is a chain of calls around something that is no call.  Its SQL is the SQL
of that inside of the names of the chain, and there is none exactly when a name
of the chain is not allowed or a number that is not finite stands inside
(`Value.sql_by_form`).
-/

namespace SqlComposer

set_option autoImplicit false

open Text (ticked)

/-! ## Whole calls -/

namespace FunctionSet

/-- Whether a text can stand as a name in front of the parenthesis of a call: a letter or a low
line, then letters, digits and low lines. -/
def isCallName : Text → Bool
  | [] => false
  | first :: rest => Text.isWordStart first && rest.all Text.isWordCharacter

/-- A text is the whole call of an allowed function, by this name and with these arguments. -/
structure IsCall (functions : FunctionSet) (text name arguments : Text) : Prop where
  isName : isCallName name
  allowed : functions.allows name
  closed : Lexical.isClosed .everywhere arguments
  whole : text = name ++ '(' :: arguments ++ [')']

theorem isWordCharacter_of_isWordStart {character : Char} (start : Text.isWordStart character) :
    Text.isWordCharacter character := by
  rcases Bool.or_eq_true_iff.mp start with letter | lowLine
  · simp [Text.isWordCharacter, Char.isAlphanum, letter]
  · rw [Text.isWordCharacter, lowLine, Bool.or_true]

/-- A name consists of word characters. -/
theorem isWordCharacter_of_mem_name {name : Text} (isName : isCallName name) :
    ∀ character ∈ name, Text.isWordCharacter character := by
  cases name with
  | nil => cases isName
  | cons first rest =>
      obtain ⟨start, others⟩ := Bool.and_eq_true_iff.mp isName
      exact List.forall_mem_cons.mpr
        ⟨isWordCharacter_of_isWordStart start, List.all_eq_true.mp others⟩

/-- The name in front of a parenthesis is the run of word characters at the start. -/
theorem takeWhile_call {name : Text} (isName : isCallName name) (inner : Text) :
    (name ++ '(' :: inner).takeWhile Text.isWordCharacter = name := by
  have opening : ¬ Text.isWordCharacter '(' := by decide
  rw [List.takeWhile_append_of_pos (isWordCharacter_of_mem_name isName),
    List.takeWhile_cons_of_neg opening, List.append_nil]

/-- A text has the form of a call with one name and one list of arguments only. -/
theorem call_unique {name name' arguments arguments' : Text} (isName : isCallName name)
    (isName' : isCallName name')
    (same : name ++ '(' :: arguments ++ [')'] = name' ++ '(' :: arguments' ++ [')']) :
    name = name' ∧ arguments = arguments' := by
  rw [List.append_left_inj] at same
  have sameName : name = name' := by
    rw [← takeWhile_call isName arguments, same, takeWhile_call isName']
  subst sameName
  exact ⟨rfl, (List.cons.inj (List.append_cancel_left same)).2⟩

/-- A name is read as a character that starts a word and a run of word characters. -/
theorem reads_name_iff {name : Text} {groups : List Text} :
    Regex.Reads (.headedRun Text.isWordStart Text.isWordCharacter) name groups ↔
      groups = [] ∧ isCallName name := by
  rw [Regex.reads_headedRun_iff]
  refine and_congr_right fun _ => ?_
  cases name with
  | nil => simp [isCallName]
  | cons first rest => simp [isCallName]

/-- The pattern of calls reads a name, a parenthesis, any arguments and a parenthesis. -/
theorem reads_callPattern_iff {text : Text} {groups : List Text} :
    callPattern.Reads text groups ↔
      ∃ name arguments, groups = [name, arguments] ∧ isCallName name ∧
        text = name ++ '(' :: arguments ++ [')'] := by
  simp only [callPattern, Regex.reads_seq_iff, Regex.reads_group_iff, reads_name_iff,
    Regex.reads_one_iff, Regex.reads_many_iff, beq_iff_eq]
  constructor
  · rintro ⟨name, _, _, _, rfl, rfl, ⟨_, rfl, rfl, isName⟩, _, _, _, _, rfl, rfl,
      ⟨rfl, _, rfl, rfl⟩, arguments, _, _, _, rfl, rfl, ⟨_, rfl, rfl, _⟩, rfl, _, rfl, rfl⟩
    exact ⟨name, arguments, rfl, isName, (List.append_assoc name ('(' :: arguments) [')']).symm⟩
  · rintro ⟨name, arguments, rfl, isName, rfl⟩
    exact ⟨name, '(' :: arguments ++ [')'], [name], [arguments], List.append_assoc .., rfl,
      ⟨[], rfl, rfl, isName⟩, ['('], arguments ++ [')'], [], [arguments], rfl, rfl,
      ⟨rfl, '(', rfl, rfl⟩, arguments, [')'], [arguments], [], rfl, rfl,
      ⟨[], rfl, rfl, fun _ _ => trivial⟩, rfl, ')', rfl, rfl⟩

/-- A text is split where its first parenthesis stands, if that is behind a name and another one
ends the text. -/
theorem splitCall?_eq_some_iff {text name arguments : Text} :
    splitCall? text = some (name, arguments) ↔
      isCallName name ∧ text = name ++ '(' :: arguments ++ [')'] := by
  unfold splitCall?
  constructor
  · intro taken
    split at taken
    · rename_i found
      cases taken
      obtain ⟨_, _, same, isName, whole⟩ :=
        reads_callPattern_iff.mp (Regex.reads_of_groups? found)
      cases same
      exact ⟨isName, whole⟩
    · cases taken
  · rintro ⟨isName, whole⟩
    have reads := reads_callPattern_iff.mpr ⟨name, arguments, rfl, isName, whole⟩
    have found : callPattern.groups? text = some [name, arguments] := by
      refine Regex.groups?_eq_some reads fun others read => ?_
      obtain ⟨name', arguments', rfl, isName', whole'⟩ := reads_callPattern_iff.mp read
      obtain ⟨rfl, rfl⟩ := call_unique isName isName' (whole.symm.trans whole')
      rfl
    rw [found]

/-- A text is let through exactly when it is a whole call of an allowed function. -/
theorem call?_eq_some_iff {functions : FunctionSet} {text written arguments : Text} :
    functions.call? text = some (written, arguments) ↔
      ∃ name, functions.IsCall text name arguments ∧ written = Text.uppercase name := by
  unfold call?
  constructor
  · intro called
    split at called
    · rename_i name inner taken
      split_ifs at called with accepted
      cases called
      obtain ⟨isName, whole⟩ := splitCall?_eq_some_iff.mp taken
      exact ⟨name, ⟨isName, accepted.1, accepted.2, whole⟩, rfl⟩
    · cases called
  · rintro ⟨name, isCall, rfl⟩
    rw [splitCall?_eq_some_iff.mpr ⟨isCall.isName, isCall.whole⟩]
    exact if_pos ⟨isCall.allowed, isCall.closed⟩

theorem call?_eq_none_iff {functions : FunctionSet} {text : Text} :
    functions.call? text = none ↔ ∀ name arguments, ¬ functions.IsCall text name arguments := by
  rw [Option.eq_none_iff_forall_ne_some]
  constructor
  · intro none name arguments isCall
    exact none _ (call?_eq_some_iff.mpr ⟨name, isCall, rfl⟩)
  · rintro noCall ⟨written, arguments⟩ called
    obtain ⟨name, isCall, _⟩ := call?_eq_some_iff.mp called
    exact noCall name arguments isCall

end FunctionSet

/-! ## Quoted paths -/

namespace Value

/-- A text consists of quoted names, at least one and at most three, with points between them. -/
def IsPath (text : Text) : Prop :=
  ∃ names : List Text, names ≠ [] ∧ names.length ≤ 3 ∧
    (∀ name ∈ names, name ≠ [] ∧ Text.tick ∉ name) ∧
      text = Text.joined "." (names.map ticked)

/-- A path of two names or more is its first name in front of a point and the path of the others. -/
theorem path_cons_cons (name second : Text) (others : List Text) :
    Text.joined "." ((name :: second :: others).map ticked) =
      ticked name ++ '.' :: Text.joined "." ((second :: others).map ticked) := by
  rw [List.map_cons, List.map_cons, Text.joined_cons_cons, List.append_assoc]
  rfl

/-- The reader of quoted paths accepts up to so many quoted names with points between them. -/
theorem isQuotedPath_iff {most : Nat} {text : Text} :
    isQuotedPath most text ↔
      ∃ names : List Text, names ≠ [] ∧ names.length ≤ most ∧
        (∀ name ∈ names, name ≠ [] ∧ Text.tick ∉ name) ∧
          text = Text.joined "." (names.map ticked) := by
  induction most generalizing text with
  | zero =>
      refine ⟨nofun, ?_⟩
      rintro ⟨names, nonempty, none, _⟩
      exact absurd (List.length_eq_zero_iff.mp (Nat.le_zero.mp none)) nonempty
  | succ more ih =>
      constructor
      · intro quoted
        obtain ⟨name, nonempty, noTick, rfl | ⟨next, rfl, follows⟩⟩ :=
          isQuotedPath_succ_iff.mp quoted
        · exact ⟨[name], List.cons_ne_nil _ _, Nat.le_add_left _ _,
            List.forall_mem_singleton.mpr ⟨nonempty, noTick⟩, (Text.joined_singleton _ _).symm⟩
        · obtain ⟨names, some, atMost, each, rfl⟩ := ih.mp follows
          obtain ⟨second, others, rfl⟩ := List.exists_cons_of_ne_nil some
          refine ⟨name :: second :: others, List.cons_ne_nil _ _, Nat.succ_le_succ atMost,
            List.forall_mem_cons.mpr ⟨⟨nonempty, noTick⟩, each⟩, (path_cons_cons _ _ _).symm⟩
      · rintro ⟨names, some, atMost, each, rfl⟩
        obtain ⟨name, others, rfl⟩ := List.exists_cons_of_ne_nil some
        obtain ⟨⟨nonempty, noTick⟩, each⟩ := List.forall_mem_cons.mp each
        cases others with
        | nil =>
            rw [List.map_singleton, Text.joined_singleton]
            exact isQuotedPath_succ_iff.mpr ⟨name, nonempty, noTick, .inl rfl⟩
        | cons second others =>
            have follows : isQuotedPath more (Text.joined "." ((second :: others).map ticked)) :=
              ih.mpr ⟨_, List.cons_ne_nil _ _, Nat.le_of_succ_le_succ atMost, each, rfl⟩
            exact isQuotedPath_succ_iff.mpr
              ⟨name, nonempty, noTick, .inr ⟨_, path_cons_cons _ _ _, follows⟩⟩

theorem isQuotedPath_three_iff {text : Text} : isQuotedPath 3 text ↔ IsPath text :=
  isQuotedPath_iff

/-! ## Chains of calls -/

/-- The functions that are called in a value, from the outermost one to the innermost. -/
def callees : Value → List Text
  | .call function argument => function :: argument.callees
  | _ => []

/-- What stands inside of all calls of a value. -/
def innermost : Value → Value
  | .call _ argument => argument.innermost
  | value => value

/-- SQL inside of calls of functions, the first of them outermost. -/
def nested (functions : List Text) (inner : Text) : Text :=
  functions.foldr (fun function body => FunctionSet.normalName function ++ '(' :: body ++ [')'])
    inner

variable {functions : FunctionSet}

theorem callees_innermost (value : Value) : value.innermost.callees = [] := by
  induction value with
  | call function argument ih => exact ih
  | _ => rfl

/-- What is no call has SQL unless it is a number that is not finite. -/
theorem sql_isOk_of_noCallees {value : Value} (noCall : value.callees = []) :
    (∃ written, value.sql functions = .ok written) ↔
      ∀ number, value = .float number → number.isFinite := by
  cases value with
  | call function argument => cases noCall
  | float number =>
      simp only [sql, Double.sql, float.injEq, forall_eq']
      split_ifs with finite
      · exact ⟨fun _ => finite, fun _ => ⟨_, rfl⟩⟩
      · refine ⟨?_, fun isFinite => absurd isFinite finite⟩
        rintro ⟨_, ok⟩
        cases ok
  | _ =>
      refine ⟨fun _ number same => ?_, fun _ => ⟨_, rfl⟩⟩
      cases same

/-- The SQL of a chain of allowed calls is the SQL of what stands inside, inside of the names. -/
theorem sql_eq_ok_iff {value : Value} {written : Text} :
    value.sql functions = .ok written ↔
      (∀ function ∈ value.callees, functions.allows function) ∧
        ∃ inner, value.innermost.sql functions = .ok inner ∧
          written = nested value.callees inner := by
  induction value generalizing written with
  | call function argument ih =>
      simp only [sql, callees, innermost, List.forall_mem_cons]
      by_cases allowed : functions.allows function
      · rw [if_pos allowed, bind_eq_ok]
        simp only [ih, allowed, true_and]
        constructor
        · rintro ⟨_, ⟨each, inner, ok, rfl⟩, same⟩
          exact ⟨each, inner, ok, (Except.ok.inj same).symm⟩
        · rintro ⟨each, inner, ok, rfl⟩
          exact ⟨_, ⟨each, inner, ok, rfl⟩, rfl⟩
      · rw [if_neg allowed]
        refine ⟨fun ok => ?_, fun both => absurd both.1.1 allowed⟩
        cases ok
  | _ =>
      constructor
      · intro ok
        exact ⟨List.forall_mem_nil _, written, ok, rfl⟩
      · rintro ⟨_, _, ok, rfl⟩
        exact ok

/-- A value has no SQL when a function of its chain is not allowed or a number that is not finite
stands inside. -/
theorem sql_eq_error_iff {value : Value} :
    (∃ fault, value.sql functions = .error fault) ↔
      (∃ function ∈ value.callees, functions.allows function = false) ∨
        ∃ number, value.innermost = .float number ∧ number.isFinite = false := by
  have isOk : (∃ written, value.sql functions = .ok written) ↔
      (∀ function ∈ value.callees, functions.allows function) ∧
        ∀ number, value.innermost = .float number → number.isFinite := by
    rw [← @sql_isOk_of_noCallees functions _ (callees_innermost value)]
    constructor
    · rintro ⟨written, ok⟩
      obtain ⟨each, inner, inside, _⟩ := sql_eq_ok_iff.mp ok
      exact ⟨each, inner, inside⟩
    · rintro ⟨each, inner, inside⟩
      exact ⟨_, sql_eq_ok_iff.mpr ⟨each, inner, inside, rfl⟩⟩
  rw [exists_error_iff, isOk, not_and_or]
  simp only [not_forall, exists_prop, Bool.not_eq_true]

/-- A text that is a whole call of an allowed function, which it is in one way only, is written with
the name in upper case and the arguments as they are.  Any other text is left alone when it is a
quoted path, and is written as a literal when it is none.  A value has no SQL exactly when a
function of its chain of calls is not allowed or a number that is not finite stands inside of the
chain; and if it has, then it is that of what stands inside, between the parentheses of the trimmed
names in upper case. -/
theorem sql_by_form (functions : FunctionSet) :
    (∀ text name arguments, functions.IsCall text name arguments →
      sql functions (.text text) = .ok (Text.uppercase name ++ '(' :: arguments ++ [')']) ∧
        ∀ name' arguments', FunctionSet.isCallName name' →
          text = name' ++ '(' :: arguments' ++ [')'] → name' = name ∧ arguments' = arguments) ∧
    (∀ text, (∀ name arguments, ¬ functions.IsCall text name arguments) →
      (IsPath text → sql functions (.text text) = .ok text) ∧
        (¬ IsPath text → sql functions (.text text) = .ok (Literal.literal text))) ∧
    ∀ value,
      ((∃ fault, sql functions value = .error fault) ↔
        (∃ function ∈ value.callees, functions.allows function = false) ∨
          ∃ number, value.innermost = .float number ∧ number.isFinite = false) ∧
      ∀ written, sql functions value = .ok written →
        ∃ inner, sql functions value.innermost = .ok inner ∧
          written = nested value.callees inner := by
  refine ⟨fun text name arguments isCall => ⟨?_, ?_⟩, fun text noCall => ⟨?_, ?_⟩,
    fun value => ⟨sql_eq_error_iff, fun written ok => (sql_eq_ok_iff.mp ok).2⟩⟩
  · have called := FunctionSet.call?_eq_some_iff.mpr ⟨name, isCall, rfl⟩
    rw [sql, textSql, called]
  · intro name' arguments' isName' whole
    exact FunctionSet.call_unique isName' isCall.isName (whole.symm.trans isCall.whole)
  · intro isPath
    rw [sql, textSql, FunctionSet.call?_eq_none_iff.mpr noCall]
    exact congrArg Except.ok (if_pos (isQuotedPath_three_iff.mpr isPath))
  · intro notPath
    rw [sql, textSql, FunctionSet.call?_eq_none_iff.mpr noCall]
    exact congrArg Except.ok (if_neg (mt isQuotedPath_three_iff.mp notPath))

/-- A call with a parenthesis in a string, a path of three names, a path of four, which is a text
like any other, and a chain of two calls. -/
theorem sql_by_form_standard :
    FunctionSet.standard.IsCall "Md5('(')" "Md5" "'('" ∧
    sql FunctionSet.standard (.text "Md5('(')") = .ok "MD5('(')".toList ∧
    IsPath "`shop`.`a b`.`id`" ∧
    sql FunctionSet.standard (.text "`shop`.`a b`.`id`") = .ok "`shop`.`a b`.`id`".toList ∧
    ¬ IsPath "`a`.`b`.`c`.`d`" ∧
    sql FunctionSet.standard (.text "`a`.`b`.`c`.`d`") = .ok "'`a`.`b`.`c`.`d`'".toList ∧
    ∃ inner, sql FunctionSet.standard (.text "it's") = .ok inner ∧
      "LOWER(TRIM('it\\'s'))".toList = nested ["lower", " Trim "] inner := by
  obtain ⟨calls, others, chains⟩ := sql_by_form FunctionSet.standard
  have isCall : FunctionSet.standard.IsCall "Md5('(')" "Md5" "'('" :=
    ⟨by decide, by decide, by decide, rfl⟩
  have noCall : ∀ {text : Text}, FunctionSet.standard.call? text = none →
      ∀ name arguments, ¬ FunctionSet.standard.IsCall text name arguments :=
    FunctionSet.call?_eq_none_iff.mp
  have isPath : IsPath "`shop`.`a b`.`id`" := isQuotedPath_three_iff.mp (by decide)
  have notPath : ¬ IsPath "`a`.`b`.`c`.`d`" := fun path =>
    absurd (isQuotedPath_three_iff.mpr path) (by decide)
  exact ⟨isCall, (calls _ _ _ isCall).1, isPath, (others _ (noCall (by decide))).1 isPath, notPath,
    (others _ (noCall (by decide))).2 notPath,
    (chains (.call "lower" (.call " Trim " (.text "it's")))).2 _ (by decide)⟩

end Value

end SqlComposer
