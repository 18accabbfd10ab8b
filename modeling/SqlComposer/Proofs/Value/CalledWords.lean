import SqlComposer.Proofs.Lexical.Tokens
import SqlComposer.Proofs.Reference.Reading
import SqlComposer.Proofs.Value.Forms

/-!
# The functions that values call

A function is called where a plain word stands outside of quotes with a
parenthesis directly behind it.  `Lexical.calledWords` lists these words of a
text in order, at any depth of parentheses.

In the SQL of a value they come from two places only: the chain of calls, and the
text inside of it if that text is let through as a call
(`Value.calledWords_sql`).  Literals, quoted paths and numbers show no
parenthesis outside of quotes.  Every name of the chain is looked up in the set,
and so is the name in front of arguments that are let through.  The arguments
themselves are only looked over for quotes and parentheses.  So the set of
functions is closed as far as these arguments call none but allowed functions,
and no further (`Value.calledWords_allowed_iff`);
`Value.arguments_call_sleep` is a call of an allowed function around one that is
not.
-/

namespace SqlComposer

set_option autoImplicit false

open Lexical (isPlain isWordPart unquoted)

/-! ## Words in front of a parenthesis -/

namespace Lexical

/-- The words outside of quotes with a parenthesis directly behind them, in a text that is read in a
mode and behind the first letters of a word. -/
def calledFrom : Mode → Text → Text → List Text
  | _, _, [] => []
  | mode, word, character :: rest =>
      if mode = .outside ∧ isWordPart character then
        calledFrom .outside (word ++ [character]) rest
      else if mode = .outside ∧ character = '(' ∧ Text.isPlainWord word then
        word :: calledFrom .outside [] rest
      else calledFrom (mode.step .inStrings character) [] rest

/-- The plain words of a text that stand outside of quotes with a parenthesis directly behind
them, in order. -/
def calledWords (text : Text) : List Text :=
  calledFrom .outside [] text

/-- The letters of a word are read one after the other. -/
theorem calledFrom_word (word : Text) {letters : Text} (inWord : letters.all isWordPart)
    (rest : Text) :
    calledFrom .outside word (letters ++ rest) = calledFrom .outside (word ++ letters) rest := by
  induction letters generalizing word with
  | nil => rw [List.nil_append, List.append_nil]
  | cons letter letters ih =>
      obtain ⟨first, others⟩ := Bool.and_eq_true_iff.mp inWord
      rw [List.cons_append, calledFrom, if_pos ⟨rfl, first⟩, ih _ others, List.append_assoc,
        List.singleton_append]

/-- A closing parenthesis at the end calls nothing. -/
theorem calledFrom_append_close (mode : Mode) (word text : Text) :
    calledFrom mode word (text ++ [')']) = calledFrom mode word text := by
  induction text generalizing mode word with
  | nil =>
      have notWord : ¬ (mode = .outside ∧ isWordPart ')') := fun both => absurd both.2 (by decide)
      have notOpening : ¬ (mode = .outside ∧ ')' = '(' ∧ Text.isPlainWord word) := fun both =>
        absurd both.2.1 (by decide)
      rw [List.nil_append, calledFrom]
      exact (if_neg notWord).trans (if_neg notOpening)
  | cons character rest ih =>
      rw [List.cons_append, calledFrom, calledFrom, ih, ih, ih]

/-- A call of a plain word calls that word, and then what its arguments call. -/
theorem calledWords_call {name : Text} (isWord : Text.isPlainWord name) (arguments : Text) :
    calledWords (name ++ '(' :: arguments ++ [')']) = name :: calledWords arguments := by
  have inWord := (isWordPart_of_isPlainWord isWord).2
  have opening : calledFrom .outside name ('(' :: arguments) =
      name :: calledFrom .outside [] arguments := by
    rw [calledFrom, if_neg fun both => absurd both.2 (by decide), if_pos ⟨rfl, rfl, isWord⟩]
  rw [calledWords, calledFrom_append_close, calledFrom_word [] inWord, List.nil_append, opening,
    calledWords]

/-- Where no parenthesis is read outside of quotes, nothing is called. -/
theorem calledFrom_of_notMem_unquoted {mode : Mode} {text : Text}
    (noOpening : '(' ∉ unquoted .inStrings mode text) (word : Text) :
    calledFrom mode word text = [] := by
  induction text generalizing mode word with
  | nil => rfl
  | cons character rest ih =>
      rw [unquoted] at noOpening
      by_cases outside : mode = .outside
      · subst outside
        rw [if_pos rfl, List.mem_cons, not_or] at noOpening
        rw [calledFrom]
        split_ifs with inWord opening
        · rw [step_plain (isPlain_of_isWordPart inWord.2)] at noOpening
          exact ih noOpening.2 _
        · exact absurd opening.2.1.symm noOpening.1
        · exact ih noOpening.2 []
      · rw [if_neg outside] at noOpening
        rw [calledFrom, if_neg fun both => outside both.1, if_neg fun both => outside both.1]
        exact ih noOpening []

theorem calledWords_of_notMem_unquoted {text : Text}
    (noOpening : '(' ∉ unquoted .inStrings .outside text) : calledWords text = [] :=
  calledFrom_of_notMem_unquoted noOpening []

/-- Plain characters call nothing. -/
theorem calledWords_of_plain {text : Text} (plain : text.all isPlain) : calledWords text = [] := by
  refine calledWords_of_notMem_unquoted fun opening => ?_
  rw [unquoted_of_plain plain] at opening
  exact absurd (List.all_eq_true.mp plain _ opening) (by decide)

/-- A quoted run calls nothing. -/
theorem calledWords_enclose (mark : QuoteMark) {body : Text}
    (stays : StaysIn .inStrings mark body) : calledWords (mark.enclose body) = [] := by
  refine calledWords_of_notMem_unquoted fun opening => ?_
  rw [unquoted_enclose stays, List.mem_singleton] at opening
  cases mark <;> exact absurd opening (by decide)

end Lexical

/-! ## Names that are looked up -/

namespace FunctionSet

/-- A name in a text is looked up as it stands there, but in upper case. -/
theorem normalName_of_isCallName {name : Text} (isName : isCallName name) :
    normalName name = Text.uppercase name := by
  have notBlank : ∀ character ∈ name, Text.isBlank character = false := by
    intro character member
    have inWord := isWordCharacter_of_mem_name isName character member
    have small := toNat_lt_of_isPlain (isPlain_of_isWordCharacter inWord)
    exact Text.of_ascii (fun other => Text.isWordCharacter other → Text.isBlank other = false)
      (by decide) small inWord
  have trimmed : Text.trimmed name = name :=
    Text.trimmed_eq_self (fun _ first => notBlank _ (List.mem_of_mem_head? first))
      (fun _ last => notBlank _ (List.mem_of_getLast? last))
  rw [normalName, trimmed]

/-- The name of a call that is let through is in the set. -/
theorem name_mem_of_call? {functions : FunctionSet} {text name arguments : Text}
    (called : functions.call? text = some (name, arguments)) : name ∈ functions.names := by
  obtain ⟨written, isCall, rfl⟩ := call?_eq_some_iff.mp called
  rw [← normalName_of_isCallName isCall.isName]
  exact List.contains_iff_mem.mp isCall.allowed

theorem uppercase_name_of_call? {functions : FunctionSet} {text name arguments : Text}
    (called : functions.call? text = some (name, arguments)) : Text.uppercase name = name := by
  obtain ⟨written, _, rfl⟩ := call?_eq_some_iff.mp called
  exact Text.uppercase_uppercase written

end FunctionSet

/-! ## Words that the SQL of a value calls -/

namespace Value

/-- The words that the SQL of a text calls: when it is let through as a call, its name and the words
that its arguments call. -/
def textCalls (functions : FunctionSet) (text : Text) : List Text :=
  match functions.call? text with
  | some (name, arguments) => name :: Lexical.calledWords arguments
  | none => []

/-- Of a path of quoted segments no more is read outside of quotes than its marks and points. -/
theorem opening_notMem_unquoted_path {more : Nat} {path : Text} (quoted : isQuotedPath more path) :
    '(' ∉ unquoted .inStrings .outside path := by
  have notTick : '(' ≠ Text.tick := by decide
  induction more generalizing path with
  | zero => cases quoted
  | succ more ih =>
      obtain ⟨name, _, noTick, rfl | ⟨next, rfl, follows⟩⟩ := isQuotedPath_succ_iff.mp quoted
      · rw [← List.append_nil (Text.ticked name), Lexical.unquoted_ticked_append noTick]
        exact List.not_mem_cons_of_ne_of_not_mem notTick List.not_mem_nil
      · rw [Lexical.unquoted_ticked_append noTick]
        refine List.not_mem_cons_of_ne_of_not_mem notTick ?_
        exact List.not_mem_cons_of_ne_of_not_mem (by decide) (ih follows)

/-- What is no call and no text calls nothing. -/
theorem calledWords_atom {functions : FunctionSet} {value : Value} (isAtom : value.isAtom)
    {written : Text} (ok : value.sql functions = .ok written) :
    Lexical.calledWords written = [] := by
  cases value with
  | text content => cases isAtom
  | call function argument => cases isAtom
  | null =>
      cases ok
      rfl
  | bool value =>
      cases ok
      cases value <;> rfl
  | int value =>
      cases ok
      exact Lexical.calledWords_of_plain (isPlain_of_isNumeral (Number.signedDigits_isNumeral _))
  | uint value =>
      cases ok
      exact Lexical.calledWords_of_plain (isPlain_of_isNumeral (Number.digits_isNumeral _))
  | float number =>
      exact Lexical.calledWords_of_plain (isPlain_of_isNumeral (Double.sql_isNumeral ok))
  | dateTime time =>
      cases ok
      exact Lexical.calledWords_enclose .single (staysIn_dateTime time)

section

variable {functions : FunctionSet} (plainNames : ∀ name ∈ functions.names, Text.isPlainWord name)
include plainNames

/-- A text calls something only when it is let through as a call. -/
theorem calledWords_textSql (text : Text) :
    Lexical.calledWords (textSql functions text) = textCalls functions text := by
  unfold textSql textCalls
  cases called : functions.call? text with
  | some call =>
      obtain ⟨name, arguments⟩ := call
      exact Lexical.calledWords_call (plainNames _ (FunctionSet.name_mem_of_call? called)) arguments
  | none =>
      dsimp only
      split_ifs with quoted
      · exact Lexical.calledWords_of_notMem_unquoted (opening_notMem_unquoted_path quoted)
      · exact Lexical.calledWords_enclose .single (staysIn_escapedWith _ text)

/-- The SQL of a value calls the functions of its chain, and what the text inside calls. -/
theorem calledWords_sql {value : Value} {written : Text} (ok : value.sql functions = .ok written) :
    Lexical.calledWords written =
      value.callees.map FunctionSet.normalName ++ value.texts.flatMap (textCalls functions) := by
  induction value generalizing written with
  | text content =>
      cases ok
      rw [calledWords_textSql plainNames, texts, List.flatMap_singleton]
      rfl
  | call function argument ih =>
      simp only [sql] at ok
      split_ifs at ok with allowed
      obtain ⟨inner, inside, same⟩ := bind_eq_ok.mp ok
      cases same
      have isWord := FunctionSet.isPlainWord_of_allows plainNames allowed
      rw [Lexical.calledWords_call isWord, ih inside]
      rfl
  | _ => exact calledWords_atom rfl ok

/-- What the SQL of a value calls outside of arguments that are let through is allowed; and it calls
none but allowed functions exactly when these arguments call none but allowed functions. -/
theorem calledWords_allowed_iff {value : Value} {written : Text}
    (ok : value.sql functions = .ok written) :
    ((∀ word ∈ Lexical.calledWords written, Text.uppercase word ∈ functions.names) ↔
      ∀ text ∈ value.texts, ∀ name arguments, functions.call? text = some (name, arguments) →
        ∀ word ∈ Lexical.calledWords arguments, Text.uppercase word ∈ functions.names) ∧
    ∀ word ∈ Lexical.calledWords written, Text.uppercase word ∈ functions.names ∨
      ∃ text ∈ value.texts, ∃ name arguments, functions.call? text = some (name, arguments) ∧
        word ∈ Lexical.calledWords arguments := by
  have words := calledWords_sql plainNames ok
  have outside : ∀ word ∈ Lexical.calledWords written, Text.uppercase word ∈ functions.names ∨
      ∃ text ∈ value.texts, ∃ name arguments, functions.call? text = some (name, arguments) ∧
        word ∈ Lexical.calledWords arguments := by
    intro word member
    rw [words, List.mem_append, List.mem_map, List.mem_flatMap] at member
    rcases member with ⟨function, inChain, rfl⟩ | ⟨text, inside, called⟩
    · left
      rw [FunctionSet.normalName, Text.uppercase_uppercase]
      exact List.contains_iff_mem.mp ((sql_eq_ok_iff.mp ok).1 function inChain)
    · unfold textCalls at called
      split at called
      · rename_i name arguments isCall
        rcases List.mem_cons.mp called with rfl | inArguments
        · left
          rw [FunctionSet.uppercase_name_of_call? isCall]
          exact FunctionSet.name_mem_of_call? isCall
        · exact .inr ⟨text, inside, name, arguments, isCall, inArguments⟩
      · cases called
  refine ⟨⟨fun each text inside name arguments called word inArguments => each word ?_,
    fun each word member => ?_⟩, outside⟩
  · rw [words]
    refine List.mem_append_right _ (List.mem_flatMap.mpr ⟨text, inside, ?_⟩)
    rw [textCalls, called]
    exact List.mem_cons_of_mem _ inArguments
  · rcases outside word member with allowed | ⟨text, inside, name, arguments, called, inArguments⟩
    · exact allowed
    · exact each text inside name arguments called word inArguments

end

/-- A chain of two calls around one that is let through.  Its arguments call a function too, and
seem to call two others, inside of a string and inside of a quoted name. -/
theorem calledWords_allowed_lower_trim_concat :
    (∀ name ∈ FunctionSet.standard.names, Text.isPlainWord name) ∧
    sql FunctionSet.standard
        (.call "lower" (.call "trim" (.text "Concat('sleep(', left(`benchmark(`, 3))"))) =
      .ok "LOWER(TRIM(CONCAT('sleep(', left(`benchmark(`, 3))))".toList ∧
    Lexical.calledWords "LOWER(TRIM(CONCAT('sleep(', left(`benchmark(`, 3))))" =
      ["LOWER".toList, "TRIM".toList, "CONCAT".toList, "left".toList] ∧
    ∀ word ∈ Lexical.calledWords "LOWER(TRIM(CONCAT('sleep(', left(`benchmark(`, 3))))",
      Text.uppercase word ∈ FunctionSet.standard.names := by
  have plainNames : ∀ name ∈ FunctionSet.standard.names, Text.isPlainWord name := by decide
  have ok : sql FunctionSet.standard
        (.call "lower" (.call "trim" (.text "Concat('sleep(', left(`benchmark(`, 3))"))) =
      .ok "LOWER(TRIM(CONCAT('sleep(', left(`benchmark(`, 3))))".toList := rfl
  refine ⟨plainNames, ok, rfl, (calledWords_allowed_iff plainNames ok).1.mpr ?_⟩
  intro text member name arguments called
  obtain rfl := List.mem_singleton.mp member
  have split : FunctionSet.standard.call? "Concat('sleep(', left(`benchmark(`, 3))" =
      some ("CONCAT".toList, "'sleep(', left(`benchmark(`, 3)".toList) := rfl
  rw [split] at called
  cases called
  decide

/-- A function that is not allowed is called in the arguments of one that is. -/
theorem arguments_call_sleep :
    (∀ name ∈ FunctionSet.standard.names, Text.isPlainWord name) ∧
    sql FunctionSet.standard (.text "MD5(SLEEP(10))") = .ok "MD5(SLEEP(10))".toList ∧
    "SLEEP".toList ∈ Lexical.calledWords "MD5(SLEEP(10))" ∧
    Text.uppercase "SLEEP" ∉ FunctionSet.standard.names := by
  decide

end Value

end SqlComposer
