import SqlComposer.Proofs.Value.Forms

/-!
# Values that close what they open

A value is written as SQL that closes all its quotes and parentheses, with one
proviso.  Literals and quoted paths always do.  A text that is let through as a
call does when its arguments do; but these were looked over by a reader that
takes a character along behind every backslash, whereas in a quoted name the
server does not.

`Value.sql_closes_iff` says exactly what the proviso is: the SQL of a value
closes, and the parenthesis of each call in it is first closed by the last
character, if and only if the arguments of the calls that are let through are
closed for the server too.  The two readers part only at a grave accent that
stands directly behind a backslash, and `escaped_tick_ends_call_early` is such a
text.
-/

namespace SqlComposer

set_option autoImplicit false

open Lexical

/-! ## The two readers of arguments -/

namespace Lexical

/-- How a reader with backslashes in strings stands to one with backslashes everywhere, in front of
a text: in the same mode, or just behind a backslash in a quoted name, with no mark to follow. -/
def KeepsStep (mode everywhere : Mode) (text : Text) : Prop :=
  mode = everywhere ∨
    mode = .quoted .tick ∧ everywhere = .escaped .tick ∧ text.head? ≠ some Text.tick

/-- One more character keeps the two readers in step. -/
theorem KeepsStep.step {mode everywhere : Mode} {character : Char} {rest : Text}
    (noEscapedTick : ¬ ['\\', Text.tick] <:+: character :: rest)
    (inStep : KeepsStep mode everywhere (character :: rest)) :
    KeepsStep (mode.step .inStrings character) (everywhere.step .everywhere character) rest := by
  rcases inStep with rfl | ⟨rfl, rfl, notTick⟩
  · cases mode with
    | outside => exact .inl rfl
    | escaped mark => exact .inl rfl
    | quoted mark =>
        cases mark with
        | single => exact .inl rfl
        | double => exact .inl rfl
        | tick =>
            by_cases backslash : character = '\\'
            · subst backslash
              refine .inr ⟨rfl, rfl, fun next => noEscapedTick ?_⟩
              obtain ⟨after, rfl⟩ := List.head?_eq_some_iff.mp next
              exact ⟨[], after, rfl⟩
            · left
              simp [Mode.step, backslash]
  · left
    have different : character ≠ QuoteMark.tick.character :=
      fun same => notTick (congrArg some same)
    simp [Mode.step, different, EscapeRule.inStrings]

/-- Readers in step count the same depth. -/
theorem KeepsStep.depthAfter_eq {mode everywhere : Mode} {text : Text}
    (inStep : KeepsStep mode everywhere text) (depth : Nat) (character : Char) :
    mode.depthAfter depth character = everywhere.depthAfter depth character := by
  rcases inStep with rfl | ⟨rfl, rfl, _⟩
  · rfl
  · rw [depthAfter_of_ne_outside (by decide), depthAfter_of_ne_outside (by decide)]

/-- Readers in step end outside of quotes together. -/
theorem KeepsStep.scan {mode everywhere : Mode} {depth left : Nat} {text : Text}
    (noEscapedTick : ¬ ['\\', Text.tick] <:+: text) (inStep : KeepsStep mode everywhere text)
    (scanned : Lexical.scan .everywhere everywhere depth text = some (.outside, left)) :
    Lexical.scan .inStrings mode depth text = some (.outside, left) := by
  induction text generalizing mode everywhere depth with
  | nil =>
      cases scanned
      rcases inStep with rfl | ⟨_, impossible, _⟩
      · rfl
      · cases impossible
  | cons character rest ih =>
      rw [scan_cons] at scanned ⊢
      rw [inStep.depthAfter_eq]
      obtain ⟨next, counted, scanned⟩ := Option.bind_eq_some_iff.mp scanned
      rw [counted, Option.bind_some]
      have noneLater : ¬ ['\\', Text.tick] <:+: rest :=
        fun later => noEscapedTick (List.infix_cons later)
      exact ih noneLater (inStep.step noEscapedTick) scanned

/-- The two readers agree on a text in which no grave accent stands directly behind a backslash. -/
theorem isClosed_inStrings_of_everywhere {text : Text} (closed : isClosed .everywhere text)
    (noEscapedTick : ¬ ['\\', Text.tick] <:+: text) : isClosed .inStrings text :=
  isClosed_iff.mpr (KeepsStep.scan noEscapedTick (.inl rfl) (isClosed_iff.mp closed))

end Lexical

/-! ## Calls that are let through -/

namespace FunctionSet

/-- The arguments of every text that is let through as a call are closed for the server. -/
def ClosesArguments (functions : FunctionSet) (text : Text) : Prop :=
  ∀ name arguments, functions.call? text = some (name, arguments) →
    isClosed .inStrings arguments

/-- What is let through as a call has a plain name. -/
theorem name_isPlain_of_call? {functions : FunctionSet} {text name arguments : Text}
    (called : functions.call? text = some (name, arguments)) : name.all isPlain := by
  obtain ⟨written, isCall, rfl⟩ := call?_eq_some_iff.mp called
  refine uppercase_isPlain (List.all_eq_true.mpr fun character member => ?_)
  exact isPlain_of_isWordCharacter (isWordCharacter_of_mem_name isCall.isName character member)

end FunctionSet

namespace Value

/-- A text is written as SQL that closes, unless it is let through as a call that does not. -/
theorem textSql_isSealed {functions : FunctionSet} {text : Text}
    (closes : functions.ClosesArguments text) :
    Sealed (fun _ => True) (textSql functions text) := by
  have congruence := sealed_isCongruence (fun _ _ => trivial : ∀ c, isShown c → True)
  cases called : functions.call? text with
  | none => exact (congruence.textSql_of_noCall called).1
  | some call =>
      obtain ⟨name, arguments⟩ := call
      have names := congruence.plain (FunctionSet.name_isPlain_of_call? called)
      have inner : Sealed (fun _ => True) arguments :=
        ⟨closes name arguments called, fun _ _ => trivial⟩
      simp only [textSql, called]
      exact (congruence.call names ⟨inner, inner⟩).1

/-- A value is written as SQL that closes, and the parenthesis of every text that is let through
as a call is first closed by its last character, exactly when the arguments of these calls are
closed for the server.  They are whenever no grave accent stands directly behind a backslash. -/
theorem sql_closes_iff {functions : FunctionSet}
    (plainNames : ∀ name ∈ functions.names, Text.isPlainWord name) {value : Value}
    {written : Text} (ok : value.sql functions = .ok written) :
    ((isClosed .inStrings written ∧
        ∀ text ∈ value.texts, ∀ name arguments,
          functions.call? text = some (name, arguments) →
            textSql functions text = name ++ '(' :: arguments ++ [')'] ∧
              ClosesAtEnd .inStrings arguments) ↔
      ∀ text ∈ value.texts, functions.ClosesArguments text) ∧
    ∀ arguments, isClosed .everywhere arguments → ¬ ['\\', Text.tick] <:+: arguments →
      isClosed .inStrings arguments := by
  refine ⟨⟨?_, fun closes => ⟨?_, ?_⟩⟩, fun _ => isClosed_inStrings_of_everywhere⟩
  · rintro ⟨_, closeAtEnd⟩ text member name arguments called
    exact closesAtEnd_iff.mp (closeAtEnd text member name arguments called).2
  · have congruence := sealed_isCongruence (fun _ _ => trivial : ∀ c, isShown c → True)
    have onText : ∀ first second,
        functions.ClosesArguments first ∧ functions.ClosesArguments second →
          Sealed (fun _ => True) (textSql functions first) ∧
            Sealed (fun _ => True) (textSql functions second) :=
      fun _ _ both => ⟨textSql_isSealed both.1, textSql_isSealed both.2⟩
    have matched := sql_matched congruence plainNames onText
      (Twin.self fun text member => ⟨closes text member, closes text member⟩)
    rw [ok] at matched
    exact matched.related_of_ok.1.closed
  · intro text member name arguments called
    refine ⟨?_, closesAtEnd_iff.mpr (closes text member name arguments called)⟩
    rw [textSql, called]

/-- A call around a call whose arguments hold parentheses in a string and in a quoted name. -/
theorem sql_closes_lower_concat :
    (∀ name ∈ FunctionSet.standard.names, Text.isPlainWord name) ∧
    sql FunctionSet.standard (.call "lower" (.text "concat('(', `na)me`)")) =
      .ok "LOWER(CONCAT('(', `na)me`))".toList ∧
    isClosed .inStrings "LOWER(CONCAT('(', `na)me`))" := by
  have plainNames : ∀ name ∈ FunctionSet.standard.names, Text.isPlainWord name := by decide
  have ok : sql FunctionSet.standard (.call "lower" (.text "concat('(', `na)me`)")) =
      .ok "LOWER(CONCAT('(', `na)me`))".toList := rfl
  refine ⟨plainNames, ok, ((sql_closes_iff plainNames ok).1.mpr ?_).1⟩
  intro text member name arguments called
  obtain rfl := List.mem_singleton.mp member
  have split : FunctionSet.standard.call? "concat('(', `na)me`)" =
      some ("CONCAT".toList, "'(', `na)me`".toList) := rfl
  rw [split] at called
  cases called
  rfl

/-- A backslash in a quoted name hides the end of the name when the arguments are looked over.  The
text is let through as a call, but its parenthesis is closed early and a quoted name is left
open. -/
theorem escaped_tick_ends_call_early :
    (∀ name ∈ FunctionSet.standard.names, Text.isPlainWord name) ∧
    sql FunctionSet.standard (.text "MD5(`\\`) OR 1=1 -- `)") =
      .ok "MD5(`\\`) OR 1=1 -- `)".toList ∧
    isClosed .inStrings "MD5(`\\`) OR 1=1 -- `)" = false ∧
    FunctionSet.standard.call? "MD5(`\\`) OR 1=1 -- `)" =
      some ("MD5".toList, "`\\`) OR 1=1 -- `".toList) ∧
    ¬ ClosesAtEnd .inStrings "`\\`) OR 1=1 -- `" := by
  refine ⟨by decide, rfl, rfl, rfl, fun closes => ?_⟩
  have closed := closesAtEnd_iff.mp closes
  revert closed
  decide

end Value

end SqlComposer
