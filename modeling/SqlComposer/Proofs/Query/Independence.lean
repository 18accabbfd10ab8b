import SqlComposer.Proofs.Query.Rendering

/-!
# Statements whose shape does not depend on literals

Two queries that differ in nothing but what their literals say are built to
statements of the same shape (`Query.build_erase_eq`): erase what stands strictly
inside of quotes, and the same text is left.  If one of them is not built, neither
is the other, and the errors are of one kind.

The texts that may differ are ordinary ones (`FunctionSet.IsOrdinary`), which are
escaped rather than let through.  Patterns are always escaped and may differ freely.
-/

namespace SqlComposer

set_option autoImplicit false

open Lexical

/-- A text that is let through neither as a call nor as a quoted path. -/
structure FunctionSet.IsOrdinary (functions : FunctionSet) (text : Text) : Prop where
  noCall : functions.call? text = none
  noPath : Value.isQuotedPath 3 text = false

/-- An ordinary text is written as a literal. -/
theorem FunctionSet.IsOrdinary.textSql_eq {functions : FunctionSet} {text : Text}
    (ordinary : functions.IsOrdinary text) :
    Value.textSql functions text = Literal.literal text := by
  rw [Value.textSql, ordinary.noCall]
  dsimp only
  rw [if_neg (by simp [ordinary.noPath])]

namespace Query

/-- Queries that differ only in ordinary texts and in patterns are built to statements that are the
same outside of quotes, or neither is built, with errors of one kind. -/
theorem build_erase_eq {functions : FunctionSet}
    (plainNames : ∀ name ∈ functions.names, Text.isPlainWord name) {first second : Query}
    (onTrusted : ∀ fragment ∈ first.trusted, isClosed .inStrings fragment)
    (twins : Query.Twin
      (fun text text' => functions.IsOrdinary text ∧ functions.IsOrdinary text') first second) :
    (∃ fault fault', first.build functions = .error fault ∧
        second.build functions = .error fault' ∧ fault.kind = fault'.kind) ∨
      ∃ statement statement', first.build functions = .ok statement ∧
        second.build functions = .ok statement' ∧ statement.kind = statement'.kind ∧
        erase .inStrings .outside statement.sql = erase .inStrings .outside statement'.sql := by
  have congruence := alikeOutside_isCongruence
  have fragments : ∀ fragment ∈ first.trusted, AlikeOutside fragment fragment :=
    fun fragment member => .refl (run_of_isClosed (onTrusted fragment member))
  have onText : ∀ text text', functions.IsOrdinary text ∧ functions.IsOrdinary text' →
      AlikeOutside (Value.textSql functions text) (Value.textSql functions text') := by
    rintro text text' ⟨ordinary, ordinary'⟩
    rw [ordinary.textSql_eq, ordinary'.textSql_eq]
    exact congruence.escapedText text text'
  have matched := build_matched congruence plainNames onText fragments twins
  generalize first.build functions = outcome, second.build functions = outcome' at matched
  cases matched with
  | error sameKind => exact .inl ⟨_, _, rfl, rfl, sameKind⟩
  | @ok statement statement' together =>
      obtain ⟨kind, kind', body, body', started, written, written'⟩ := together
      have semicolon : AlikeOutside [';'] [';'] := .refl rfl
      refine .inr ⟨statement, statement', rfl, rfl, kind.trans kind'.symm, ?_⟩
      rw [written, written']
      exact (started.together.append semicolon).sameErased

/-- The change of the names of all users whose nicknames start as a pattern says. -/
def rename (name pattern : Text) : Query :=
  .update
    { table := "users"
      data := Row.ofList [("name", .call "lower" (.text name))]
      conditions := [.single (.compare "nick" (.startWith pattern))] }

/-- A harmless name and a harmful one, and two patterns, make no difference outside of quotes. -/
theorem build_erase_eq_rename :
    (∀ name ∈ FunctionSet.standard.names, Text.isPlainWord name) ∧
    (∀ fragment ∈ (rename "Ann" "x").trusted, isClosed .inStrings fragment) ∧
    Query.Twin (fun text text' => FunctionSet.standard.IsOrdinary text ∧
        FunctionSet.standard.IsOrdinary text')
      (rename "Ann" "x") (rename "'; DROP TABLE users; --" "\\'") ∧
    ∃ statement statement', (rename "Ann" "x").build .standard = .ok statement ∧
      (rename "'; DROP TABLE users; --" "\\'").build .standard = .ok statement' ∧
      erase .inStrings .outside statement.sql = erase .inStrings .outside statement'.sql := by
  have plainNames : ∀ name ∈ FunctionSet.standard.names, Text.isPlainWord name := by decide
  have onTrusted : ∀ fragment ∈ (rename "Ann" "x").trusted, isClosed .inStrings fragment := by
    decide
  have names : FunctionSet.standard.IsOrdinary "Ann" ∧
      FunctionSet.standard.IsOrdinary "'; DROP TABLE users; --" := ⟨⟨rfl, rfl⟩, ⟨rfl, rfl⟩⟩
  have twins : Query.Twin (fun text text' => FunctionSet.standard.IsOrdinary text ∧
        FunctionSet.standard.IsOrdinary text')
      (rename "Ann" "x") (rename "'; DROP TABLE users; --" "\\'") :=
    .update
      { table := rfl
        data := .cons ⟨rfl, .call "lower" (.text names)⟩ .nil
        joins := .nil
        conditions := .cons (.single (.compare "nick" (.startWith "x" "\\'"))) .nil
        groupConditions := .nil }
  refine ⟨plainNames, onTrusted, twins, ?_⟩
  rcases build_erase_eq plainNames onTrusted twins with
    ⟨fault, _, failed, _⟩ | ⟨statement, statement', built, built', _, same⟩
  · cases failed
  · exact ⟨statement, statement', built, built', same⟩

end Query

end SqlComposer
