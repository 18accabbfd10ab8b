import SqlComposer.Proofs.Query.Rendering

/-!
# Statements that nothing breaks out of

The safety of the whole: whatever stands in the names, columns, aliases, values
and patterns of a query, its statement closes all its quotes and parentheses, and
the semicolon at its end is the only one outside of quotes
(`Query.build_isSealed`).  It also reads as a statement of the query's own kind.

This asks two things of a query.  The fragments that it keeps as written must
close and show no semicolon themselves, and no text among its values may be let
through as a call.  Nothing is asked of any other text in the query.
-/

namespace SqlComposer

set_option autoImplicit false

open Lexical

namespace Query

theorem kind_ne_raw (query : Query) : query.kind ≠ .raw := by
  cases query <;> intro raw <;> cases raw

/-- A built statement closes all that it opens, has no semicolon outside of quotes but its last
character, and is classified as a statement of the query's kind. -/
theorem build_isSealed {functions : FunctionSet}
    (plainNames : ∀ name ∈ functions.names, Text.isPlainWord name) {query : Query}
    (onTrusted : ∀ fragment ∈ query.trusted,
      isClosed .inStrings fragment ∧ ';' ∉ unquoted .inStrings .outside fragment)
    (noCalls : ∀ text ∈ query.texts, functions.call? text = none) {statement : Statement}
    (built : query.build functions = .ok statement) :
    isClosed .inStrings statement.sql ∧
      (∃ body, statement.sql = body ++ [';'] ∧ run .inStrings .outside body = .outside ∧
        ';' ∉ unquoted .inStrings .outside body) ∧
      statement.kind = query.kind ∧ StatementKind.ofSql statement.sql = query.kind := by
  have shown : ∀ character, isShown character → character ≠ ';' := by
    rintro character isShown rfl
    revert isShown
    decide
  have congruence := sealed_isCongruence shown
  have fragments : ∀ fragment ∈ query.trusted,
      Sealed (· ≠ ';') fragment ∧ Sealed (· ≠ ';') fragment := by
    intro fragment member
    obtain ⟨closed, noSemicolon⟩ := onTrusted fragment member
    have isSealed : Sealed (· ≠ ';') fragment :=
      ⟨closed, fun character outside same => noSemicolon (same ▸ outside)⟩
    exact ⟨isSealed, isSealed⟩
  have onText : ∀ first second : Text, first = second ∧ functions.call? first = none →
      Sealed (· ≠ ';') (Value.textSql functions first) ∧
        Sealed (· ≠ ';') (Value.textSql functions second) := by
    rintro text _ ⟨rfl, noCall⟩
    exact congruence.textSql_of_noCall noCall
  have matched := build_matched congruence plainNames onText fragments
    (Twin.self fun text member => ⟨rfl, noCalls text member⟩)
  rw [built] at matched
  obtain ⟨kind, _, body, _, started, written, _⟩ := matched.related_of_ok
  have isSealed : Sealed (· ≠ ';') body := started.together.1
  have opens : query.kind.opening <+: statement.sql := by
    rw [written]
    exact started.firstOpens.trans (List.prefix_append _ _)
  refine ⟨?_, ⟨body, written, run_of_isClosed isSealed.closed, fun semicolon => ?_⟩, kind, ?_⟩
  · rw [written]
    exact isClosed_append isSealed.closed rfl
  · exact isSealed.onlyAllowed ';' semicolon rfl
  · exact StatementKind.ofSql_of_opening query.kind_ne_raw opens

/-- A query whose names and literals hold quotes, semicolons and a comment sign. -/
def guestOrders : Query :=
  .select
    { table := "or`ders AS o"
      columns := [.aliased "COUNT(*)" "to`tal"]
      joins := [⟨.left, "guests", .sharedColumns ["id;"]⟩]
      conditions := [.single (.compare "name" (.is (.text "'; --")))] }

/-- What is made of such a query. -/
def guestOrdersSql : Text :=
  "SELECT COUNT(*) AS `total` FROM `orders` AS `o` LEFT JOIN `guests` USING (`id;`) " ++
  "WHERE `name` = '\\'; --';"

/-- The statement of such a query closes, and it is a query for rows. -/
theorem build_isSealed_guestOrders :
    (∀ name ∈ FunctionSet.standard.names, Text.isPlainWord name) ∧
    (∀ fragment ∈ guestOrders.trusted,
      isClosed .inStrings fragment ∧ ';' ∉ unquoted .inStrings .outside fragment) ∧
    (∀ text ∈ guestOrders.texts, FunctionSet.standard.call? text = none) ∧
    guestOrders.build .standard = .ok ⟨.select, guestOrdersSql⟩ ∧
    isClosed .inStrings guestOrdersSql ∧ StatementKind.ofSql guestOrdersSql = .select := by
  have plainNames : ∀ name ∈ FunctionSet.standard.names, Text.isPlainWord name := by decide
  have onTrusted : ∀ fragment ∈ guestOrders.trusted,
      isClosed .inStrings fragment ∧ ';' ∉ unquoted .inStrings .outside fragment := by decide
  have noCalls : ∀ text ∈ guestOrders.texts, FunctionSet.standard.call? text = none := by decide
  have built : guestOrders.build .standard = .ok ⟨.select, guestOrdersSql⟩ := rfl
  obtain ⟨closed, _, _, kind⟩ := build_isSealed plainNames onTrusted noCalls built
  exact ⟨plainNames, onTrusted, noCalls, built, closed, kind⟩

end Query

end SqlComposer
