import Mathlib.Data.List.Forall2
import SqlComposer.Proofs.Lexical.Unquoted
import SqlComposer.Value.Literal

/-!
# Relations that renderings respect

SQL is rendered from four sorts of pieces: plain words and signs, names between
grave accents, string literals, and trusted fragments.  Pieces are only ever
written side by side and between parentheses.  A relation on texts that holds of
the first three sorts and goes along with both ways of putting pieces together is
a congruence (`IsCongruence`); whatever is true of all congruences is true of all
renderings of related parts.  Literals are related whatever they contain.

Two congruences matter.  Sealed texts close all their quotes and parentheses and
show only allowed characters outside of quotes (`sealed_isCongruence`).  Texts are
alike outside when they differ at most inside of their quoted runs
(`alikeOutside_isCongruence`).
-/

namespace SqlComposer

set_option autoImplicit false

open Text (ticked)

namespace Lexical

/-! ## Congruences -/

/-- A relation that holds of the pieces of rendered SQL and of what is put together from related
pieces. -/
structure IsCongruence (related : Text → Text → Prop) : Prop where
  plain : ∀ {text : Text}, text.all isPlain → related text text
  name : ∀ {name : Text}, Text.tick ∉ name → related (ticked name) (ticked name)
  literal : ∀ {first second : Text}, StaysIn .inStrings .single first →
    StaysIn .inStrings .single second →
      related (Literal.inMarks first) (Literal.inMarks second)
  append : ∀ {first first' second second' : Text}, related first first' →
    related second second' → related (first ++ second) (first' ++ second')
  parenthesized : ∀ {inner inner' : Text}, related inner inner' →
    related ('(' :: inner ++ [')']) ('(' :: inner' ++ [')'])

namespace IsCongruence

variable {related : Text → Text → Prop} (congruence : IsCongruence related)
include congruence

theorem empty : related [] [] :=
  congruence.plain rfl

/-- A word in front of parentheses. -/
theorem call {name name' inner inner' : Text} (names : related name name')
    (inners : related inner inner') :
    related (name ++ '(' :: inner ++ [')']) (name' ++ '(' :: inner' ++ [')']) := by
  rw [List.append_assoc, List.append_assoc]
  exact congruence.append names (congruence.parenthesized inners)

/-- A plain opening that ends in a parenthesis, and the parenthesis that closes it. -/
theorem opened (word : Text) {before before' inner inner' : Text} (plain : word.all isPlain)
    (befores : related before before') (inners : related inner inner') :
    related (before ++ (word ++ ['(']) ++ inner ++ [')'])
      (before' ++ (word ++ ['(']) ++ inner' ++ [')']) := by
  have regroup : ∀ front middle : Text,
      front ++ (word ++ ['(']) ++ middle ++ [')'] =
        front ++ (word ++ '(' :: middle ++ [')']) := by simp
  rw [regroup, regroup]
  exact congruence.append befores (congruence.call (congruence.plain plain) inners)

/-- Related pieces with the same plain separator between them. -/
theorem joined (separator : Text) (plain : separator.all isPlain) {pieces pieces' : List Text}
    (pairs : List.Forall₂ related pieces pieces') :
    related (Text.joined separator pieces) (Text.joined separator pieces') := by
  induction pairs with
  | nil => exact congruence.empty
  | cons head rest ih =>
      cases rest with
      | nil =>
          rw [Text.joined_singleton, Text.joined_singleton]
          exact head
      | cons next more =>
          rw [Text.joined_cons_cons, Text.joined_cons_cons]
          exact congruence.append (congruence.append head (congruence.plain plain)) ih

end IsCongruence

/-! ## Sealed texts -/

/-- A text that closes all its quotes and parentheses and shows only allowed characters. -/
structure Sealed (allowed : Char → Prop) (text : Text) : Prop where
  closed : isClosed .inStrings text
  onlyAllowed : ∀ character ∈ unquoted .inStrings .outside text, allowed character

/-- The characters that renderings show outside of quotes, apart from trusted fragments. -/
def isShown (character : Char) : Bool :=
  isPlain character || ['(', ')', '\x27', Text.tick].contains character

variable {allowed : Char → Prop}

theorem Sealed.append {first second : Text} (before : Sealed allowed first)
    (after : Sealed allowed second) : Sealed allowed (first ++ second) := by
  refine ⟨isClosed_append before.closed after.closed, fun character member => ?_⟩
  rw [unquoted_append, run_of_isClosed before.closed] at member
  rcases List.mem_append.mp member with early | late
  · exact before.onlyAllowed character early
  · exact after.onlyAllowed character late

/-- A quoted run is sealed as soon as its mark may be shown. -/
theorem sealed_enclose {mark : QuoteMark} {body : Text} (stays : StaysIn .inStrings mark body)
    (markAllowed : allowed mark.character) : Sealed allowed (mark.enclose body) := by
  refine ⟨isClosed_enclose stays, fun character member => ?_⟩
  rw [unquoted_enclose stays, List.mem_singleton] at member
  rwa [member]

theorem Sealed.parenthesized {inner : Text} (opening : allowed '(') (closing : allowed ')')
    (inside : Sealed allowed inner) : Sealed allowed ('(' :: inner ++ [')']) := by
  refine ⟨isClosed_parenthesized inside.closed, fun character member => ?_⟩
  have shown : unquoted .inStrings .outside ('(' :: inner ++ [')']) =
      '(' :: (unquoted .inStrings .outside inner ++ [')']) := by
    change '(' :: unquoted .inStrings .outside (inner ++ [')']) = _
    rw [unquoted_append, run_of_isClosed inside.closed]
    rfl
  rw [shown, List.mem_cons, List.mem_append, List.mem_singleton] at member
  rcases member with rfl | member | rfl
  · exact opening
  · exact inside.onlyAllowed character member
  · exact closing

/-- A grave accent is nowhere special inside of a name that has none. -/
theorem staysIn_tick {name : Text} (noTick : Text.tick ∉ name) :
    StaysIn .inStrings .tick name := by
  refine StaysIn.of_forall (fun character member same => ?_) fun _ => rfl
  subst same
  exact noTick member

/-- Being sealed goes along with rendering when the characters that renderings show are allowed. -/
theorem sealed_isCongruence (shown : ∀ character, isShown character → allowed character) :
    IsCongruence fun first second => Sealed allowed first ∧ Sealed allowed second where
  plain := by
    intro text plain
    have sealed : Sealed allowed text := by
      refine ⟨isClosed_of_plain plain, fun character member => shown character ?_⟩
      rw [unquoted_of_plain plain] at member
      rw [isShown, List.all_eq_true.mp plain character member]
      rfl
    exact ⟨sealed, sealed⟩
  name := by
    intro name noTick
    have sealed : Sealed allowed (ticked name) :=
      sealed_enclose (staysIn_tick noTick) (shown _ rfl)
    exact ⟨sealed, sealed⟩
  literal first second :=
    ⟨sealed_enclose first (shown _ rfl), sealed_enclose second (shown _ rfl)⟩
  append before after := ⟨before.1.append after.1, before.2.append after.2⟩
  parenthesized inside :=
    ⟨inside.1.parenthesized (shown _ rfl) (shown _ rfl),
      inside.2.parenthesized (shown _ rfl) (shown _ rfl)⟩

/-! ## Texts that are alike outside of quotes -/

/-- Two texts that close their quoted runs and differ at most inside of them. -/
structure AlikeOutside (first second : Text) : Prop where
  firstCloses : run .inStrings .outside first = .outside
  secondCloses : run .inStrings .outside second = .outside
  sameErased : erase .inStrings .outside first = erase .inStrings .outside second

theorem AlikeOutside.refl {text : Text} (closes : run .inStrings .outside text = .outside) :
    AlikeOutside text text :=
  ⟨closes, closes, rfl⟩

theorem AlikeOutside.append {first first' second second' : Text}
    (before : AlikeOutside first first') (after : AlikeOutside second second') :
    AlikeOutside (first ++ second) (first' ++ second') where
  firstCloses := by rw [run_append, before.firstCloses, after.firstCloses]
  secondCloses := by rw [run_append, before.secondCloses, after.secondCloses]
  sameErased := by
    rw [erase_append, erase_append, before.firstCloses, before.secondCloses, before.sameErased,
      after.sameErased]

/-- Being alike outside of quotes goes along with rendering. -/
theorem alikeOutside_isCongruence : IsCongruence AlikeOutside where
  plain plain := .refl (run_of_isClosed (isClosed_of_plain plain))
  name noTick := .refl (run_enclose (staysIn_tick noTick))
  literal first second :=
    ⟨run_enclose first, run_enclose second, (erase_enclose first).trans (erase_enclose second).symm⟩
  append := .append
  parenthesized := by
    intro inner inner' inside
    have opening : AlikeOutside ['('] ['('] := .refl rfl
    have closing : AlikeOutside [')'] [')'] := .refl rfl
    exact (opening.append inside).append closing

end Lexical

end SqlComposer
