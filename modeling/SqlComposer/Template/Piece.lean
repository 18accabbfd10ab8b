import SqlComposer.Lexical.Quotes
import SqlComposer.Text.Word

/-!
# The pieces of a template

A template is SQL with markers for values.  A positional marker is a question
mark; a named marker is a colon and a name of letters, digits and underscores
that does not start with a digit.  Markers count only outside of quotes, and a
colon behind another colon starts none.

`Template.pieces` cuts a template into its markers and the single characters
between them.  It reads characters and knows its mode after each of them, so
that statements about templates are proved by induction on the text.
-/

namespace SqlComposer

set_option autoImplicit false

open Lexical

namespace Template

/-- A marker, or a character that is none. -/
inductive Piece
  | character (character : Char)
  | positional
  | named (name : Text)
  deriving DecidableEq

/-- The name of a marker whose colon stands in front of the text, if it is one. -/
def markerName? (behindColon : Bool) (text : Text) : Option Text :=
  let name := text.takeWhile Text.isWordCharacter
  if !behindColon && Text.isPlainWord name then some name else none

/-- The pieces of a text that is read in a mode.  The characters of a name that was just read are
passed over, as many as `passed` says. -/
def piecesFrom : Mode → Bool → Nat → Text → List Piece
  | _, _, _, [] => []
  | mode, _, passed + 1, _ :: rest => piecesFrom mode false passed rest
  | .outside, behindColon, 0, character :: rest =>
      if character = '?' then .positional :: piecesFrom .outside false 0 rest
      else if character = ':' then
        match markerName? behindColon rest with
        | some name => .named name :: piecesFrom .outside false name.length rest
        | none => .character ':' :: piecesFrom .outside true 0 rest
      else
        .character character
          :: piecesFrom (Mode.outside.step .inStrings character) false 0 rest
  | mode, _, 0, character :: rest =>
      .character character :: piecesFrom (mode.step .inStrings character) false 0 rest

def pieces (template : Text) : List Piece :=
  piecesFrom .outside false 0 template

/-! ## Colons -/

/-- Only a quotation mark leads outside. -/
theorem ne_colon_of_step {mode : Mode} {character : Char} (inside : mode ≠ .outside)
    (left : mode.step .inStrings character = .outside) : character ≠ ':' := by
  rintro rfl
  cases mode with
  | outside => exact inside rfl
  | quoted mark => cases mark <;> cases left
  | escaped mark => cases left

/-- No colon stands right behind a word. -/
theorem getLast?_ne_colon {before word : Text} (isWord : word ≠ [])
    (inWord : word.all Text.isWordCharacter) : (before ++ word).getLast? ≠ some ':' := by
  rw [List.getLast?_append, List.getLast?_eq_some_getLast isWord, Option.some_or]
  intro last
  have inText := List.getLast_mem isWord
  rw [Option.some.inj last] at inText
  exact absurd (List.all_eq_true.mp inWord ':' inText) (by decide)

end Template

end SqlComposer
