import SqlComposer.Text.Basic

/-!
# Reading SQL past its quotes

SQL has three quotation marks.  A reader of SQL that only cares about what
stands outside of quotes is always in one of a few modes: outside, inside a
quoted run, or inside of one just behind a backslash (`Mode`).  One character
leads from mode to mode (`Mode.step`).

Where a backslash takes the next character with it is a parameter.  The server
reads backslashes in strings and not in quoted names (`EscapeRule.inStrings`).
Arguments that are passed through unquoted are read with backslashes in names
too (`EscapeRule.everywhere`).

`scan` follows a text and counts the parentheses outside of quotes.  It has no
result when one is closed that was never opened.
-/

namespace SqlComposer

set_option autoImplicit false

namespace Lexical

/-! ## Quotation marks and modes -/

/-- The marks that open and close quoted runs: of strings, of strings, and of names. -/
inductive QuoteMark
  | single
  | double
  | tick
  deriving DecidableEq

def QuoteMark.character : QuoteMark → Char
  | .single => '\x27'
  | .double => '\x22'
  | .tick => Text.tick

def QuoteMark.ofCharacter? (character : Char) : Option QuoteMark :=
  if character = QuoteMark.single.character then some .single
  else if character = QuoteMark.double.character then some .double
  else if character = QuoteMark.tick.character then some .tick
  else none

theorem QuoteMark.ofCharacter?_eq_some_iff {character : Char} {mark : QuoteMark} :
    ofCharacter? character = some mark ↔ character = mark.character := by
  constructor
  · intro found
    unfold ofCharacter? at found
    grind
  · rintro rfl
    cases mark <;> rfl

theorem QuoteMark.ofCharacter?_eq_none_iff {character : Char} :
    ofCharacter? character = none ↔ ∀ mark : QuoteMark, character ≠ mark.character := by
  simp only [Option.eq_none_iff_forall_ne_some, ne_eq, ofCharacter?_eq_some_iff]

/-- Inside which marks a backslash takes the next character with it. -/
abbrev EscapeRule := QuoteMark → Bool

/-- Backslashes count in strings and are ordinary in quoted names. -/
def EscapeRule.inStrings : EscapeRule
  | .single | .double => true
  | .tick => false

def EscapeRule.everywhere : EscapeRule :=
  fun _ => true

/-- Where a reader of SQL stands between two characters. -/
inductive Mode
  | outside
  | quoted (mark : QuoteMark)
  | escaped (mark : QuoteMark)
  deriving DecidableEq

/-- The mode behind the next character. -/
def Mode.step (rule : EscapeRule) : Mode → Char → Mode
  | .outside, character =>
      match QuoteMark.ofCharacter? character with
      | some mark => .quoted mark
      | none => .outside
  | .quoted mark, character =>
      if character = '\\' ∧ rule mark then .escaped mark
      else if character = mark.character then .outside
      else .quoted mark
  | .escaped mark, _ => .quoted mark

/-! ## Parentheses -/

/-- The number of open parentheses behind the next character, if none is closed too early. -/
def Mode.depthAfter (mode : Mode) (depth : Nat) (character : Char) : Option Nat :=
  if mode ≠ .outside then some depth
  else if character = '(' then some (depth + 1)
  else if character = ')' then
    match depth with
    | 0 => none
    | less + 1 => some less
  else some depth

/-- The mode and the number of open parentheses behind a text. -/
def scan (rule : EscapeRule) : Mode → Nat → Text → Option (Mode × Nat)
  | mode, depth, [] => some (mode, depth)
  | mode, depth, character :: rest =>
      match mode.depthAfter depth character with
      | some next => scan rule (mode.step rule character) next rest
      | none => none

/-- Whether a text closes every quoted run and every parenthesis that it opens, and no other. -/
def isClosed (rule : EscapeRule) (text : Text) : Bool :=
  scan rule .outside 0 text == some (.outside, 0)

end Lexical

end SqlComposer
