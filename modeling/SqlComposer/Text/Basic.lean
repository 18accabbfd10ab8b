/-!
# Text as a list of characters

Every name, value and piece of SQL that the library handles is a `Text`: the
list of its characters.  Scanning, splitting and escaping are then structural
recursion, and a statement about all texts is proved by induction on the list.
String literals are read as texts through a scoped coercion, and only the outer
layer of a program ever turns a text back into a string.

The operations here know nothing of SQL yet: pieces with separators between them
(`joined`), the last separator of a text (`splitAtLast?`), the ends of a text
(`stripWhere`), and names between grave accents (`ticked`).  Splitting at every
separator is core's `List.splitOn`.
-/

namespace SqlComposer

set_option autoImplicit false

/-- A text is the list of its characters. -/
abbrev Text := List Char

/-- A string literal stands for the list of its characters. -/
scoped instance : Coe String Text := ⟨String.toList⟩

namespace Text

/-! ## Separators -/

/-- The pieces in order, with the separator between each two neighbours. -/
def joined (separator : Text) (pieces : List Text) : Text :=
  separator.intercalate pieces

theorem joined_singleton (separator piece : Text) : joined separator [piece] = piece :=
  List.intercalate_singleton

theorem joined_cons_cons (separator first second : Text) (rest : List Text) :
    joined separator (first :: second :: rest) =
      first ++ separator ++ joined separator (second :: rest) :=
  List.intercalate_cons_cons

/-- What holds of each piece holds of the pieces in order when it goes along with putting two texts
on both sides of a separator. -/
theorem joined_of_forall (holds : Text → Prop) {separator : Text} (empty : holds [])
    (append : ∀ {first second : Text}, holds first → holds second →
      holds (first ++ separator ++ second))
    {pieces : List Text} (each : ∀ piece ∈ pieces, holds piece) :
    holds (joined separator pieces) := by
  induction pieces with
  | nil => exact empty
  | cons first rest ih =>
      obtain ⟨head, others⟩ := List.forall_mem_cons.mp each
      cases rest with
      | nil =>
          rw [joined_singleton]
          exact head
      | cons next more =>
          rw [joined_cons_cons]
          exact append head (ih others)

/-- What stands before and after the last character that satisfies the test. -/
def splitAtLast? (isMark : Char → Bool) : Text → Option (Text × Text)
  | [] => none
  | character :: rest =>
      match splitAtLast? isMark rest with
      | some (before, after) => some (character :: before, after)
      | none => if isMark character then some ([], rest) else none

theorem splitAtLast?_eq_none {isMark : Char → Bool} {text : Text}
    (noMark : ∀ character ∈ text, isMark character = false) : splitAtLast? isMark text = none := by
  induction text with
  | nil => rfl
  | cons character rest ih =>
      obtain ⟨first, others⟩ := List.forall_mem_cons.mp noMark
      rw [splitAtLast?, ih others]
      simp [first]

/-- A text is split at a mark that no other one follows. -/
theorem splitAtLast?_append {isMark : Char → Bool} {mark : Char} (isMarked : isMark mark)
    {after : Text} (noMark : ∀ character ∈ after, isMark character = false) (before : Text) :
    splitAtLast? isMark (before ++ mark :: after) = some (before, after) := by
  induction before with
  | nil =>
      rw [List.nil_append, splitAtLast?, splitAtLast?_eq_none noMark]
      exact if_pos isMarked
  | cons character rest ih => rw [List.cons_append, splitAtLast?, ih]

/-- The two parts of a text that is split are the text but for a mark between them. -/
theorem eq_append_of_splitAtLast? {isMark : Char → Bool} {text before after : Text}
    (found : splitAtLast? isMark text = some (before, after)) :
    ∃ mark, isMark mark ∧ text = before ++ mark :: after := by
  induction text generalizing before with
  | nil => cases found
  | cons character rest ih =>
      rw [splitAtLast?] at found
      cases later : splitAtLast? isMark rest with
      | some parts =>
          obtain ⟨front, back⟩ := parts
          rw [later] at found
          cases found
          obtain ⟨mark, isMarked, rfl⟩ := ih later
          exact ⟨mark, isMarked, rfl⟩
      | none =>
          rw [later] at found
          dsimp only at found
          split at found
          · rename_i isMarked
            cases found
            exact ⟨character, isMarked, rfl⟩
          · cases found

/-! ## The ends of a text -/

/-- The text without its longest run of satisfying characters at the end. -/
def stripEndWhere (isMark : Char → Bool) (text : Text) : Text :=
  (text.reverse.dropWhile isMark).reverse

/-- The text without its runs of satisfying characters at both ends. -/
def stripWhere (isMark : Char → Bool) (text : Text) : Text :=
  stripEndWhere isMark (text.dropWhile isMark)

def without (mark : Char) (text : Text) : Text :=
  text.filter (· != mark)

/-! ## Grave accents -/

/-- The grave accent, which quotes names in SQL and in error texts. -/
def tick : Char := '\x60'

def ticked (name : Text) : Text :=
  tick :: name ++ [tick]

end Text

end SqlComposer
