import SqlComposer.Proofs.Lexical.Unquoted
import SqlComposer.Text.Word

/-!
# Words outside of quotes and parentheses

The structure of a condition is carried by words that stand outside of all quotes and
parentheses.  A text is read as a list of tokens: the longest runs of word characters
in such places, and every other character by itself (`Lexical.tokens`).  No character
is lost (`text_tokens`).

A text that closes what it opens is read on its own when no word runs on into what
follows it (`tokens_append`).  What stands between quotation marks or between
parentheses holds no word at all (`tokens_enclose`, `tokens_parenthesized`).
-/

namespace SqlComposer

set_option autoImplicit false

namespace Lexical

/-! ## Tokens -/

/-- A character that words are made of. -/
def isWordPart (character : Char) : Bool :=
  Text.isWordCharacter character || character == '$'

/-- What words are made of is plain. -/
theorem isPlain_of_isWordPart {character : Char} (inWord : isWordPart character) :
    isPlain character := by
  rcases Bool.or_eq_true_iff.mp inWord with wordCharacter | dollar
  · exact isPlain_of_isWordCharacter wordCharacter
  · rw [eq_of_beq dollar]
    rfl

/-- A plain word is made of such characters. -/
theorem isWordPart_of_isPlainWord {word : Text} (isWord : Text.isPlainWord word) :
    word ≠ [] ∧ word.all isWordPart := by
  cases word with
  | nil => simp [Text.isPlainWord] at isWord
  | cons first rest =>
      obtain ⟨start, others⟩ := Bool.and_eq_true_iff.mp isWord
      refine ⟨List.cons_ne_nil first rest, Bool.and_eq_true_iff.mpr ⟨?_, others⟩⟩
      rcases Bool.or_eq_true_iff.mp start with letter | underscore
      · simp [isWordPart, Text.isWordCharacter, Char.isAlphanum, letter]
      · rw [eq_of_beq underscore]
        rfl

/-- A word outside of quotes and parentheses, or a character that belongs to none. -/
inductive Token
  | word (letters : Text)
  | other (character : Char)
  deriving DecidableEq

/-- The characters of a token. -/
def Token.text : Token → Text
  | .word letters => letters
  | .other character => [character]

/-- The letter of a word in front of what follows; it joins the word that follows directly. -/
def Token.consLetter (letter : Char) : List Token → List Token
  | .word letters :: rest => .word (letter :: letters) :: rest
  | rest => .word [letter] :: rest

/-- The tokens of a text that is read in a mode and with a number of open parentheses. -/
def tokens : Mode → Nat → Text → List Token
  | _, _, [] => []
  | mode, depth, character :: rest =>
      if mode = .outside ∧ depth = 0 ∧ isWordPart character then
        Token.consLetter character (tokens .outside 0 rest)
      else
        .other character ::
          tokens (mode.step .inStrings character) ((mode.depthAfter depth character).getD 0) rest

theorem text_consLetter (letter : Char) (rest : List Token) :
    (Token.consLetter letter rest).flatMap Token.text = letter :: rest.flatMap Token.text := by
  cases rest with
  | nil => rfl
  | cons token more => cases token <;> rfl

/-- The tokens of a text hold all its characters. -/
theorem text_tokens (mode : Mode) (depth : Nat) (text : Text) :
    (tokens mode depth text).flatMap Token.text = text := by
  induction text generalizing mode depth with
  | nil => rfl
  | cons character rest ih =>
      unfold tokens
      split_ifs
      · rw [text_consLetter, ih]
      · rw [List.flatMap_cons, ih]
        rfl

/-- The letters of a word are characters of the text in which it is read. -/
theorem subset_of_word_mem {mode : Mode} {depth : Nat} {text letters : Text}
    (member : Token.word letters ∈ tokens mode depth text) : letters ⊆ text := by
  intro letter inWord
  rw [← text_tokens mode depth text]
  exact List.mem_flatMap.mpr ⟨_, member, inWord⟩

/-! ## Tokens of a text and what follows it -/

theorem Token.consLetter_append (letter : Char) {first second : List Token}
    (apart : ∀ letters, second.head? ≠ some (.word letters)) :
    consLetter letter (first ++ second) = consLetter letter first ++ second := by
  cases first with
  | cons token more => cases token <;> rfl
  | nil =>
      cases second with
      | nil => rfl
      | cons token more =>
          cases token with
          | word letters => exact absurd rfl (apart letters)
          | other character => rfl

/-- A text is read on its own when no word goes on behind it. -/
theorem tokens_append {mode next : Mode} {depth left : Nat} {first second : Text}
    (scanned : scan .inStrings mode depth first = some (next, left))
    (apart : ∀ letters, (tokens next left second).head? ≠ some (.word letters)) :
    tokens mode depth (first ++ second) = tokens mode depth first ++ tokens next left second := by
  induction first generalizing mode depth with
  | nil =>
      cases scanned
      rfl
  | cons character rest ih =>
      rw [scan_cons] at scanned
      obtain ⟨deeper, counted, scanned⟩ := Option.bind_eq_some_iff.mp scanned
      rw [List.cons_append, tokens, tokens]
      split_ifs with inWord
      · obtain ⟨rfl, rfl, wordPart⟩ := inWord
        have plain := isPlain_of_isWordPart wordPart
        rw [depthAfter_plain plain] at counted
        cases counted
        rw [step_plain plain] at scanned
        rw [ih scanned, Token.consLetter_append _ apart]
      · rw [counted, Option.getD_some, ih scanned]
        rfl

/-- A character that belongs to no word is a token of its own. -/
theorem tokens_cons {mode : Mode} {depth : Nat} {character : Char}
    (notWord : isWordPart character = false) (rest : Text) :
    tokens mode depth (character :: rest) =
      .other character ::
        tokens (mode.step .inStrings character) ((mode.depthAfter depth character).getD 0)
          rest := by
  rw [tokens, if_neg]
  rintro ⟨_, _, inWord⟩
  exact absurd (notWord.symm.trans inWord) Bool.false_ne_true

/-- A closed text is read on its own in front of a character that belongs to no word. -/
theorem tokens_append_cons {first : Text} (closed : isClosed .inStrings first) {character : Char}
    (notWord : isWordPart character = false) (rest : Text) :
    tokens .outside 0 (first ++ character :: rest) =
      tokens .outside 0 first ++ tokens .outside 0 (character :: rest) := by
  refine tokens_append (isClosed_iff.mp closed) fun letters => ?_
  rw [tokens_cons notWord, List.head?_cons]
  exact nofun

/-- A sign between words is a token of its own. -/
theorem tokens_sign {character : Char} (plain : isPlain character)
    (notWord : isWordPart character = false) (rest : Text) :
    tokens .outside 0 (character :: rest) = .other character :: tokens .outside 0 rest := by
  rw [tokens_cons notWord, depthAfter_plain plain, step_plain plain, Option.getD_some]

/-- A run of word characters is one word. -/
theorem tokens_word {word : Text} (nonempty : word ≠ []) (inWord : word.all isWordPart) :
    tokens .outside 0 word = [.word word] := by
  induction word with
  | nil => exact absurd rfl nonempty
  | cons letter rest ih =>
      obtain ⟨first, others⟩ := Bool.and_eq_true_iff.mp inWord
      rw [tokens, if_pos ⟨rfl, rfl, first⟩]
      cases rest with
      | nil => rfl
      | cons next more =>
          rw [ih (List.cons_ne_nil next more) others]
          rfl

/-! ## Text without words -/

/-- Where a text is read inside of quotes throughout, there are no words. -/
theorem tokens_of_unquoted_eq_nil {mode : Mode} {text : Text}
    (nothing : unquoted .inStrings mode text = []) (depth : Nat) :
    tokens mode depth text = text.map .other := by
  induction text generalizing mode with
  | nil => rfl
  | cons character rest ih =>
      have inside : mode ≠ .outside := by
        rintro rfl
        simp [unquoted] at nothing
      rw [unquoted, if_neg inside] at nothing
      rw [tokens, if_neg fun both => inside both.1, depthAfter_of_ne_outside inside,
        Option.getD_some, ih nothing, List.map_cons]

/-- Inside of parentheses that a text does not close there are no words. -/
theorem tokens_nested {mode next : Mode} {depth left : Nat} {text : Text}
    (scanned : scan .inStrings mode depth text = some (next, left)) :
    tokens mode (depth + 1) text = text.map .other := by
  induction text generalizing mode depth with
  | nil => rfl
  | cons character rest ih =>
      rw [scan_cons] at scanned
      obtain ⟨deeper, counted, scanned⟩ := Option.bind_eq_some_iff.mp scanned
      rw [tokens, if_neg fun both => Nat.succ_ne_zero depth both.2.1, depthAfter_add 1 counted,
        Option.getD_some, ih scanned, List.map_cons]

theorem isWordPart_mark (mark : QuoteMark) : isWordPart mark.character = false := by
  cases mark <;> rfl

/-- A quoted run holds no words. -/
theorem tokens_enclose {mark : QuoteMark} {body : Text} (stays : StaysIn .inStrings mark body) :
    tokens .outside 0 (mark.enclose body) = (mark.enclose body).map .other := by
  have opened : Mode.outside.depthAfter 0 mark.character = some 0 := by cases mark <;> rfl
  have scanned := scan_of_unquoted_eq_nil stays.nothingOutside 0
  have closing : tokens (.quoted mark) 0 [mark.character] = [.other mark.character] :=
    tokens_cons (isWordPart_mark mark) []
  rw [stays.comesBack] at scanned
  rw [QuoteMark.enclose, List.cons_append, tokens_cons (isWordPart_mark mark), opened, step_open,
    Option.getD_some, tokens_append scanned fun letters => ?_,
    tokens_of_unquoted_eq_nil stays.nothingOutside, closing, List.map_cons, List.map_append]
  · rfl
  · rw [closing, List.head?_cons]
    intro same
    cases same

/-- Closed text between parentheses holds no words. -/
theorem tokens_parenthesized {inner : Text} (closed : isClosed .inStrings inner) :
    tokens .outside 0 ('(' :: inner ++ [')']) = ('(' :: inner ++ [')']).map .other := by
  have nested := tokens_nested (isClosed_iff.mp closed)
  have whole : tokens .outside 1 (inner ++ [')']) = tokens .outside 1 inner ++ [.other ')'] :=
    tokens_append (scan_of_isClosed 1 closed) nofun
  change .other '(' :: tokens .outside 1 (inner ++ [')']) = _
  rw [whole, nested, List.cons_append, List.map_cons, List.map_append]
  rfl

end Lexical

end SqlComposer
