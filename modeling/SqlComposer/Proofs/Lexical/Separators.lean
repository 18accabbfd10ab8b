import Mathlib.Data.List.Forall2
import SqlComposer.Proofs.Lexical.Congruence
import SqlComposer.Proofs.Lexical.Tokens

/-!
# Splitting at keywords

A text is split at the words AND, or at the words OR, that stand outside of quotes and
parentheses (`Lexical.splitAt`).  One AND is no separator: behind a word BETWEEN the
next AND belongs to that word.

Texts that were joined by a keyword are recovered by splitting at it, up to the spaces
around the keyword (`splitAt_joined`).  It takes that each of the texts is closed and
shows no separator of its own (`KeepsTogether`).  A text without keywords is of this
sort (`Quiet`), and so is a range, in which a BETWEEN and its AND stand between three
texts without keywords (`SelfContained`).

Quiet texts may be put side by side only where no word runs on from one into the other,
since `AN` and `D` make an AND.  Renderings have signs there.
-/

namespace SqlComposer

set_option autoImplicit false

namespace Lexical

/-! ## Keywords -/

/-- The words that join and separate conditions. -/
inductive Keyword
  | and
  | or
  | between
  deriving DecidableEq

/-- Whether a reader tells keywords from the same letters in lower case. -/
inductive LetterCase
  | kept
  | ignored
  deriving DecidableEq

/-- The letters of a word as a reader takes them. -/
def LetterCase.read : LetterCase → Text → Text
  | .kept, letters => letters
  | .ignored, letters => Text.uppercase letters

namespace Keyword

/-- All keywords. -/
def all : List Keyword := [.and, .or, .between]

/-- A keyword as it is written. -/
def spelling : Keyword → Text
  | .and => "AND"
  | .or => "OR"
  | .between => "BETWEEN"

/-- A keyword with a space at each end, as it joins two texts. -/
def spaced (keyword : Keyword) : Text :=
  ' ' :: keyword.spelling ++ [' ']

/-- The keyword that a word is. -/
def ofWord? (letterCase : LetterCase) (letters : Text) : Option Keyword :=
  all.find? fun keyword => keyword.spelling = letterCase.read letters

end Keyword

/-- The keyword that a token is. -/
def Token.keyword? (letterCase : LetterCase) : Token → Option Keyword
  | .word letters => Keyword.ofWord? letterCase letters
  | .other _ => none

theorem Keyword.keyword?_spelling (letterCase : LetterCase) (keyword : Keyword) :
    Token.keyword? letterCase (.word keyword.spelling) = some keyword := by
  cases letterCase <;> cases keyword <;> rfl

/-! ## Separators -/

/-- How many words BETWEEN wait for an AND that belongs to them, behind one more token. -/
def claimsAfter (letterCase : LetterCase) (separator : Keyword) (claims : Nat) (token : Token) :
    Nat :=
  if token.keyword? letterCase = some separator then claims - 1
  else if separator = .and ∧ token.keyword? letterCase = some .between then claims + 1
  else claims

/-- The tokens, each with whether it is a separator, behind a number of words BETWEEN that still
wait for an AND that belongs to them. -/
def marked (letterCase : LetterCase) (separator : Keyword) : Nat → List Token → List (Token × Bool)
  | _, [] => []
  | claims, token :: rest =>
      (token, token.keyword? letterCase = some separator && claims == 0) ::
        marked letterCase separator (claimsAfter letterCase separator claims token) rest

/-- The texts between the tokens that are marked as separators. -/
def splitMarked (tokens : List (Token × Bool)) : List Text :=
  (tokens.splitOnP Prod.snd).map fun piece => piece.flatMap fun token => token.1.text

/-- The pieces of a text between its separators. -/
def splitAt (letterCase : LetterCase) (separator : Keyword) (text : Text) : List Text :=
  splitMarked (marked letterCase separator 0 (tokens .outside 0 text))

/-- Tokens of which none is a separator. -/
def unmarked (tokens : List Token) : List (Token × Bool) :=
  tokens.map fun token => (token, false)

section Marking

variable {letterCase : LetterCase} {separator : Keyword}

/-- Tokens without keywords are no separators and claim none. -/
theorem marked_append_of_noKeyword {first : List Token}
    (noKeyword : ∀ token ∈ first, token.keyword? letterCase = none) (claims : Nat)
    (rest : List Token) :
    marked letterCase separator claims (first ++ rest) =
      unmarked first ++ marked letterCase separator claims rest := by
  induction first with
  | nil => rfl
  | cons token more ih =>
      obtain ⟨here, later⟩ := List.forall_mem_cons.mp noKeyword
      have same : claimsAfter letterCase separator claims token = claims := by
        rw [claimsAfter, here, if_neg nofun, if_neg fun both => nomatch both.2]
      rw [List.cons_append, marked, same, ih later, here]
      rfl

theorem marked_other (character : Char) (claims : Nat) (rest : List Token) :
    marked letterCase separator claims (.other character :: rest) =
      (.other character, false) :: marked letterCase separator claims rest :=
  marked_append_of_noKeyword (List.forall_mem_singleton.mpr rfl) claims rest

/-- A keyword is a separator or claims one, or it is neither. -/
theorem marked_spelling (keyword : Keyword) (claims : Nat) (rest : List Token) :
    marked letterCase separator claims (.word keyword.spelling :: rest) =
      (.word keyword.spelling, keyword = separator && claims == 0) ::
        marked letterCase separator
          (if keyword = separator then claims - 1
            else if separator = .and ∧ keyword = .between then claims + 1 else claims) rest := by
  simp only [marked, claimsAfter, Keyword.keyword?_spelling, Option.some.injEq]

/-- A text that shows no separator to a reader who starts in front of it, and that leaves no claim
to what follows. -/
def KeepsTogether (letterCase : LetterCase) (separator : Keyword) (text : Text) : Prop :=
  ∀ rest, marked letterCase separator 0 (tokens .outside 0 text ++ rest) =
    unmarked (tokens .outside 0 text) ++ marked letterCase separator 0 rest

end Marking

/-! ## Texts without keywords -/

/-- A closed text without keywords outside of quotes and parentheses. -/
structure Quiet (letterCase : LetterCase) (text : Text) : Prop where
  closed : isClosed .inStrings text
  noKeyword : ∀ token ∈ tokens .outside 0 text, token.keyword? letterCase = none

theorem quiet_iff {letterCase : LetterCase} {text : Text} :
    Quiet letterCase text ↔ isClosed .inStrings text ∧
      ∀ token ∈ tokens .outside 0 text, token.keyword? letterCase = none :=
  ⟨fun quiet => ⟨quiet.closed, quiet.noKeyword⟩, fun both => ⟨both.1, both.2⟩⟩

instance Quiet.decidable (letterCase : LetterCase) (text : Text) :
    Decidable (Quiet letterCase text) :=
  decidable_of_iff _ quiet_iff.symm

/-- A character that stands between words, and opens and closes nothing. -/
def isSign (character : Char) : Bool :=
  isPlain character && !isWordPart character

namespace Quiet

variable {letterCase : LetterCase}

theorem of_others {text : Text} (closed : isClosed .inStrings text)
    (others : tokens .outside 0 text = text.map .other) : Quiet letterCase text := by
  refine ⟨closed, fun token member => ?_⟩
  rw [others] at member
  obtain ⟨_, _, rfl⟩ := List.mem_map.mp member
  rfl

theorem enclose {mark : QuoteMark} {body : Text} (stays : StaysIn .inStrings mark body) :
    Quiet letterCase (mark.enclose body) :=
  of_others (isClosed_enclose stays) (tokens_enclose stays)

theorem parenthesized {inner : Text} (closed : isClosed .inStrings inner) :
    Quiet letterCase ('(' :: inner ++ [')']) :=
  of_others (isClosed_parenthesized closed) (tokens_parenthesized closed)

/-- A word that is no keyword. -/
theorem word {word : Text} (nonempty : word ≠ []) (inWord : word.all isWordPart)
    (noKeyword : Keyword.ofWord? letterCase word = none) : Quiet letterCase word := by
  refine ⟨isClosed_of_plain ?_, fun token member => ?_⟩
  · exact List.all_eq_true.mpr fun character member =>
      isPlain_of_isWordPart (List.all_eq_true.mp inWord character member)
  · rw [tokens_word nonempty inWord, List.mem_singleton] at member
    rw [member]
    exact noKeyword

theorem cons_sign {sign : Char} (isSign : isSign sign) {rest : Text}
    (quiet : Quiet letterCase rest) : Quiet letterCase (sign :: rest) := by
  obtain ⟨plain, notWord⟩ := Bool.and_eq_true_iff.mp isSign
  rw [Bool.not_eq_true'] at notWord
  have alone : isClosed .inStrings [sign] :=
    isClosed_of_plain (Bool.and_eq_true_iff.mpr ⟨plain, rfl⟩)
  refine ⟨isClosed_append alone quiet.closed, fun token member => ?_⟩
  rw [tokens_sign plain notWord] at member
  rcases List.mem_cons.mp member with rfl | later
  · rfl
  · exact quiet.noKeyword token later

/-- A text and what follows it, when that begins with a character that belongs to no word. -/
theorem append {first : Text} {character : Char} {rest : Text} (before : Quiet letterCase first)
    (notWord : isWordPart character = false) (after : Quiet letterCase (character :: rest)) :
    Quiet letterCase (first ++ character :: rest) := by
  refine ⟨isClosed_append before.closed after.closed, fun token member => ?_⟩
  rw [tokens_append_cons before.closed notWord] at member
  rcases List.mem_append.mp member with early | late
  · exact before.noKeyword token early
  · exact after.noKeyword token late

/-- Two texts with signs between them. -/
theorem separated {first second signs : Text} (nonempty : signs ≠ []) (areSigns : signs.all isSign)
    (before : Quiet letterCase first) (after : Quiet letterCase second) :
    Quiet letterCase (first ++ signs ++ second) := by
  have led : ∀ {signs : Text}, signs.all isSign → Quiet letterCase (signs ++ second) := by
    intro signs areSigns
    induction signs with
    | nil => exact after
    | cons sign more ih =>
        obtain ⟨first, others⟩ := Bool.and_eq_true_iff.mp areSigns
        exact cons_sign first (ih others)
  cases signs with
  | nil => exact absurd rfl nonempty
  | cons sign more =>
      have notWord := (Bool.and_eq_true_iff.mp (Bool.and_eq_true_iff.mp areSigns).1).2
      rw [Bool.not_eq_true'] at notWord
      rw [List.append_assoc]
      exact before.append notWord (led areSigns)

/-- Texts with signs between each two neighbours. -/
theorem joined {signs : Text} (nonempty : signs ≠ []) (areSigns : signs.all isSign)
    {pieces : List Text} (each : ∀ piece ∈ pieces, Quiet letterCase piece) :
    Quiet letterCase (Text.joined signs pieces) :=
  Text.joined_of_forall (Quiet letterCase) (of_others rfl rfl) (separated nonempty areSigns) each

/-- A word in front of parentheses. -/
theorem call {name inner : Text} (named : Quiet letterCase name)
    (closed : isClosed .inStrings inner) : Quiet letterCase (name ++ '(' :: inner ++ [')']) := by
  rw [List.append_assoc]
  exact named.append rfl (parenthesized closed)

theorem keepsTogether {text : Text} (quiet : Quiet letterCase text) (separator : Keyword) :
    KeepsTogether letterCase separator text :=
  fun rest => marked_append_of_noKeyword quiet.noKeyword 0 rest

end Quiet

/-! ## Texts that keep together -/

section Together

variable {letterCase : LetterCase}

/-- The tokens of two texts with a keyword between them. -/
theorem tokens_append_keyword {first : Text} (closed : isClosed .inStrings first)
    (keyword : Keyword) (second : Text) :
    tokens .outside 0 (first ++ keyword.spaced ++ second) =
      tokens .outside 0 first ++
        .other ' ' :: .word keyword.spelling :: .other ' ' :: tokens .outside 0 second := by
  have inWord : keyword.spelling.all isWordPart := by cases keyword <;> decide
  have nonempty : keyword.spelling ≠ [] := by cases keyword <;> decide
  have spelled : isClosed .inStrings keyword.spelling := by cases keyword <;> rfl
  have regroup : first ++ keyword.spaced ++ second =
      first ++ ' ' :: (keyword.spelling ++ ' ' :: second) := by simp [Keyword.spaced]
  rw [regroup, tokens_append_cons closed rfl, tokens_sign rfl rfl,
    tokens_append_cons spelled rfl, tokens_word nonempty inWord, tokens_sign rfl rfl]
  rfl

theorem Keyword.isClosed_spaced (keyword : Keyword) : isClosed .inStrings keyword.spaced := by
  cases keyword <;> rfl

/-- A text without keywords, or three of them with a BETWEEN and its AND between them. -/
inductive SelfContained (letterCase : LetterCase) : Text → Prop
  | quiet {text : Text} (quiet : Quiet letterCase text) : SelfContained letterCase text
  | between {column low high : Text} (columns : Quiet letterCase column)
      (lows : Quiet letterCase low) (highs : Quiet letterCase high) :
      SelfContained letterCase
        (column ++ Keyword.between.spaced ++ low ++ Keyword.and.spaced ++ high)

namespace SelfContained

theorem closed {text : Text} (contained : SelfContained letterCase text) :
    isClosed .inStrings text := by
  cases contained with
  | quiet quiet => exact quiet.closed
  | between columns lows highs =>
      have range := isClosed_append (isClosed_append columns.closed Keyword.between.isClosed_spaced)
        lows.closed
      exact isClosed_append (isClosed_append range Keyword.and.isClosed_spaced) highs.closed

/-- The AND of a range belongs to its BETWEEN, and a range shows no OR. -/
theorem keepsTogether {text : Text} (contained : SelfContained letterCase text)
    {separator : Keyword} (joins : separator ≠ .between) :
    KeepsTogether letterCase separator text := by
  cases contained with
  | quiet quiet => exact quiet.keepsTogether separator
  | between columns lows highs =>
      have range := isClosed_append (isClosed_append columns.closed Keyword.between.isClosed_spaced)
        lows.closed
      intro rest
      rw [tokens_append_keyword range, tokens_append_keyword columns.closed]
      simp only [List.append_assoc, List.cons_append, marked_other, marked_spelling,
        marked_append_of_noKeyword columns.noKeyword, marked_append_of_noKeyword lows.noKeyword,
        marked_append_of_noKeyword highs.noKeyword]
      cases separator with
      | between => exact absurd rfl joins
      | and => simp [unmarked]
      | or => simp [unmarked]

end SelfContained

end Together

/-! ## Splitting what was joined -/

theorem text_unmarked (tokens : List Token) :
    ((unmarked tokens).flatMap fun token => token.1.text) = tokens.flatMap Token.text :=
  List.flatMap_map _ _ tokens

theorem unmarked_append (first second : List Token) :
    unmarked (first ++ second) = unmarked first ++ unmarked second :=
  List.map_append

theorem snd_eq_false_of_mem_unmarked {tokens : List Token} {token : Token × Bool}
    (member : token ∈ unmarked tokens) : token.2 = false := by
  obtain ⟨_, _, rfl⟩ := List.mem_map.mp member
  rfl

/-- Without separators there is one piece. -/
theorem splitMarked_unmarked (tokens : List Token) :
    splitMarked (unmarked tokens) = [tokens.flatMap Token.text] := by
  rw [splitMarked, List.splitOnP_eq_singleton fun _ => snd_eq_false_of_mem_unmarked,
    List.map_singleton, text_unmarked]

/-- The first separator ends the first piece. -/
theorem splitMarked_append_cons (first : List Token) (separator : Token)
    (rest : List (Token × Bool)) :
    splitMarked (unmarked first ++ (separator, true) :: rest) =
      first.flatMap Token.text :: splitMarked rest := by
  rw [splitMarked, List.splitOnP_append_cons_of_forall_mem
    (fun _ => snd_eq_false_of_mem_unmarked) _ rfl, List.map_cons, text_unmarked]
  rfl

/-- A piece is a text with at most one space more at each end. -/
def UpToSpaces (piece text : Text) : Prop :=
  ∃ before ∈ ([[], [' ']] : List Text), ∃ after ∈ ([[], [' ']] : List Text),
    piece = before ++ text ++ after

/-- Closed texts stay closed when they are joined. -/
theorem isClosed_joined {separator : Keyword} {texts : List Text}
    (closed : ∀ text ∈ texts, isClosed .inStrings text) :
    isClosed .inStrings (Text.joined separator.spaced texts) :=
  Text.joined_of_forall (fun text => isClosed .inStrings text) rfl
    (fun first second => isClosed_append (isClosed_append first separator.isClosed_spaced) second)
    closed

/-- Texts that were joined by a separator are recovered by splitting at it. -/
theorem splitAt_joined {letterCase : LetterCase} {separator : Keyword} {texts : List Text}
    (nonempty : texts ≠ []) (closed : ∀ text ∈ texts, isClosed .inStrings text)
    (together : ∀ text ∈ texts, KeepsTogether letterCase separator text) :
    List.Forall₂ UpToSpaces
      (splitAt letterCase separator (Text.joined separator.spaced texts)) texts := by
  -- Every text but the first has the space behind a separator in front of it.
  have led : ∀ lead ∈ ([[], [' ']] : List Text), List.Forall₂ UpToSpaces
      (splitMarked (unmarked (lead.map .other) ++
        marked letterCase separator 0
          (tokens .outside 0 (Text.joined separator.spaced texts)))) texts := by
    induction texts with
    | nil => exact absurd rfl nonempty
    | cons first rest ih =>
        obtain ⟨firstClosed, othersClosed⟩ := List.forall_mem_cons.mp closed
        obtain ⟨firstTogether, othersTogether⟩ := List.forall_mem_cons.mp together
        intro lead isLead
        have leadText : (lead.map Token.other).flatMap Token.text = lead := by
          rw [List.flatMap_map]
          exact List.flatMap_singleton' lead
        cases rest with
        | nil =>
            have alone := firstTogether []
            rw [List.append_nil] at alone
            rw [Text.joined_singleton, alone, marked, List.append_nil,
              ← unmarked_append, splitMarked_unmarked, List.flatMap_append, leadText, text_tokens]
            exact .cons ⟨lead, isLead, [], by simp, by simp⟩ .nil
        | cons next more =>
            have others :=
              ih (List.cons_ne_nil next more) othersClosed othersTogether [' '] (by simp)
            have read : unmarked (lead.map .other) ++ marked letterCase separator 0
                (tokens .outside 0 (Text.joined separator.spaced (first :: next :: more))) =
                unmarked (lead.map .other ++ tokens .outside 0 first ++ [.other ' ']) ++
                  (.word separator.spelling, true) ::
                    (unmarked ([' '].map .other) ++ marked letterCase separator 0
                      (tokens .outside 0 (Text.joined separator.spaced (next :: more)))) := by
              rw [Text.joined_cons_cons, tokens_append_keyword firstClosed, firstTogether,
                marked_other, marked_spelling, marked_other]
              simp [unmarked]
            rw [read, splitMarked_append_cons, List.flatMap_append, List.flatMap_append, leadText,
              text_tokens]
            exact .cons ⟨lead, isLead, [' '], by simp, rfl⟩ others
  exact led [] List.mem_cons_self

end Lexical

end SqlComposer
