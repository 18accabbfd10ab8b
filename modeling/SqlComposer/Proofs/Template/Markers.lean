import Mathlib.Data.List.Basic
import SqlComposer.Proofs.Lexical.Unquoted
import SqlComposer.Template

/-!
# The markers of a template

Where the markers of a template stand can be told place by place (`MarkerSort.at?`).
A question mark outside of quotes is a positional marker.  A colon outside of quotes and
not behind another colon is a named marker together with the longest run of word
characters behind it, if there is such a run and no digit comes first.

The program goes over a template once and cuts it into pieces.  Each piece is a marker
that stands in its place, or a character in a place where no marker starts
(`Cut`, `cut_pieces`).  So the pieces of a sort are the markers of that sort
(`written_markers`), and to write texts for them is to replace the markers and to leave
everything else as it is (`replaced_markers`).
-/

namespace SqlComposer

set_option autoImplicit false

open Lexical

namespace Template

/-! ## Markers, place by place -/

/-- The sorts of markers. -/
inductive MarkerSort
  | positional
  | named
  deriving DecidableEq

/-- The character that a marker starts with. -/
def MarkerSort.sign : MarkerSort → Char
  | .positional => '?'
  | .named => ':'

/-- The marker, as written, that starts between what stands before a place and what stands behind
it. -/
def MarkerSort.at? (sort : MarkerSort) (before rest : Text) : Option Text :=
  match sort with
  | .positional =>
      if run .inStrings .outside before = .outside ∧ rest.head? = some '?' then some ['?'] else none
  | .named =>
      let name := rest.tail.takeWhile Text.isWordCharacter
      if run .inStrings .outside before = .outside ∧ rest.head? = some ':' ∧
          before.getLast? ≠ some ':' ∧ name ≠ [] ∧ ¬ name.head?.any Char.isDigit then
        some (':' :: name)
      else none

/-- A marker in a template: where it starts and how it is written. -/
structure Marker where
  start : Nat
  written : Text
  deriving DecidableEq

/-- The markers of a sort in a template, in order. -/
def markers (sort : MarkerSort) (template : Text) : List Marker :=
  (List.range template.length).filterMap fun start =>
    (sort.at? (template.take start) (template.drop start)).map (Marker.mk start)

/-- What follows a number of characters, with a text in place of each of the markers in it. -/
def replacedFrom : Nat → Text → List (Marker × Text) → Text
  | _, rest, [] => rest
  | passed, rest, (marker, replacement) :: more =>
      rest.take (marker.start - passed) ++ replacement ++
        replacedFrom (marker.start + marker.written.length)
          (rest.drop (marker.start - passed + marker.written.length)) more

/-- A template with a text in place of each of its markers, as far as there are texts. -/
def replaced (template : Text) (markers : List Marker) (replacements : List Text) : Text :=
  replacedFrom 0 template (markers.zip replacements)

/-! ## Names -/

/-- Words start with every word character but a digit. -/
theorem isWordStart_iff {character : Char} :
    Text.isWordStart character ↔ Text.isWordCharacter character ∧ ¬ character.isDigit := by
  have ascii : Text.isWordCharacter character →
      (Text.isWordStart character ↔ ¬ character.isDigit) := fun inWord =>
    Text.of_ascii (fun other => Text.isWordCharacter other →
      (Text.isWordStart other ↔ ¬ other.isDigit)) (by decide)
      (toNat_lt_of_isPlain (isPlain_of_isWordCharacter inWord)) inWord
  refine ⟨fun start => ?_, fun both => (ascii both.1).mpr both.2⟩
  have inWord : Text.isWordCharacter character := by
    rcases Bool.or_eq_true_iff.mp start with letter | underscore
    · simp [Text.isWordCharacter, Char.isAlphanum, letter]
    · simp [Text.isWordCharacter, underscore]
  exact ⟨inWord, (ascii inWord).mp start⟩

/-- A run of word characters is a plain word unless it is empty or a digit comes first. -/
theorem isPlainWord_iff_of_inWord {name : Text} (inWord : name.all Text.isWordCharacter) :
    Text.isPlainWord name ↔ name ≠ [] ∧ ¬ name.head?.any Char.isDigit := by
  cases name with
  | nil => simp [Text.isPlainWord]
  | cons first rest =>
      obtain ⟨head, others⟩ := Bool.and_eq_true_iff.mp inWord
      have tail : (rest.all fun other => Text.isWordCharacter other || other == '$') := by
        refine List.all_eq_true.mpr fun other member => ?_
        rw [List.all_eq_true.mp others other member]
        rfl
      rw [Text.isPlainWord, tail, Bool.and_true, isWordStart_iff]
      simp [head]

/-! ## Where markers start -/

/-- A marker starts only outside of quotes, and with its sign. -/
theorem MarkerSort.at?_cons_eq_none {sort : MarkerSort} {before rest : Text} {character : Char}
    (noSign : run .inStrings .outside before = .outside → character ≠ sort.sign) :
    sort.at? before (character :: rest) = none := by
  cases sort with
  | positional =>
      refine if_neg fun both => noSign both.1 ?_
      exact Option.some.inj both.2
  | named =>
      refine if_neg fun both => noSign both.1 ?_
      exact Option.some.inj both.2.1

/-- A positional marker is a question mark outside of quotes. -/
theorem MarkerSort.positional_at?_eq_some {before rest written : Text} :
    positional.at? before rest = some written ↔
      run .inStrings .outside before = .outside ∧ rest.head? = some '?' ∧ written = ['?'] := by
  rw [at?, Option.ite_none_right_eq_some, and_assoc, Option.some.injEq, eq_comm (b := written)]

/-- A named marker is a colon outside of quotes and not behind a colon, with a word that starts with
no digit. -/
theorem MarkerSort.named_at?_eq_some {before rest written : Text} :
    named.at? before rest = some written ↔
      run .inStrings .outside before = .outside ∧ rest.head? = some ':' ∧
        before.getLast? ≠ some ':' ∧ rest.tail.takeWhile Text.isWordCharacter ≠ [] ∧
          ¬ (rest.tail.takeWhile Text.isWordCharacter).head?.any Char.isDigit ∧
            written = ':' :: rest.tail.takeWhile Text.isWordCharacter := by
  simp only [at?, Option.ite_none_right_eq_some, and_assoc, Option.some.injEq,
    eq_comm (b := written)]

/-- Whether a named marker starts in a place shows in the next two characters. -/
theorem MarkerSort.named_at?_isSome {before rest : Text} :
    (named.at? before rest).isSome ↔
      run .inStrings .outside before = .outside ∧ rest.head? = some ':' ∧
        before.getLast? ≠ some ':' ∧ rest.tail.head?.any Text.isWordStart := by
  have starts : (rest.tail.takeWhile Text.isWordCharacter ≠ [] ∧
      ¬ (rest.tail.takeWhile Text.isWordCharacter).head?.any Char.isDigit) ↔
        rest.tail.head?.any Text.isWordStart := by
    cases rest.tail with
    | nil => simp
    | cons first more =>
        rw [List.head?_cons, Option.any_some, isWordStart_iff, List.takeWhile_cons]
        split_ifs with inWord <;> simp [inWord]
  simp only [Option.isSome_iff_exists, named_at?_eq_some, ← starts]
  constructor
  · rintro ⟨_, outside, head, noColon, isName, start, _⟩
    exact ⟨outside, head, noColon, isName, start⟩
  · rintro ⟨outside, head, noColon, isName, start⟩
    exact ⟨_, outside, head, noColon, isName, start, rfl⟩

/-- The name of a marker is a word, and the template goes on behind it. -/
theorem name_of_at? {before rest name : Text}
    (here : MarkerSort.named.at? before (':' :: rest) = some (':' :: name)) :
    name ≠ [] ∧ name.all Text.isWordCharacter ∧ name <+: rest := by
  obtain ⟨_, _, _, isName, _, written⟩ := MarkerSort.named_at?_eq_some.mp here
  have same : name = rest.takeWhile Text.isWordCharacter := (List.cons_inj_right ':').mp written
  rw [same]
  exact ⟨isName, List.all_takeWhile, List.takeWhile_prefix _⟩

/-- The program tells markers by their names in the same way. -/
theorem markerName?_eq {behindColon : Bool} {before : Text}
    (outside : run .inStrings .outside before = .outside)
    (colon : before.getLast? = some ':' ↔ behindColon) (rest : Text) :
    MarkerSort.named.at? before (':' :: rest) =
      (markerName? behindColon rest).map (':' :: ·) := by
  have inWord : (rest.takeWhile Text.isWordCharacter).all Text.isWordCharacter :=
    List.all_takeWhile
  simp only [MarkerSort.at?, markerName?, List.head?_cons, List.tail_cons, outside, true_and,
    ne_eq, colon, Bool.and_eq_true, Bool.not_eq_true', Bool.not_eq_true,
    isPlainWord_iff_of_inWord inWord]
  split_ifs <;> rfl

/-! ## Modes -/

/-- A word leaves a reader outside of quotes. -/
theorem run_word {word : Text} (inWord : word.all Text.isWordCharacter) :
    run .inStrings .outside word = .outside := by
  refine run_of_isClosed (isClosed_of_plain (List.all_eq_true.mpr fun character member => ?_))
  exact isPlain_of_isWordCharacter (List.all_eq_true.mp inWord character member)

/-- One more character leads one step further. -/
theorem run_behind {before : Text} {mode : Mode} {character : Char}
    (behind : run .inStrings .outside before = mode) :
    run .inStrings .outside (before ++ [character]) = mode.step .inStrings character := by
  rw [run_append, behind, run_cons, run_nil]

/-! ## Pieces -/

/-- A piece as it stands in a template. -/
def Piece.written : Piece → Text
  | .character other => [other]
  | .positional => ['?']
  | .named name => ':' :: name

/-- Whether a piece is a marker of a sort. -/
def Piece.isOf : MarkerSort → Piece → Bool
  | .positional, .positional => true
  | .named, .named _ => true
  | _, _ => false

/-- Between two parts of a template stands the marker that starts there, or a character where none
starts. -/
def Piece.StandsAt (piece : Piece) (before rest : Text) : Prop :=
  ∀ sort : MarkerSort, sort.at? before (piece.written ++ rest) =
    if piece.isOf sort then some piece.written else none

/-- The pieces behind a part of a template. -/
inductive Cut : Text → Text → List Piece → Prop
  | nil (before : Text) : Cut before [] []
  | cons {before rest : Text} {piece : Piece} {pieces : List Piece}
      (here : piece.StandsAt before rest)
      (more : Cut (before ++ piece.written) rest pieces) :
      Cut before (piece.written ++ rest) (piece :: pieces)

/-- A character that does not start a marker is a piece. -/
theorem Cut.character {before rest : Text} {character : Char} {pieces : List Piece}
    (noMarker : ∀ sort : MarkerSort, sort.at? before (character :: rest) = none)
    (more : Cut (before ++ [character]) rest pieces) :
    Cut before (character :: rest) (.character character :: pieces) := by
  have here : (Piece.character character).StandsAt before rest := by
    intro sort
    cases sort <;> exact noMarker _
  exact .cons here more

/-- A question mark outside of quotes is a piece. -/
theorem Cut.positional {before rest : Text} {pieces : List Piece}
    (outside : run .inStrings .outside before = .outside)
    (more : Cut (before ++ ['?']) rest pieces) :
    Cut before ('?' :: rest) (.positional :: pieces) := by
  have here : Piece.positional.StandsAt before rest := by
    intro sort
    cases sort with
    | positional => exact if_pos ⟨outside, rfl⟩
    | named => exact MarkerSort.at?_cons_eq_none fun _ => by decide
  exact .cons here more

/-- A colon with the name behind it is a piece. -/
theorem Cut.named {before rest name : Text} {pieces : List Piece}
    (here : MarkerSort.named.at? before (':' :: (name ++ rest)) = some (':' :: name))
    (more : Cut (before ++ ':' :: name) rest pieces) :
    Cut before (':' :: (name ++ rest)) (.named name :: pieces) := by
  have both : (Piece.named name).StandsAt before rest := by
    intro sort
    cases sort with
    | positional => exact MarkerSort.at?_cons_eq_none fun _ => by decide
    | named => exact here
  exact .cons both more

/-! ## The pieces that the program finds -/

/-- The pieces that the program finds behind a part of a template, when it is in the mode of a
reader there and knows whether a colon stands in front of the place. -/
theorem cut_piecesFrom {mode : Mode} {behindColon : Bool} {passed : Nat} {rest before : Text}
    (behind : run .inStrings .outside (before ++ rest.take passed) = mode)
    (colon : mode = .outside →
      ((before ++ rest.take passed).getLast? = some ':' ↔ behindColon ∧ passed = 0)) :
    Cut (before ++ rest.take passed) (rest.drop passed)
      (piecesFrom mode behindColon passed rest) := by
  -- The characters of a name that are still to be passed count as read already.
  induction mode, behindColon, passed, rest using piecesFrom.induct generalizing before with
  | case1 mode behindColon passed =>
      rw [List.take_nil, List.drop_nil, piecesFrom]
      exact .nil _
  | case2 mode behindColon passed character rest ih =>
      have regroup : before ++ (character :: rest).take passed.succ =
          (before ++ [character]) ++ rest.take passed := by simp
      rw [regroup] at behind colon ⊢
      rw [piecesFrom]
      refine ih behind fun outside => ?_
      rw [colon outside]
      simp
  | case3 behindColon rest ih =>
      simp only [List.take_zero, List.append_nil, List.drop_zero, and_true] at behind ih ⊢
      rw [piecesFrom, if_pos rfl]
      exact .positional behind (ih (run_behind behind) fun _ => by simp)
  | case4 behindColon rest name found notQuestion ih =>
      simp only [List.take_zero, List.append_nil, List.drop_zero, and_true] at behind colon ⊢
      have here := markerName?_eq behind (colon trivial) rest
      rw [found, Option.map_some] at here
      obtain ⟨isName, inWord, after, rfl⟩ := name_of_at? here
      rw [List.take_left, List.drop_left] at ih
      simp only [piecesFrom, if_neg notQuestion, reduceIte, found]
      have opened : run .inStrings .outside (before ++ [':']) = .outside := run_behind behind
      have closed : run .inStrings .outside (before ++ [':'] ++ name) = .outside := by
        rw [run_append, opened, run_word inWord]
      have later := ih closed fun _ => iff_of_false (getLast?_ne_colon isName inWord) (by simp)
      rw [List.append_assoc] at later
      exact .named here later
  | case5 behindColon rest noName notQuestion ih =>
      simp only [List.take_zero, List.append_nil, List.drop_zero, and_true] at behind colon ih ⊢
      have here := markerName?_eq behind (colon trivial) rest
      rw [noName, Option.map_none] at here
      simp only [piecesFrom, if_neg notQuestion, if_pos, noName]
      refine .character (fun sort => ?_) (ih (run_behind behind) fun _ => by simp)
      cases sort with
      | positional => exact MarkerSort.at?_cons_eq_none fun _ => notQuestion
      | named => exact here
  | case6 behindColon character rest notQuestion notColon ih =>
      simp only [List.take_zero, List.append_nil, List.drop_zero, and_true] at behind ih ⊢
      rw [piecesFrom, if_neg notQuestion, if_neg notColon]
      refine .character (fun sort => ?_) (ih (run_behind behind) fun _ => by simpa using notColon)
      cases sort with
      | positional => exact MarkerSort.at?_cons_eq_none fun _ => notQuestion
      | named => exact MarkerSort.at?_cons_eq_none fun _ => notColon
  | case7 mode behindColon character rest inside ih =>
      simp only [List.take_zero, List.append_nil, List.drop_zero, and_true] at behind ih ⊢
      rw [piecesFrom.eq_4 _ _ _ _ inside]
      refine .character (fun sort => ?_) (ih (run_behind behind) fun left => ?_)
      · exact MarkerSort.at?_cons_eq_none fun outside => absurd (behind.symm.trans outside) inside
      · have notColon := ne_colon_of_step inside left
        simpa using notColon

/-- A template is cut into its pieces. -/
theorem cut_pieces (template : Text) : Cut [] template (pieces template) := by
  have cut : Cut ([] ++ template.take 0) (template.drop 0) (pieces template) :=
    cut_piecesFrom rfl fun _ => by simp
  rwa [List.take_zero, List.nil_append, List.drop_zero] at cut

/-! ## The markers behind a part of a template -/

/-- The markers of a sort in what follows a part of a template. -/
def markersFrom (sort : MarkerSort) (before rest : Text) : List Marker :=
  (List.range rest.length).filterMap fun start =>
    (sort.at? (before ++ rest.take start) (rest.drop start)).map (Marker.mk (before.length + start))

theorem markersFrom_nil (sort : MarkerSort) (template : Text) :
    markersFrom sort [] template = markers sort template := by
  simp only [markersFrom, markers, List.nil_append, List.length_nil, Nat.zero_add]

theorem markersFrom_cons (sort : MarkerSort) (before : Text) (character : Char) (rest : Text) :
    markersFrom sort before (character :: rest) =
      ((sort.at? before (character :: rest)).map (Marker.mk before.length)).toList ++
        markersFrom sort (before ++ [character]) rest := by
  have later : ∀ start, before ++ (character :: rest).take (start + 1) =
      before ++ [character] ++ rest.take start := by simp
  have places : ∀ start, before.length + (start + 1) = (before ++ [character]).length + start := by
    intro start
    rw [List.length_append, List.length_singleton]
    omega
  rw [markersFrom, List.length_cons, List.range_succ_eq_map, List.filterMap_cons,
    List.filterMap_map, markersFrom]
  simp only [Function.comp_def, List.take_zero, List.append_nil, List.drop_zero, Nat.add_zero,
    Nat.succ_eq_add_one, later, places, List.drop_succ_cons]
  cases sort.at? before (character :: rest) <;> rfl

/-- No marker starts in a text that does not show its sign outside of quotes. -/
theorem markersFrom_append {sort : MarkerSort} {before first : Text}
    (noSign : sort.sign ∉ unquoted .inStrings (run .inStrings .outside before) first)
    (rest : Text) :
    markersFrom sort before (first ++ rest) = markersFrom sort (before ++ first) rest := by
  induction first generalizing before with
  | nil => rw [List.nil_append, List.append_nil]
  | cons character more ih =>
      have none : sort.at? before (character :: (more ++ rest)) = none := by
        refine MarkerSort.at?_cons_eq_none fun outside same => noSign ?_
        rw [outside, unquoted, if_pos rfl, same]
        exact List.mem_cons_self
      have others : sort.sign ∉
          unquoted .inStrings (run .inStrings .outside (before ++ [character])) more := by
        intro member
        rw [run_behind rfl] at member
        refine noSign ?_
        rw [unquoted]
        split_ifs
        · exact List.mem_cons_of_mem _ member
        · exact member
      rw [List.cons_append, markersFrom_cons, none, ih others, List.append_assoc]
      rfl

/-- Markers start behind the part of the template that they are behind. -/
theorem le_start_of_mem {sort : MarkerSort} {before rest : Text} {marker : Marker}
    (member : marker ∈ markersFrom sort before rest) : before.length ≤ marker.start := by
  obtain ⟨start, _, found⟩ := List.mem_filterMap.mp member
  obtain ⟨_, _, rfl⟩ := Option.map_eq_some_iff.mp found
  exact Nat.le_add_right before.length start

/-- What is written for a piece holds no more signs than the one that it starts with. -/
theorem Piece.StandsAt.sign_notMem_tail {before rest : Text} {piece : Piece}
    (here : piece.StandsAt before rest) (sort : MarkerSort) :
    sort.sign ∉ piece.written.tail := by
  cases piece with
  | character other => exact List.not_mem_nil
  | positional => exact List.not_mem_nil
  | named name =>
      obtain ⟨_, inWord, _⟩ := name_of_at? (here .named)
      intro member
      have wordCharacter := List.all_eq_true.mp inWord _ member
      revert wordCharacter
      cases sort <;> decide

/-- A marker may start in front of what is written, and then none until it is passed. -/
theorem markersFrom_written {sort : MarkerSort} {before written : Text} (isWritten : written ≠ [])
    (noSign : sort.sign ∉ written.tail) (rest : Text) :
    markersFrom sort before (written ++ rest) =
      ((sort.at? before (written ++ rest)).map (Marker.mk before.length)).toList ++
        markersFrom sort (before ++ written) rest := by
  cases written with
  | nil => exact absurd rfl isWritten
  | cons character tail =>
      have passed : markersFrom sort (before ++ [character]) (tail ++ rest) =
          markersFrom sort (before ++ [character] ++ tail) rest :=
        markersFrom_append (fun member => noSign (unquoted_subset _ member)) rest
      rw [List.cons_append, markersFrom_cons, passed, List.append_assoc]
      rfl

theorem Piece.written_ne_nil (piece : Piece) : piece.written ≠ [] := by
  cases piece <;> exact List.cons_ne_nil _ _

/-! ## Replacing markers -/

/-- What stands in front of all markers is kept. -/
theorem replacedFrom_append {passed : Nat} {first : Text} {replacements : List (Marker × Text)}
    (later : ∀ pair ∈ replacements, passed + first.length ≤ pair.1.start) (rest : Text) :
    replacedFrom passed (first ++ rest) replacements =
      first ++ replacedFrom (passed + first.length) rest replacements := by
  cases replacements with
  | nil => rfl
  | cons pair more =>
      obtain ⟨marker, replacement⟩ := pair
      have behind : passed + first.length ≤ marker.start := later _ List.mem_cons_self
      have distance : marker.start - passed =
          first.length + (marker.start - (passed + first.length)) := by omega
      simp only [replacedFrom]
      rw [distance, Nat.add_assoc, List.take_length_add_append, List.drop_length_add_append,
        List.append_assoc, List.append_assoc, List.append_assoc]

/-- What follows a part of a template, with a text in place of each marker of a sort in it, as far
as there are texts. -/
def replacedBehind (sort : MarkerSort) (before rest : Text) (texts : List Text) : Text :=
  replacedFrom before.length rest ((markersFrom sort before rest).zip texts)

theorem replacedBehind_nil (sort : MarkerSort) (template : Text) (texts : List Text) :
    replacedBehind sort [] template texts = replaced template (markers sort template) texts := by
  rw [replacedBehind, markersFrom_nil]
  rfl

/-- A marker gives way to the first of the texts. -/
theorem replacedBehind_marker {sort : MarkerSort} {before written rest : Text}
    (here : sort.at? before (written ++ rest) = some written) (isWritten : written ≠ [])
    (noSign : sort.sign ∉ written.tail) (texts : List Text) :
    replacedBehind sort before (written ++ rest) texts =
      texts.headD written ++ replacedBehind sort (before ++ written) rest texts.tail := by
  unfold replacedBehind
  rw [markersFrom_written isWritten noSign, here, Option.map_some, Option.toList_some,
    List.singleton_append]
  cases texts with
  | nil =>
      rw [List.zip_nil_right, List.tail_nil, List.zip_nil_right]
      rfl
  | cons text more =>
      rw [List.zip_cons_cons, replacedFrom, Nat.sub_self, List.take_zero, List.nil_append,
        Nat.zero_add, List.drop_left, ← List.length_append]
      rfl

/-- What holds no marker is kept. -/
theorem replacedBehind_kept {sort : MarkerSort} {before written rest : Text}
    (here : sort.at? before (written ++ rest) = none) (isWritten : written ≠ [])
    (noSign : sort.sign ∉ written.tail) (texts : List Text) :
    replacedBehind sort before (written ++ rest) texts =
      written ++ replacedBehind sort (before ++ written) rest texts := by
  unfold replacedBehind
  rw [markersFrom_written isWritten noSign, here, Option.map_none, Option.toList_none,
    List.nil_append, List.length_append]
  refine replacedFrom_append (fun pair member => ?_) rest
  have bound := le_start_of_mem (List.of_mem_zip member).1
  rwa [List.length_append] at bound

/-! ## Pieces and markers -/

/-- The pieces of a template as written, with a text in place of each marker of a sort, as far as
there are texts. -/
def filled (sort : MarkerSort) : List Piece → List Text → Text
  | [], _ => []
  | piece :: rest, texts =>
      if piece.isOf sort then texts.headD piece.written ++ filled sort rest texts.tail
      else piece.written ++ filled sort rest texts

/-- The pieces are all of what is cut. -/
theorem Cut.flatMap_written {before rest : Text} {pieces : List Piece}
    (cut : Cut before rest pieces) : pieces.flatMap Piece.written = rest := by
  induction cut with
  | nil before => rfl
  | cons _ _ ih => rw [List.flatMap_cons, ih]

/-- The pieces of a sort are the markers of that sort. -/
theorem Cut.written_markersFrom {before rest : Text} {pieces : List Piece}
    (cut : Cut before rest pieces) (sort : MarkerSort) :
    (markersFrom sort before rest).map Marker.written =
      (pieces.filter (Piece.isOf sort)).map Piece.written := by
  induction cut with
  | nil before => rfl
  | @cons before rest piece pieces here _ ih =>
      have noSign := here.sign_notMem_tail sort
      have start : sort.at? before (piece.written ++ rest) = _ := here sort
      rw [markersFrom_written piece.written_ne_nil noSign, start, List.map_append, ih,
        List.filter_cons]
      split_ifs <;> rfl

/-- To fill in pieces is to replace markers. -/
theorem Cut.replacedBehind_eq {before rest : Text} {pieces : List Piece}
    (cut : Cut before rest pieces) (sort : MarkerSort) (texts : List Text) :
    replacedBehind sort before rest texts = filled sort pieces texts := by
  induction cut generalizing texts with
  | nil before => rfl
  | @cons before rest piece pieces here _ ih =>
      have noSign := here.sign_notMem_tail sort
      have start := here sort
      rw [filled]
      split_ifs at start ⊢
      · rw [replacedBehind_marker start piece.written_ne_nil noSign, ih]
      · rw [replacedBehind_kept start piece.written_ne_nil noSign, ih]

/-- The markers of a template are the pieces of their sort. -/
theorem written_markers (sort : MarkerSort) (template : Text) :
    (markers sort template).map Marker.written =
      ((pieces template).filter (Piece.isOf sort)).map Piece.written := by
  rw [← markersFrom_nil]
  exact (cut_pieces template).written_markersFrom sort

/-- To replace the markers of a template is to fill in its pieces. -/
theorem replaced_markers (sort : MarkerSort) (template : Text) (texts : List Text) :
    replaced template (markers sort template) texts = filled sort (pieces template) texts := by
  rw [← replacedBehind_nil]
  exact (cut_pieces template).replacedBehind_eq sort texts

end Template

end SqlComposer
