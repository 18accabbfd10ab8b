import SqlComposer.Proofs.Lexical.Congruence

/-!
# Quoted runs

A reader that minds the quotes takes a text apart into characters outside of quotes and
whole quoted runs, each with its mark and its body (`elements?`).  A text that ends inside
of a run has no elements.

Elements are written back one after the other (`Element.written`), but to be read as the
same elements again they have to be written with care: a body must not lead out of its
marks.  This is also enough, since no body that is read does so (`staysIn_of_elementsFrom`).
So a text that is put together from runs and plain characters is closed and shows exactly
these runs if and only if each body stays between its marks (`showsAs_written_iff`); for a
name between grave accents, if and only if there is no grave accent in it
(`staysIn_tick_iff`).
-/

namespace SqlComposer

set_option autoImplicit false

namespace Lexical

variable {rule : EscapeRule}

/-! ## Elements -/

/-- What a text consists of for a reader that minds the quotes: characters outside of them, and
quoted runs. -/
inductive Element
  | bare (character : Char)
  | run (mark : QuoteMark) (body : Text)
  deriving DecidableEq

/-- An element as it stands in a text. -/
def Element.written : Element → Text
  | .bare character => [character]
  | .run mark body => mark.enclose body

/-- The mark of the run that a reader is in. -/
def Mode.mark? : Mode → Option QuoteMark
  | .outside => none
  | .quoted mark | .escaped mark => some mark

/-- The elements of a text that is read on from a mode, with what was read before of the run that is
still open. -/
def elementsFrom (rule : EscapeRule) : Mode → Text → Text → Option (List Element)
  | mode, _, [] => if mode = .outside then some [] else none
  | mode, before, character :: rest =>
      match mode.mark? with
      | none =>
          if mode.step rule character = .outside then
            (elementsFrom rule .outside [] rest).map (.bare character :: ·)
          else elementsFrom rule (mode.step rule character) [] rest
      | some mark =>
          if mode.step rule character = .outside then
            (elementsFrom rule .outside [] rest).map (.run mark before :: ·)
          else elementsFrom rule (mode.step rule character) (before ++ [character]) rest

/-- The elements of a text that ends outside of quotes. -/
def elements? (rule : EscapeRule) (text : Text) : Option (List Element) :=
  elementsFrom rule .outside [] text

/-! ## Reading what was written -/

theorem elementsFrom_bare {character : Char} (stays : Mode.outside.step rule character = .outside)
    (before rest : Text) :
    elementsFrom rule .outside before (character :: rest) =
      (elements? rule rest).map (.bare character :: ·) := by
  rw [elementsFrom]
  exact if_pos stays

theorem elementsFrom_open (mark : QuoteMark) (before rest : Text) :
    elementsFrom rule .outside before (mark.character :: rest) =
      elementsFrom rule (.quoted mark) [] rest := by
  have opens : Mode.outside.step rule mark.character = .quoted mark := step_open mark
  rw [elementsFrom, opens]
  exact if_neg nofun

theorem elementsFrom_close (mark : QuoteMark) (before rest : Text) :
    elementsFrom rule (.quoted mark) before (mark.character :: rest) =
      (elements? rule rest).map (.run mark before :: ·) := by
  rw [elementsFrom]
  exact if_pos (step_close mark)

/-- A character that leaves a run open is added to its body. -/
theorem elementsFrom_inside {mode : Mode} {character : Char} (inside : mode ≠ .outside)
    (stays : mode.step rule character ≠ .outside) (before rest : Text) :
    elementsFrom rule mode before (character :: rest) =
      elementsFrom rule (mode.step rule character) (before ++ [character]) rest := by
  rw [elementsFrom]
  cases mode with
  | outside => exact absurd rfl inside
  | quoted mark => exact if_neg stays
  | escaped mark => exact if_neg stays

/-- A text that leaves a run open is added to its body. -/
theorem elementsFrom_append {mode : Mode} {body : Text} (nothing : unquoted rule mode body = [])
    (within : run rule mode body ≠ .outside) (before rest : Text) :
    elementsFrom rule mode before (body ++ rest) =
      elementsFrom rule (run rule mode body) (before ++ body) rest := by
  induction body generalizing mode before with
  | nil => rw [List.nil_append, List.append_nil, run_nil]
  | cons character more ih =>
      have inside : mode ≠ .outside := by
        rintro rfl
        simp [unquoted] at nothing
      rw [unquoted, if_neg inside] at nothing
      have stays : mode.step rule character ≠ .outside := by
        intro left
        cases more with
        | nil => exact within left
        | cons next others => simp [unquoted, left] at nothing
      rw [List.cons_append, elementsFrom_inside inside stays, ih nothing within,
        List.append_assoc]
      rfl

/-- A run whose body stays between its marks is read as that run. -/
theorem elements?_enclose_append {mark : QuoteMark} {body : Text} (stays : StaysIn rule mark body)
    (rest : Text) :
    elements? rule (mark.enclose body ++ rest) =
      (elements? rule rest).map (.run mark body :: ·) := by
  have within : run rule (.quoted mark) body ≠ .outside := by simp [stays.comesBack]
  rw [QuoteMark.enclose, List.cons_append, List.cons_append, List.append_assoc,
    List.singleton_append, elements?, elementsFrom_open,
    elementsFrom_append stays.nothingOutside within, stays.comesBack, List.nil_append,
    elementsFrom_close]

/-- Plain characters and runs that stay between their marks are read as they were written. -/
theorem elements?_written {elements : List Element}
    (plain : ∀ character, .bare character ∈ elements → isPlain character)
    (stay : ∀ mark body, .run mark body ∈ elements → StaysIn rule mark body) :
    elements? rule (elements.flatMap Element.written) = some elements := by
  induction elements with
  | nil => rfl
  | cons first rest ih =>
      have others := ih (fun character member => plain character (List.mem_cons_of_mem _ member))
        fun mark body member => stay mark body (List.mem_cons_of_mem _ member)
      rw [List.flatMap_cons]
      cases first with
      | bare character =>
          have isBare : Mode.outside.step rule character = .outside :=
            step_plain (plain character List.mem_cons_self)
          rw [Element.written, List.singleton_append, elements?, elementsFrom_bare isBare, others]
          rfl
      | run mark body =>
          rw [Element.written, elements?_enclose_append (stay mark body List.mem_cons_self), others]
          rfl

/-! ## What is read -/

/-- What was read of an open run has led to the mode in which the reader is. -/
def LedTo (rule : EscapeRule) (mode : Mode) (before : Text) : Prop :=
  ∀ mark, mode.mark? = some mark →
    unquoted rule (.quoted mark) before = [] ∧ run rule (.quoted mark) before = mode

theorem LedTo.outside {before : Text} : LedTo rule .outside before := by
  intro mark inRun
  cases inRun

/-- A character that is not read outside of quotes opens a run. -/
theorem LedTo.opened {character : Char} (opens : Mode.outside.step rule character ≠ .outside) :
    LedTo rule (Mode.outside.step rule character) [] := by
  intro mark inRun
  cases found : QuoteMark.ofCharacter? character with
  | none => exact absurd (by simp only [Mode.step, found]) opens
  | some other =>
      simp only [Mode.step, found] at inRun ⊢
      cases inRun
      exact ⟨rfl, rfl⟩

theorem eq_outside_of_mark? {mode : Mode} (noRun : mode.mark? = none) : mode = .outside := by
  cases mode with
  | outside => rfl
  | quoted mark => cases noRun
  | escaped mark => cases noRun

/-- A character that leaves a run open does not lead into another one. -/
theorem mark?_step {mode : Mode} {character : Char} (inside : mode ≠ .outside)
    (stays : mode.step rule character ≠ .outside) :
    (mode.step rule character).mark? = mode.mark? := by
  cases mode with
  | outside => exact absurd rfl inside
  | escaped mark => rfl
  | quoted mark =>
      simp only [Mode.step] at stays ⊢
      split_ifs at stays ⊢
      · rfl
      · exact absurd rfl stays
      · rfl

/-- Only the mark itself closes a run. -/
theorem eq_quoted_of_step {mode : Mode} {mark : QuoteMark} {character : Char}
    (inside : mode.mark? = some mark) (left : mode.step rule character = .outside) :
    mode = .quoted mark := by
  cases mode with
  | outside => cases inside
  | escaped other => cases left
  | quoted other => rw [Option.some.inj inside]

/-- One more character of an open run leads on to the next mode. -/
theorem LedTo.step {mode : Mode} {before : Text} {character : Char} (ledTo : LedTo rule mode before)
    (inside : mode ≠ .outside) (stays : mode.step rule character ≠ .outside) :
    LedTo rule (mode.step rule character) (before ++ [character]) := by
  intro mark inRun
  rw [mark?_step inside stays] at inRun
  obtain ⟨nothing, reached⟩ := ledTo mark inRun
  constructor
  · rw [unquoted_append, nothing, reached, unquoted, if_neg inside]
    rfl
  · rw [run_append, reached]
    rfl

/-- No body that is read leads out of its marks. -/
theorem staysIn_of_elementsFrom {mode : Mode} {before text : Text} {elements : List Element}
    (ledTo : LedTo rule mode before) (read : elementsFrom rule mode before text = some elements)
    {mark : QuoteMark} {body : Text} (member : .run mark body ∈ elements) :
    StaysIn rule mark body := by
  induction text generalizing mode before elements with
  | nil =>
      rw [elementsFrom] at read
      split_ifs at read
      cases read
      cases member
  | cons character rest ih =>
      rw [elementsFrom] at read
      cases inRun : mode.mark? with
      | none =>
          obtain rfl : mode = .outside := eq_outside_of_mark? inRun
          simp only [inRun] at read
          split_ifs at read with stays
          · obtain ⟨others, ofRest, rfl⟩ := Option.map_eq_some_iff.mp read
            exact ih .outside ofRest ((List.mem_cons.mp member).resolve_left nofun)
          · exact ih (.opened stays) read member
      | some current =>
          simp only [inRun] at read
          split_ifs at read with left
          · obtain ⟨others, ofRest, rfl⟩ := Option.map_eq_some_iff.mp read
            rcases List.mem_cons.mp member with same | later
            · cases same
              have reached := ledTo mark inRun
              rw [eq_quoted_of_step inRun left] at reached
              exact ⟨reached.1, reached.2⟩
            · exact ih .outside ofRest later
          · have inside : mode ≠ .outside := by
              rintro rfl
              cases inRun
            exact ih (ledTo.step inside left) read member

/-- The body of a name between grave accents stays there exactly when it has no grave accent. -/
theorem staysIn_tick_iff {name : Text} : StaysIn .inStrings .tick name ↔ Text.tick ∉ name := by
  refine ⟨fun stays => ?_, staysIn_tick⟩
  induction name with
  | nil => exact List.not_mem_nil
  | cons character rest ih =>
      have nothing := stays.nothingOutside
      have comesBack := stays.comesBack
      rw [unquoted, if_neg (by simp)] at nothing
      rw [run_cons] at comesBack
      by_cases isTick : character = Text.tick
      · -- Behind a grave accent the reader is outside, and anything more is seen there.
        have left : (Mode.quoted .tick).step .inStrings character = .outside :=
          isTick ▸ step_close .tick
        rw [left] at nothing comesBack
        cases rest with
        | nil => cases comesBack
        | cons next more => simp [unquoted] at nothing
      · have stepped : (Mode.quoted .tick).step .inStrings character = .quoted .tick := by
          have notMark : character ≠ QuoteMark.tick.character := isTick
          simp [Mode.step, EscapeRule.inStrings, notMark]
        rw [stepped] at nothing comesBack
        exact List.not_mem_cons_of_ne_of_not_mem (Ne.symm isTick) (ih ⟨nothing, comesBack⟩)

/-! ## Texts that show their runs -/

/-- A closed text that is read as these elements. -/
structure ShowsAs (rule : EscapeRule) (text : Text) (elements : List Element) : Prop where
  closed : isClosed rule text
  read : elements? rule text = some elements

section Written

variable {elements : List Element}
  (plain : ∀ character, .bare character ∈ elements → isPlain character)
include plain

/-- Plain characters and runs that stay between their marks make a closed text. -/
theorem isClosed_written (stay : ∀ mark body, .run mark body ∈ elements → StaysIn rule mark body) :
    isClosed rule (elements.flatMap Element.written) := by
  induction elements with
  | nil => rfl
  | cons first rest ih =>
      have others := ih (fun character member => plain character (List.mem_cons_of_mem _ member))
        fun mark body member => stay mark body (List.mem_cons_of_mem _ member)
      refine isClosed_append ?_ others
      cases first with
      | bare character =>
          refine isClosed_of_plain ?_
          rw [Element.written, List.all_cons, plain character List.mem_cons_self]
          rfl
      | run mark body => exact isClosed_enclose (stay mark body List.mem_cons_self)

/-- A text that is put together from runs and plain characters shows these if and only if the body
of each run stays between its marks. -/
theorem showsAs_written_iff :
    ShowsAs rule (elements.flatMap Element.written) elements ↔
      ∀ mark body, .run mark body ∈ elements → StaysIn rule mark body := by
  constructor
  · exact fun shows mark body member => staysIn_of_elementsFrom .outside shows.read member
  · exact fun stay => ⟨isClosed_written plain stay, elements?_written plain stay⟩

end Written

end Lexical

end SqlComposer
