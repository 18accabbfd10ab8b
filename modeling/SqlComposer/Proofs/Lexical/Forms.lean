import SqlComposer.Proofs.Lexical.Runs

/-!
# Forms

Two things tell what a text is for a reader that minds the quotes: its form, which is the
text with all of its quoted runs emptied (`erase`), and the runs themselves, each with its
mark and its body (`quotedRuns?`).  A text reads as a form and runs when these are its own
(`ReadsAs`), and a text that is put together reads as the forms and the runs of its pieces
side by side (`ReadsAs.append`).

Whatever a reader sees outside of quotes it sees in the form: emptying the runs changes
neither the parentheses that are counted (`scan_erase`) nor the characters that are read
(`unquoted_erase`).  So it is for the form to say whether a text is closed, and where the
semicolons are that end a statement (`ReadsAs.isOneStatement`).
-/

namespace SqlComposer

set_option autoImplicit false

namespace Lexical

variable {rule : EscapeRule}

/-! ## What is seen of a form -/

/-- The mode in which no backslash waits for the character that it takes along. -/
def Mode.settled (mode : Mode) : Mode :=
  match mode.mark? with
  | none => .outside
  | some mark => .quoted mark

theorem settled_eq_outside_iff {mode : Mode} : mode.settled = .outside ↔ mode = .outside := by
  cases mode <;> simp [Mode.settled, Mode.mark?]

theorem settled_of_step_outside (character : Char) :
    (Mode.outside.step rule character).settled = Mode.outside.step rule character := by
  simp only [Mode.step]
  cases QuoteMark.ofCharacter? character <;> rfl

/-- A character that stays in the form leads from one settled mode to another. -/
theorem settled_of_kept {mode : Mode} {character : Char}
    (kept : mode = .outside ∨ mode.step rule character = .outside) :
    mode.settled = mode ∧ (mode.step rule character).settled = mode.step rule character := by
  rcases kept with rfl | left
  · exact ⟨rfl, settled_of_step_outside character⟩
  · rw [left]
    refine ⟨?_, rfl⟩
    cases mode with
    | outside => rfl
    | quoted mark => rfl
    | escaped mark => cases left

/-- A character that is erased leads to no other settled mode. -/
theorem settled_step {mode : Mode} {character : Char} (inside : mode ≠ .outside)
    (stays : mode.step rule character ≠ .outside) :
    (mode.step rule character).settled = mode.settled := by
  rw [Mode.settled, mark?_step inside stays, Mode.settled]

/-- The form is scanned as the text is. -/
theorem scan_erase (mode : Mode) (depth : Nat) (text : Text) :
    scan rule mode.settled depth (erase rule mode text) =
      (scan rule mode depth text).map fun state => (state.1.settled, state.2) := by
  induction text generalizing mode depth with
  | nil => rfl
  | cons character rest ih =>
      by_cases kept : mode = .outside ∨ mode.step rule character = .outside
      · obtain ⟨here, next⟩ := settled_of_kept kept
        rw [erase, if_pos kept, here, scan_cons, scan_cons]
        cases mode.depthAfter depth character with
        | none => rfl
        | some deeper =>
            rw [Option.bind_some, Option.bind_some, ← ih, next]
      · obtain ⟨inside, stays⟩ := not_or.mp kept
        rw [erase, if_neg kept, scan_cons, depthAfter_of_ne_outside inside, Option.bind_some, ← ih,
          settled_step inside stays]

/-- Outside of quotes the form is read as the text is. -/
theorem unquoted_erase (mode : Mode) (text : Text) :
    unquoted rule mode.settled (erase rule mode text) = unquoted rule mode text := by
  induction text generalizing mode with
  | nil => rfl
  | cons character rest ih =>
      by_cases kept : mode = .outside ∨ mode.step rule character = .outside
      · obtain ⟨here, next⟩ := settled_of_kept kept
        rw [erase, if_pos kept, here, unquoted, unquoted, ← ih, next]
      · obtain ⟨inside, stays⟩ := not_or.mp kept
        rw [erase, if_neg kept, unquoted, if_neg inside, ← ih, settled_step inside stays]

/-- A text is closed exactly when its form is. -/
theorem isClosed_erase_iff {text : Text} :
    isClosed rule (erase rule .outside text) ↔ isClosed rule text := by
  have scanned : scan rule .outside 0 (erase rule .outside text) =
      (scan rule .outside 0 text).map fun state => (state.1.settled, state.2) :=
    scan_erase .outside 0 text
  rw [isClosed_iff, isClosed_iff, scanned, Option.map_eq_some_iff]
  constructor
  · rintro ⟨⟨mode, depth⟩, whole, ended⟩
    obtain ⟨settled, noDepth⟩ := Prod.mk.inj ended
    obtain rfl : mode = .outside := settled_eq_outside_iff.mp settled
    obtain rfl : depth = 0 := noDepth
    exact whole
  · intro whole
    exact ⟨_, whole, rfl⟩

/-! ## The elements of texts side by side -/

/-- A reader that is outside of quotes has no open run. -/
theorem elementsFrom_outside (before text : Text) :
    elementsFrom rule .outside before text = elements? rule text := by
  cases text <;> rfl

theorem elementsFrom_append_of_some {mode : Mode} {before first : Text} {elements : List Element}
    (read : elementsFrom rule mode before first = some elements) (rest : Text) :
    elementsFrom rule mode before (first ++ rest) = (elements? rule rest).map (elements ++ ·) := by
  induction first generalizing mode before elements with
  | nil =>
      rw [elementsFrom] at read
      split_ifs at read with isOutside
      cases read
      rw [List.nil_append, isOutside, elementsFrom_outside]
      exact Option.map_id'.symm
  | cons character more ih =>
      rw [List.cons_append]
      rw [elementsFrom] at read ⊢
      cases inRun : mode.mark? with
      | none | some mark =>
          simp only [inRun] at read ⊢
          split_ifs at read ⊢ with left
          · obtain ⟨others, ofMore, rfl⟩ := Option.map_eq_some_iff.mp read
            rw [ih ofMore, Option.map_map]
            rfl
          · exact ih read

/-- A text that can be read in full keeps its elements when something is put behind it. -/
theorem elements?_append {first : Text} {elements : List Element}
    (read : elements? rule first = some elements) (rest : Text) :
    elements? rule (first ++ rest) = (elements? rule rest).map (elements ++ ·) :=
  elementsFrom_append_of_some read rest

/-- A text that can be read in full leaves the reader outside of quotes. -/
theorem run_of_elementsFrom {mode : Mode} {before text : Text} {elements : List Element}
    (read : elementsFrom rule mode before text = some elements) :
    run rule mode text = .outside := by
  induction text generalizing mode before elements with
  | nil =>
      rw [elementsFrom] at read
      split_ifs at read with isOutside
      exact isOutside
  | cons character rest ih =>
      rw [run_cons]
      rw [elementsFrom] at read
      cases inRun : mode.mark? with
      | none | some mark =>
          simp only [inRun] at read
          split_ifs at read with left
          · obtain ⟨others, ofRest, _⟩ := Option.map_eq_some_iff.mp read
            rw [left]
            exact ih ofRest
          · exact ih read

/-! ## Reading as a form -/

/-- The mark and the body of an element that is a run. -/
def Element.run? : Element → Option (QuoteMark × Text)
  | .bare _ => none
  | .run mark body => some (mark, body)

/-- The quoted runs of a text that ends outside of quotes. -/
def quotedRuns? (rule : EscapeRule) (text : Text) : Option (List (QuoteMark × Text)) :=
  (elements? rule text).map fun elements => elements.filterMap Element.run?

/-- A text that is this form when its runs are emptied, and has these runs. -/
structure ReadsAs (rule : EscapeRule) (form : Text) (runs : List (QuoteMark × Text))
    (text : Text) : Prop where
  erased : erase rule .outside text = form
  quoted : quotedRuns? rule text = some runs

/-- A character that opens no run. -/
def isBare (rule : EscapeRule) (character : Char) : Bool :=
  Mode.outside.step rule character = .outside

namespace ReadsAs

variable {form form' text text' : Text} {runs runs' : List (QuoteMark × Text)}

/-- A reader is outside of quotes behind a text that can be read. -/
theorem closes (reads : ReadsAs rule form runs text) : run rule .outside text = .outside := by
  obtain ⟨elements, ofText, _⟩ := Option.map_eq_some_iff.mp reads.quoted
  exact run_of_elementsFrom ofText

/-- Texts side by side have their forms and their runs side by side. -/
theorem append (first : ReadsAs rule form runs text) (second : ReadsAs rule form' runs' text') :
    ReadsAs rule (form ++ form') (runs ++ runs') (text ++ text') := by
  constructor
  · rw [erase_append, first.closes, first.erased, second.erased]
  · obtain ⟨elements, ofText, rfl⟩ := Option.map_eq_some_iff.mp first.quoted
    obtain ⟨others, ofText', rfl⟩ := Option.map_eq_some_iff.mp second.quoted
    rw [quotedRuns?, elements?_append ofText, ofText', ← List.filterMap_append]
    rfl

/-- A text that opens no run is its own form. -/
theorem bare (noRun : text.all (isBare rule)) : ReadsAs rule text [] text := by
  induction text with
  | nil => exact ⟨rfl, rfl⟩
  | cons character rest ih =>
      obtain ⟨first, later⟩ := Bool.and_eq_true_iff.mp noRun
      have here : Mode.outside.step rule character = .outside := of_decide_eq_true first
      have alone : ReadsAs rule [character] [] [character] := by
        constructor
        · rw [erase, if_pos (.inl rfl)]
          rfl
        · rw [quotedRuns?, elements?, elementsFrom_bare here]
          rfl
      exact alone.append (ih later)

/-- A run whose body stays between its marks has only these in its form. -/
theorem enclose {mark : QuoteMark} {body : Text} (stays : StaysIn rule mark body) :
    ReadsAs rule [mark.character, mark.character] [(mark, body)] (mark.enclose body) := by
  constructor
  · exact erase_enclose stays
  · rw [quotedRuns?, ← List.append_nil (mark.enclose body), elements?_enclose_append stays]
    rfl

/-- The form decides whether a text is closed. -/
theorem isClosed_iff (reads : ReadsAs rule form runs text) :
    isClosed rule text ↔ isClosed rule form := by
  rw [← reads.erased, isClosed_erase_iff]

/-- The form shows what stands outside of quotes. -/
theorem unquoted_eq (reads : ReadsAs rule form runs text) :
    unquoted rule .outside text = unquoted rule .outside form := by
  rw [← reads.erased]
  exact (unquoted_erase .outside text).symm

end ReadsAs

/-! ## One statement -/

/-- A closed text that is ended by the only semicolon that it has outside of quotes. -/
structure IsOneStatement (rule : EscapeRule) (sql : Text) : Prop where
  closed : isClosed rule sql
  ended : ∃ body, sql = body ++ [';'] ∧ run rule .outside body = .outside ∧
    ';' ∉ unquoted rule .outside body

/-- With a semicolon behind it a text is one statement when its form is closed and shows no
semicolon. -/
theorem ReadsAs.isOneStatement {form text : Text} {runs : List (QuoteMark × Text)}
    (reads : ReadsAs rule form runs text) (closed : isClosed rule form)
    (noSemicolon : ';' ∉ unquoted rule .outside form) :
    IsOneStatement rule (text ++ [';']) := by
  constructor
  · exact isClosed_append (reads.isClosed_iff.mpr closed) rfl
  · refine ⟨text, rfl, reads.closes, ?_⟩
    rw [reads.unquoted_eq]
    exact noSemicolon

end Lexical

end SqlComposer
