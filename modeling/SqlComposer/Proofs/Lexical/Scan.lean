import Mathlib.Tactic.SplitIfs
import SqlComposer.Lexical.Quotes

/-!
# Scanning piece by piece

A text is scanned by scanning its pieces one after the other (`scan_append`), and
a scan that goes well goes just as well with more parentheses open around it
(`scan_add`).  So closed texts can be put side by side (`isClosed_append`) and
between parentheses (`isClosed_parenthesized`).

The other way around, a closed text in parentheses need not be closed inside of
them: `)(` becomes `()()`.  What it takes is that the first parenthesis stays
open up to the last one (`ClosesAtEnd`), and that is exactly the case when the
inner text is closed (`closesAtEnd_iff`).
-/

namespace SqlComposer

set_option autoImplicit false

namespace Lexical

variable {rule : EscapeRule}

/-! ## Modes behind a text -/

/-- The mode behind a text. -/
def run (rule : EscapeRule) (mode : Mode) (text : Text) : Mode :=
  text.foldl (Mode.step rule) mode

@[simp] theorem run_nil (mode : Mode) : run rule mode [] = mode := rfl

@[simp] theorem run_cons (mode : Mode) (character : Char) (rest : Text) :
    run rule mode (character :: rest) = run rule (mode.step rule character) rest := rfl

theorem run_append (mode : Mode) (first second : Text) :
    run rule mode (first ++ second) = run rule (run rule mode first) second :=
  List.foldl_append

/-! ## Scans -/

@[simp] theorem scan_nil (mode : Mode) (depth : Nat) :
    scan rule mode depth [] = some (mode, depth) := rfl

theorem scan_cons (mode : Mode) (depth : Nat) (character : Char) (rest : Text) :
    scan rule mode depth (character :: rest) =
      (mode.depthAfter depth character).bind fun next =>
        scan rule (mode.step rule character) next rest := by
  simp only [scan]
  cases mode.depthAfter depth character <;> rfl

/-- The pieces of a text are scanned one after the other. -/
theorem scan_append (mode : Mode) (depth : Nat) (first second : Text) :
    scan rule mode depth (first ++ second) =
      (scan rule mode depth first).bind fun state => scan rule state.1 state.2 second := by
  induction first generalizing mode depth with
  | nil => rfl
  | cons character rest ih =>
      rw [List.cons_append, scan_cons, scan_cons]
      cases mode.depthAfter depth character with
      | none => rfl
      | some next => exact ih _ _

/-- A scan ends in the mode behind the text. -/
theorem run_of_scan {mode next : Mode} {depth left : Nat} {text : Text}
    (scanned : scan rule mode depth text = some (next, left)) : run rule mode text = next := by
  induction text generalizing mode depth with
  | nil =>
      cases scanned
      rfl
  | cons character rest ih =>
      rw [scan_cons] at scanned
      obtain ⟨deeper, _, scanned⟩ := Option.bind_eq_some_iff.mp scanned
      exact ih scanned

/-- Inside of quotes the depth stays as it is. -/
theorem depthAfter_of_ne_outside {mode : Mode} (inside : mode ≠ .outside) (depth : Nat)
    (character : Char) : mode.depthAfter depth character = some depth := by
  unfold Mode.depthAfter
  exact if_pos inside

/-- One character counts the same with more parentheses open around it. -/
theorem depthAfter_add {mode : Mode} {depth next : Nat} {character : Char} (more : Nat)
    (counted : mode.depthAfter depth character = some next) :
    mode.depthAfter (depth + more) character = some (next + more) := by
  unfold Mode.depthAfter at counted ⊢
  split_ifs at counted ⊢ with isQuoted opens closes
  · cases counted
    rfl
  · cases counted
    rw [Nat.add_right_comm]
  · cases depth with
    | zero => cases counted
    | succ less =>
        cases counted
        rw [Nat.add_right_comm]
  · cases counted
    rfl

/-- One character counts the same with one parenthesis less open around it, as long as it does not
close that one. -/
theorem depthAfter_pred {mode : Mode} {depth next : Nat} {character : Char}
    (counted : mode.depthAfter (depth + 1) character = some (next + 1)) :
    mode.depthAfter depth character = some next := by
  unfold Mode.depthAfter at counted ⊢
  split_ifs at counted ⊢ with isQuoted opens closes
  · cases counted
    rfl
  · cases counted
    rfl
  · cases counted
    rfl
  · cases counted
    rfl

/-- A scan goes the same way with more parentheses open around the text. -/
theorem scan_add {mode next : Mode} {depth left : Nat} {text : Text} (more : Nat)
    (scanned : scan rule mode depth text = some (next, left)) :
    scan rule mode (depth + more) text = some (next, left + more) := by
  induction text generalizing mode depth with
  | nil =>
      cases scanned
      rfl
  | cons character rest ih =>
      rw [scan_cons] at scanned ⊢
      obtain ⟨deeper, counted, scanned⟩ := Option.bind_eq_some_iff.mp scanned
      rw [depthAfter_add more counted, Option.bind_some]
      exact ih scanned

/-! ## Closed texts -/

theorem isClosed_iff {text : Text} :
    isClosed rule text ↔ scan rule .outside 0 text = some (.outside, 0) := by
  rw [isClosed, beq_iff_eq]

/-- A closed text leaves a reader outside of quotes. -/
theorem run_of_isClosed {text : Text} (closed : isClosed rule text) :
    run rule .outside text = .outside :=
  run_of_scan (isClosed_iff.mp closed)

/-- A closed text leaves a reader at the depth at which it starts. -/
theorem scan_of_isClosed {text : Text} (depth : Nat) (closed : isClosed rule text) :
    scan rule .outside depth text = some (.outside, depth) := by
  simpa using scan_add depth (isClosed_iff.mp closed)

theorem isClosed_append {first second : Text} (firstClosed : isClosed rule first)
    (secondClosed : isClosed rule second) : isClosed rule (first ++ second) := by
  rw [isClosed_iff, scan_append, isClosed_iff.mp firstClosed]
  exact isClosed_iff.mp secondClosed

/-- Outside of quotes, an opening parenthesis leads one deeper. -/
theorem scan_open (depth : Nat) (rest : Text) :
    scan rule .outside depth ('(' :: rest) = scan rule .outside (depth + 1) rest := rfl

theorem isClosed_parenthesized {inner : Text} (closed : isClosed rule inner) :
    isClosed rule ('(' :: inner ++ [')']) := by
  rw [isClosed_iff, List.cons_append, scan_open, scan_append, scan_of_isClosed 1 closed]
  rfl

/-! ## The parenthesis that the last character closes -/

/-- A parenthesis in front of the text is open behind every beginning of it, and one more closing
parenthesis at its end closes the first one. -/
def ClosesAtEnd (rule : EscapeRule) (inner : Text) : Prop :=
  (∀ start, start <+: inner →
      ∃ mode depth, scan rule .outside 1 start = some (mode, depth + 1)) ∧
    scan rule .outside 1 (inner ++ [')']) = some (.outside, 0)

/-- A text whose every beginning leaves the outermost parenthesis open is scanned the same way
without that parenthesis. -/
theorem scan_without_outermost {mode : Mode} {depth : Nat} {text : Text}
    (staysOpen : ∀ start, start <+: text →
      ∃ next left, scan rule mode (depth + 1) start = some (next, left + 1)) :
    ∃ next left, scan rule mode (depth + 1) text = some (next, left + 1) ∧
      scan rule mode depth text = some (next, left) := by
  induction text generalizing mode depth with
  | nil => exact ⟨mode, depth, rfl, rfl⟩
  | cons character rest ih =>
      obtain ⟨_, deeper, first⟩ := staysOpen [character] ⟨rest, rfl⟩
      rw [scan_cons] at first
      obtain ⟨_, counted, ended⟩ := Option.bind_eq_some_iff.mp first
      cases ended
      have later : ∀ start, start <+: rest → ∃ next left,
          scan rule (mode.step rule character) (deeper + 1) start = some (next, left + 1) := by
        intro start before
        have whole := staysOpen (character :: start) ((List.prefix_cons_inj character).mpr before)
        rwa [scan_cons, counted] at whole
      obtain ⟨next, left, outer, inner⟩ := ih later
      refine ⟨next, left, ?_, ?_⟩
      · rw [scan_cons, counted]
        exact outer
      · rw [scan_cons, depthAfter_pred counted]
        exact inner

/-- A closing parenthesis ends a scan outside of quotes only if it is read outside of quotes. -/
theorem mode_of_scan_close {mode : Mode} {depth left : Nat}
    (scanned : scan rule mode depth [')'] = some (.outside, left)) :
    mode = .outside ∧ depth = left + 1 := by
  rw [scan_cons] at scanned
  obtain ⟨deeper, counted, ended⟩ := Option.bind_eq_some_iff.mp scanned
  cases mode with
  | outside =>
      cases ended
      cases depth with
      | zero => cases counted
      | succ less =>
          cases counted
          exact ⟨rfl, rfl⟩
  | quoted mark =>
      cases mark <;> simp [Mode.step, QuoteMark.character, Text.tick] at ended
  | escaped mark => simp [Mode.step] at ended

/-- A parenthesis in front of a text is first closed by the one behind it exactly when the text is
closed. -/
theorem closesAtEnd_iff {inner : Text} : ClosesAtEnd rule inner ↔ isClosed rule inner := by
  constructor
  · rintro ⟨staysOpen, ended⟩
    obtain ⟨next, left, outer, scanned⟩ := scan_without_outermost staysOpen
    rw [scan_append, outer, Option.bind_some] at ended
    obtain ⟨rfl, depth⟩ := mode_of_scan_close ended
    obtain rfl : left = 0 := Nat.succ.inj depth
    exact isClosed_iff.mpr scanned
  · intro closed
    refine ⟨?_, ?_⟩
    · rintro start ⟨rest, rfl⟩
      have scanned := isClosed_iff.mp closed
      rw [scan_append] at scanned
      obtain ⟨⟨mode, depth⟩, first, _⟩ := Option.bind_eq_some_iff.mp scanned
      exact ⟨mode, depth, scan_add 1 first⟩
    · rw [scan_append, scan_of_isClosed 1 closed]
      rfl

end Lexical

end SqlComposer
