import SqlComposer.Proofs.Outcome
import SqlComposer.Proofs.Value.Pieces

/-!
# Rendering related values

Two values are twins when they differ at most in their texts, which are related
in turn (`Value.Twin`).  Values are rendered alike by every congruence that takes
related texts to related SQL: twins have related SQL, or both have none, with
errors of one kind (`Value.sql_matched`).

What a congruence makes of a text depends on the form that fits it.  A quoted
path is related to itself (`IsCongruence.quotedPath`), and any two texts that are
escaped are related (`IsCongruence.escapedText`).
-/

namespace SqlComposer

set_option autoImplicit false

open Lexical (IsCongruence isPlain)

/-! ## Twins -/

namespace Value

/-- The texts in a value, at any depth of calls. -/
def texts : Value → List Text
  | .text content => [content]
  | .call _ argument => texts argument
  | _ => []

/-- A value that is neither a text nor a call. -/
def isAtom : Value → Bool
  | .text _ | .call .. => false
  | _ => true

/-- Values that are the same except for their texts, which are related. -/
inductive Twin (twin : Text → Text → Prop) : Value → Value → Prop
  | text {first second : Text} (together : twin first second) :
      Twin twin (.text first) (.text second)
  | call (function : Text) {first second : Value} (arguments : Twin twin first second) :
      Twin twin (.call function first) (.call function second)
  | atom {value : Value} (isAtom : value.isAtom) : Twin twin value value

/-- A value is its own twin when its texts are related to themselves. -/
theorem Twin.self {twin : Text → Text → Prop} {value : Value}
    (each : ∀ text ∈ value.texts, twin text text) : Twin twin value value := by
  induction value with
  | text content => exact .text (each content List.mem_cons_self)
  | call function argument ih => exact .call function (ih each)
  | _ => exact .atom rfl

/-- Values are their own twins when their texts are related to themselves. -/
theorem Twin.selfList {twin : Text → Text → Prop} {values : List Value}
    (each : ∀ text ∈ values.flatMap texts, twin text text) :
    List.Forall₂ (Twin twin) values values :=
  List.forall₂_same.mpr fun value member =>
    Twin.self (List.forall_mem_flatMap.mp each value member)

end Value

/-! ## Texts as values -/

/-- What stands between grave accents is read when it is not empty and holds none. -/
theorem Value.reads_tickedPattern_iff {text : Text} {groups : List Text} :
    tickedPattern.Reads text groups ↔
      groups = [] ∧ ∃ name, name ≠ [] ∧ Text.tick ∉ name ∧ text = Text.ticked name := by
  have inName : ∀ {first : Char} {rest : Text}, Text.tick ∉ first :: rest ↔
      (first != Text.tick) = true ∧ ∀ character ∈ rest, (character != Text.tick) = true := by
    intro first rest
    have parts : (∀ character ∈ first :: rest, (character != Text.tick) = true) ↔ _ :=
      List.forall_mem_cons
    rw [← parts]
    constructor
    · exact fun noTick _ member => bne_iff_ne.mpr fun same => noTick (same ▸ member)
    · exact fun each member => bne_iff_ne.mp (each _ member) rfl
  simp only [tickedPattern, Regex.reads_seq_iff, Regex.reads_one_iff,
    Regex.reads_headedRun_iff, beq_iff_eq]
  constructor
  · rintro ⟨_, _, _, _, rfl, rfl, ⟨rfl, _, rfl, rfl⟩, _, _, _, _, rfl, rfl,
      ⟨rfl, first, rest, rfl, accepted⟩, rfl, _, rfl, rfl⟩
    exact ⟨rfl, first :: rest, List.cons_ne_nil _ _, inName.mpr accepted, rfl⟩
  · rintro ⟨rfl, name, nonempty, noTick, rfl⟩
    obtain ⟨first, rest, rfl⟩ := List.exists_cons_of_ne_nil nonempty
    exact ⟨[Text.tick], first :: rest ++ [Text.tick], [], [], rfl, rfl, ⟨rfl, _, rfl, rfl⟩,
      first :: rest, [Text.tick], [], [], rfl, rfl, ⟨rfl, first, rest, rfl, inName.mp noTick⟩,
      rfl, _, rfl, rfl⟩

theorem Value.isQuotedPath_succ {more : Nat} {path : Text} :
    isQuotedPath (more + 1) path ↔ ∃ groups, (pathPattern more).Reads path groups :=
  Regex.accepts_iff

/-- Behind a quoted name a path ends, or goes on with a point and a path. -/
theorem Value.reads_pathRest_iff {more : Nat} {rest : Text} :
    (∃ groups, Regex.Reads (.upTo more (.seq (.one (· == '.')) tickedPattern)) rest groups) ↔
      rest = [] ∨ ∃ next, rest = '.' :: next ∧ isQuotedPath more next := by
  cases more with
  | zero => simp [Regex.reads_upTo_zero_iff, isQuotedPath]
  | succ more =>
      simp only [isQuotedPath_succ, pathPattern, Regex.reads_upTo_succ_iff,
        Regex.reads_seq_iff, Regex.reads_one_iff, beq_iff_eq]
      constructor
      · rintro ⟨_, ⟨rfl, _⟩ | ⟨_, back, _, late, rfl, rfl,
          ⟨_, front, _, early, rfl, rfl, ⟨rfl, _, rfl, rfl⟩, reads⟩, follows⟩⟩
        · exact .inl rfl
        · exact .inr ⟨front ++ back, rfl, _, front, back, early, late, rfl, rfl, reads, follows⟩
      · rintro (rfl | ⟨_, rfl, _, front, back, early, late, rfl, rfl, reads, follows⟩)
        · exact ⟨[], .inl ⟨rfl, rfl⟩⟩
        · exact ⟨_, .inr ⟨'.' :: front, back, early, late, rfl, rfl,
            ⟨['.'], front, [], early, rfl, rfl, ⟨rfl, _, rfl, rfl⟩, reads⟩, follows⟩⟩

/-- A path of quoted segments is a name between grave accents, alone or in front of a point and
another such path. -/
theorem Value.isQuotedPath_succ_iff {more : Nat} {path : Text} :
    isQuotedPath (more + 1) path ↔
      ∃ name, name ≠ [] ∧ Text.tick ∉ name ∧
        (path = Text.ticked name ∨
          ∃ next, path = Text.ticked name ++ '.' :: next ∧ isQuotedPath more next) := by
  rw [isQuotedPath_succ, pathPattern]
  simp only [Regex.reads_seq_iff, reads_tickedPattern_iff]
  constructor
  · rintro ⟨_, _, rest, _, late, rfl, rfl, ⟨rfl, name, nonempty, noTick, rfl⟩, follows⟩
    refine ⟨name, nonempty, noTick, ?_⟩
    rcases reads_pathRest_iff.mp ⟨late, follows⟩ with rfl | ⟨next, rfl, isPath⟩
    · exact .inl (List.append_nil _)
    · exact .inr ⟨next, rfl, isPath⟩
  · rintro ⟨name, nonempty, noTick, rfl | ⟨next, rfl, isPath⟩⟩
    · obtain ⟨late, follows⟩ := reads_pathRest_iff.mpr (.inl rfl)
      exact ⟨_, _, [], [], late, (List.append_nil _).symm, rfl,
        ⟨rfl, name, nonempty, noTick, rfl⟩, follows⟩
    · obtain ⟨late, follows⟩ := reads_pathRest_iff.mpr (.inr ⟨next, rfl, isPath⟩)
      exact ⟨_, _, _, [], late, rfl, rfl, ⟨rfl, name, nonempty, noTick, rfl⟩, follows⟩

namespace Lexical.IsCongruence

variable {related : Text → Text → Prop} (congruence : IsCongruence related)
include congruence

/-- A path of quoted segments is related to itself. -/
theorem quotedPath {more : Nat} {path : Text} (quoted : Value.isQuotedPath more path) :
    related path path := by
  induction more generalizing path with
  | zero => simp [Value.isQuotedPath] at quoted
  | succ more ih =>
      obtain ⟨name, _, noTick, rfl | ⟨next, rfl, follows⟩⟩ := Value.isQuotedPath_succ_iff.mp quoted
      · exact congruence.name noTick
      · have point : related ['.'] ['.'] := congruence.plain rfl
        exact congruence.append (congruence.name noTick) (congruence.append point (ih follows))

/-- Escaped texts are related, whatever they say. -/
theorem escapedText (first second : Text) :
    related (Literal.literal first) (Literal.literal second) :=
  congruence.literal (staysIn_escapedWith _ first) (staysIn_escapedWith _ second)

/-- A text that is no call is written as a quoted path or as a literal. -/
theorem textSql_of_noCall {functions : FunctionSet} {text : Text}
    (noCall : functions.call? text = none) :
    related (Value.textSql functions text) (Value.textSql functions text) := by
  rw [Value.textSql, noCall]
  dsimp only
  split_ifs with quoted
  · exact congruence.quotedPath quoted
  · exact congruence.escapedText text text

end Lexical.IsCongruence

/-! ## Values -/

section Values

variable {related : Text → Text → Prop} (congruence : IsCongruence related)
  {twin : Text → Text → Prop} {functions : FunctionSet}
  (plainNames : ∀ name ∈ functions.names, Text.isPlainWord name)
  (onText : ∀ first second, twin first second →
    related (Value.textSql functions first) (Value.textSql functions second))
include congruence

/-- The SQL of a value that is neither a text nor a call is related to itself. -/
theorem Value.sql_atom {value : Value} (isAtom : value.isAtom) {written : Text}
    (ok : value.sql functions = .ok written) : related written written := by
  cases value with
  | text text => cases isAtom
  | call function argument => cases isAtom
  | float number => exact congruence.plain (isPlain_of_isNumeral (Double.sql_isNumeral ok))
  | null =>
      cases ok
      exact congruence.plain rfl
  | bool value =>
      cases ok
      cases value <;> exact congruence.plain rfl
  | int value =>
      cases ok
      exact congruence.plain (isPlain_of_isNumeral (Number.signedDigits_isNumeral _))
  | uint value =>
      cases ok
      exact congruence.plain (isPlain_of_isNumeral (Number.digits_isNumeral _))
  | dateTime value =>
      cases ok
      exact congruence.literal (staysIn_dateTime value) (staysIn_dateTime value)

include plainNames onText

/-- Twins have related SQL, or none for the same kind of reason. -/
theorem Value.sql_matched {first second : Value} (twins : Value.Twin twin first second) :
    Matched related (first.sql functions) (second.sql functions) := by
  induction twins with
  | text together => exact .ok (onText _ _ together)
  | call function _ ih =>
      simp only [Value.sql]
      by_cases allowed : functions.allows function
      · rw [if_pos allowed, if_pos allowed]
        have name := congruence.plain
          (isPlain_of_isPlainWord (FunctionSet.isPlainWord_of_allows plainNames allowed))
        exact ih.bind fun inner inner' together => .ok (congruence.call name together)
      · rw [if_neg allowed, if_neg allowed]
        exact .error rfl
  | atom isAtom => exact Matched.self fun _ ok => Value.sql_atom congruence isAtom ok

/-- Lists of twins have related SQL. -/
theorem Value.listSql_matched {firsts seconds : List Value}
    (twins : List.Forall₂ (Value.Twin twin) firsts seconds) :
    Matched related (Value.listSql functions firsts) (Value.listSql functions seconds) := by
  have pieces := Matched.mapM twins fun _ _ _ pair =>
    Value.sql_matched congruence plainNames onText pair
  exact pieces.bind fun _ _ together => .ok (congruence.joined _ rfl together)

omit onText

/-- The SQL of a value is related to itself when none of its texts is a call. -/
theorem Value.sql_related {value : Value}
    (noCalls : ∀ text ∈ value.texts, functions.call? text = none) {written : Text}
    (ok : value.sql functions = .ok written) : related written written := by
  have onText : ∀ first second : Text, first = second ∧ functions.call? first = none →
      related (textSql functions first) (textSql functions second) := by
    rintro text _ ⟨rfl, noCall⟩
    exact congruence.textSql_of_noCall noCall
  have matched := sql_matched congruence plainNames onText
    (Twin.self fun text member => ⟨rfl, noCalls text member⟩)
  rw [ok] at matched
  exact matched.related_of_ok

end Values

end SqlComposer
