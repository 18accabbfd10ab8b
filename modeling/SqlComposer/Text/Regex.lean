import SqlComposer.Text.Basic

/-!
# Regular expressions

Whether a text is a call, and whether it is a path of quoted names, is asked with a
pattern that has to read the whole text.  A pattern is made of classes of characters, runs
of a class, sequences, repetitions up to a number of times, and groups, whose texts are
kept.

A pattern may read the start of a text in several ways.  `Regex.readings` lists them in
the order in which they are preferred: a run and a repetition go on for as long as they can,
and stop earlier only when nothing else is left.  `Regex.groups?` takes the first reading
that leaves nothing over.

What a pattern reads at all is told without an order by `Regex.Reads`, and the readings
are just that (`mem_readings_iff`).  So the order makes no difference where a text is read
with one list of groups only (`groups?_eq_some`).
-/

namespace SqlComposer

set_option autoImplicit false

inductive Regex
  | one (accepts : Char → Bool)
  | many (accepts : Char → Bool)
  | seq (first second : Regex)
  | upTo (most : Nat) (inner : Regex)
  | group (inner : Regex)

namespace Regex

/-! ## Readings -/

/-- What a pattern takes from the start of a text, the texts of its groups in order, and the rest
of the text. -/
structure Reading where
  taken : Text
  groups : List Text
  rest : Text

/-- The readings of a step behind a reading, joined with it. -/
def Reading.followedBy (first : Reading) (step : Text → List Reading) : List Reading :=
  (step first.rest).map fun second =>
    ⟨first.taken ++ second.taken, first.groups ++ second.groups, second.rest⟩

/-- The runs of a class at the start of a text, the longest one first. -/
def runs (accepts : Char → Bool) : Text → List Reading
  | [] => [⟨[], [], []⟩]
  | character :: rest =>
      (if accepts character then
        (runs accepts rest).map fun run => ⟨character :: run.taken, run.groups, run.rest⟩
      else []) ++ [⟨[], [], character :: rest⟩]

/-- The repetitions of a step up to a number of times; to go on is preferred to stopping.  A turn
that takes nothing counts like any other: what is repeated here always takes something. -/
def repeated (step : Text → List Reading) : Nat → Text → List Reading
  | 0, text => [⟨[], [], text⟩]
  | most + 1, text =>
      (step text).flatMap (·.followedBy (repeated step most)) ++ [⟨[], [], text⟩]

/-- The ways in which a pattern reads the start of a text, in the order of preference. -/
def readings : Regex → Text → List Reading
  | .one _, [] => []
  | .one accepts, character :: rest =>
      if accepts character then [⟨[character], [], rest⟩] else []
  | .many accepts, text => runs accepts text
  | .seq first second, text => (readings first text).flatMap (·.followedBy (readings second))
  | .upTo most inner, text => repeated (readings inner) most text
  | .group inner, text =>
      (readings inner text).map fun reading =>
        ⟨reading.taken, reading.taken :: reading.groups, reading.rest⟩

/-- The texts of the groups when a pattern reads a whole text. -/
def groups? (pattern : Regex) (text : Text) : Option (List Text) :=
  ((pattern.readings text).find? (·.rest.isEmpty)).map Reading.groups

def accepts (pattern : Regex) (text : Text) : Bool :=
  (pattern.groups? text).isSome

/-- A character of one class and then a run of another; of the same one, a class once or more. -/
def headedRun (head more : Char → Bool) : Regex :=
  .seq (.one head) (.many more)

/-! ## What is read -/

/-- A pattern reads a text, with texts for its groups. -/
inductive Reads : Regex → Text → List Text → Prop
  | one {accepts : Char → Bool} {character : Char} (accepted : accepts character) :
      Reads (.one accepts) [character] []
  | many {accepts : Char → Bool} {text : Text} (accepted : ∀ character ∈ text, accepts character) :
      Reads (.many accepts) text []
  | seq {first second : Regex} {text more : Text} {groups others : List Text}
      (reads : Reads first text groups) (follows : Reads second more others) :
      Reads (.seq first second) (text ++ more) (groups ++ others)
  | stop (most : Nat) (inner : Regex) : Reads (.upTo most inner) [] []
  | again {most : Nat} {inner : Regex} {text more : Text} {groups others : List Text}
      (reads : Reads inner text groups) (follows : Reads (.upTo most inner) more others) :
      Reads (.upTo (most + 1) inner) (text ++ more) (groups ++ others)
  | group {inner : Regex} {text : Text} {groups : List Text} (reads : Reads inner text groups) :
      Reads (.group inner) text (text :: groups)

section Cases

variable {accepts : Char → Bool} {first second inner : Regex} {most : Nat} {text : Text}
  {groups : List Text}

theorem reads_one_iff :
    Reads (.one accepts) text groups ↔
      groups = [] ∧ ∃ character, text = [character] ∧ accepts character := by
  constructor
  · rintro ⟨⟩
    exact ⟨rfl, _, rfl, ‹_›⟩
  · rintro ⟨rfl, character, rfl, accepted⟩
    exact .one accepted

theorem reads_many_iff :
    Reads (.many accepts) text groups ↔
      groups = [] ∧ ∀ character ∈ text, accepts character := by
  constructor
  · rintro ⟨⟩
    exact ⟨rfl, ‹_›⟩
  · rintro ⟨rfl, accepted⟩
    exact .many accepted

theorem reads_seq_iff :
    Reads (.seq first second) text groups ↔
      ∃ front back early late, text = front ++ back ∧ groups = early ++ late ∧
        Reads first front early ∧ Reads second back late := by
  constructor
  · rintro ⟨⟩
    exact ⟨_, _, _, _, rfl, rfl, ‹_›, ‹_›⟩
  · rintro ⟨front, back, early, late, rfl, rfl, reads, follows⟩
    exact .seq reads follows

theorem reads_upTo_zero_iff : Reads (.upTo 0 inner) text groups ↔ text = [] ∧ groups = [] := by
  constructor
  · rintro ⟨⟩
    exact ⟨rfl, rfl⟩
  · rintro ⟨rfl, rfl⟩
    exact .stop 0 inner

/-- To repeat a pattern once more at most is to stop, or to read it and then repeat it. -/
theorem reads_upTo_succ_iff :
    Reads (.upTo (most + 1) inner) text groups ↔
      (text = [] ∧ groups = []) ∨ Reads (.seq inner (.upTo most inner)) text groups := by
  constructor
  · rintro (_ | _)
    · exact .inl ⟨rfl, rfl⟩
    · exact .inr (.seq ‹_› ‹_›)
  · rintro (⟨rfl, rfl⟩ | reads)
    · exact .stop _ inner
    · cases reads with
      | seq reads follows => exact .again reads follows

theorem reads_group_iff :
    Reads (.group inner) text groups ↔ ∃ others, groups = text :: others ∧
      Reads inner text others := by
  constructor
  · rintro ⟨⟩
    exact ⟨_, rfl, ‹_›⟩
  · rintro ⟨others, rfl, reads⟩
    exact .group reads

end Cases

/-! ## Readings are what is read -/

/-- To stop is to take nothing. -/
theorem mem_stop_iff {text : Text} {reading : Reading} :
    reading ∈ [(⟨[], [], text⟩ : Reading)] ↔
      text = reading.taken ++ reading.rest ∧ reading.taken = [] ∧ reading.groups = [] := by
  obtain ⟨taken, groups, rest⟩ := reading
  rw [List.mem_singleton, Reading.mk.injEq]
  constructor
  · rintro ⟨rfl, rfl, rfl⟩
    exact ⟨rfl, rfl, rfl⟩
  · rintro ⟨rfl, rfl, rfl⟩
    exact ⟨rfl, rfl, rfl⟩

theorem mem_runs_iff (accepts : Char → Bool) (text : Text) (reading : Reading) :
    reading ∈ runs accepts text ↔
      text = reading.taken ++ reading.rest ∧
        Reads (.many accepts) reading.taken reading.groups := by
  rw [reads_many_iff]
  have vacuous : ∀ taken : Text, taken = [] → ∀ character ∈ taken, accepts character := by
    rintro _ rfl _ member
    cases member
  induction text generalizing reading with
  | nil =>
      rw [runs, mem_stop_iff]
      constructor
      · rintro ⟨whole, nothing, noGroups⟩
        exact ⟨whole, noGroups, vacuous _ nothing⟩
      · rintro ⟨whole, noGroups, _⟩
        exact ⟨whole, (List.append_eq_nil_iff.mp whole.symm).1, noGroups⟩
  | cons character others ih =>
      rw [runs, List.mem_append, mem_stop_iff]
      constructor
      · rintro (longer | ⟨whole, nothing, noGroups⟩)
        · split at longer
          · rename_i accepted
            obtain ⟨run, found, rfl⟩ := List.mem_map.mp longer
            obtain ⟨rfl, noGroups, inRun⟩ := (ih run).mp found
            exact ⟨rfl, noGroups, List.forall_mem_cons.mpr ⟨accepted, inRun⟩⟩
          · cases longer
        · exact ⟨whole, noGroups, vacuous _ nothing⟩
      · obtain ⟨taken, groups, rest⟩ := reading
        rintro ⟨whole, rfl, accepted⟩
        cases taken with
        | nil => exact .inr ⟨whole, rfl, rfl⟩
        | cons first more =>
            obtain ⟨rfl, rfl⟩ := List.cons.inj whole
            obtain ⟨isAccepted, inRun⟩ := List.forall_mem_cons.mp accepted
            have found := (ih ⟨more, [], rest⟩).mpr ⟨rfl, rfl, inRun⟩
            rw [if_pos isAccepted]
            exact .inl (List.mem_map.mpr ⟨_, found, rfl⟩)

/-- The readings of two steps in a row are what two patterns in a row read, when the readings of
each step are what its pattern reads. -/
theorem mem_flatMap_followedBy_iff {first second : Regex} {step next : Text → List Reading}
    (ofFirst : ∀ text reading, reading ∈ step text ↔
      text = reading.taken ++ reading.rest ∧ first.Reads reading.taken reading.groups)
    (ofSecond : ∀ text reading, reading ∈ next text ↔
      text = reading.taken ++ reading.rest ∧ second.Reads reading.taken reading.groups)
    (text : Text) (reading : Reading) :
    reading ∈ (step text).flatMap (·.followedBy next) ↔
      text = reading.taken ++ reading.rest ∧
        Reads (.seq first second) reading.taken reading.groups := by
  simp only [List.mem_flatMap, Reading.followedBy, List.mem_map, ofFirst, ofSecond, reads_seq_iff]
  constructor
  · rintro ⟨one, ⟨rfl, reads⟩, two, ⟨whole, follows⟩, rfl⟩
    rw [whole, ← List.append_assoc]
    exact ⟨rfl, _, _, _, _, rfl, rfl, reads, follows⟩
  · obtain ⟨taken, groups, rest⟩ := reading
    rintro ⟨rfl, front, back, early, late, rfl, rfl, reads, follows⟩
    exact ⟨⟨front, early, back ++ rest⟩, ⟨List.append_assoc .., reads⟩, ⟨back, late, rest⟩,
      ⟨rfl, follows⟩, rfl⟩

theorem mem_repeated_iff {inner : Regex} {step : Text → List Reading}
    (ofInner : ∀ text reading, reading ∈ step text ↔
      text = reading.taken ++ reading.rest ∧ inner.Reads reading.taken reading.groups)
    (most : Nat) (text : Text) (reading : Reading) :
    reading ∈ repeated step most text ↔
      text = reading.taken ++ reading.rest ∧
        Reads (.upTo most inner) reading.taken reading.groups := by
  induction most generalizing text reading with
  | zero => rw [repeated, mem_stop_iff, reads_upTo_zero_iff]
  | succ most ih =>
      rw [repeated, List.mem_append, mem_stop_iff, mem_flatMap_followedBy_iff ofInner ih,
        reads_upTo_succ_iff, ← and_or_left, or_comm]

/-- The readings of a pattern are what it reads, with what is left of the text. -/
theorem mem_readings_iff (pattern : Regex) (text : Text) (reading : Reading) :
    reading ∈ pattern.readings text ↔
      text = reading.taken ++ reading.rest ∧ pattern.Reads reading.taken reading.groups := by
  induction pattern generalizing text reading with
  | one accepts =>
      rw [reads_one_iff]
      cases text with
      | nil =>
          refine iff_of_false List.not_mem_nil ?_
          rintro ⟨whole, _, character, taken, _⟩
          rw [taken] at whole
          cases whole
      | cons character others =>
          obtain ⟨taken, groups, rest⟩ := reading
          rw [readings]
          split
          · rename_i accepted
            rw [List.mem_singleton, Reading.mk.injEq]
            constructor
            · rintro ⟨rfl, rfl, rfl⟩
              exact ⟨rfl, rfl, character, rfl, accepted⟩
            · rintro ⟨whole, rfl, other, rfl, _⟩
              obtain ⟨rfl, rfl⟩ := List.cons.inj whole
              exact ⟨rfl, rfl, rfl⟩
          · rename_i refused
            refine iff_of_false List.not_mem_nil ?_
            rintro ⟨whole, _, other, rfl, accepted⟩
            obtain ⟨rfl, _⟩ := List.cons.inj whole
            exact refused accepted
  | many accepts => exact mem_runs_iff accepts text reading
  | seq first second ofFirst ofSecond =>
      exact mem_flatMap_followedBy_iff ofFirst ofSecond text reading
  | upTo most inner ofInner => exact mem_repeated_iff ofInner most text reading
  | group inner ofInner =>
      obtain ⟨taken, groups, rest⟩ := reading
      simp only [readings, List.mem_map, ofInner, reads_group_iff, Reading.mk.injEq]
      constructor
      · rintro ⟨one, ⟨rfl, reads⟩, rfl, rfl, rfl⟩
        exact ⟨rfl, _, rfl, reads⟩
      · rintro ⟨rfl, others, rfl, reads⟩
        exact ⟨⟨taken, others, rest⟩, ⟨rfl, reads⟩, rfl, rfl, rfl⟩

/-! ## Whole texts -/

theorem reads_of_groups? {pattern : Regex} {text : Text} {groups : List Text}
    (ok : pattern.groups? text = some groups) : pattern.Reads text groups := by
  obtain ⟨reading, found, rfl⟩ := Option.map_eq_some_iff.mp ok
  obtain ⟨whole, reads⟩ := (mem_readings_iff _ _ _).mp (List.mem_of_find?_eq_some found)
  have ended := List.find?_some found
  rw [List.isEmpty_iff.mp ended, List.append_nil] at whole
  rwa [whole]

/-- A pattern accepts the texts that it reads. -/
theorem accepts_iff {pattern : Regex} {text : Text} :
    pattern.accepts text ↔ ∃ groups, pattern.Reads text groups := by
  rw [accepts, Option.isSome_iff_exists]
  constructor
  · rintro ⟨groups, ok⟩
    exact ⟨groups, reads_of_groups? ok⟩
  · rintro ⟨groups, reads⟩
    have member : (⟨text, groups, []⟩ : Reading) ∈ pattern.readings text :=
      (mem_readings_iff _ _ _).mpr ⟨(List.append_nil text).symm, reads⟩
    have isFound : ((pattern.readings text).find? (·.rest.isEmpty)).isSome :=
      List.find?_isSome.mpr ⟨_, member, rfl⟩
    obtain ⟨first, found⟩ := Option.isSome_iff_exists.mp isFound
    exact ⟨first.groups, congrArg _ found⟩

/-- What a pattern reads in one way only is found so, whatever is preferred. -/
theorem groups?_eq_some {pattern : Regex} {text : Text} {groups : List Text}
    (reads : pattern.Reads text groups)
    (unique : ∀ others, pattern.Reads text others → others = groups) :
    pattern.groups? text = some groups := by
  obtain ⟨others, ok⟩ := Option.isSome_iff_exists.mp (accepts_iff.mpr ⟨groups, reads⟩)
  rw [ok, unique others (reads_of_groups? ok)]

theorem reads_headedRun_iff {head more : Char → Bool} {text : Text} {groups : List Text} :
    Reads (headedRun head more) text groups ↔
      groups = [] ∧ ∃ first rest, text = first :: rest ∧ head first ∧
        ∀ character ∈ rest, more character := by
  simp only [headedRun, reads_seq_iff, reads_one_iff, reads_many_iff]
  constructor
  · rintro ⟨_, rest, _, _, rfl, rfl, ⟨rfl, first, rfl, accepted⟩, rfl, inRun⟩
    exact ⟨rfl, first, rest, rfl, accepted, inRun⟩
  · rintro ⟨rfl, first, rest, rfl, accepted, inRun⟩
    exact ⟨[first], rest, [], [], rfl, rfl, ⟨rfl, first, rfl, accepted⟩, rfl, inRun⟩

end Regex

end SqlComposer
