import SqlComposer.Proofs.Template.Filling
import SqlComposer.Proofs.Value.Rendering

/-!
# Values are inert in templates

The SQL of a value closes its quotes and shows neither a question mark nor a colon
outside of them, unless a text in it is let through as a call.  So a reader of the output
is in the same mode as a reader of the template, wherever both read the same character
(`Follows`), and the output of a template has no more markers of the sort
(`markersFrom_filled_eq_nil`).

For named markers the character in front of a value counts as well, since a colon behind
another colon starts no marker.  A marker never stands behind a colon, no value ends
in one, and what follows a kept colon starts as it did in the template.  This is carried
along the template as an invariant (`Aligned`).
-/

namespace SqlComposer

set_option autoImplicit false

open Lexical

namespace Template

/-! ## What values show -/

/-- A character with which no marker starts. -/
def NoSign (character : Char) : Prop :=
  ∀ sort : MarkerSort, character ≠ sort.sign

theorem noSign_of_isShown {character : Char} (shown : isShown character) : NoSign character := by
  rintro sort rfl
  revert shown
  cases sort <;> decide

/-- The SQL of a value closes and shows no sign of a marker when none of its texts is a call. -/
theorem sql_isSealed {functions : FunctionSet}
    (plainNames : ∀ name ∈ functions.names, Text.isPlainWord name) {value : Value}
    (noCalls : ∀ text ∈ value.texts, functions.call? text = none) {written : Text}
    (ok : value.sql functions = .ok written) : Sealed NoSign written :=
  (Value.sql_related (sealed_isCongruence fun _ => noSign_of_isShown) plainNames noCalls ok).1

/-- A sealed text does not end in a colon. -/
theorem getLast?_ne_of_sealed {text : Text} (isSealed : Sealed NoSign text) :
    text.getLast? ≠ some ':' := by
  intro last
  obtain ⟨start, rfl⟩ := List.getLast?_eq_some_iff.mp last
  have closed := run_of_isClosed isSealed.closed
  rw [run_append, run_cons, run_nil] at closed
  by_cases outside : run .inStrings .outside start = .outside
  · have shown : ':' ∈ unquoted .inStrings .outside (start ++ [':']) := by
      rw [unquoted_append, outside]
      exact List.mem_append_right _ List.mem_cons_self
    exact isSealed.onlyAllowed ':' shown .named rfl
  · exact ne_colon_of_step outside closed rfl

/-! ## Modes in the output -/

/-- Markers stand outside of quotes and leave a reader there. -/
theorem run_of_at? {sort : MarkerSort} {before written rest : Text}
    (here : sort.at? before (written ++ rest) = some written) :
    run .inStrings .outside before = .outside ∧ run .inStrings .outside written = .outside := by
  cases sort with
  | positional =>
      obtain ⟨outside, _, rfl⟩ := MarkerSort.positional_at?_eq_some.mp here
      exact ⟨outside, rfl⟩
  | named =>
      obtain ⟨outside, _, _, _, _, same⟩ := MarkerSort.named_at?_eq_some.mp here
      refine ⟨outside, ?_⟩
      rw [same, run_cons]
      exact run_word List.all_takeWhile

/-- Behind a template and behind its output a reader is in the same mode. -/
theorem Cut.run_filled {before rest : Text} {pieces : List Piece} (cut : Cut before rest pieces)
    (sort : MarkerSort) {encodings : List Text}
    (sealings : ∀ encoding ∈ encodings, Sealed NoSign encoding) :
    run .inStrings (run .inStrings .outside before) (filled sort pieces encodings) =
      run .inStrings (run .inStrings .outside before) rest := by
  induction cut generalizing encodings with
  | nil before => rfl
  | @cons before rest piece pieces here _ ih =>
      rw [run_append] at ih
      have start : sort.at? before (piece.written ++ rest) = _ := here sort
      rw [filled, run_append]
      split_ifs at start ⊢
      · obtain ⟨outside, keeps⟩ := run_of_at? start
        rw [outside, keeps] at ih ⊢
        cases encodings with
        | nil => rw [List.headD_nil, run_append, keeps, List.tail_nil, ih sealings]
        | cons encoding more =>
            obtain ⟨first, others⟩ := List.forall_mem_cons.mp sealings
            rw [List.headD_cons, run_append, run_of_isClosed first.closed, List.tail_cons,
              ih others]
      · rw [run_append, ih sealings]

/-! ## Markers in the output -/

/-- A reader of the output stands as a reader of the template stands.  For named markers this takes
that both or neither of them stand behind a colon, outside of quotes. -/
structure Aligned (sort : MarkerSort) (before output : Text) : Prop where
  sameMode : run .inStrings .outside output = run .inStrings .outside before
  sameColon : sort = .named → run .inStrings .outside before = .outside →
    (output.getLast? = some ':' ↔ before.getLast? = some ':')

namespace Aligned

variable {sort : MarkerSort} {before output : Text}

/-- What is kept leads both readers on in the same way. -/
theorem kept (aligned : Aligned sort before output) (piece : Piece) :
    Aligned sort (before ++ piece.written) (output ++ piece.written) where
  sameMode := by rw [run_append, run_append, aligned.sameMode]
  sameColon _ _ := by
    rw [List.getLast?_append_of_ne_nil _ piece.written_ne_nil,
      List.getLast?_append_of_ne_nil _ piece.written_ne_nil]

/-- A marker leads a reader of the template as far as a value in its place leads a reader of the
output. -/
theorem marker {written rest encoding : Text} (aligned : Aligned sort before output)
    (here : sort.at? before (written ++ rest) = some written)
    (isSealed : Sealed NoSign encoding) :
    Aligned sort (before ++ written) (output ++ encoding) := by
  obtain ⟨outside, keeps⟩ := run_of_at? here
  refine ⟨?_, ?_⟩
  · rw [run_append, run_append, aligned.sameMode, outside, keeps, run_of_isClosed isSealed.closed]
  · rintro rfl _
    obtain ⟨_, _, noColon, isName, _, same⟩ := MarkerSort.named_at?_eq_some.mp here
    have behindName : (before ++ written).getLast? ≠ some ':' := by
      rw [same, List.append_cons]
      exact getLast?_ne_colon isName List.all_takeWhile
    have behindValue : (output ++ encoding).getLast? ≠ some ':' := by
      by_cases blank : encoding = []
      · rw [blank, List.append_nil]
        exact fun colon => noColon ((aligned.sameColon rfl outside).mp colon)
      · rw [List.getLast?_append_of_ne_nil _ blank]
        exact getLast?_ne_of_sealed isSealed
    exact iff_of_false behindValue behindName

end Aligned

/-- Behind a colon, what is written for the pieces starts as the template does. -/
theorem Cut.head?_filled {before rest : Text} {pieces : List Piece} (cut : Cut before rest pieces)
    (colon : before.getLast? = some ':') (encodings : List Text) :
    (filled .named pieces encodings).head? = rest.head? := by
  cases cut with
  | nil => rfl
  | @cons _ rest piece pieces here _ =>
      have kept : piece.isOf .named = false := by
        by_contra isNamed
        have start := here .named
        rw [Bool.not_eq_false] at isNamed
        rw [if_pos isNamed] at start
        obtain ⟨_, _, noColon, _⟩ := MarkerSort.named_at?_eq_some.mp start
        exact noColon colon
      rw [filled, kept, if_neg Bool.false_ne_true,
        List.head?_append_of_ne_nil _ piece.written_ne_nil,
        List.head?_append_of_ne_nil _ piece.written_ne_nil]

/-- Where no marker starts in the template, none starts in the output. -/
theorem at?_filled_eq_none {sort : MarkerSort} {before rest output : Text} {piece : Piece}
    {pieces : List Piece} (aligned : Aligned sort before output) (here : piece.StandsAt before rest)
    (more : Cut (before ++ piece.written) rest pieces) (kept : piece.isOf sort = false)
    (encodings : List Text) :
    sort.at? output (piece.written ++ filled sort pieces encodings) = none := by
  have start : sort.at? before (piece.written ++ rest) = none := by
    rw [here sort, kept, if_neg Bool.false_ne_true]
  refine Option.eq_none_iff_forall_ne_some.mpr fun marker found => ?_
  cases sort with
  | positional =>
      obtain ⟨outside, head, _⟩ := MarkerSort.positional_at?_eq_some.mp found
      rw [aligned.sameMode] at outside
      rw [List.head?_append_of_ne_nil _ piece.written_ne_nil] at head
      have sameHead : (piece.written ++ rest).head? = some '?' := by
        rw [List.head?_append_of_ne_nil _ piece.written_ne_nil, head]
      rw [MarkerSort.positional_at?_eq_some.mpr ⟨outside, sameHead, rfl⟩] at start
      cases start
  | named =>
      obtain ⟨outside, head, noColon, starts⟩ :=
        MarkerSort.named_at?_isSome.mp (Option.isSome_of_eq_some found)
      rw [aligned.sameMode] at outside
      cases piece with
      | named name => cases kept
      | positional => cases head
      | character other =>
          obtain rfl : other = ':' := Option.some.inj head
          have behindColon : (before ++ [':']).getLast? = some ':' := List.getLast?_concat
          have sameHead := more.head?_filled behindColon encodings
          have inTemplate : (MarkerSort.named.at? before (':' :: rest)).isSome :=
            MarkerSort.named_at?_isSome.mpr ⟨outside, rfl,
              fun colon => noColon ((aligned.sameColon rfl outside).mpr colon), sameHead ▸ starts⟩
          rw [Option.isSome_iff_ne_none] at inTemplate
          exact inTemplate start

/-- The output has no markers of the sort that was filled in. -/
theorem Cut.markersFrom_filled_eq_nil {before rest : Text} {pieces : List Piece}
    (cut : Cut before rest pieces) {sort : MarkerSort} {output : Text}
    (aligned : Aligned sort before output) {encodings : List Text}
    (sealings : ∀ encoding ∈ encodings, Sealed NoSign encoding)
    (enough : (pieces.filter (Piece.isOf sort)).length ≤ encodings.length) :
    markersFrom sort output (filled sort pieces encodings) = [] := by
  induction cut generalizing output encodings with
  | nil before => rfl
  | @cons before rest piece pieces here more ih =>
      have start : sort.at? before (piece.written ++ rest) = _ := here sort
      rw [filled]
      rw [List.filter_cons] at enough
      cases isMarker : piece.isOf sort with
      | true =>
          rw [isMarker, if_pos rfl] at start enough
          rw [if_pos rfl]
          cases encodings with
          | nil => cases enough
          | cons encoding others =>
              obtain ⟨first, later⟩ := List.forall_mem_cons.mp sealings
              have noSign : sort.sign ∉
                  unquoted .inStrings (run .inStrings .outside output) encoding := by
                rw [aligned.sameMode, (run_of_at? start).1]
                exact fun member => first.onlyAllowed _ member sort rfl
              rw [List.headD_cons, List.tail_cons, markersFrom_append noSign]
              exact ih (aligned.marker start first) later (Nat.le_of_succ_le_succ enough)
      | false =>
          rw [isMarker, if_neg Bool.false_ne_true] at enough
          rw [if_neg Bool.false_ne_true,
            markersFrom_written piece.written_ne_nil (here.sign_notMem_tail sort),
            at?_filled_eq_none aligned here more isMarker]
          exact ih (aligned.kept piece) sealings enough

/-- A template whose markers are all replaced has none of the sort left. -/
theorem markers_replaced_eq_nil {sort : MarkerSort} {template : Text} {encodings : List Text}
    (sealings : ∀ encoding ∈ encodings, Sealed NoSign encoding)
    (enough : (markers sort template).length ≤ encodings.length) :
    markers sort (replaced template (markers sort template) encodings) = [] := by
  have count := congrArg List.length (written_markers sort template)
  rw [List.length_map, List.length_map] at count
  rw [replaced_markers, ← markersFrom_nil]
  exact (cut_pieces template).markersFrom_filled_eq_nil ⟨rfl, fun _ _ => Iff.rfl⟩ sealings
    (count ▸ enough)

/-! ## Parts of a template -/

/-- The positional markers of a text are those of its parts. -/
theorem markersFrom_positional_append (before first second : Text) :
    markersFrom .positional before (first ++ second) =
      markersFrom .positional before first ++ markersFrom .positional (before ++ first) second := by
  induction first generalizing before with
  | nil =>
      rw [List.nil_append, List.append_nil]
      rfl
  | cons character more ih =>
      have sameStart : MarkerSort.positional.at? before (character :: (more ++ second)) =
          MarkerSort.positional.at? before (character :: more) := rfl
      rw [List.cons_append, markersFrom_cons, markersFrom_cons, ih, sameStart, List.append_assoc,
        List.append_assoc]
      rfl

/-- The parts of a template are filled in one after the other. -/
theorem replacedBehind_positional_append (before first second : Text) (texts : List Text) :
    replacedBehind .positional before (first ++ second) texts =
      replacedBehind .positional before first texts ++
        replacedBehind .positional (before ++ first) second
          (texts.drop (markersFrom .positional before first).length) := by
  induction first generalizing before texts with
  | nil =>
      rw [List.nil_append, List.append_nil]
      rfl
  | cons character more ih =>
      have noSign : MarkerSort.positional.sign ∉ ([character] : Text).tail := List.not_mem_nil
      have isWritten : ([character] : Text) ≠ [] := List.cons_ne_nil _ _
      have regroup : before ++ character :: more = before ++ [character] ++ more :=
        List.append_cons _ _ _
      rw [markersFrom_cons, regroup]
      cases start : MarkerSort.positional.at? before (character :: more) with
      | none =>
          have step : ∀ rest, replacedBehind .positional before (character :: rest) texts =
              character :: replacedBehind .positional (before ++ [character]) rest texts :=
            fun _ => replacedBehind_kept start isWritten noSign texts
          rw [List.cons_append, step, step, ih]
          rfl
      | some written =>
          obtain ⟨_, head, rfl⟩ := MarkerSort.positional_at?_eq_some.mp start
          obtain rfl : character = '?' := Option.some.inj head
          have step : ∀ rest, replacedBehind .positional before ('?' :: rest) texts =
              texts.headD ['?'] ++
                replacedBehind .positional (before ++ ['?']) rest texts.tail :=
            fun _ => replacedBehind_marker start isWritten noSign texts
          rw [List.cons_append, step, step, ih, ← List.append_assoc, List.drop_tail]
          rfl

/-! ## Outputs -/

/-- The output of a template with positional markers follows it: what stands in the output for a
part of the template is what that part is filled in to, it leaves a reader in the same mode, and the
next character is the same unless it is a marker. -/
def Follows (functions : FunctionSet) (values : List Value) (template output : Text) : Prop :=
  ∀ before after, template = before ++ after →
    ∃ front back, output = front ++ back ∧
      interpolate functions before (values.take (markers .positional before).length) =
        .ok (.ofSql front) ∧
      run .inStrings .outside front = run .inStrings .outside before ∧
      (MarkerSort.positional.at? before after = none → back.head? = after.head?)

/-- A text without positional markers is its own output. -/
theorem interpolate_of_noMarkers {functions : FunctionSet} {text : Text}
    (noMarkers : markers .positional text = []) :
    interpolate functions text [] = .ok (.ofSql text) := by
  refine interpolate_eq_ok.mpr ⟨[], .nil, congrArg List.length noMarkers, ?_⟩
  rw [noMarkers]
  rfl

/-- A text without named markers is its own output. -/
theorem interpolateNamed_of_noMarkers {functions : FunctionSet} {text : Text}
    (noMarkers : markers .named text = []) :
    interpolateNamed functions text [] = .ok (.ofSql text) := by
  refine interpolateNamed_eq_ok.mpr ⟨[], ?_, ?_⟩
  · rw [noMarkers]
    exact .nil
  · rw [noMarkers]
    rfl

/-- A template with values in place of its positional markers follows the template. -/
theorem follows_replaced {functions : FunctionSet} {template : Text} {values : List Value}
    {encodings : List Text}
    (each : List.Forall₂ (fun value encoding => value.sql functions = .ok encoding) values
      encodings)
    (sealings : ∀ encoding ∈ encodings, Sealed NoSign encoding)
    (count : (markers .positional template).length = values.length) :
    Follows functions values template
      (replaced template (markers .positional template) encodings) := by
  rintro before after rfl
  have parts := replacedBehind_positional_append [] before after encodings
  rw [replacedBehind_nil, replacedBehind_nil, List.nil_append, markersFrom_nil] at parts
  have fewer : (markers .positional before).length ≤ values.length := by
    rw [← count, ← markersFrom_nil, ← markersFrom_nil, markersFrom_positional_append,
      List.length_append]
    exact Nat.le_add_right _ _
  refine ⟨_, _, parts, ?_, ?_, fun noMarker => ?_⟩
  · have zipped : (markers .positional before).zip encodings =
        (markers .positional before).zip
          (encodings.take (markers .positional before).length) := by
      rw [List.zip_eq_zip_take_min, Nat.min_eq_left (each.length_eq ▸ fewer), List.take_length]
    refine interpolate_eq_ok.mpr
      ⟨_, List.forall₂_take _ each, (List.length_take_of_le fewer).symm, ?_⟩
    rw [replaced, replaced, zipped]
  · rw [replaced_markers]
    exact (cut_pieces before).run_filled .positional sealings
  · cases after with
    | nil => rfl
    | cons character rest =>
        have isWritten : ([character] : Text) ≠ [] := List.cons_ne_nil _ _
        rw [← List.singleton_append, replacedBehind_kept noMarker isWritten List.not_mem_nil]
        rfl

/-- What comes out of a template with positional markers follows it, and comes out of itself. -/
theorem interpolate_inert {functions : FunctionSet}
    (plainNames : ∀ name ∈ functions.names, Text.isPlainWord name) {template : Text}
    {values : List Value} {statement : Statement}
    (noCalls : ∀ text ∈ values.flatMap Value.texts, functions.call? text = none)
    (ok : interpolate functions template values = .ok statement) :
    Follows functions values template statement.sql ∧
      interpolate functions statement.sql [] = .ok statement := by
  obtain ⟨encodings, each, count, rfl⟩ := interpolate_eq_ok.mp ok
  have sealings : ∀ encoding ∈ encodings, Sealed NoSign encoding := by
    intro encoding member
    obtain ⟨value, given, valueOk⟩ := exists_mem_of_forall₂ each member
    exact sql_isSealed plainNames (List.forall_mem_flatMap.mp noCalls value given) valueOk
  have enough := Nat.le_of_eq (count.trans each.length_eq)
  exact ⟨follows_replaced each sealings count,
    interpolate_of_noMarkers (markers_replaced_eq_nil sealings enough)⟩

/-- What comes out of a template with named markers comes out of itself. -/
theorem interpolateNamed_inert {functions : FunctionSet}
    (plainNames : ∀ name ∈ functions.names, Text.isPlainWord name) {template : Text}
    {values : List (Text × Value)} {statement : Statement}
    (noCalls : ∀ text ∈ values.flatMap (fun pair => pair.2.texts), functions.call? text = none)
    (ok : interpolateNamed functions template values = .ok statement) :
    interpolateNamed functions statement.sql [] = .ok statement := by
  obtain ⟨encodings, each, rfl⟩ := interpolateNamed_eq_ok.mp ok
  have sealings : ∀ encoding ∈ encodings, Sealed NoSign encoding := by
    intro encoding member
    obtain ⟨marker, _, value, ⟨before, after, rfl, _⟩, valueOk⟩ :=
      exists_mem_of_forall₂ each member
    have given : (marker.name, value) ∈ before ++ (marker.name, value) :: after :=
      List.mem_append_right _ List.mem_cons_self
    exact sql_isSealed plainNames (List.forall_mem_flatMap.mp noCalls _ given) valueOk
  have enough := Nat.le_of_eq each.length_eq
  exact interpolateNamed_of_noMarkers (markers_replaced_eq_nil sealings enough)

/-- Values are inert in templates.  With positional markers the output follows the template, and
with markers of either sort the output stays as it is when it is filled in once more, with no values
at all. -/
theorem interpolation_isInert {functions : FunctionSet}
    (plainNames : ∀ name ∈ functions.names, Text.isPlainWord name) (template : Text) :
    (∀ values statement,
      (∀ text ∈ values.flatMap Value.texts, functions.call? text = none) →
      interpolate functions template values = .ok statement →
        Follows functions values template statement.sql ∧
          interpolate functions statement.sql [] = .ok statement) ∧
    ∀ values statement,
      (∀ text ∈ values.flatMap (fun pair => pair.2.texts), functions.call? text = none) →
      interpolateNamed functions template values = .ok statement →
        interpolateNamed functions statement.sql [] = .ok statement :=
  ⟨fun _ _ => interpolate_inert plainNames, fun _ _ => interpolateNamed_inert plainNames⟩

/-- Values that hold quotes and signs of markers, next to markers in quotes and to a cast. -/
theorem interpolation_isInert_signs :
    (∀ name ∈ FunctionSet.standard.names, Text.isPlainWord name) ∧
    FunctionSet.standard.call? "o'?:n" = none ∧
    interpolate FunctionSet.standard "a = ?::text AND b = '?:n' OR c = ?" [.text "o'?:n", .int 5] =
      .ok (.ofSql "a = 'o\\'?:n'::text AND b = '?:n' OR c = 5") ∧
    interpolate FunctionSet.standard "a = 'o\\'?:n'::text AND b = '?:n' OR c = 5" [] =
      .ok (.ofSql "a = 'o\\'?:n'::text AND b = '?:n' OR c = 5") ∧
    interpolateNamed FunctionSet.standard "a = :n::text" [("n", .text "o'?:n")] =
      .ok (.ofSql "a = 'o\\'?:n'::text") ∧
    interpolateNamed FunctionSet.standard "a = 'o\\'?:n'::text" [] =
      .ok (.ofSql "a = 'o\\'?:n'::text") := by
  have plainNames : ∀ name ∈ FunctionSet.standard.names, Text.isPlainWord name := by decide
  have noCall : FunctionSet.standard.call? "o'?:n" = none := rfl
  have positional : interpolate FunctionSet.standard "a = ?::text AND b = '?:n' OR c = ?"
      [.text "o'?:n", .int 5] = .ok (.ofSql "a = 'o\\'?:n'::text AND b = '?:n' OR c = 5") :=
    interpolate_eq_ok.mpr ⟨["'o\\'?:n'", "5"], .cons rfl (.cons rfl .nil), rfl, rfl⟩
  have found : markers .named "a = :n::text" = [⟨4, ":n"⟩] := by decide
  have last : IsLastValue [("n", .text "o'?:n")] "n" (.text "o'?:n") :=
    ⟨[], [], rfl, List.not_mem_nil⟩
  have named : interpolateNamed FunctionSet.standard "a = :n::text" [("n", .text "o'?:n")] =
      .ok (.ofSql "a = 'o\\'?:n'::text") := by
    refine interpolateNamed_eq_ok.mpr ⟨["'o\\'?:n'"], ?_, ?_⟩
    · rw [found]
      exact .cons ⟨_, last, rfl⟩ .nil
    · rw [found]
      rfl
  have inPositional := (interpolation_isInert plainNames _).1 _ _ (by decide) positional
  have inNamed := (interpolation_isInert plainNames _).2 _ _ (by decide) named
  exact ⟨plainNames, noCall, positional, inPositional.2, named, inNamed⟩

end Template

end SqlComposer
