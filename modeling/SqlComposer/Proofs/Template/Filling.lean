import SqlComposer.Proofs.Outcome
import SqlComposer.Proofs.Template.Markers

/-!
# Filling in replaces markers

The scan of a template reports all of it, and as markers just those of the template
(`exists_scanned`).  Filling it in has a result exactly when every marker of the sort gets
a value and every value has SQL.  The result is the template with the SQL of the values in
place of the markers and with all other characters unchanged
(`interpolation_replaces_markers`).  Positional markers take the values in order and use
them up.  A named marker takes the last value that is given for its name, and values that
no marker takes are not looked at.
-/

namespace SqlComposer

set_option autoImplicit false

namespace Template

/-! ## Values of names -/

/-- The name in a named marker. -/
def Marker.name (marker : Marker) : Text :=
  marker.written.tail

/-- Of the values in a list that are given for one name, the last. -/
def IsLastValue (values : List (Text × Value)) (name : Text) (value : Value) : Prop :=
  ∃ before after, values = before ++ (name, value) :: after ∧ name ∉ after.map Prod.fst

theorem valueOf?_eq_some {values : List (Text × Value)} {name : Text} {value : Value} :
    valueOf? values name = some value ↔ IsLastValue values name value := by
  rw [valueOf?, List.lookup_eq_some_iff]
  constructor
  · rintro ⟨after, before, reversed, others⟩
    refine ⟨before.reverse, after.reverse, ?_, fun member => ?_⟩
    · simpa using congrArg List.reverse reversed
    · obtain ⟨pair, later, same⟩ := List.mem_map.mp member
      have different := others pair (List.mem_reverse.mp later)
      simp [same] at different
  · rintro ⟨before, after, rfl, noOther⟩
    refine ⟨after.reverse, before.reverse, by simp, fun pair member => ?_⟩
    refine bne_iff_ne.mpr fun same => ?_
    exact noOther (List.mem_map.mpr ⟨pair, List.mem_reverse.mp member, same.symm⟩)

/-! ## Segments -/

/-- A segment as it stands in a template. -/
def Segment.written : Segment → Text
  | .text run => run
  | .positional => ['?']
  | .named name => ':' :: name

/-- Whether a segment is a marker of a sort. -/
def Segment.isOf : MarkerSort → Segment → Bool
  | .positional, .positional => true
  | .named, .named _ => true
  | _, _ => false

theorem Segment.flatMap_pieces (segment : Segment) :
    segment.pieces.flatMap Piece.written = segment.written := by
  cases segment with
  | text run => exact (List.flatMap_map ..).trans (List.flatMap_singleton' run)
  | positional => rfl
  | named name => exact List.append_nil _

/-- The markers among the pieces of a segment are the segment itself, or none. -/
theorem Segment.filter_pieces (segment : Segment) (sort : MarkerSort) :
    (segment.pieces.filter (Piece.isOf sort)).map Piece.written =
      if segment.isOf sort then [segment.written] else [] := by
  cases segment with
  | text run =>
      have noMarker : (run.map Piece.character).filter (Piece.isOf sort) = [] := by
        refine List.filter_eq_nil_iff.mpr fun piece member => ?_
        obtain ⟨_, _, rfl⟩ := List.mem_map.mp member
        cases sort <;> exact Bool.false_ne_true
      rw [pieces, noMarker]
      cases sort <;> rfl
  | positional => cases sort <;> rfl
  | named name => cases sort <;> rfl

/-- The scan of a template has a result.  What it reports is the whole template, and the markers
in it are those of the template. -/
theorem exists_scanned (template : Text) :
    ∃ segments, segments? template = some segments ∧
      segments.flatMap Segment.written = template ∧
      ∀ sort, (segments.filter (Segment.isOf sort)).map Segment.written =
        (markers sort template).map Marker.written := by
  obtain ⟨segments, ok, same⟩ := exists_segments? template
  refine ⟨segments, ok, ?_, fun sort => ?_⟩
  · calc
      segments.flatMap Segment.written
        = segments.flatMap fun segment => segment.pieces.flatMap Piece.written := by
          simp only [Segment.flatMap_pieces]
      _ = (pieces template).flatMap Piece.written := by rw [← same, List.flatMap_assoc]
      _ = template := (cut_pieces template).flatMap_written
  · rw [written_markers, ← same]
    clear ok same
    induction segments with
    | nil => rfl
    | cons segment rest ih =>
        rw [List.flatMap_cons, List.filter_append, List.map_append, ← ih, segment.filter_pieces,
          List.filter_cons]
        split_ifs <;> rfl

/-- Pieces that are no markers of the sort are written as they are. -/
theorem filled_append {sort : MarkerSort} {first : List Piece}
    (kept : first.filter (Piece.isOf sort) = []) (rest : List Piece) (texts : List Text) :
    filled sort (first ++ rest) texts =
      first.flatMap Piece.written ++ filled sort rest texts := by
  induction first with
  | nil => rfl
  | cons piece more ih =>
      obtain ⟨noMarker, others⟩ := List.forall_mem_cons.mp (List.filter_eq_nil_iff.mp kept)
      rw [List.cons_append, filled, if_neg noMarker, ih (List.filter_eq_nil_iff.mpr others),
        List.flatMap_cons, List.append_assoc]

/-! ## Filling in segments -/

section Filling

variable {functions : FunctionSet}

theorem placed_eq_ok {value : Value} {rest : Except Error Text} {text : Text} :
    placed functions value rest = .ok text ↔
      ∃ encoding others, value.sql functions = .ok encoding ∧ rest = .ok others ∧
        text = encoding ++ others := by
  simp only [placed, bind_eq_ok]
  constructor
  · rintro ⟨encoding, valueOk, others, restOk, ok⟩
    exact ⟨encoding, others, valueOk, restOk, (Except.ok.inj ok).symm⟩
  · rintro ⟨encoding, others, valueOk, restOk, rfl⟩
    exact ⟨encoding, valueOk, others, restOk, rfl⟩

/-- What a segment is kept in front of. -/
theorem kept_eq_ok {written : Text} {rest : Except Error Text} {text : Text} :
    (do return written ++ (← rest) : Except Error Text) = .ok text ↔
      ∃ others, rest = .ok others ∧ text = written ++ others := by
  rw [bind_eq_ok]
  constructor
  · rintro ⟨others, restOk, ok⟩
    exact ⟨others, restOk, (Except.ok.inj ok).symm⟩
  · rintro ⟨others, restOk, rfl⟩
    exact ⟨others, restOk, rfl⟩

/-- The pieces of a segment that is no marker of a sort are kept. -/
theorem Segment.kept_pieces {segment : Segment} {sort : MarkerSort}
    (kept : segment.isOf sort = false) : segment.pieces.filter (Piece.isOf sort) = [] := by
  have none := segment.filter_pieces sort
  rw [kept] at none
  exact List.map_eq_nil_iff.mp none

theorem Segment.filled_kept {segment : Segment} {sort : MarkerSort}
    (kept : segment.isOf sort = false) (rest : List Piece) (texts : List Text) :
    filled sort (segment.pieces ++ rest) texts = segment.written ++ filled sort rest texts := by
  rw [filled_append (kept_pieces kept), segment.flatMap_pieces]

theorem fillPositional_of_kept {segment : Segment} (kept : segment.isOf .positional = false)
    (given : Nat) (rest : List Segment) (values : List Value) :
    fillPositional functions given (segment :: rest) values =
      do return segment.written ++ (← fillPositional functions given rest values) := by
  cases segment with
  | text run => rfl
  | positional => cases kept
  | named name => rfl

theorem fillNamed_of_kept {segment : Segment} (kept : segment.isOf .named = false)
    (rest : List Segment) (values : List (Text × Value)) :
    fillNamed functions values (segment :: rest) =
      do return segment.written ++ (← fillNamed functions values rest) := by
  cases segment with
  | text run => rfl
  | positional => rfl
  | named name => cases kept

/-- Positional markers take the values in order and use them up. -/
theorem fillPositional_eq_ok {given : Nat} {segments : List Segment} {values : List Value}
    {text : Text} :
    fillPositional functions given segments values = .ok text ↔
      ∃ encodings,
        List.Forall₂ (fun value encoding => value.sql functions = .ok encoding) values encodings ∧
        ((segments.flatMap Segment.pieces).filter (Piece.isOf .positional)).length =
          values.length ∧
        text = filled .positional (segments.flatMap Segment.pieces) encodings := by
  induction segments generalizing values text with
  | nil =>
      cases values with
      | nil =>
          constructor
          · intro ok
            exact ⟨[], .nil, rfl, (Except.ok.inj ok).symm⟩
          · rintro ⟨_, _, _, rfl⟩
            rfl
      | cons value unused =>
          constructor
          · intro ok
            cases ok
          · rintro ⟨_, _, tooMany, _⟩
            cases tooMany
  | cons segment rest ih =>
      cases marker : segment.isOf .positional with
      | false =>
          simp only [fillPositional_of_kept marker, kept_eq_ok, ih, List.flatMap_cons,
            Segment.filled_kept marker, List.filter_append, Segment.kept_pieces marker,
            List.nil_append]
          constructor
          · rintro ⟨_, ⟨encodings, each, count, rfl⟩, rfl⟩
            exact ⟨encodings, each, count, rfl⟩
          · rintro ⟨encodings, each, count, rfl⟩
            exact ⟨_, ⟨encodings, each, count, rfl⟩, rfl⟩
      | true =>
          obtain rfl : segment = .positional := by cases segment <;> first | rfl | cases marker
          have here : (Segment.positional :: rest).flatMap Segment.pieces =
              .positional :: rest.flatMap Segment.pieces := rfl
          rw [here, List.filter_cons_of_pos rfl]
          cases values with
          | nil =>
              constructor
              · intro ok
                cases ok
              · rintro ⟨_, _, tooFew, _⟩
                cases tooFew
          | cons value values =>
              rw [fillPositional, placed_eq_ok]
              simp only [ih, List.length_cons, Nat.add_right_cancel_iff]
              constructor
              · rintro ⟨encoding, _, valueOk, ⟨encodings, each, count, rfl⟩, rfl⟩
                exact ⟨encoding :: encodings, .cons valueOk each, count, rfl⟩
              · rintro ⟨_, each, count, rfl⟩
                obtain ⟨encoding, encodings, valueOk, others, rfl⟩ :=
                  List.forall₂_cons_left_iff.mp each
                exact ⟨encoding, _, valueOk, ⟨encodings, others, count, rfl⟩, rfl⟩

/-- Each named marker takes the value of its name. -/
theorem fillNamed_eq_ok {segments : List Segment} {values : List (Text × Value)} {text : Text} :
    fillNamed functions values segments = .ok text ↔
      ∃ encodings,
        List.Forall₂ (fun piece encoding => ∃ value,
            valueOf? values (Piece.written piece).tail = some value ∧
              value.sql functions = .ok encoding)
          ((segments.flatMap Segment.pieces).filter (Piece.isOf .named)) encodings ∧
        text = filled .named (segments.flatMap Segment.pieces) encodings := by
  induction segments generalizing text with
  | nil =>
      constructor
      · intro ok
        exact ⟨[], .nil, (Except.ok.inj ok).symm⟩
      · rintro ⟨_, _, rfl⟩
        rfl
  | cons segment rest ih =>
      cases marker : segment.isOf .named with
      | false =>
          simp only [fillNamed_of_kept marker, kept_eq_ok, ih, List.flatMap_cons,
            Segment.filled_kept marker, List.filter_append, Segment.kept_pieces marker,
            List.nil_append]
          constructor
          · rintro ⟨_, ⟨encodings, each, rfl⟩, rfl⟩
            exact ⟨encodings, each, rfl⟩
          · rintro ⟨encodings, each, rfl⟩
            exact ⟨_, ⟨encodings, each, rfl⟩, rfl⟩
      | true =>
          obtain ⟨name, rfl⟩ : ∃ name, segment = .named name := by
            cases segment <;> first | exact ⟨_, rfl⟩ | cases marker
          have here : (Segment.named name :: rest).flatMap Segment.pieces =
              .named name :: rest.flatMap Segment.pieces := rfl
          rw [here, List.filter_cons_of_pos rfl, fillNamed]
          cases given : valueOf? values name with
          | none =>
              constructor
              · intro ok
                cases ok
              · rintro ⟨_, each, _⟩
                obtain ⟨_, _, ⟨_, found, _⟩, _⟩ := List.forall₂_cons_left_iff.mp each
                cases given.symm.trans found
          | some value =>
              dsimp only
              rw [placed_eq_ok]
              simp only [ih]
              constructor
              · rintro ⟨encoding, _, valueOk, ⟨encodings, each, rfl⟩, rfl⟩
                exact ⟨encoding :: encodings, .cons ⟨value, given, valueOk⟩ each, rfl⟩
              · rintro ⟨_, each, rfl⟩
                obtain ⟨encoding, encodings, ⟨_, found, valueOk⟩, others, rfl⟩ :=
                  List.forall₂_cons_left_iff.mp each
                cases given.symm.trans found
                exact ⟨encoding, _, valueOk, ⟨encodings, others, rfl⟩, rfl⟩

/-- Values that no marker takes make no difference. -/
theorem fillNamed_congr {segments : List Segment} {values others : List (Text × Value)}
    (same : ∀ name, Segment.named name ∈ segments → valueOf? values name = valueOf? others name) :
    fillNamed functions values segments = fillNamed functions others segments := by
  induction segments with
  | nil => rfl
  | cons segment rest ih =>
      have inRest := ih fun name member => same name (List.mem_cons_of_mem _ member)
      cases segment with
      | text run => rw [fillNamed, fillNamed, inRest]
      | positional => rw [fillNamed, fillNamed, inRest]
      | named name => rw [fillNamed, fillNamed, same name List.mem_cons_self, inRest]

end Filling

/-! ## Statements -/

/-- A name that the scan of a template reports is the name of one of its markers. -/
theorem exists_marker_of_mem_segments {template name : Text}
    (member : Segment.named name ∈ segments template) :
    ∃ marker ∈ markers .named template, marker.name = name := by
  have inPieces : Piece.named name ∈ pieces template := by
    rw [← flatMap_segments]
    exact List.mem_flatMap.mpr ⟨_, member, List.mem_singleton_self _⟩
  have written : (Piece.named name).written ∈ (markers .named template).map Marker.written := by
    rw [written_markers]
    exact List.mem_map_of_mem (List.mem_filter.mpr ⟨inPieces, rfl⟩)
  obtain ⟨marker, inTemplate, same⟩ := List.mem_map.mp written
  exact ⟨marker, inTemplate, congrArg List.tail same⟩

/-- Positional markers are replaced by the SQL of the values in order. -/
theorem interpolate_eq_ok {functions : FunctionSet} {template : Text} {values : List Value}
    {statement : Statement} :
    interpolate functions template values = .ok statement ↔
      ∃ encodings,
        List.Forall₂ (fun value encoding => value.sql functions = .ok encoding) values encodings ∧
        (markers .positional template).length = values.length ∧
        statement = .ofSql (replaced template (markers .positional template) encodings) := by
  have count : (markers .positional template).length =
      ((pieces template).filter (Piece.isOf .positional)).length := by
    simpa using congrArg List.length (written_markers .positional template)
  simp only [interpolate, bind_eq_ok, fillPositional_eq_ok, flatMap_segments, count,
    replaced_markers]
  constructor
  · rintro ⟨_, ⟨encodings, each, enough, rfl⟩, ok⟩
    exact ⟨encodings, each, enough, (Except.ok.inj ok).symm⟩
  · rintro ⟨encodings, each, enough, rfl⟩
    exact ⟨_, ⟨encodings, each, enough, rfl⟩, rfl⟩

/-- Named markers are replaced by the SQL of the last values of their names. -/
theorem interpolateNamed_eq_ok {functions : FunctionSet} {template : Text}
    {values : List (Text × Value)} {statement : Statement} :
    interpolateNamed functions template values = .ok statement ↔
      ∃ encodings,
        List.Forall₂ (fun marker encoding => ∃ value,
            IsLastValue values (Marker.name marker) value ∧ value.sql functions = .ok encoding)
          (markers .named template) encodings ∧
        statement = .ofSql (replaced template (markers .named template) encodings) := by
  -- Both sides speak about markers as they are written.
  let Takes (written encoding : Text) : Prop :=
    ∃ value, valueOf? values written.tail = some value ∧ value.sql functions = .ok encoding
  have takes : ∀ encodings,
      List.Forall₂ (fun marker encoding => ∃ value,
          IsLastValue values (Marker.name marker) value ∧ value.sql functions = .ok encoding)
        (markers .named template) encodings ↔
      List.Forall₂ (fun piece encoding => Takes (Piece.written piece) encoding)
        ((pieces template).filter (Piece.isOf .named)) encodings := by
    intro encodings
    rw [← List.forall₂_map_left_iff, ← written_markers, List.forall₂_map_left_iff]
    simp only [Takes, valueOf?_eq_some, Marker.name]
  simp only [interpolateNamed, bind_eq_ok, fillNamed_eq_ok, flatMap_segments, takes,
    replaced_markers]
  constructor
  · rintro ⟨_, ⟨encodings, each, rfl⟩, ok⟩
    exact ⟨encodings, each, (Except.ok.inj ok).symm⟩
  · rintro ⟨encodings, each, rfl⟩
    exact ⟨_, ⟨encodings, each, rfl⟩, rfl⟩

/-- Named markers look at nothing but the last values of their names. -/
theorem interpolateNamed_congr {functions : FunctionSet} {template : Text}
    {values others : List (Text × Value)}
    (same : ∀ marker ∈ markers .named template, ∀ value,
      IsLastValue values marker.name value ↔ IsLastValue others marker.name value) :
    interpolateNamed functions template values = interpolateNamed functions template others := by
  have filled : fillNamed functions values (segments template) =
      fillNamed functions others (segments template) := by
    refine fillNamed_congr fun name member => ?_
    obtain ⟨marker, inTemplate, rfl⟩ := exists_marker_of_mem_segments member
    refine Option.ext fun value => ?_
    rw [valueOf?_eq_some, valueOf?_eq_some]
    exact same marker inTemplate value
  rw [interpolateNamed, interpolateNamed, filled]

/-- Hand-written SQL is told by its text and by the kind that this text shows. -/
theorem eq_ofSql_iff {statement : Statement} {sql : Text} :
    statement = .ofSql sql ↔
      statement.sql = sql ∧ statement.kind = StatementKind.ofSql statement.sql := by
  constructor
  · rintro rfl
    exact ⟨rfl, rfl⟩
  · obtain ⟨kind, written⟩ := statement
    rintro ⟨rfl, sameKind⟩
    exact congrArg (Statement.mk · written) sameKind

/-- A template is filled in by replacing its markers and nothing else.  The scan of its bytes
reports all of it and finds just its markers.  Positional markers take the values in order, and
there must be as many values as markers.  A named marker takes the last value of its name, and no
other value makes a difference. -/
theorem interpolation_replaces_markers (functions : FunctionSet) (template : Text) :
    (∃ segments, segments? template = some segments ∧
      segments.flatMap Segment.written = template ∧
      ∀ sort, (segments.filter (Segment.isOf sort)).map Segment.written =
        (markers sort template).map Marker.written) ∧
    (∀ values statement, interpolate functions template values = .ok statement ↔
      ∃ encodings,
        List.Forall₂ (fun value encoding => value.sql functions = .ok encoding) values encodings ∧
        (markers .positional template).length = values.length ∧
        statement.sql = replaced template (markers .positional template) encodings ∧
        statement.kind = StatementKind.ofSql statement.sql) ∧
    (∀ values statement, interpolateNamed functions template values = .ok statement ↔
      ∃ encodings,
        List.Forall₂ (fun marker encoding => ∃ value,
            IsLastValue values (Marker.name marker) value ∧ value.sql functions = .ok encoding)
          (markers .named template) encodings ∧
        statement.sql = replaced template (markers .named template) encodings ∧
        statement.kind = StatementKind.ofSql statement.sql) ∧
    ∀ values others,
      (∀ marker ∈ markers .named template, ∀ value,
        IsLastValue values marker.name value ↔ IsLastValue others marker.name value) →
      interpolateNamed functions template values =
        interpolateNamed functions template others := by
  refine ⟨exists_scanned template, fun _ _ => ?_, fun _ _ => ?_, fun _ _ => interpolateNamed_congr⟩
  · simp only [interpolate_eq_ok, eq_ofSql_iff]
  · simp only [interpolateNamed_eq_ok, eq_ofSql_iff]

/-- A cast is kept, and so is a marker in quotes behind a backslash that takes a character of two
bytes with it.  Of three values only the last of the name counts. -/
theorem interpolation_replaces_markers_cast :
    markers .named "SELECT '\\\u00E9:a', :a::int" = [⟨15, ":a"⟩] ∧
    IsLastValue [("a", .int 1), ("b", .null), ("a", .int 2)] "a" (.int 2) ∧
    interpolateNamed FunctionSet.standard "SELECT '\\\u00E9:a', :a::int"
        [("a", .int 1), ("b", .null), ("a", .int 2)] =
      .ok ⟨.select, "SELECT '\\\u00E9:a', 2::int"⟩ ∧
    interpolateNamed FunctionSet.standard "SELECT '\\\u00E9:a', :a::int" [("a", .int 2)] =
      .ok ⟨.select, "SELECT '\\\u00E9:a', 2::int"⟩ := by
  have found : markers .named "SELECT '\\\u00E9:a', :a::int" = [⟨15, ":a"⟩] := by decide
  have last : IsLastValue [("a", .int 1), ("b", .null), ("a", .int 2)] "a" (.int 2) :=
    ⟨[("a", .int 1), ("b", .null)], [], rfl, List.not_mem_nil⟩
  have whole : interpolateNamed FunctionSet.standard "SELECT '\\\u00E9:a', :a::int"
        [("a", .int 1), ("b", .null), ("a", .int 2)] =
      .ok ⟨.select, "SELECT '\\\u00E9:a', 2::int"⟩ := by
    refine ((interpolation_replaces_markers _ _).2.2.1 _ _).mpr ⟨["2"], ?_, ?_, rfl⟩
    · rw [found]
      exact .cons ⟨.int 2, last, rfl⟩ .nil
    · rw [found]
      rfl
  have fewer : interpolateNamed FunctionSet.standard "SELECT '\\\u00E9:a', :a::int"
        [("a", .int 1), ("b", .null), ("a", .int 2)] =
      interpolateNamed FunctionSet.standard "SELECT '\\\u00E9:a', :a::int" [("a", .int 2)] := by
    refine (interpolation_replaces_markers _ _).2.2.2 _ _ fun marker member value => ?_
    rw [found, List.mem_singleton] at member
    rw [member, ← valueOf?_eq_some, ← valueOf?_eq_some]
    rfl
  exact ⟨found, last, whole, fewer ▸ whole⟩

end Template

end SqlComposer
