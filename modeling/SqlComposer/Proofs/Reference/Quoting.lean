import Mathlib.Data.List.Nodup
import SqlComposer.Proofs.Reference.Reading
import SqlComposer.Reference.Column

/-!
# Quoted names of columns

A name that can only be a column is read as a path of segments (`Column.segments`):
grave accents are dropped, points separate, and blanks around a segment do not count.
Its quoted name shows these segments and nothing else of how it was written.  So a
quoted name is read as the same path again (`Column.segments_of_quote`), and two names
are quoted alike exactly when they are spellings of one path (`Column.quote_eq_iff`).

Names that are distinct as written need not be distinct as quoted.  They are when each
is spelled as plainly as possible, with its segments and the points between them
(`Column.IsPlainlySpelled`).
-/

namespace SqlComposer

set_option autoImplicit false

open Text (ticked trimmed)

namespace Column

/-! ## The path of a name -/

/-- The segments that a name is read as. -/
def segments (name : Text) : List Text :=
  ((Reference.unquoted name).splitOn '.').map trimmed

/-- A path between grave accents, segment by segment. -/
def quotedPath (path : List Text) : Text :=
  Text.joined "." (path.map ticked)

/-- The name is written as its segments with points between them. -/
def IsPlainlySpelled (name : Text) : Prop :=
  Text.joined "." (segments name) = name

instance decidableIsPlainlySpelled (name : Text) : Decidable (IsPlainlySpelled name) :=
  inferInstanceAs (Decidable (Text.joined "." (segments name) = name))

theorem segments_ne_nil (name : Text) : segments name ≠ [] :=
  fun none => List.splitOn_ne_nil '.' _ (List.map_eq_nil_iff.mp none)

/-- A segment is trimmed, and holds neither a grave accent nor a point. -/
theorem of_mem_segments {name segment : Text} (member : segment ∈ segments name) :
    trimmed segment = segment ∧ Text.tick ∉ segment ∧ '.' ∉ segment := by
  obtain ⟨piece, inName, rfl⟩ := List.mem_map.mp member
  have part := Text.trimmed_subset piece
  exact ⟨Text.trimmed_trimmed piece,
    fun tick => Reference.tick_notMem_segment (List.Subset.refl _) inName (part tick),
    fun point => Text.notMem_of_mem_splitOn inName (part point)⟩

/-- A quoted path loses its grave accents and nothing else. -/
theorem unquoted_quotedPath {path : List Text} (noTick : ∀ segment ∈ path, Text.tick ∉ segment) :
    Reference.unquoted (quotedPath path) = Text.joined "." path := by
  induction path with
  | nil => rfl
  | cons first rest ih =>
      obtain ⟨head, others⟩ := List.forall_mem_cons.mp noTick
      have tail := ih others
      cases rest with
      | nil =>
          rw [quotedPath, List.map_singleton, Text.joined_singleton, Text.joined_singleton]
          exact Reference.unquoted_ticked head
      | cons next more =>
          rw [quotedPath] at tail ⊢
          rw [List.map_cons, List.map_cons, Text.joined_cons_cons, ← List.map_cons,
            Reference.unquoted_append, Reference.unquoted_append, Reference.unquoted_ticked head,
            tail, Text.joined_cons_cons]
          rfl

/-! ## Quoting -/

/-- A name is quoted when it has at most three segments that are all accepted. -/
theorem quote_eq_ok {name quoted : Text} :
    quote name = .ok quoted ↔
      (segments name).length ≤ 3 ∧
        (∀ segment ∈ segments name, Reference.checkSegment segment = .ok ()) ∧
        quoted = quotedPath (segments name) := by
  rw [quote, mapError_eq_ok, quoteSegments, ← segments]
  split_ifs with long
  · exact ⟨nofun, fun short => absurd long (Nat.not_lt.mpr short.1)⟩
  · rw [bind_eq_ok]
    constructor
    · rintro ⟨⟨⟩, accepted, same⟩
      exact ⟨Nat.not_lt.mp long, forM_eq_ok.mp accepted, (Except.ok.inj same).symm⟩
    · rintro ⟨_, accepted, rfl⟩
      exact ⟨(), forM_eq_ok.mpr accepted, rfl⟩

/-- A quoted name is read as the path that it was made from. -/
theorem segments_of_quote {name quoted : Text} (ok : quote name = .ok quoted) :
    segments quoted = segments name := by
  obtain ⟨_, _, rfl⟩ := quote_eq_ok.mp ok
  have whole : (Text.joined "." (segments name)).splitOn '.' = segments name :=
    List.splitOn_intercalate '.' (fun _ member => (of_mem_segments member).2.2)
      (segments_ne_nil name)
  rw [segments, unquoted_quotedPath fun _ member => (of_mem_segments member).2.1, whole]
  exact (List.map_congr_left fun _ member => (of_mem_segments member).1).trans (List.map_id _)

/-- Two names are quoted alike exactly when they are spellings of one path. -/
theorem quote_eq_iff {first second quoted quoted' : Text} (ok : quote first = .ok quoted)
    (ok' : quote second = .ok quoted') :
    quoted = quoted' ↔ segments first = segments second := by
  constructor
  · rintro rfl
    rw [← segments_of_quote ok, segments_of_quote ok']
  · intro same
    rw [(quote_eq_ok.mp ok).2.2, (quote_eq_ok.mp ok').2.2, same]

/-! ## Several names -/

/-- Quoted names are distinct exactly when the names are spellings of distinct paths. -/
theorem nodup_quoted_iff {names quoted : List Text}
    (written : List.Forall₂ (fun name text => quote name = .ok text) names quoted) :
    quoted.Nodup ↔ (names.map segments).Nodup := by
  have paths : quoted.map segments = names.map segments := by
    induction written with
    | nil => rfl
    | cons head _ ih => rw [List.map_cons, List.map_cons, segments_of_quote head, ih]
  have texts : (names.map segments).map quotedPath = quoted := by
    induction written with
    | nil => rfl
    | cons head _ ih =>
        rw [List.map_cons, List.map_cons] at paths
        rw [List.map_cons, List.map_cons, (quote_eq_ok.mp head).2.2, ih (List.cons.inj paths).2]
  exact ⟨fun distinct => .of_map quotedPath (texts.symm ▸ distinct),
    fun distinct => .of_map segments (paths.symm ▸ distinct)⟩

/-- Distinct names that are spelled plainly are spellings of distinct paths. -/
theorem nodup_segments_of_plain {names : List Text} (distinct : names.Nodup)
    (plain : ∀ name ∈ names, IsPlainlySpelled name) : (names.map segments).Nodup := by
  have same : (names.map segments).map (Text.joined ".") = names := by
    rw [List.map_map]
    exact (List.map_congr_left plain).trans (List.map_id _)
  exact .of_map (Text.joined ".") (same.symm ▸ distinct)

end Column

end SqlComposer
