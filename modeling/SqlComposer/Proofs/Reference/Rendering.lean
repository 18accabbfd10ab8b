import SqlComposer.Proofs.Lexical.Congruence
import SqlComposer.Proofs.Outcome
import SqlComposer.Proofs.Text.Trimming
import SqlComposer.Proofs.Value.Pieces
import SqlComposer.Reference.Column
import SqlComposer.Reference.Table

/-!
# Rendering names

A name between grave accents ends early only if it holds a grave accent of its
own.  None does: written names lose their grave accents before they are taken
apart, and each part holds only characters of the whole.  So every congruence
relates a table (`TableRef.Unticked`) and a column (`Column.quote_matched`) to
itself, whatever text they were read from.

Where an expression may stand, a text that is no path of plain words is kept as
written.  Such a text is trusted (`Column.trusted`, `Column.trustedInOrder`), and
a congruence relates the SQL of a column to itself when it does so with what is
trusted of it.
-/

namespace SqlComposer

set_option autoImplicit false

open Lexical (IsCongruence isPlain)
open Text (ticked trimmed)

/-! ## The characters of parts -/

namespace Text

/-- Joining keeps the characters of every piece. -/
theorem subset_joined {separator piece : Text} {pieces : List Text} (member : piece ∈ pieces) :
    piece ⊆ joined separator pieces := by
  induction pieces with
  | nil => cases member
  | cons first rest ih =>
      cases rest with
      | nil =>
          rw [List.mem_singleton.mp member, joined_singleton]
          exact List.Subset.refl first
      | cons next more =>
          rw [joined_cons_cons]
          rcases List.mem_cons.mp member with rfl | later
          · exact List.subset_append_of_subset_left _ (List.subset_append_left _ _)
          · exact List.subset_append_of_subset_right _ (ih later)

/-- The pieces between separators hold only characters of the whole. -/
theorem splitOn_subset {separator : Char} {text piece : Text}
    (member : piece ∈ text.splitOn separator) : piece ⊆ text := by
  have whole : joined [separator] (text.splitOn separator) = text :=
    List.intercalate_splitOn separator
  exact whole ▸ subset_joined member

end Text

theorem Reference.tick_notMem_unquoted (raw : Text) : Text.tick ∉ Reference.unquoted raw := by
  simp [Reference.unquoted, Text.without]

theorem Reference.unquoted_append (first second : Text) :
    unquoted (first ++ second) = unquoted first ++ unquoted second :=
  List.filter_append first second

theorem Reference.unquoted_of_notMem {text : Text} (noTick : Text.tick ∉ text) :
    unquoted text = text := by
  refine List.filter_eq_self.mpr fun character member => ?_
  rw [bne_iff_ne]
  exact fun same => noTick (same ▸ member)

/-- A name between grave accents is that name without them. -/
theorem Reference.unquoted_ticked {name : Text} (noTick : Text.tick ∉ name) :
    unquoted (ticked name) = name := by
  have inside : unquoted (ticked name) = unquoted name ++ [] := unquoted_append name [Text.tick]
  rw [inside, List.append_nil, unquoted_of_notMem noTick]

/-- The parts of an unquoted name between points hold no grave accent. -/
theorem Reference.tick_notMem_segment {raw text segment : Text}
    (part : text ⊆ Reference.unquoted raw) (member : segment ∈ text.splitOn '.') :
    Text.tick ∉ segment :=
  fun tick => Reference.tick_notMem_unquoted raw (part (Text.splitOn_subset member tick))

/-! ## Tables -/

namespace TableRef

/-- A reference without a grave accent in any of its names. -/
structure Unticked (reference : TableRef) : Prop where
  database : ∀ name ∈ reference.database, Text.tick ∉ name
  table : Text.tick ∉ reference.table
  aliasName : ∀ name ∈ reference.aliasName, Text.tick ∉ name

/-- The pieces between alias separators hold only characters of the whole. -/
theorem splitAtAlias_subset {text piece : Text} (member : piece ∈ splitAtAlias text) :
    piece ⊆ text := by
  induction text using splitAtAlias.induct generalizing piece with
  | case1 =>
      rw [List.mem_singleton.mp member]
      exact List.nil_subset _
  | case2 rest ih =>
      rcases List.mem_cons.mp member with rfl | later
      · exact List.nil_subset _
      · exact List.subset_append_of_subset_right aliasSeparator (ih later)
  | case3 character rest notSeparator ih =>
      rw [splitAtAlias.eq_3 _ _ notSeparator] at member
      cases pieces : splitAtAlias rest with
      | nil =>
          rw [pieces] at member
          cases member
      | cons first others =>
          rw [pieces] at ih member
          rcases List.mem_cons.mp member with rfl | later
          · exact List.cons_subset_cons _ (ih List.mem_cons_self)
          · exact List.subset_cons_of_subset _ (ih (List.mem_cons_of_mem _ later))

theorem splitAlias_subset {text path : Text} {aliasName : Option Text}
    (ok : splitAlias text = .ok (path, aliasName)) :
    path ⊆ text ∧ ∀ name ∈ aliasName, name ⊆ text := by
  have part : ∀ piece ∈ splitAtAlias text, trimmed piece ⊆ text := fun piece member =>
    List.Subset.trans (Text.trimmed_subset piece) (splitAtAlias_subset member)
  unfold splitAlias at ok
  split at ok
  · rename_i written pieces
    cases ok
    rw [pieces] at part
    exact ⟨part written (by simp), by simp⟩
  · rename_i written other pieces
    cases ok
    rw [pieces] at part
    exact ⟨part written (by simp), by simpa using part other (by simp)⟩
  · cases ok

theorem splitPath_subset {path table : Text} {database : Option Text}
    (ok : splitPath path = .ok (database, table)) :
    table ⊆ path ∧ ∀ name ∈ database, name ⊆ path := by
  have part : ∀ piece ∈ path.splitOn '.', trimmed piece ⊆ path := fun piece member =>
    List.Subset.trans (Text.trimmed_subset piece) (Text.splitOn_subset member)
  unfold splitPath at ok
  split at ok
  · rename_i written pieces
    cases ok
    rw [pieces] at part
    exact ⟨part written (by simp), by simp⟩
  · rename_i written other pieces
    cases ok
    rw [pieces] at part
    exact ⟨part other (by simp), by simpa using part written (by simp)⟩
  · cases ok

/-- What a reference is read from does not matter: its names have no grave accents. -/
theorem unticked_of_resolve {raw : Text} {reference : TableRef}
    (ok : resolve raw = .ok reference) : reference.Unticked := by
  obtain ⟨⟨path, aliasName⟩, split, ok⟩ := bind_eq_ok.mp (mapError_eq_ok.mp ok)
  obtain ⟨⟨database, table⟩, parts, ok⟩ := bind_eq_ok.mp ok
  obtain ⟨_, _, ok⟩ := bind_eq_ok.mp ok
  obtain ⟨_, _, ok⟩ := bind_eq_ok.mp ok
  obtain ⟨_, _, ok⟩ := bind_eq_ok.mp ok
  cases ok
  obtain ⟨pathPart, aliasPart⟩ := splitAlias_subset split
  obtain ⟨tablePart, databasePart⟩ := splitPath_subset parts
  have noTick := Reference.tick_notMem_unquoted raw
  exact
    { database := fun name member tick => noTick (pathPart (databasePart name member tick))
      table := fun tick => noTick (pathPart (tablePart tick))
      aliasName := fun name member tick => noTick (aliasPart name member tick) }

/-- A reference is read twice in the same way, and without grave accents in its names. -/
theorem resolve_matched (raw : Text) :
    Matched (fun first second => first = second ∧ first.Unticked) (resolve raw) (resolve raw) :=
  Matched.self fun _ ok => ⟨rfl, unticked_of_resolve ok⟩

end TableRef

section Tables

variable {related : Text → Text → Prop} (congruence : IsCongruence related)
  {reference : TableRef} (unticked : reference.Unticked)
include congruence unticked

theorem TableRef.name_related : related reference.name reference.name := by
  have table := congruence.name unticked.table
  unfold TableRef.name
  cases present : reference.database with
  | none => exact table
  | some database =>
      have point : related ['.'] ['.'] := congruence.plain rfl
      exact congruence.append (congruence.name (unticked.database database present))
        (congruence.append point table)

theorem TableRef.fullName_related : related reference.fullName reference.fullName := by
  have name := TableRef.name_related congruence unticked
  unfold TableRef.fullName
  cases present : reference.aliasName with
  | none => exact name
  | some aliasName =>
      exact congruence.append (congruence.append name (congruence.plain rfl))
        (congruence.name (unticked.aliasName aliasName present))

theorem TableRef.allColumns_related : related reference.allColumns reference.allColumns := by
  unfold TableRef.allColumns
  cases present : reference.aliasName with
  | none =>
      exact congruence.append (TableRef.name_related congruence unticked) (congruence.plain rfl)
  | some aliasName =>
      exact congruence.append (congruence.name (unticked.aliasName aliasName present))
        (congruence.plain rfl)

end Tables

/-- Of a name between grave accents only the first of them is read outside of quotes. -/
theorem Lexical.unquoted_ticked_append {name : Text} (noTick : Text.tick ∉ name) (rest : Text) :
    unquoted .inStrings .outside (ticked name ++ rest) =
      Text.tick :: unquoted .inStrings .outside rest := by
  have stays := staysIn_tick noTick
  change unquoted .inStrings .outside (QuoteMark.tick.enclose name ++ rest) = _
  rw [unquoted_append, unquoted_enclose stays, run_enclose stays]
  rfl

/-- Of the path to a table no more is read outside of quotes than its marks and a point. -/
theorem TableRef.unquoted_name_append {reference : TableRef} (unticked : reference.Unticked)
    (rest : Text) :
    ∃ shown ∈ (["`", "`.`"] : List String),
      Lexical.unquoted .inStrings .outside (reference.name ++ rest) =
        shown.toList ++ Lexical.unquoted .inStrings .outside rest := by
  have ofTable := Lexical.unquoted_ticked_append unticked.table rest
  unfold name
  cases database : reference.database with
  | none => exact ⟨"`", by simp, ofTable⟩
  | some written =>
      refine ⟨"`.`", by simp, ?_⟩
      have noTick := unticked.database written database
      rw [List.append_assoc, Lexical.unquoted_ticked_append noTick]
      exact congrArg ("`.".toList ++ ·) ofTable

/-- Of a table no more is read outside of quotes than its marks, a point and an alias separator. -/
theorem TableRef.unquoted_fullName_append {reference : TableRef} (unticked : reference.Unticked)
    (rest : Text) :
    ∃ shown ∈ (["`", "`.`", "` AS `", "`.` AS `"] : List String),
      Lexical.unquoted .inStrings .outside (reference.fullName ++ rest) =
        shown.toList ++ Lexical.unquoted .inStrings .outside rest := by
  unfold fullName
  cases aliasName : reference.aliasName with
  | none =>
      obtain ⟨shown, member, eq⟩ := unquoted_name_append unticked rest
      exact ⟨shown, List.mem_append_left ["` AS `", "`.` AS `"] member, eq⟩
  | some written =>
      have ofAlias := Lexical.unquoted_ticked_append (unticked.aliasName written aliasName) rest
      obtain ⟨shown, member, eq⟩ :=
        unquoted_name_append unticked (aliasSeparator ++ (ticked written ++ rest))
      rw [List.append_assoc, List.append_assoc, eq]
      have ofSeparator :=
        congrArg (fun after : Text => shown.toList ++ (aliasSeparator ++ after)) ofAlias
      rcases List.mem_cons.mp member with rfl | member
      · exact ⟨"` AS `", by simp, ofSeparator⟩
      · obtain rfl := List.mem_singleton.mp member
        exact ⟨"`.` AS `", by simp, ofSeparator⟩

/-! ## Columns -/

namespace Column

/-- The expressions that are kept as written where a column or an expression may stand. -/
def trusted (raw : Text) : List Text :=
  if isPath ((Reference.unquoted (trimmed raw)).splitOn '.') then [] else [trimmed raw]

/-- The expressions that are kept as written in an item to order by. -/
def trustedInOrder (item : Text) : List Text :=
  match Text.splitAtLast? Text.isBlank (trimmed item) with
  | some (column, word) =>
      if Text.uppercase word = "ASC" ∨ Text.uppercase word = "DESC" then trusted column
      else trusted (trimmed item)
  | none => trusted (trimmed item)

variable {related : Text → Text → Prop} (congruence : IsCongruence related)
include congruence

/-- Segments of a path in order are related to themselves when each of them is. -/
theorem path_related {write : Text → Text} {segments : List Text}
    (each : ∀ segment ∈ segments, related (write segment) (write segment)) :
    related (Text.joined "." (segments.map write)) (Text.joined "." (segments.map write)) := by
  refine congruence.joined _ rfl (List.forall₂_same.mpr fun written member => ?_)
  obtain ⟨segment, inPath, rfl⟩ := List.mem_map.mp member
  exact each segment inPath

/-- The SQL of a column is related to itself when what is trusted of it is. -/
theorem sql_related {raw : Text}
    (onTrusted : ∀ fragment ∈ trusted raw, related fragment fragment) :
    related (sql raw) (sql raw) := by
  unfold trusted at onTrusted
  dsimp only [sql]
  split_ifs at onTrusted ⊢ with path
  · refine path_related congruence fun segment member => ?_
    unfold segmentSql
    split_ifs with star
    · rw [star]
      exact congruence.plain rfl
    · exact congruence.name (Reference.tick_notMem_segment (List.Subset.refl _) member)
  · exact onTrusted _ List.mem_cons_self

/-- The SQL of an item to order by is related to itself when what is trusted of it is. -/
theorem orderSql_related {item : Text}
    (onTrusted : ∀ fragment ∈ trustedInOrder item, related fragment fragment) :
    related (orderSql item) (orderSql item) := by
  have direction : ∀ word : Text, Text.uppercase word = "ASC" ∨ Text.uppercase word = "DESC" →
      related (' ' :: Text.uppercase word) (' ' :: Text.uppercase word) := by
    rintro word (ascending | descending)
    · rw [ascending]
      exact congruence.plain rfl
    · rw [descending]
      exact congruence.plain rfl
  unfold trustedInOrder at onTrusted
  dsimp only [orderSql]
  cases found : Text.splitAtLast? Text.isBlank (trimmed item) with
  | none =>
      simp only [found] at onTrusted
      exact sql_related congruence onTrusted
  | some pieces =>
      obtain ⟨column, word⟩ := pieces
      simp only [found] at onTrusted
      dsimp only
      split_ifs at onTrusted ⊢ with isDirection
      · exact congruence.append (sql_related congruence onTrusted) (direction word isDirection)
      · exact sql_related congruence onTrusted

/-- A name that can only be a column is quoted so that it is related to itself. -/
theorem quote_matched (raw : Text) : Matched related (quote raw) (quote raw) := by
  refine Matched.self fun written ok => ?_
  have quoted := mapError_eq_ok.mp ok
  unfold quoteSegments at quoted
  split_ifs at quoted
  obtain ⟨_, _, quoted⟩ := bind_eq_ok.mp quoted
  cases quoted
  refine path_related congruence fun segment member => congruence.name ?_
  obtain ⟨part, inPath, rfl⟩ := List.mem_map.mp member
  exact fun tick => Reference.tick_notMem_segment (List.Subset.refl _) inPath
    (Text.trimmed_subset part tick)

end Column

end SqlComposer
