import SqlComposer.Proofs.Query.Insertion
import SqlComposer.Proofs.Reference.Quoting
import SqlComposer.Proofs.Row.Writes

/-!
# Columns that are written twice

A row has each column once, and assigning a column again replaces its value where it
stands (`Row.assign_of_mem`), also when a whole row is merged (`Row.merged_assignAll`).
But columns are compared as written, and a statement shows their quoted names.  Two
spellings of one path, such as a name with and without grave accents, are two columns
of a row that are written under one name.

So the names in an insertion or a change are distinct exactly when no two columns are
spellings of one path (`namesDistinct_iff`), and always when every column is spelled
plainly.  Nothing in the making of a query prevents two spellings of one path
(`twoSpellings_are_written_twice`).
-/

namespace SqlComposer

set_option autoImplicit false

/-! ## Assigning a column again -/

namespace Row

/-- The second row is the first one with another value for one of its columns. -/
structure Replaced (column : Text) (value : Value) (before behind : Row) : Prop where
  columns : behind.columns = before.columns
  values : ∀ other, behind.get? other = if other = column then some value else before.get? other

/-- Assigning a column that is already there replaces its value. -/
theorem assign_of_mem {row : Row} {column : Text} (member : column ∈ row.columns) (value : Value) :
    Replaced column value row (row.assign column value) where
  columns := (row.columns_assign column value).trans (if_pos member)
  values other := row.get?_assign column other value

/-- Columns that are assigned one after the other are replaced, or come behind those that were
there. -/
theorem columns_assignAll (row : Row) {assignments : List (Text × Value)}
    (distinct : (assignments.map Prod.fst).Nodup) :
    (row.assignAll assignments).columns =
      row.columns ++ (assignments.map Prod.fst).filter (· ∉ row.columns) := by
  induction assignments generalizing row with
  | nil => exact (List.append_nil _).symm
  | cons entry rest ih =>
      obtain ⟨column, value⟩ := entry
      obtain ⟨isNew, others⟩ := List.nodup_cons.mp distinct
      have step : (row.assignAll ((column, value) :: rest)) =
          (row.assign column value).assignAll rest := rfl
      rw [step, ih _ others, columns_assign, List.map_cons]
      by_cases member : column ∈ row.columns
      · rw [if_pos member, List.filter_cons_of_neg (by simpa using member)]
      · have same : (rest.map Prod.fst).filter (· ∉ row.columns ++ [column]) =
            (rest.map Prod.fst).filter (· ∉ row.columns) := by
          refine List.filter_congr fun other inRest => ?_
          have different : other ≠ column := fun same => isNew (same ▸ inRest)
          simp [different]
        rw [if_neg member, List.filter_cons_of_pos (by simpa using member), same,
          List.append_assoc, List.singleton_append]

/-- A column has the value that the assignments give it, or else the one it had. -/
theorem get?_assignAll (row : Row) {assignments : List (Text × Value)}
    (distinct : (assignments.map Prod.fst).Nodup) (other : Text) :
    (row.assignAll assignments).get? other = (assignments.lookup other).or (row.get? other) := by
  induction assignments generalizing row with
  | nil => rfl
  | cons entry rest ih =>
      obtain ⟨column, value⟩ := entry
      obtain ⟨isNew, others⟩ := List.nodup_cons.mp distinct
      have step : (row.assignAll ((column, value) :: rest)) =
          (row.assign column value).assignAll rest := rfl
      rw [step, ih _ others, get?_assign, lookup_cons_eq_if]
      by_cases same : other = column
      · subst same
        have none : rest.lookup other = none := by
          refine List.lookup_eq_none_iff.mpr fun entry member => bne_iff_ne.mpr fun same => ?_
          exact isNew (List.mem_map.mpr ⟨entry, member, same.symm⟩)
        rw [if_pos rfl, if_pos rfl, none]
        rfl
      · rw [if_neg same, if_neg same]

/-- The third row is the second one with all columns of the first one assigned: values of columns
that were there are replaced, and the other columns come behind. -/
structure Merged (assigned before behind : Row) : Prop where
  columns : behind.columns = before.columns ++ assigned.columns.filter (· ∉ before.columns)
  values : ∀ other, behind.get? other = (assigned.get? other).or (before.get? other)

/-- Assigning all that a row has merges it. -/
theorem merged_assignAll (row assigned : Row) :
    Merged assigned row (row.assignAll assigned.entries) where
  columns := row.columns_assignAll assigned.distinct
  values := row.get?_assignAll assigned.distinct

end Row

/-- An assignment to an insertion is one to its last row. -/
theorem Insert.apply_assign {query : Insert} {before : List Row} {last : Row}
    (rows : query.rows = before ++ [last]) (column : Text) (value : Value) :
    (query.apply (.assign column value)).rows = before ++ [last.assign column value] := by
  have atEnd : ∀ before : List Row, assignLast column value (before ++ [last]) =
      before ++ [last.assign column value] := by
    intro before
    induction before with
    | nil => rfl
    | cons first rest ih =>
        cases rest with
        | nil => rfl
        | cons next more => exact congrArg (first :: ·) ih
  rw [apply, rows, atEnd]

/-! ## The columns of a statement -/

/-- Names that a statement shows for columns, which are distinct unless two columns are spellings of
one path. -/
structure ShownAs (columns names : List Text) : Prop where
  quoted : List.Forall₂ (fun column name => Column.quote column = .ok name) columns names
  nodup_iff : names.Nodup ↔ (columns.map Column.segments).Nodup
  nodup_of_plain : (∀ column ∈ columns, Column.IsPlainlySpelled column) → names.Nodup

theorem ShownAs.of_quoted {columns names : List Text} (distinct : columns.Nodup)
    (quoted : List.Forall₂ (fun column name => Column.quote column = .ok name) columns names) :
    ShownAs columns names :=
  ⟨quoted, Column.nodup_quoted_iff quoted, fun plain =>
    (Column.nodup_quoted_iff quoted).mpr (Column.nodup_segments_of_plain distinct plain)⟩

variable {functions : FunctionSet}

/-- The columns that an insertion names are shown in front of its tuples. -/
theorem Insert.shownAs_of_build {query : Insert} {statement : Statement}
    (ok : query.build functions = .ok statement) :
    ∃ table columns names tuples, query.Names columns ∧ ShownAs columns names ∧
      statement = statementOf table names tuples := by
  obtain ⟨table, columns, resolved, named⟩ := exists_names_of_build ok
  obtain ⟨names, tuples, quoted, _, same⟩ := (build_eq_ok resolved named).mp ok
  obtain ⟨first, _, rfl⟩ := Option.map_eq_some_iff.mp named.1
  exact ⟨table, first.columns, names, tuples, named, .of_quoted first.distinct quoted, same⟩

/-- A name, an equals sign and a value. -/
def Update.assignmentOf (name value : Text) : Text :=
  name ++ " = " ++ value

/-- Assignments are written with the quoted columns and the SQL of the values, in order. -/
theorem Update.exists_names_of_assignments {entries : List (Text × Value)} {assignments : List Text}
    (ok : entries.mapM (assignmentSql functions) = .ok assignments) :
    ∃ names values,
      List.Forall₂ (fun column name => Column.quote column = .ok name)
        (entries.map Prod.fst) names ∧
      List.Forall₂ (fun value written => Value.sql functions value = .ok written)
        (entries.map Prod.snd) values ∧
      assignments = List.zipWith assignmentOf names values := by
  have pairs := mapM_eq_ok.mp ok
  clear ok
  induction pairs with
  | nil => exact ⟨[], [], .nil, .nil, rfl⟩
  | cons head _ ih =>
      obtain ⟨name, quoted, ok⟩ := bind_eq_ok.mp head
      obtain ⟨value, written, same⟩ := bind_eq_ok.mp ok
      obtain ⟨names, values, left, right, rfl⟩ := ih
      cases same
      exact ⟨name :: names, value :: values, .cons quoted left, .cons written right, rfl⟩

/-- The columns that a change assigns are shown behind SET, each with its value. -/
theorem Update.shownAs_of_build {query : Update} {statement : Statement}
    (built : query.build functions = .ok statement) :
    ∃ front names values behind, ShownAs query.data.columns names ∧
      List.Forall₂ (fun value written => Value.sql functions value = .ok written)
        (query.data.entries.map Prod.snd) values ∧
      statement = ⟨.update, front ++ " SET " ++
        Text.joined ", " (List.zipWith assignmentOf names values) ++ behind⟩ := by
  obtain ⟨text, ok, same⟩ := bind_eq_ok.mp built
  cases same
  obtain ⟨table, _, ok⟩ := bind_eq_ok.mp ok
  split_ifs at ok
  obtain ⟨joins, _, ok⟩ := bind_eq_ok.mp ok
  obtain ⟨assignments, written, ok⟩ := bind_eq_ok.mp ok
  obtain ⟨conditions, _, ok⟩ := bind_eq_ok.mp ok
  obtain ⟨groupConditions, _, same⟩ := bind_eq_ok.mp ok
  cases same
  obtain ⟨names, values, quoted, valuesWritten, rfl⟩ := exists_names_of_assignments written
  refine ⟨"UPDATE " ++ table.fullName ++ joins, names, values, conditions ++ groupConditions ++ ";",
    .of_quoted query.data.distinct quoted, valuesWritten, ?_⟩
  simp only [List.append_assoc]

/-- The names of columns in a statement are distinct exactly when no two of its columns are
spellings of one path, in particular when all are spelled plainly.  Assigning a column that is
spelled like one of the last row, or of the data of a change, replaces the value of that column; and
a whole row of data is merged column by column. -/
theorem namesDistinct_iff (functions : FunctionSet) :
    (∀ (query : Insert) statement, query.build functions = .ok statement →
      ∃ table columns names tuples, query.Names columns ∧ ShownAs columns names ∧
        statement = Insert.statementOf table names tuples) ∧
    (∀ (query : Update) statement, query.build functions = .ok statement →
      ∃ front names values behind, ShownAs query.data.columns names ∧
        List.Forall₂ (fun value written => Value.sql functions value = .ok written)
          (query.data.entries.map Prod.snd) values ∧
        statement = ⟨.update, front ++ " SET " ++
          Text.joined ", " (List.zipWith Update.assignmentOf names values) ++ behind⟩) ∧
    (∀ (query : Insert) before last column value, query.rows = before ++ [last] →
      column ∈ last.columns → ∃ changed, Row.Replaced column value last changed ∧
        (query.apply (.assign column value)).rows = before ++ [changed]) ∧
    (∀ (query : Update) column value, column ∈ query.data.columns →
      Row.Replaced column value query.data (query.apply (.assign column value)).data) ∧
    ∀ (query : Update) row, Row.Merged row query.data (query.apply (.data row)).data := by
  refine ⟨fun _ _ => Insert.shownAs_of_build, fun _ _ => Update.shownAs_of_build, ?_, ?_, ?_⟩
  · intro query before last column value rows member
    exact ⟨_, Row.assign_of_mem member value, Insert.apply_assign rows column value⟩
  · intro query column value member
    exact Row.assign_of_mem member value
  · intro query row
    exact query.data.merged_assignAll row

/-- A guest whose day is corrected while the row is made. -/
def correctedGuest : Insert :=
  (Insert.ofTable "guests").applyAll
    [.assign "day" (.int 1), .assign "name" (.text "Ann"), .assign "day" (.int 2)]

/-- A guest with two names, of which one stands between grave accents. -/
def renamedGuest : Update :=
  (Update.ofTable "guests").applyAll
    [.assign "name" (.text "Ann"), .data (.ofList [("`name`", .text "Bob")])]

/-- The corrected day is written once, since it is spelled as before. -/
theorem namesDistinct_iff_guests :
    correctedGuest.build .standard =
        .ok ⟨.insert, "INSERT INTO `guests` (`day`, `name`) VALUES (2, 'Ann');"⟩ ∧
      (∃ columns names, correctedGuest.Names columns ∧ ShownAs columns names ∧ names.Nodup) ∧
      (∃ names, ShownAs renamedGuest.data.columns names ∧ ¬ names.Nodup) ∧
      Row.Replaced "`name`" .null renamedGuest.data
        (renamedGuest.apply (.assign "`name`" .null)).data := by
  obtain ⟨inserted, updated, _, replaced, _⟩ := namesDistinct_iff .standard
  have built : correctedGuest.build .standard =
      .ok ⟨.insert, "INSERT INTO `guests` (`day`, `name`) VALUES (2, 'Ann');"⟩ := rfl
  refine ⟨built, ?_, ?_, replaced renamedGuest _ _ (by decide)⟩
  · obtain ⟨_, columns, names, _, named, shown, _⟩ := inserted _ _ built
    have columnsAre : columns = ["day".toList, "name".toList] := (Option.some.inj named.1).symm
    refine ⟨columns, names, named, shown, shown.nodup_of_plain ?_⟩
    rw [columnsAre]
    decide
  · obtain ⟨_, names, _, _, shown, _⟩ := updated renamedGuest _ rfl
    exact ⟨names, shown, fun distinct => absurd (shown.nodup_iff.mp distinct) (by decide)⟩

/-- Two spellings of one column are both written, under one name. -/
theorem twoSpellings_are_written_twice :
    renamedGuest.build .standard =
        .ok ⟨.update, "UPDATE `guests` SET `name` = 'Ann', `name` = 'Bob';"⟩ ∧
      ((Insert.ofTable "guests").applyAll
          [.assign "name" (.text "Ann"), .assign " name" (.text "Bob")]).build .standard =
        .ok ⟨.insert, "INSERT INTO `guests` (`name`, `name`) VALUES ('Ann', 'Bob');"⟩ := by
  exact ⟨rfl, rfl⟩

end SqlComposer
