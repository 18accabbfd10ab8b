import SqlComposer.Proofs.Query.RowOrder

/-!
# The shape of an insertion

The first row of an insertion names the columns, and every tuple of the statement has
one cell for each of them, in their order.  A row fits when it assigns these columns and
no others, and all its values have SQL (`Row.Fits`); its own order of columns does not
matter.  So an insertion is built exactly when its table resolves, its first row is not
empty, all rows fit and all columns can be quoted, and then the statement is known
(`Insert.build_eq_ok`).

Of several rows that do not fit the first one decides the error (`Row.Misfit`): a column
that is not among the named ones comes before everything else that may be wrong with the
row, and otherwise the named columns are gone through in order until one is missing or
has a value without SQL.
-/

namespace SqlComposer

set_option autoImplicit false

/-! ## Rows that fit -/

namespace Row

/-- The row assigns these columns and no others. -/
def HasColumns (row : Row) (columns : List Text) : Prop :=
  ∀ column, column ∈ row.columns ↔ column ∈ columns

/-- The SQL of the value that the row assigns to a column. -/
def HasCell (functions : FunctionSet) (row : Row) (column cell : Text) : Prop :=
  ∃ value, row.get? column = some value ∧ value.sql functions = .ok cell

/-- The row can be written under the columns. -/
structure Fits (functions : FunctionSet) (columns : List Text) (row : Row) : Prop where
  columns : row.HasColumns columns
  values : ∀ entry ∈ row.entries, ∃ cell, entry.2.sql functions = .ok cell

/-- The cells of a row under the columns, between parentheses. -/
def IsTuple (functions : FunctionSet) (columns : List Text) (row : Row) (tuple : Text) : Prop :=
  ∃ cells, List.Forall₂ (row.HasCell functions) columns cells ∧
    tuple = '(' :: Text.joined ", " cells ++ [')']

/-- The error of a row that cannot be written under the columns: for its first column that is not
among them, or else for the first of them that it lacks or has no SQL for. -/
inductive Misfit (functions : FunctionSet) (columns : List Text) (index : Nat) (row : Row) :
    Error → Prop
  | foreign {before behind : List Text} {column : Text}
      (split : row.columns = before ++ column :: behind) (native : before ⊆ columns)
      (isForeign : column ∉ columns) :
      Misfit functions columns index row (.rowMismatch index column)
  | missing {before behind : List Text} {column : Text} (native : row.columns ⊆ columns)
      (split : columns = before ++ column :: behind)
      (earlier : ∀ other ∈ before, ∃ cell, row.HasCell functions other cell)
      (isMissing : column ∉ row.columns) :
      Misfit functions columns index row (.missingField (.insertColumn column index))
  | unwritable {before behind : List Text} {column : Text} {value : Value} {fault : Error}
      (native : row.columns ⊆ columns) (split : columns = before ++ column :: behind)
      (earlier : ∀ other ∈ before, ∃ cell, row.HasCell functions other cell)
      (assigned : row.get? column = some value) (failed : value.sql functions = .error fault) :
      Misfit functions columns index row fault

/-- A row has a value for each of its columns and for no other. -/
theorem mem_columns_iff {row : Row} {column : Text} :
    column ∈ row.columns ↔ ∃ value, row.get? column = some value := by
  simp only [get?, lookup_eq_some_iff_mem row.distinct, columns, List.mem_map, Prod.exists,
    exists_and_right, exists_eq_right]

/-- A row without columns is empty. -/
theorem isEmpty_iff {row : Row} : row.isEmpty ↔ row.columns = [] := by
  rw [isEmpty, columns, List.isEmpty_iff, List.map_eq_nil_iff]

variable {functions : FunctionSet} {columns : List Text} {row : Row}

/-- A row fits when it has no other column and a cell for each one. -/
theorem fits_iff :
    row.Fits functions columns ↔
      row.columns ⊆ columns ∧ ∀ column ∈ columns, ∃ cell, row.HasCell functions column cell := by
  constructor
  · intro fits
    refine ⟨fun column member => (fits.columns column).mp member, fun column member => ?_⟩
    obtain ⟨value, assigned⟩ := mem_columns_iff.mp ((fits.columns column).mpr member)
    obtain ⟨cell, written⟩ :=
      fits.values (column, value) ((lookup_eq_some_iff_mem row.distinct).mp assigned)
    exact ⟨cell, value, assigned, written⟩
  · rintro ⟨native, cells⟩
    refine ⟨fun column => ⟨fun member => native member, fun member => ?_⟩,
      fun (column, value) member => ?_⟩
    · obtain ⟨_, value, assigned, _⟩ := cells column member
      exact mem_columns_iff.mpr ⟨value, assigned⟩
    · have assigned := (lookup_eq_some_iff_mem row.distinct).mpr member
      obtain ⟨cell, other, found, written⟩ :=
        cells column (native (mem_columns_iff.mpr ⟨value, assigned⟩))
      obtain rfl : value = other := Option.some.inj (assigned.symm.trans found)
      exact ⟨cell, written⟩

/-- A row fits when it has no other column and a tuple under the columns. -/
theorem exists_isTuple_iff :
    (∃ tuple, row.columns ⊆ columns ∧ row.IsTuple functions columns tuple) ↔
      row.Fits functions columns := by
  rw [fits_iff, exists_and_left, ← exists_forall₂_iff]
  refine and_congr_right fun _ => ⟨?_, ?_⟩
  · rintro ⟨_, cells, written, _⟩
    exact ⟨cells, written⟩
  · rintro ⟨cells, written⟩
    exact ⟨_, cells, written, rfl⟩

end Row

/-! ## Tuples -/

namespace Insert

variable {functions : FunctionSet} {columns : List Text} {index : Nat} {row : Row}

theorem cellSql_eq_ok {column cell : Text} :
    cellSql functions index row column = .ok cell ↔ row.HasCell functions column cell := by
  unfold cellSql Row.HasCell
  cases row.get? column <;> simp

theorem cellSql_eq_error {column : Text} {fault : Error} :
    cellSql functions index row column = .error fault ↔
      (column ∉ row.columns ∧ fault = .missingField (.insertColumn column index)) ∨
        ∃ value, row.get? column = some value ∧ value.sql functions = .error fault := by
  unfold cellSql
  rw [Row.mem_columns_iff]
  cases row.get? column <;> simp [eq_comm]

/-- When no column of a row is found to be foreign, all of them are native. -/
theorem native_of_find? (noForeign : row.columns.find? (fun column => !columns.contains column) =
    none) : row.columns ⊆ columns :=
  fun column member => by simpa using List.find?_eq_none.mp noForeign column member

/-- A row is written as the tuple of its cells, if it has no other column. -/
theorem tupleSql_eq_ok {tuple : Text} :
    tupleSql functions columns index row = .ok tuple ↔
      row.columns ⊆ columns ∧ row.IsTuple functions columns tuple := by
  unfold tupleSql
  split
  · rename_i column found
    have isForeign := List.find?_some found
    refine ⟨nofun, fun fits => absurd (fits.1 (List.mem_of_find?_eq_some found)) ?_⟩
    simpa using isForeign
  · rename_i noForeign
    have native := native_of_find? noForeign
    rw [bind_eq_ok]
    simp only [mapM_eq_ok, cellSql_eq_ok, native, true_and]
    exact exists_congr fun cells => and_congr_right fun _ =>
      ⟨fun same => (Except.ok.inj same).symm, fun same => congrArg Except.ok same.symm⟩

/-- A row that is not written fails with the error of a misfit. -/
theorem tupleSql_eq_error {fault : Error} :
    tupleSql functions columns index row = .error fault ↔
      row.Misfit functions columns index fault := by
  unfold tupleSql
  split
  · rename_i column found
    obtain ⟨isForeign, before, behind, split, native⟩ := List.find?_eq_some_iff_append.mp found
    have isForeign : column ∉ columns := by simpa using isForeign
    have native : before ⊆ columns := fun other member => by simpa using native other member
    constructor
    · intro same
      obtain rfl := Except.error.inj same
      exact .foreign split native isForeign
    · have known : ¬ row.columns ⊆ columns := fun all =>
        isForeign (all (List.mem_of_find?_eq_some found))
      rintro (⟨split', native', isForeign'⟩ | ⟨all, _, _, _⟩ | ⟨all, _, _, _, _⟩)
      · have first : row.columns.find? (fun column => !columns.contains column) = some _ :=
          List.find?_eq_some_iff_append.mpr
            ⟨by simpa using isForeign', _, _, split', fun other member => by
              simpa using native' member⟩
        rw [found] at first
        rw [Option.some.inj first]
      · exact absurd all known
      · exact absurd all known
  · rename_i noForeign
    have native := native_of_find? noForeign
    have cells : columns.mapM (cellSql functions index row) = .error fault ↔
        row.Misfit functions columns index fault := by
      rw [mapM_eq_error]
      simp only [cellSql_eq_ok, cellSql_eq_error]
      constructor
      · rintro ⟨before, column, behind, split, earlier, fails⟩
        rcases fails with ⟨isMissing, rfl⟩ | ⟨value, assigned, failed⟩
        · exact .missing native split earlier isMissing
        · exact .unwritable native split earlier assigned failed
      · rintro (⟨split, _, isForeign⟩ | ⟨_, split, earlier, isMissing⟩ |
          ⟨_, split, earlier, assigned, failed⟩)
        · exact absurd (native (split ▸ List.mem_append_right _ List.mem_cons_self)) isForeign
        · exact ⟨_, _, _, split, earlier, .inl ⟨isMissing, rfl⟩⟩
        · exact ⟨_, _, _, split, earlier, .inr ⟨_, assigned, failed⟩⟩
    rw [← cells, bind_eq_error]
    simp [pure, Except.pure]

/-- A row is written exactly when it fits the columns. -/
theorem tupleSql_isOk_iff (index : Nat) :
    (∃ tuple, tupleSql functions columns index row = .ok tuple) ↔ row.Fits functions columns := by
  simp only [tupleSql_eq_ok, Row.exists_isTuple_iff]

/-- Rows are written as their tuples, if none has another column. -/
theorem tuplesSql_eq_ok {rows : List Row} {tuples : List Text} :
    tuplesSql functions columns index rows = .ok tuples ↔
      List.Forall₂ (fun row tuple => row.columns ⊆ columns ∧ row.IsTuple functions columns tuple)
        rows tuples := by
  induction rows generalizing index tuples with
  | nil =>
      rw [tuplesSql, List.forall₂_nil_left_iff]
      exact ⟨fun same => (Except.ok.inj same).symm, fun same => same ▸ rfl⟩
  | cons row rest ih =>
      simp only [tuplesSql, bind_eq_ok, tupleSql_eq_ok, ih, List.forall₂_cons_left_iff]
      constructor
      · rintro ⟨tuple, head, others, tail, same⟩
        exact ⟨tuple, others, head, tail, (Except.ok.inj same).symm⟩
      · rintro ⟨tuple, others, head, tail, rfl⟩
        exact ⟨tuple, head, others, tail, rfl⟩

/-- Rows are all written exactly when they all fit the columns. -/
theorem tuplesSql_isOk_iff (index : Nat) {rows : List Row} :
    (∃ tuples, tuplesSql functions columns index rows = .ok tuples) ↔
      ∀ row ∈ rows, row.Fits functions columns := by
  simp only [tuplesSql_eq_ok, exists_forall₂_iff, Row.exists_isTuple_iff]

/-- Among rows of which some do not fit, the first of these decides the error. -/
theorem tuplesSql_eq_error {before behind : List Row} {fault : Error}
    (earlier : ∀ other ∈ before, other.Fits functions columns)
    (misfit : ¬ row.Fits functions columns) :
    tuplesSql functions columns index (before ++ row :: behind) = .error fault ↔
      row.Misfit functions columns (index + before.length) fault := by
  induction before generalizing index with
  | nil =>
      have unwritten : ∀ tuple, tupleSql functions columns index row ≠ .ok tuple :=
        fun tuple ok => misfit ((tupleSql_isOk_iff index).mp ⟨tuple, ok⟩)
      rw [List.nil_append, tuplesSql, bind_eq_error, tupleSql_eq_error]
      simp [unwritten]
  | cons first rest ih =>
      obtain ⟨head, others⟩ := List.forall_mem_cons.mp earlier
      obtain ⟨tuple, written⟩ := (tupleSql_isOk_iff index).mpr head
      have position : index + (first :: rest).length = index + 1 + rest.length := by
        rw [List.length_cons]
        omega
      rw [List.cons_append, tuplesSql, written, position, ← ih others]
      exact bind_eq_error.trans (by simp [bind_eq_error, pure, Except.pure])

/-! ## Statements -/

/-- The columns that the first row names, of which there are some. -/
def Names (query : Insert) (columns : List Text) : Prop :=
  query.rows.head?.map Row.columns = some columns ∧ columns ≠ []

/-- The statement with the quoted names of columns and the tuples under them. -/
def statementOf (table : TableRef) (names tuples : List Text) : Statement :=
  ⟨.insert, "INSERT INTO " ++ table.name ++ " (" ++ Text.joined ", " names ++ ") VALUES "
    ++ Text.joined ", " tuples ++ ";"⟩

variable {query : Insert} {table : TableRef}

theorem columnsOf_eq_ok : columnsOf query.rows = .ok columns ↔ query.Names columns := by
  unfold columnsOf Names
  cases query.rows with
  | nil => simp
  | cons first rest =>
      simp only [Row.isEmpty_iff, List.head?_cons, Option.map_some, Option.some.injEq]
      split_ifs with none
      · simpa using fun same => same ▸ none
      · simpa using fun same => same ▸ none

/-- An insertion whose table and columns are known writes its rows and then quotes the columns. -/
theorem build_of_names (resolved : Query.resolveTable query.table = .ok table)
    (named : query.Names columns) :
    query.build functions = (tuplesSql functions columns 0 query.rows >>= fun tuples =>
      columns.mapM Column.quote >>= fun names => .ok (statementOf table names tuples)) := by
  unfold build sql
  rw [resolved, columnsOf_eq_ok.mpr named]
  change (tuplesSql functions columns 0 query.rows >>= fun tuples =>
    columns.mapM Column.quote >>= fun names => pure _) >>= _ = _
  simp only [bind_assoc, pure_bind]
  rfl

/-- An insertion that is built has a table and names columns. -/
theorem exists_names_of_build {statement : Statement}
    (ok : query.build functions = .ok statement) :
    ∃ table columns, Query.resolveTable query.table = .ok table ∧ query.Names columns := by
  obtain ⟨_, ok, _⟩ := bind_eq_ok.mp ok
  obtain ⟨table, resolved, ok⟩ := bind_eq_ok.mp ok
  obtain ⟨columns, named, _⟩ := bind_eq_ok.mp ok
  exact ⟨table, columns, resolved, columnsOf_eq_ok.mp named⟩

/-- The statement of an insertion has the quoted columns and a tuple for each row. -/
theorem build_eq_ok {statement : Statement}
    (resolved : Query.resolveTable query.table = .ok table) (named : query.Names columns) :
    query.build functions = .ok statement ↔
      ∃ names tuples, List.Forall₂ (fun column name => Column.quote column = .ok name)
          columns names ∧
        List.Forall₂ (fun row tuple => row.columns ⊆ columns ∧ row.IsTuple functions columns tuple)
          query.rows tuples ∧
        statement = statementOf table names tuples := by
  simp only [build_of_names resolved named, bind_eq_ok, tuplesSql_eq_ok, mapM_eq_ok,
    Except.ok.injEq]
  constructor
  · rintro ⟨tuples, written, names, quoted, rfl⟩
    exact ⟨names, tuples, quoted, written, rfl⟩
  · rintro ⟨names, tuples, quoted, written, rfl⟩
    exact ⟨tuples, written, names, quoted, rfl⟩

/-- An insertion whose table and columns are known is built exactly when all its rows fit and all
its columns can be quoted. -/
theorem build_isOk_iff (resolved : Query.resolveTable query.table = .ok table)
    (named : query.Names columns) :
    (∃ statement, query.build functions = .ok statement) ↔
      (∀ row ∈ query.rows, row.Fits functions columns) ∧
        ∀ column ∈ columns, ∃ name, Column.quote column = .ok name := by
  rw [← tuplesSql_isOk_iff 0, ← mapM_isOk_iff]
  simp only [build_of_names resolved named, bind_eq_ok]
  constructor
  · rintro ⟨_, tuples, written, names, quoted, _⟩
    exact ⟨⟨tuples, written⟩, names, quoted⟩
  · rintro ⟨⟨tuples, written⟩, names, quoted⟩
    exact ⟨_, tuples, written, names, quoted, rfl⟩

/-- The first row that does not fit decides the error of an insertion. -/
theorem build_eq_error {before behind : List Row} {fault : Error}
    (resolved : Query.resolveTable query.table = .ok table) (named : query.Names columns)
    (rows : query.rows = before ++ row :: behind)
    (earlier : ∀ other ∈ before, other.Fits functions columns)
    (misfit : ¬ row.Fits functions columns) :
    query.build functions = .error fault ↔
      row.Misfit functions columns before.length fault := by
  have unwritten : ∀ tuples, tuplesSql functions columns 0 query.rows ≠ .ok tuples :=
    fun tuples ok => misfit ((tuplesSql_isOk_iff 0).mp ⟨tuples, ok⟩ row (by simp [rows]))
  rw [build_of_names resolved named, bind_eq_error, rows, tuplesSql_eq_error earlier misfit,
    Nat.zero_add, ← rows]
  simp [unwritten]

/-- The shape of an insertion.  It is built exactly when its table resolves, its first row names
columns, every row assigns these and no others to values that have SQL, and every column can be
quoted.  The statement has the quoted columns and a tuple for each row, with one cell for each
column.  The first row that does not fit decides the error, as a misfit of its number.  The order of
the columns in rows after the first makes no difference. -/
theorem build_shape (functions : FunctionSet) (query : Insert) :
    ((∃ statement, query.build functions = .ok statement) ↔
      ∃ table columns, Query.resolveTable query.table = .ok table ∧ query.Names columns ∧
        (∀ row ∈ query.rows, row.Fits functions columns) ∧
        ∀ column ∈ columns, ∃ name, Column.quote column = .ok name) ∧
    (∀ table columns, Query.resolveTable query.table = .ok table → query.Names columns →
      (∀ statement, query.build functions = .ok statement →
        ∃ names tuples, List.Forall₂ (fun column name => Column.quote column = .ok name)
            columns names ∧
          List.Forall₂ (Row.IsTuple functions columns) query.rows tuples ∧
          statement = statementOf table names tuples) ∧
      ∀ before row behind, query.rows = before ++ row :: behind →
        (∀ other ∈ before, other.Fits functions columns) → ¬ row.Fits functions columns →
        ∀ fault, query.build functions = .error fault ↔
          row.Misfit functions columns before.length fault) ∧
    ∀ other : Insert, query.table = other.table → SameRows query.rows other.rows →
      Matched Eq (query.build functions) (other.build functions) := by
  refine ⟨⟨?_, ?_⟩, ?_, fun other => build_rearranged functions⟩
  · rintro ⟨statement, ok⟩
    obtain ⟨table, columns, resolved, named⟩ := exists_names_of_build ok
    obtain ⟨fit, quoted⟩ := (build_isOk_iff resolved named).mp ⟨statement, ok⟩
    exact ⟨table, columns, resolved, named, fit, quoted⟩
  · rintro ⟨table, columns, resolved, named, fit, quoted⟩
    exact (build_isOk_iff resolved named).mpr ⟨fit, quoted⟩
  · intro table columns resolved named
    refine ⟨fun statement ok => ?_, fun before row behind rows earlier misfit fault =>
      build_eq_error resolved named rows earlier misfit⟩
    obtain ⟨names, tuples, quoted, written, same⟩ := (build_eq_ok resolved named).mp ok
    exact ⟨names, tuples, quoted, written.imp fun _ _ => And.right, same⟩

/-- Two rows that assign the same columns in different orders. -/
def twoOrders : List Row :=
  [.ofList [("guest", .text "Ann"), ("day", .text "now()")],
    .ofList [("day", .int 3), ("guest", .null)]]

/-- The same rows with their columns in one order. -/
def alignedOrders : List Row :=
  [.ofList [("guest", .text "Ann"), ("day", .text "now()")],
    .ofList [("guest", .null), ("day", .int 3)]]

/-- A row without a guest. -/
def withoutGuest : Row :=
  .ofList [("day", .float .nan)]

/-- The two rows are written as if their columns stood in one order.  A third row without a guest is
refused for that, since the day that has no SQL comes later. -/
theorem build_shape_orders :
    Query.resolveTable "orders" = .ok ⟨none, "orders", none⟩ ∧
    Names ⟨"orders", twoOrders⟩ ["guest", "day"] ∧
    (∀ row ∈ twoOrders, row.Fits .standard ["guest", "day"]) ∧
    (∀ column ∈ (["guest", "day"] : List Text), ∃ name, Column.quote column = .ok name) ∧
    (∃ statement, build .standard ⟨"orders", twoOrders⟩ = .ok statement) ∧
    SameRows twoOrders alignedOrders ∧
    Matched Eq (build .standard ⟨"orders", twoOrders⟩) (build .standard ⟨"orders", alignedOrders⟩) ∧
    ¬ withoutGuest.Fits .standard ["guest", "day"] ∧
    build .standard ⟨"orders", twoOrders ++ [withoutGuest]⟩ =
      .error (.missingField (.insertColumn "guest" 2)) := by
  have resolved : Query.resolveTable "orders" = .ok ⟨none, "orders", none⟩ := rfl
  have named : ∀ more, Names ⟨"orders", twoOrders ++ more⟩ ["guest", "day"] :=
    fun more => ⟨rfl, by decide⟩
  have fit : ∀ row ∈ twoOrders, row.Fits .standard ["guest", "day"] :=
    (tuplesSql_isOk_iff 0).mp ⟨_, rfl⟩
  have quoted : ∀ column ∈ (["guest", "day"] : List Text), ∃ name, Column.quote column = .ok name :=
    mapM_isOk_iff.mp ⟨_, rfl⟩
  have misfit : ¬ withoutGuest.Fits .standard ["guest", "day"] := fun fits =>
    absurd ((fits.columns "guest").mpr List.mem_cons_self) (by decide)
  have same : SameRows twoOrders alignedOrders :=
    ⟨rfl, .cons (.refl _) (.cons (.swap _ _ []) .nil)⟩
  obtain ⟨built_iff, _, rearranged⟩ := build_shape .standard ⟨"orders", twoOrders⟩
  have built := built_iff.mpr ⟨_, _, resolved, named [], fit, quoted⟩
  obtain ⟨_, refused⟩ := (build_shape .standard ⟨"orders", twoOrders ++ [withoutGuest]⟩).2.1 _ _
    resolved (named [withoutGuest])
  refine ⟨resolved, named [], fit, quoted, built, same, rearranged _ rfl same, misfit, ?_⟩
  refine (refused twoOrders withoutGuest [] rfl fit misfit _).mpr ?_
  exact .missing (by decide) (List.nil_append _).symm nofun (by decide)

end Insert

end SqlComposer
