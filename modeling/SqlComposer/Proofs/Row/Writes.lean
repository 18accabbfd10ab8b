import Mathlib.Data.List.Induction
import Mathlib.Tactic.SplitIfs
import SqlComposer.Query.Update

/-!
# Rows told by their writes

A row comes about by writes, pairs of a column and a value that are collected from a list or
assigned one after the other.  However long ago a column was written first, it keeps its
place; however often it was written, it has the value that was written last
(`Row.KeepsLast`).  One more write changes the row in the same way as it changes what was
written last (`Row.keepsLast_concat`), and so a row keeps the last values of any sequence of
writes (`Row.keepsLast_of_writes`).

The data of a change are such a row.  To merge a row is to write its entries again, so that
only the sequence of all entries counts, whatever the steps were that brought them in.
-/

namespace SqlComposer

set_option autoImplicit false

namespace Row

/-! ## One write -/

theorem lookup_cons_eq_if (first other : Text) (value : Value) (rest : List (Text × Value)) :
    ((first, value) :: rest).lookup other =
      if other = first then some value else rest.lookup other := by
  rw [List.lookup_cons]
  by_cases same : other = first
  · rw [beq_iff_eq.mpr same, if_pos same]
  · rw [beq_eq_false_iff_ne.mpr same, if_neg same]

/-- A column has the value that it was last assigned. -/
theorem lookup_put (column other : Text) (value : Value) (entries : List (Text × Value)) :
    (put column value entries).lookup other =
      if other = column then some value else entries.lookup other := by
  induction entries with
  | nil => exact lookup_cons_eq_if column other value []
  | cons entry rest ih =>
      obtain ⟨first, old⟩ := entry
      by_cases here : first = column
      · subst here
        rw [put, if_pos rfl, lookup_cons_eq_if, lookup_cons_eq_if]
        split_ifs <;> rfl
      · rw [put, if_neg here, lookup_cons_eq_if, lookup_cons_eq_if, ih]
        by_cases atFirst : other = first
        · subst atFirst
          rw [if_pos rfl, if_neg here, if_pos rfl]
        · rw [if_neg atFirst, if_neg atFirst]

theorem get?_assign (row : Row) (column other : Text) (value : Value) :
    (row.assign column value).get? other = if other = column then some value else row.get? other :=
  lookup_put column other value row.entries

theorem columns_assign (row : Row) (column : Text) (value : Value) :
    (row.assign column value).columns =
      if column ∈ row.columns then row.columns else row.columns ++ [column] :=
  columns_put column value row.entries

/-- A column has no value exactly when it is not there. -/
theorem get?_eq_none_iff {row : Row} {column : Text} :
    row.get? column = none ↔ column ∉ row.columns := by
  rw [get?, List.lookup_eq_none_iff, columns]
  constructor
  · intro different member
    obtain ⟨entry, inRow, same⟩ := List.mem_map.mp member
    exact bne_iff_ne.mp (different entry inRow) same.symm
  · intro missing entry inRow
    apply bne_iff_ne.mpr
    intro same
    exact missing (List.mem_map.mpr ⟨entry, inRow, same.symm⟩)

/-- More writes go on from the row that the earlier ones made. -/
theorem ofList_append (earlier later : List (Text × Value)) :
    ofList (earlier ++ later) = (ofList earlier).assignAll later :=
  List.foldl_append

/-! ## What was written last -/

/-- The value is the one that was written for the column last. -/
def LastWritten (writes : List (Text × Value)) (column : Text) (value : Value) : Prop :=
  ∃ before behind, writes = before ++ (column, value) :: behind ∧ column ∉ behind.map Prod.fst

/-- One more write is the last one for its column and makes no difference to others. -/
theorem lastWritten_concat {writes : List (Text × Value)} {last : Text × Value} {column : Text}
    {value : Value} :
    LastWritten (writes ++ [last]) column value ↔
      if column = last.1 then value = last.2 else LastWritten writes column value := by
  constructor
  · rintro ⟨before, behind, split, notBehind⟩
    cases behind using List.reverseRecOn with
    | nil =>
        obtain ⟨_, here⟩ := List.append_inj' split rfl
        obtain rfl : last = (column, value) := List.singleton_inj.mp here
        rw [if_pos rfl]
    | append_singleton behind final =>
        rw [← List.cons_append, ← List.append_assoc] at split
        obtain ⟨earlier, here⟩ := List.append_inj' split rfl
        obtain rfl : last = final := List.singleton_inj.mp here
        rw [List.map_append, List.mem_append, not_or] at notBehind
        have other : column ≠ last.1 := by
          intro same
          exact notBehind.2 (List.mem_singleton.mpr same)
        rw [if_neg other]
        exact ⟨before, behind, earlier, notBehind.1⟩
  · intro written
    split_ifs at written with same
    · subst same written
      exact ⟨writes, [], rfl, List.not_mem_nil⟩
    · obtain ⟨before, behind, split, notBehind⟩ := written
      refine ⟨before, behind ++ [last], ?_, ?_⟩
      · rw [split, List.append_assoc, List.cons_append]
      · rw [List.map_append, List.mem_append, not_or]
        exact ⟨notBehind, fun here => same (List.mem_singleton.mp here)⟩

/-- One more name is a new one only if it was not there. -/
theorem eraseDups_concat (names : List Text) (name : Text) :
    (names ++ [name]).eraseDups =
      if name ∈ names.eraseDups then names.eraseDups else names.eraseDups ++ [name] := by
  rw [List.eraseDups_append]
  by_cases member : name ∈ names
  · simp [List.removeAll, member]
  · simp [List.removeAll, member, List.eraseDups_cons]

/-- Of the writes the row keeps every column once, in the order of the first writes, and with the
value that was written last. -/
structure KeepsLast (writes : List (Text × Value)) (row : Row) : Prop where
  distinct : row.columns.Nodup
  columns : row.columns = (writes.map Prod.fst).eraseDups
  value_iff : ∀ column value, row.get? column = some value ↔ LastWritten writes column value
  none_iff : ∀ column, row.get? column = none ↔ column ∉ writes.map Prod.fst
  contains_iff : ∀ column, row.contains column ↔ column ∈ writes.map Prod.fst
  size : row.size = (writes.map Prod.fst).eraseDups.length
  isEmpty_iff : row.isEmpty ↔ writes = []

/-- The columns in order and their values decide all the rest. -/
theorem KeepsLast.of_columns {writes : List (Text × Value)} {row : Row}
    (columns : row.columns = (writes.map Prod.fst).eraseDups)
    (values : ∀ column value, row.get? column = some value ↔ LastWritten writes column value) :
    KeepsLast writes row := by
  have none_iff : ∀ column, row.get? column = none ↔ column ∉ writes.map Prod.fst := by
    intro column
    rw [get?_eq_none_iff, columns, List.mem_eraseDups]
  refine ⟨row.distinct, columns, values, none_iff, ?_, ?_, ?_⟩
  · intro column
    rw [contains, Option.isSome_iff_ne_none, Ne, none_iff, Decidable.not_not]
  · rw [Row.size, ← columns, Row.columns, List.length_map]
  · rw [isEmpty, List.isEmpty_iff, ← List.map_eq_nil_iff (f := Prod.fst), ← Row.columns, columns]
    cases writes with
    | nil => simp
    | cons first rest => simp [List.eraseDups_cons]

/-- The row without columns keeps all of no writes. -/
theorem keepsLast_empty : KeepsLast [] empty := by
  refine .of_columns rfl fun column value => ?_
  constructor
  · intro found
    cases found
  · rintro ⟨before, behind, split, _⟩
    simp at split

/-- One more write is kept by assigning it. -/
theorem keepsLast_concat {writes : List (Text × Value)} {row : Row} (kept : KeepsLast writes row)
    (last : Text × Value) : KeepsLast (writes ++ [last]) (row.assign last.1 last.2) := by
  apply KeepsLast.of_columns
  · rw [columns_assign, kept.columns, List.map_append, List.map_singleton, eraseDups_concat]
  · intro column value
    rw [get?_assign, lastWritten_concat]
    by_cases same : column = last.1
    · rw [if_pos same, if_pos same, Option.some_inj, eq_comm]
    · rw [if_neg same, if_neg same, kept.value_iff]

/-- A row that was collected keeps the last values of its writes. -/
theorem keepsLast_ofList (writes : List (Text × Value)) : KeepsLast writes (ofList writes) := by
  induction writes using List.reverseRecOn with
  | nil => exact keepsLast_empty
  | append_singleton earlier last ih =>
      rw [ofList_append]
      exact keepsLast_concat ih last

end Row

/-! ## The data of a change -/

namespace Update

/-- The writes of a step to the data. -/
def Step.writes : Step → List (Text × Value)
  | .assign column value => [(column, value)]
  | .data row => row.entries
  | _ => []

/-- A step writes to the data what it says, and does nothing else to them. -/
theorem data_apply (query : Update) (step : Step) :
    (query.apply step).data = query.data.assignAll step.writes := by
  cases step <;> rfl

/-- The data after steps are what all their writes make of the data before. -/
theorem data_applyAll (query : Update) (steps : List Step) :
    (query.applyAll steps).data = query.data.assignAll (steps.flatMap Step.writes) := by
  induction steps generalizing query with
  | nil => rfl
  | cons step rest ih =>
      have first : query.applyAll (step :: rest) = (query.apply step).applyAll rest := rfl
      rw [first, ih, data_apply, List.flatMap_cons, Row.assignAll, Row.assignAll, Row.assignAll,
        List.foldl_append]

/-- Assignments one after the other change nothing but the data. -/
theorem applyAll_assign (query : Update) (writes : List (Text × Value)) :
    query.applyAll (writes.map fun write => .assign write.1 write.2) =
      { query with data := query.data.assignAll writes } := by
  induction writes generalizing query with
  | nil => rfl
  | cons write rest ih => exact ih (query.apply (.assign write.1 write.2))

end Update

/-- A row that is collected from writes and assigned more of them keeps the columns in the order of
their first writes, each once and with the value written last.  Merging a row into a change is
assigning its entries one by one; so the data of a change keep the last values of all writes of its
steps, and of two rows that are merged they are the row of the entries of both. -/
theorem Row.keepsLast_of_writes (table : Text) :
    (∀ collected assigned : List (Text × Value),
      KeepsLast (collected ++ assigned) ((ofList collected).assignAll assigned)) ∧
    (∀ (query : Update) (row : Row),
      query.apply (.data row) =
        query.applyAll (row.entries.map fun entry => .assign entry.1 entry.2)) ∧
    (∀ steps : List Update.Step,
      KeepsLast (steps.flatMap Update.Step.writes) ((Update.ofTable table).applyAll steps).data) ∧
    ∀ first second : Row,
      ((Update.ofTable table).applyAll [.data first, .data second]).data =
        ofList (first.entries ++ second.entries) := by
  refine ⟨?_, ?_, ?_, ?_⟩
  · intro collected assigned
    rw [← ofList_append]
    exact keepsLast_ofList _
  · intro query row
    exact (query.applyAll_assign row.entries).symm
  · intro steps
    rw [Update.data_applyAll]
    exact keepsLast_ofList _
  · intro first second
    rw [Update.data_applyAll, List.flatMap_cons, List.flatMap_singleton]
    rfl

/-- The first column keeps its place when it is written again. -/
example :
    ((Row.ofList [("a", .int 1), ("b", .int 2)]).assign "a" (.int 3)).entries =
      [("a".toList, .int 3), ("b".toList, .int 2)] := by
  decide

end SqlComposer
