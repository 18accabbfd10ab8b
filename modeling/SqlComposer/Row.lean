import SqlComposer.Value.Basic

/-!
# Rows

A row assigns values to columns.  Its columns are distinct and stand in the
order in which they were first assigned; assigning a column again replaces its
value where it stands.  Columns are compared as written.

The distinctness is part of the type (`Row.distinct`), and `columns_put` is what
keeps it: an assignment changes no column but for adding a new one at the end.
-/

namespace SqlComposer

set_option autoImplicit false

namespace Row

/-- Assigns a column in a list of entries, at its place or at the end. -/
def put (column : Text) (value : Value) : List (Text × Value) → List (Text × Value)
  | [] => [(column, value)]
  | (other, old) :: rest =>
      if other = column then (other, value) :: rest else (other, old) :: put column value rest

/-- The columns stay as they were, or have the assigned one at their end if it was not there. -/
theorem columns_put (column : Text) (value : Value) (entries : List (Text × Value)) :
    (put column value entries).map Prod.fst =
      if column ∈ entries.map Prod.fst then entries.map Prod.fst
      else entries.map Prod.fst ++ [column] := by
  induction entries with
  | nil => rfl
  | cons entry rest ih =>
      obtain ⟨other, old⟩ := entry
      by_cases same : other = column
      · simp [put, same]
      · have different : column ≠ other := fun h => same h.symm
        simp only [put, if_neg same, List.map_cons, ih, List.mem_cons, different, false_or]
        split <;> simp

/-- An assignment keeps the columns distinct. -/
theorem nodup_columns_put (column : Text) (value : Value) (entries : List (Text × Value))
    (h : (entries.map Prod.fst).Nodup) : ((put column value entries).map Prod.fst).Nodup := by
  rw [columns_put]
  split
  · exact h
  · rename_i new
    exact List.nodup_append.mpr
      ⟨h, by simp, fun name member _ last =>
        fun same => new (by simp_all)⟩

end Row

/-- Values of distinct columns, in the order in which the columns were first assigned. -/
structure Row where
  entries : List (Text × Value)
  distinct : (entries.map Prod.fst).Nodup
  deriving DecidableEq

namespace Row

def empty : Row :=
  ⟨[], List.nodup_nil⟩

def assign (row : Row) (column : Text) (value : Value) : Row :=
  ⟨put column value row.entries, nodup_columns_put column value row.entries row.distinct⟩

def assignAll (row : Row) (assignments : List (Text × Value)) : Row :=
  assignments.foldl (fun row (column, value) => row.assign column value) row

def ofList (assignments : List (Text × Value)) : Row :=
  empty.assignAll assignments

def columns (row : Row) : List Text :=
  row.entries.map Prod.fst

def get? (row : Row) (column : Text) : Option Value :=
  row.entries.lookup column

def contains (row : Row) (column : Text) : Bool :=
  (row.get? column).isSome

def size (row : Row) : Nat :=
  row.entries.length

def isEmpty (row : Row) : Bool :=
  row.entries.isEmpty

end Row

end SqlComposer
