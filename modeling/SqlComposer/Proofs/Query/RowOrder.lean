import SqlComposer.Proofs.Params.Members
import SqlComposer.Query.Insert

/-!
# The order of columns in inserted rows

The first row of an insertion gives the columns of the statement and their order.
Every later row is written in that order, so that its own order shows nowhere: an
insertion stays the same statement when its later rows assign their columns in another
order (`Insert.build_rearranged`).
-/

namespace SqlComposer

set_option autoImplicit false

/-! ## Rows in another order -/

/-- The same values of the same columns, in any order. -/
def Row.Rearranged (first second : Row) : Prop :=
  first.entries.Perm second.entries

namespace Row.Rearranged

variable {first second : Row} (rearranged : Rearranged first second)
include rearranged

/-- A column has the same value in any order. -/
theorem get?_eq (column : Text) : first.get? column = second.get? column :=
  lookup_eq_of_perm first.distinct rearranged column

theorem columns_perm : first.columns.Perm second.columns :=
  rearranged.map Prod.fst

end Row.Rearranged

/-! ## Insertions -/

namespace Insert

/-- The same rows but for the order of the columns in rows after the first. -/
structure SameRows (firsts seconds : List Row) : Prop where
  head : firsts.head? = seconds.head?
  each : List.Forall₂ Row.Rearranged firsts seconds

theorem SameRows.refl (rows : List Row) : SameRows rows rows :=
  ⟨rfl, List.forall₂_same.mpr fun row _ => .refl row.entries⟩

variable (functions : FunctionSet)

/-- A row is written alike in any order, or it is wrong in any order. -/
theorem tupleSql_rearranged (columns : List Text) (index : Nat) {first second : Row}
    (rearranged : first.Rearranged second) :
    Matched Eq (tupleSql functions columns index first)
      (tupleSql functions columns index second) := by
  have unexpected := find?_rel_of_perm rearranged.columns_perm fun column =>
    !columns.contains column
  have cells : cellSql functions index first = cellSql functions index second := by
    funext column
    rw [cellSql, cellSql, rearranged.get?_eq]
  unfold tupleSql
  rw [cells]
  generalize first.columns.find? (fun column => !columns.contains column) = extra,
    second.columns.find? (fun column => !columns.contains column) = extra' at unexpected ⊢
  cases unexpected with
  | none => exact .refl _
  | some _ => exact .error rfl

/-- Rows are written alike when each of them is in some order. -/
theorem tuplesSql_rearranged (columns : List Text) (index : Nat) {firsts seconds : List Row}
    (each : List.Forall₂ Row.Rearranged firsts seconds) :
    Matched Eq (tuplesSql functions columns index firsts)
      (tuplesSql functions columns index seconds) := by
  induction each generalizing index with
  | nil => exact .refl _
  | cons head _ ih =>
      unfold tuplesSql
      refine (tupleSql_rearranged functions columns index head).bind ?_
      rintro tuple _ rfl
      exact (ih (index + 1)).followed _

/-- An insertion does not depend on the order of the columns in rows after the first. -/
theorem build_rearranged {first second : Insert} (table : first.table = second.table)
    (rows : SameRows first.rows second.rows) :
    Matched Eq (first.build functions) (second.build functions) := by
  have columns : columnsOf first.rows = columnsOf second.rows := by
    have head := rows.head
    generalize first.rows = firsts, second.rows = seconds at head ⊢
    cases firsts <;> cases seconds <;> cases head <;> rfl
  refine Matched.followed ?_ _
  unfold sql
  rw [table, columns]
  refine (Matched.refl _).bind ?_
  rintro reference _ rfl
  refine (Matched.refl _).bind ?_
  rintro columns _ rfl
  exact (tuplesSql_rearranged functions columns 0 rows.each).followed _

end Insert

end SqlComposer
