import SqlComposer.Proofs.Number.WholeNumbers
import SqlComposer.Proofs.Outcome
import SqlComposer.Proofs.Query.Interleaving

/-!
# Pages of rows

A query that is split into pages shows, on each page, the rows of one window: at most so
many rows as the page has room for, behind those of the pages before.  The window is read
off the end of the statement, and no statement ends in two windows
(`Select.EndsInWindow.unique`).

A page has room for one row at least, so its limit is never the zero that leaves the limit
away, and the whole window is written whatever the query asked for before
(`Select.build_paginate`).  As long as the number of rows before a page is a word of 64
bits, the row at an index is on the page that the quotient of the index and the room
counts, and on no other (`Select.showsRow_iff`).  So the pages show each row once
(`Select.paginate_tiles`).

A page also forgets each limit and offset that was set before it, however such steps are
mixed with others (`Select.paginate_overrides`).
-/

namespace SqlComposer

set_option autoImplicit false

open Number (digits)

namespace Select

/-! ## Windows -/

/-- The SQL ends with a limit and an offset. -/
def EndsInWindow (sql : Text) (limit offset : Nat) : Prop :=
  ∃ front : Text, sql = front ++ " LIMIT " ++ digits limit ++ " OFFSET " ++ digits offset ++ ";"

/-- Numbers behind blanks at the end of a text are found again. -/
theorem last_number_inj {front other : Text} {first second : Nat}
    (same : front ++ ' ' :: digits first = other ++ ' ' :: digits second) :
    front = other ∧ first = second := by
  have noBlank : ∀ number : Nat, ∀ character ∈ digits number, Text.isBlank character = false :=
    fun number character member =>
      (Number.of_isDigit (Number.isDigit_of_mem_digits member)).2.2.2
  have parts := congrArg (Text.splitAtLast? Text.isBlank) same
  rw [Text.splitAtLast?_append (by decide) (noBlank first),
    Text.splitAtLast?_append (by decide) (noBlank second)] at parts
  obtain ⟨sameFront, sameDigits⟩ := Prod.mk.inj (Option.some.inj parts)
  exact ⟨sameFront, Number.digits_injective sameDigits⟩

/-- A text ends in one window at most. -/
theorem EndsInWindow.unique {sql : Text} {limit offset otherLimit otherOffset : Nat}
    (window : EndsInWindow sql limit offset) (other : EndsInWindow sql otherLimit otherOffset) :
    limit = otherLimit ∧ offset = otherOffset := by
  obtain ⟨front, rfl⟩ := window
  obtain ⟨otherFront, same⟩ := other
  have spelled : ∀ (text : Text) (first second : Nat),
      text ++ " LIMIT " ++ digits first ++ " OFFSET " ++ digits second =
        (text ++ " LIMIT" ++ ' ' :: digits first ++ " OFFSET") ++ ' ' :: digits second := by
    intro text first second
    simp [List.append_assoc]
  have beforeEnd := List.append_cancel_right same
  rw [spelled, spelled] at beforeEnd
  obtain ⟨beforeOffset, sameOffset⟩ := last_number_inj beforeEnd
  exact ⟨(last_number_inj (List.append_cancel_right beforeOffset)).2, sameOffset⟩

/-- Where a query is built, it is built with each window, and the window is written at the end. -/
theorem exists_front {functions : FunctionSet} {query : Select} {statement : Statement}
    (built : query.build functions = .ok statement) :
    ∃ front : Text, ∀ limit offset : Option UInt64,
      { query with limit, offset }.build functions =
        .ok ⟨.select, front ++ limitClause { query with limit, offset } ++
          offsetClause { query with limit, offset } ++ ";"⟩ := by
  obtain ⟨_, written, _⟩ := bind_eq_ok.mp built
  obtain ⟨table, tableOk, written⟩ := bind_eq_ok.mp written
  obtain ⟨columns, columnsOk, written⟩ := bind_eq_ok.mp written
  obtain ⟨joins, joinsOk, written⟩ := bind_eq_ok.mp written
  obtain ⟨conditions, conditionsOk, written⟩ := bind_eq_ok.mp written
  obtain ⟨groupConditions, groupOk, _⟩ := bind_eq_ok.mp written
  simp only [build, sql, bind, Except.bind, tableOk, columnsOk, joinsOk, conditionsOk, groupOk]
  exact ⟨_, fun _ _ => rfl⟩

/-! ## The window of a page -/

/-- How many rows there is room for on a page. -/
def pageSize (perPage : UInt64) : Nat :=
  max perPage.toNat 1

/-- How many rows the pages before a page have room for. -/
def rowsBefore (page perPage : UInt64) : Nat :=
  (page.toNat - 1) * pageSize perPage

theorem pageSize_pos (perPage : UInt64) : 0 < pageSize perPage :=
  Nat.le_max_right _ _

theorem toNat_pageSize (perPage : UInt64) : (max perPage 1).toNat = pageSize perPage :=
  UInt64.toNat_max _ _

/-- The offset that is calculated in words is the number of rows before the page, if this is a word. -/
theorem toNat_rowsBefore {page perPage : UInt64} (fits : rowsBefore page perPage < 2 ^ 64) :
    ((max page 1 - 1) * max perPage 1).toNat = rowsBefore page perPage := by
  have positive : 1 ≤ max page 1 := by
    rw [UInt64.le_iff_toNat_le, UInt64.toNat_max]
    exact Nat.le_max_right _ _
  have pages : (max page 1 - 1).toNat = page.toNat - 1 := by
    rw [UInt64.toNat_sub_of_le _ _ positive, UInt64.toNat_max, UInt64.toNat_one]
    omega
  rw [UInt64.toNat_mul, pages, toNat_pageSize]
  exact Nat.mod_eq_of_lt fits

/-- On a page, the statement of the query has a row among those of the window that it ends in. -/
def ShowsRow (functions : FunctionSet) (query : Select) (page perPage : UInt64) (row : Nat) : Prop :=
  ∃ shown limit offset, (query.apply (.paginate page perPage)).build functions = .ok shown ∧
    EndsInWindow shown.sql limit offset ∧ offset ≤ row ∧ row < offset + limit

section Page

variable {functions : FunctionSet} {query : Select} {statement : Statement}
  (built : query.build functions = .ok statement)
include built

/-- A query that is built is built with each page, and the statement ends in the window of the page. -/
theorem build_paginate (page perPage : UInt64) :
    ∃ shown, (query.apply (.paginate page perPage)).build functions = .ok shown ∧
      EndsInWindow shown.sql (pageSize perPage) ((max page 1 - 1) * max perPage 1).toNat := by
  obtain ⟨front, shown⟩ := exists_front built
  refine ⟨_, shown (some (max perPage 1)) (some ((max page 1 - 1) * max perPage 1)), front, ?_⟩
  have notZero : max perPage 1 ≠ 0 := by
    rw [Ne, ← UInt64.toNat_inj, toNat_pageSize]
    exact (pageSize_pos perPage).ne'
  simp only [limitClause, offsetClause, if_neg notZero, toNat_pageSize, List.append_assoc]

theorem showsRow_iff {page perPage : UInt64} (fits : rowsBefore page perPage < 2 ^ 64) {row : Nat} :
    query.ShowsRow functions page perPage row ↔ page.toNat - 1 = row / pageSize perPage := by
  obtain ⟨shown, shownOk, window⟩ := build_paginate built page perPage
  rw [toNat_rowsBefore fits] at window
  have inWindow : query.ShowsRow functions page perPage row ↔
      rowsBefore page perPage ≤ row ∧ row < rowsBefore page perPage + pageSize perPage := by
    constructor
    · rintro ⟨other, limit, offset, otherOk, otherWindow, start, stop⟩
      obtain rfl : shown = other := Except.ok.inj (shownOk.symm.trans otherOk)
      obtain ⟨rfl, rfl⟩ := window.unique otherWindow
      exact ⟨start, stop⟩
    · exact fun inside => ⟨shown, _, _, shownOk, window, inside⟩
  rw [inWindow, rowsBefore, eq_comm, Nat.div_eq_iff (pageSize_pos perPage)]
  have := pageSize_pos perPage
  omega

end Page

/-! ## Windows that a page replaces -/

/-- The query without the window that it asks for. -/
def withoutWindow (query : Select) : Select :=
  { query with limit := none, offset := none }

theorem apply_paginate_withoutWindow (query : Select) (page perPage : UInt64) :
    query.withoutWindow.apply (.paginate page perPage) = query.apply (.paginate page perPage) :=
  rfl

/-- A step on the window leaves everything else, and another step does not read the window. -/
theorem withoutWindow_apply (query : Select) (step : Step) :
    (query.apply step).withoutWindow =
      if step.clause = .window then query.withoutWindow else query.withoutWindow.apply step := by
  cases step <;> rfl

/-- But for the window, the steps on it make no difference to a query. -/
theorem withoutWindow_applyAll (query : Select) (steps : List Step) :
    (query.applyAll steps).withoutWindow =
      query.withoutWindow.applyAll (steps.filter (·.clause ≠ .window)) := by
  induction steps generalizing query with
  | nil => rfl
  | cons step rest ih =>
      have first : (query.applyAll (step :: rest)).withoutWindow =
          (query.apply step).withoutWindow.applyAll (rest.filter (·.clause ≠ .window)) :=
        ih (query.apply step)
      rw [first, withoutWindow_apply]
      by_cases onWindow : step.clause = .window
      · rw [if_pos onWindow, List.filter_cons_of_neg (by simpa using onWindow)]
      · rw [if_neg onWindow, List.filter_cons_of_pos (by simpa using onWindow)]
        rfl

/-- A page replaces the window that the query had and all that earlier steps made of it. -/
theorem paginate_overrides (query : Select) (limit offset : Option UInt64) (steps : List Step)
    (page perPage : UInt64) :
    ({ query with limit, offset }.applyAll steps).apply (.paginate page perPage) =
      (query.applyAll (steps.filter (·.clause ≠ .window))).apply (.paginate page perPage) := by
  have sameElsewhere : { query with limit, offset }.withoutWindow = query.withoutWindow := rfl
  have kept : (steps.filter (·.clause ≠ .window)).filter (·.clause ≠ .window) =
      steps.filter (·.clause ≠ .window) := by
    simp only [List.filter_filter, Bool.and_self]
  rw [← apply_paginate_withoutWindow, withoutWindow_applyAll, sameElsewhere,
    ← apply_paginate_withoutWindow (query.applyAll _), withoutWindow_applyAll, kept]

/-! ## All pages -/

/-- The pages of a query that is built show each row once.  The first page is also page zero, and a
page has room for one row also when it should have room for none.  A page replaces each window
that was set before it, and it is always written with its limit. -/
theorem paginate_tiles {functions : FunctionSet} {query : Select} {statement : Statement}
    (built : query.build functions = .ok statement) :
    (∀ (perPage : UInt64) (row : Nat), row < 2 ^ 64 - 1 →
      ∃! page : UInt64, 1 ≤ page ∧ (page.toNat - 1) * max perPage.toNat 1 < 2 ^ 64 ∧
        query.ShowsRow functions page perPage row) ∧
    (∀ perPage, query.apply (.paginate 0 perPage) = query.apply (.paginate 1 perPage)) ∧
    (∀ page, query.apply (.paginate page 0) = query.apply (.paginate page 1)) ∧
    (∀ limit offset steps page perPage,
      ({ query with limit, offset }.applyAll steps).apply (.paginate page perPage) =
        (query.applyAll (steps.filter (·.clause ≠ .window))).apply (.paginate page perPage)) ∧
    ∀ page perPage : UInt64, ∃ shown offset,
      (query.apply (.paginate page perPage)).build functions = .ok shown ∧
        EndsInWindow shown.sql (max perPage.toNat 1) offset := by
  refine ⟨fun perPage row small => ?_, fun _ => rfl, fun _ => rfl, paginate_overrides query,
    fun page perPage => ?_⟩
  · have pagesBefore : row / pageSize perPage ≤ row := Nat.div_le_self _ _
    have rows : row / pageSize perPage * pageSize perPage ≤ row := Nat.div_mul_le_self _ _
    have number : (UInt64.ofNat (row / pageSize perPage + 1)).toNat = row / pageSize perPage + 1 :=
      UInt64.toNat_ofNat_of_lt' (by rw [UInt64.size]; omega)
    have fits : rowsBefore (UInt64.ofNat (row / pageSize perPage + 1)) perPage < 2 ^ 64 := by
      rw [rowsBefore, number, Nat.add_sub_cancel]
      omega
    refine ⟨UInt64.ofNat (row / pageSize perPage + 1), ⟨?_, fits, ?_⟩, ?_⟩
    · rw [UInt64.le_iff_toNat_le, number]
      exact Nat.le_add_left _ _
    · rw [showsRow_iff built fits, number, Nat.add_sub_cancel]
    · rintro page ⟨positive, fits, shows⟩
      have index := (showsRow_iff built fits).mp shows
      have positive : 1 ≤ page.toNat := UInt64.le_iff_toNat_le.mp positive
      rw [← UInt64.toNat_inj, number, ← index, Nat.sub_add_cancel positive]
  · obtain ⟨shown, shownOk, window⟩ := build_paginate built page perPage
    exact ⟨shown, _, shownOk, window⟩

/-- One page with twenty rows shows row 45 of a table. -/
theorem paginate_tiles_orders :
    (ofTable "orders").build .standard = .ok ⟨.select, "SELECT `orders`.* FROM `orders`;"⟩ ∧
      ∃! page : UInt64, 1 ≤ page ∧ (page.toNat - 1) * max (20 : UInt64).toNat 1 < 2 ^ 64 ∧
        (ofTable "orders").ShowsRow .standard page 20 45 := by
  have built : (ofTable "orders").build .standard =
      .ok ⟨.select, "SELECT `orders`.* FROM `orders`;"⟩ := rfl
  exact ⟨built, (paginate_tiles built).1 20 45 (by decide)⟩

example : ((ofTable "orders").apply (.paginate 3 20)).build .standard =
    .ok ⟨.select, "SELECT `orders`.* FROM `orders` LIMIT 20 OFFSET 40;"⟩ := rfl

end Select

end SqlComposer
