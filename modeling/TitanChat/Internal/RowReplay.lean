import Mathlib.Algebra.Ring.Int.Defs
import TitanChat.Internal.WideColumn

/-!
# Statements that are executed again

A reader of a log that loses its place executes the statements of a suffix of the log twice, all of
them and in the same order, the second time over what the first has left. What becomes of a row is
decided by the statements on that row alone. If they write cells, the second time changes nothing,
whatever the first has overwritten. If they increment a counter, it is off by the sum of the
amounts.

## Main definitions

* `Statement.hits`: the statement is on this row
* `rowAfter`: what statements make of a row
* `countOf`, `Statement.amount`: a counter, and what a statement adds to it
* `EachRow`: a property of the rows of a table

## Main results

* `perform_row`: the rows of a store, one by one
* `EachRow.apply`: what a statement has to keep
* `rowAfter_rowAfter`: cells that are written again
* `countOf_rowAfter`, `rowAfter_rowAfter_iff`: counters that are incremented again
* `commute_of_lookup_ne`: statements that bind different cells to a key column commute
-/

namespace WideColumn

open Replay Statement

variable {τ : Type}

namespace Statement

/-- The cells that a statement binds to its row. -/
def cells : Statement τ → List (String × Cell)
  | insert _ values => values
  | update _ set where_ => where_ ++ set
  | increment _ _ _ where_ => where_

/-- The statement writes cells. -/
def WritesCells : Statement τ → Prop
  | insert _ _ | update _ _ _ => True
  | increment _ _ _ _ => False

/-- The statement increments this counter. -/
def Increments (column : String) : Statement τ → Prop
  | insert _ _ | update _ _ _ => False
  | increment _ c _ _ => c = column

/-- What a statement adds to a counter. -/
def amount : Statement τ → ℤ
  | insert _ _ | update _ _ _ => 0
  | increment _ _ n _ => n

theorem WritesCells.write_eq {stmt : Statement τ} (h : stmt.WritesCells)
    (row : AList fun _ : String => Cell) : stmt.write row = stmt.cells.foldl setCell row := by
  cases stmt with
  | insert table values => rfl
  | update table set where_ => rfl
  | increment table column amount where_ => exact absurd h not_false

end Statement

/-- The value of a counter, which is 0 before the first increment. -/
def countOf (column : String) (row : Option (AList fun _ : String => Cell)) : ℤ :=
  match row.bind fun row => row.lookup column with
  | some (.int i) => i
  | _ => 0

theorem countOf_getD (column : String) (row : Option (AList fun _ : String => Cell)) :
    countOf column (some (row.getD ∅)) = countOf column row := by
  cases row with
  | none => simp [countOf]
  | some row => rfl

/-- An increment writes the next value. -/
theorem Statement.Increments.write_eq {column : String} {stmt : Statement τ}
    (h : stmt.Increments column) (row : AList fun _ : String => Cell) : stmt.write row =
      (stmt.cells ++ [(column, Cell.int (countOf column (some row) + stmt.amount))]).foldl setCell
        row := by
  cases stmt with
  | insert table values => exact absurd h not_false
  | update table set where_ => exact absurd h not_false
  | increment table c n where_ =>
    obtain rfl : c = column := h
    have hnull : Cell.int (countOf c (some row) + n) ≠ .null := nofun
    rw [List.foldl_append, List.foldl_cons, List.foldl_nil, setCell, amount, if_neg hnull]
    simp only [write, cells, countOf, Option.bind_some]
    cases hrow : row.lookup c with
    | none => simp only [zero_add]
    | some cell =>
      cases cell with
      | int i => rfl
      | _ => simp only [zero_add]

/-- The counter goes up by the amount. -/
theorem Statement.Increments.countOf_write {column : String} {stmt : Statement τ}
    (h : stmt.Increments column) (row : AList fun _ : String => Cell) :
    countOf column (some (stmt.write row)) = countOf column (some row) + stmt.amount := by
  rw [h.write_eq, List.foldl_append, List.foldl_cons, List.foldl_nil, countOf.eq_def,
    Option.bind_some, lookup_setCell, if_pos rfl, if_neg nofun]

/-! ### One row -/

/-- What some statements make of their row. -/
def rowAfter (ws : List (Statement τ)) (row : Option (AList fun _ : String => Cell)) :
    Option (AList fun _ : String => Cell) :=
  ws.foldl (fun row stmt => some (stmt.write (row.getD ∅))) row

@[simp] theorem rowAfter_nil (row : Option (AList fun _ : String => Cell)) :
    rowAfter ([] : List (Statement τ)) row = row := rfl

@[simp] theorem rowAfter_cons (stmt : Statement τ) (ws : List (Statement τ))
    (row : Option (AList fun _ : String => Cell)) :
    rowAfter (stmt :: ws) row = rowAfter ws (some (stmt.write (row.getD ∅))) := rfl

/-- Cells are written as one list. -/
theorem rowAfter_of_writesCells {stmt : Statement τ} {ws : List (Statement τ)}
    (h : ∀ st ∈ stmt :: ws, st.WritesCells) (row : Option (AList fun _ : String => Cell)) :
    rowAfter (stmt :: ws) row =
      some (((stmt :: ws).flatMap Statement.cells).foldl setCell (row.getD ∅)) := by
  induction ws generalizing stmt row with
  | nil =>
    rw [rowAfter_cons, rowAfter_nil, (h stmt List.mem_cons_self).write_eq, List.flatMap_singleton]
  | cons next ws ih =>
    rw [rowAfter_cons, ih fun st hst => h st (List.mem_cons_of_mem _ hst), Option.getD_some,
      (h stmt List.mem_cons_self).write_eq, ← List.foldl_append, ← List.flatMap_cons]

/-- **Cells that are written again are the same**, although others have been written in between. -/
theorem rowAfter_rowAfter {ws : List (Statement τ)} (h : ∀ st ∈ ws, st.WritesCells)
    (row : Option (AList fun _ : String => Cell)) :
    rowAfter ws (rowAfter ws row) = rowAfter ws row := by
  cases ws with
  | nil => rfl
  | cons stmt ws =>
    rw [rowAfter_of_writesCells h, rowAfter_of_writesCells h, Option.getD_some, setCells_setCells]

/-- The cells of some increments, from a value of the counter. -/
def tally (column : String) : ℤ → List (Statement τ) → List (String × Cell)
  | _, [] => []
  | i, stmt :: ws =>
    stmt.cells ++ (column, .int (i + stmt.amount)) :: tally column (i + stmt.amount) ws

theorem rowAfter_of_increments {column : String} {stmt : Statement τ} {ws : List (Statement τ)}
    (h : ∀ st ∈ stmt :: ws, st.Increments column) (row : Option (AList fun _ : String => Cell)) :
    rowAfter (stmt :: ws) row =
      some ((tally column (countOf column row) (stmt :: ws)).foldl setCell (row.getD ∅)) := by
  induction ws generalizing stmt row with
  | nil =>
    rw [rowAfter_cons, rowAfter_nil, (h stmt List.mem_cons_self).write_eq, countOf_getD]
    rfl
  | cons next ws ih =>
    have hstmt := h stmt List.mem_cons_self
    rw [rowAfter_cons, ih fun st hst => h st (List.mem_cons_of_mem _ hst), Option.getD_some,
      hstmt.countOf_write, hstmt.write_eq, countOf_getD, ← List.foldl_append, List.append_assoc,
      List.singleton_append]
    rfl

/-- **A counter goes up by the sum of the amounts.** -/
theorem countOf_rowAfter {column : String} {ws : List (Statement τ)}
    (h : ∀ st ∈ ws, st.Increments column) (row : Option (AList fun _ : String => Cell)) :
    countOf column (rowAfter ws row) = countOf column row + (ws.map Statement.amount).sum := by
  induction ws generalizing row with
  | nil => simp
  | cons stmt ws ih =>
    rw [List.forall_mem_cons] at h
    rw [rowAfter_cons, ih h.2, h.1.countOf_write, countOf_getD, List.map_cons, List.sum_cons,
      add_assoc]

/-- **Increments may be repeated exactly if they cancel.** -/
theorem rowAfter_rowAfter_iff {column : String} {ws : List (Statement τ)}
    (h : ∀ st ∈ ws, st.Increments column) (row : Option (AList fun _ : String => Cell)) :
    rowAfter ws (rowAfter ws row) = rowAfter ws row ↔ (ws.map Statement.amount).sum = 0 := by
  constructor
  · intro heq
    have hcount := congrArg (countOf column) heq
    rw [countOf_rowAfter h] at hcount
    omega
  · intro hsum
    cases ws with
    | nil => rfl
    | cons stmt ws =>
      rw [rowAfter_of_increments h (rowAfter (stmt :: ws) row), countOf_rowAfter h, hsum, add_zero,
        rowAfter_of_increments h, Option.getD_some, setCells_setCells]

/-! ### The rows of a store -/

variable [DecidableEq τ]

/-- The statement is on this row. -/
def Statement.hits (schema : τ → TableSchema) (table : τ) (key : List Cell) (stmt : Statement τ) :
    Bool :=
  stmt.accepted schema && stmt.table = table && (schema stmt.table).keyOf stmt.bound = some key

theorem apply_row (schema : τ → TableSchema) (db : Database τ) (stmt : Statement τ) (table : τ)
    (key : List Cell) : db.apply schema stmt table key =
      if stmt.hits schema table key then some (stmt.write ((db table key).getD ∅))
      else db table key := by
  cases hstmt : stmt.accepted schema with
  | false => simp [Database.apply_of_not_accepted hstmt, Statement.hits, hstmt]
  | true =>
    have hexecute := Database.execute_eq_apply hstmt db
    by_cases hrow : table = stmt.table ∧ (schema stmt.table).keyOf stmt.bound = some key
    · obtain ⟨rfl, hkey⟩ := hrow
      rw [Database.execute_self hexecute hkey, if_pos (by simp [Statement.hits, hstmt, hkey])]
    · rw [Database.execute_of_ne hexecute hrow, if_neg]
      simp only [Statement.hits, Bool.and_eq_true, decide_eq_true_eq, not_and]
      exact fun h hkey => hrow ⟨h.2.symm, hkey⟩

/-- **Row by row.** A row depends on the statements on it and on nothing else. -/
theorem perform_row (schema : τ → TableSchema) (db : Database τ) (ws : List (Statement τ))
    (table : τ) (key : List Cell) : perform (Database.apply schema) db ws table key =
      rowAfter (ws.filter (Statement.hits schema table key)) (db table key) := by
  induction ws generalizing db with
  | nil => rfl
  | cons stmt ws ih =>
    rw [perform_cons, ih, apply_row, List.filter_cons]
    split
    · rfl
    · rfl

/-! ### One table -/

/-- A table depends on what it was and on the statements, and on no other table. -/
theorem perform_table_congr {db db' : Database τ} {table : τ} (h : db table = db' table)
    (schema : τ → TableSchema) (ws : List (Statement τ)) :
    perform (Database.apply schema) db ws table = perform (Database.apply schema) db' ws table := by
  funext key
  rw [perform_row, perform_row, h]

section EachRow

variable {schema : τ → TableSchema} {table : τ} {db : Database τ} {stmt : Statement τ}
  {p q : List Cell → (AList fun _ : String => Cell) → Prop}

/-- Every row of the table has the property, which may depend on the key. -/
def EachRow (table : τ) (p : List Cell → (AList fun _ : String => Cell) → Prop)
    (db : Database τ) : Prop :=
  ∀ key row, db table key = some row → p key row

omit [DecidableEq τ] in
theorem eachRow_empty : EachRow table p (.empty : Database τ) := nofun

omit [DecidableEq τ] in
theorem EachRow.imp (h : EachRow table p db) (hpq : ∀ key row, p key row → q key row) :
    EachRow table q db :=
  fun key row hrow => hpq key row (h key row hrow)

/-- A statement has to see to its own row. -/
theorem EachRow.apply (h : EachRow table p db)
    (hp : stmt.table = table → ∀ key, (schema table).keyOf stmt.bound = some key →
      p key (stmt.write ((db table key).getD ∅))) :
    EachRow table p (db.apply schema stmt) := by
  intro key row hrow
  rw [apply_row] at hrow
  split at hrow
  · next hhits =>
    simp only [Statement.hits, Bool.and_eq_true, decide_eq_true_eq] at hhits
    obtain ⟨⟨-, rfl⟩, hkey⟩ := hhits
    exact Option.some.inj hrow ▸ hp rfl key hkey
  · exact h key row hrow

end EachRow

/-! ### Statements on different rows -/

/-- A column of a key is bound. -/
theorem isSome_of_keyOf {t : TableSchema} {bound : List (String × Cell)} {key : List Cell}
    (h : t.keyOf bound = some key) {column : String} (hc : column ∈ t.key) :
    ((bound.lookup column).filter (· ≠ .null)).isSome := by
  have hall (columns : List String) (key : List Cell)
      (h : columns.mapM (fun c => (bound.lookup c).filter (· ≠ .null)) = some key) :
      ∀ c ∈ columns, ((bound.lookup c).filter (· ≠ .null)).isSome := by
    induction columns generalizing key with
    | nil => exact fun c hc => absurd hc List.not_mem_nil
    | cons a columns ih =>
      simp only [List.mapM_cons, Option.pure_def, Option.bind_eq_bind, Option.bind_eq_some_iff] at h
      obtain ⟨cell, hcell, rest, hrest, -⟩ := h
      exact List.forall_mem_cons.mpr ⟨by rw [hcell]; rfl, ih rest hrest⟩
  exact hall t.key key h column hc

/-- Two statements on one row bind the same cells to its key. -/
theorem lookup_eq_of_hits {S : τ → TableSchema} {v w : Statement τ}
    {table : τ} {key : List Cell} (hv : v.hits S table key) (hw : w.hits S table key)
    {column : String} (hc : column ∈ (S table).key) :
    v.bound.lookup column = w.bound.lookup column := by
  simp only [Statement.hits, Bool.and_eq_true, decide_eq_true_eq] at hv hw
  obtain ⟨⟨-, rfl⟩, hv⟩ := hv
  obtain ⟨⟨-, htable⟩, hw⟩ := hw
  rw [htable] at hw
  have heq := (TableSchema.lookup_zip_of_keyOf hv hc).symm.trans
    (TableSchema.lookup_zip_of_keyOf hw hc)
  obtain ⟨cell, hcell⟩ := Option.isSome_iff_exists.mp (isSome_of_keyOf hv hc)
  rw [(Option.filter_eq_some_iff.mp hcell).1,
    (Option.filter_eq_some_iff.mp (heq.symm.trans hcell)).1]

/-- **Statements with different cells in a key column commute.** -/
theorem commute_of_lookup_ne {S : τ → TableSchema} {v w : Statement τ}
    {column : String} (hc : ∀ table, column ∈ (S table).key)
    (hne : v.bound.lookup column ≠ w.bound.lookup column) : Commute (Database.apply S) v w := by
  intro db
  funext table key
  have hvw := perform_row S db [v, w] table key
  have hwv := perform_row S db [w, v] table key
  rw [perform_cons, perform_cons, perform_nil] at hvw hwv
  rw [hvw, hwv]
  cases hv : v.hits S table key with
  | false => simp only [List.filter_cons, List.filter_nil, hv, Bool.false_eq_true, if_false]
  | true =>
    cases hw : w.hits S table key with
    | false => simp only [List.filter_cons, List.filter_nil, hw, Bool.false_eq_true, if_false]
    | true => exact absurd (lookup_eq_of_hits hv hw (hc table)) hne

end WideColumn
