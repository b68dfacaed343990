import Mathlib.Algebra.Group.Int.Defs
import Mathlib.Data.List.AList
import TitanChat.Internal.Replay

/-!
# A store of tables with composite keys

A table has a partition key, clustering columns and further columns, each with a type. A statement
writes one row: it is an insert or an update, which write cells whether or not the row exists, or
the increment of a counter. Statements are prepared text with positional binds, so a statement is
the table, the column names and the bound cells.

A store accepts a statement that fits its schema: every column exists and its cell is in the range
of the column's type, every key column is bound to a cell that is not null, a partition key that is
a single column is not the empty text, and counters are only incremented.

## Main definitions

* `Cell`, `ColumnType`, `TableSchema`
* `Statement`, `Statement.accepted`
* `Database`, `Database.execute`

## Main results

* `TableSchema.lookup_zip_of_keyOf`: the key of a row has the bound cells
* `execute_of_ne`: a statement changes no row but its own
* `execute_self`: and that one exists afterwards
* `apply_comm`, `apply_apply`: statements on different tables commute, and an overwrite may be
  repeated
-/

namespace WideColumn

/-- A value that is bound to a column. A timestamp is in milliseconds; null clears the column. -/
inductive Cell where
  | null
  | text (s : String)
  | int (i : ℤ)
  | boolean (b : Bool)
  | timestamp (ms : ℤ)
  deriving DecidableEq

inductive ColumnType where
  | text
  | int
  | boolean
  | timestamp
  | counter
  | map
  deriving DecidableEq

/-- The cell is in the range of the type. No cell is written to a counter. -/
def ColumnType.fits : ColumnType → Cell → Bool
  | .counter, _ => false
  | _, .null => true
  | .text, .text _ => true
  | .int, .int i => -2 ^ 31 ≤ i && i < 2 ^ 31
  | .boolean, .boolean _ => true
  | .timestamp, .timestamp ms => -2 ^ 63 ≤ ms && ms < 2 ^ 63
  | _, _ => false

namespace ColumnType

@[simp] theorem text_fits (s : String) : ColumnType.text.fits (.text s) = true := rfl

@[simp] theorem int_fits (i : ℤ) :
    ColumnType.int.fits (.int i) = decide (-2 ^ 31 ≤ i ∧ i < 2 ^ 31) := by
  rw [fits, Bool.decide_and]

@[simp] theorem boolean_fits (b : Bool) : ColumnType.boolean.fits (.boolean b) = true := rfl

end ColumnType

structure TableSchema where
  partition : List String
  clustering : List String
  columns : List (String × ColumnType)

namespace TableSchema

/-- The primary key. -/
def key (t : TableSchema) : List String := t.partition ++ t.clustering

/-- The column exists and its type has the cell. -/
def fits (t : TableSchema) (column : String) (cell : Cell) : Bool :=
  ((t.columns.lookup column).map (·.fits cell)).getD false

/-- The cells bound to the primary key, when all of it is bound. -/
def keyOf (t : TableSchema) (bound : List (String × Cell)) : Option (List Cell) :=
  t.key.mapM fun column => (bound.lookup column).filter (· ≠ .null)

/-- A partition key of one column is not the empty text. -/
def partitionNamed (t : TableSchema) (bound : List (String × Cell)) : Bool :=
  match t.partition with
  | [column] => bound.lookup column ≠ some (.text "")
  | _ => true

/-- The key has the cell that is bound to each of its columns. -/
theorem lookup_zip_of_mapM {f : String → Option Cell} {columns : List String} {key : List Cell}
    (h : columns.mapM f = some key) {column : String} (hc : column ∈ columns) :
    (columns.zip key).lookup column = f column := by
  induction columns generalizing key with
  | nil => exact absurd hc (by simp)
  | cons c cs ih =>
    simp only [List.mapM_cons, Option.pure_def, Option.bind_eq_bind, Option.bind_eq_some_iff,
      Option.some.injEq] at h
    obtain ⟨cell, hcell, rest, hrest, rfl⟩ := h
    rw [List.zip_cons_cons, List.lookup_cons]
    split
    · next heq => rw [beq_iff_eq.mp heq, hcell]
    · next hne =>
      refine ih hrest ((List.mem_cons.mp hc).resolve_left fun heq => ?_)
      rw [heq, beq_self_eq_true] at hne
      exact absurd hne (by simp)

theorem lookup_zip_of_keyOf {t : TableSchema} {bound : List (String × Cell)} {key : List Cell}
    (h : t.keyOf bound = some key) {column : String} (hc : column ∈ t.key) :
    (t.key.zip key).lookup column = (bound.lookup column).filter (· ≠ .null) :=
  lookup_zip_of_mapM h hc

end TableSchema

/-- A statement on a table of `τ`. -/
inductive Statement (τ : Type) where
  | insert (table : τ) (values : List (String × Cell))
  | update (table : τ) (set : List (String × Cell)) (where_ : List (String × Cell))
  | increment (table : τ) (column : String) (amount : ℤ) (where_ : List (String × Cell))

namespace Statement

variable {τ : Type}

def table : Statement τ → τ
  | insert table _ | update table _ _ | increment table _ _ _ => table

/-- The cells among which the key is. -/
def bound : Statement τ → List (String × Cell)
  | insert _ values => values
  | update _ _ where_ | increment _ _ _ where_ => where_

/-- The condition of a `WHERE`: exactly the key. -/
def selectsKey (t : TableSchema) (where_ : List (String × Cell)) : Bool :=
  where_.all fun c => c.1 ∈ t.key && t.fits c.1 c.2

/-- The statement fits the schema. -/
def accepted (schema : τ → TableSchema) (stmt : Statement τ) : Bool :=
  let t := schema stmt.table
  (t.keyOf stmt.bound).isSome && t.partitionNamed stmt.bound &&
    match stmt with
    | insert _ values => values.all fun c => t.fits c.1 c.2
    | update _ set where_ =>
      selectsKey t where_ && set.all fun c => c.1 ∉ t.key && t.fits c.1 c.2
    | increment _ column _ where_ =>
      selectsKey t where_ && t.columns.lookup column = some .counter

/-- Write one column of a row. -/
def setCell (row : AList fun _ : String => Cell) (c : String × Cell) :
    AList fun _ : String => Cell :=
  if c.2 = .null then row.erase c.1 else row.insert c.1 c.2

@[simp] theorem lookup_setCell (row : AList fun _ : String => Cell) (c : String × Cell)
    (column : String) : (setCell row c).lookup column =
      if c.1 = column then (if c.2 = .null then none else some c.2) else row.lookup column := by
  rw [setCell]
  split
  · split
    · next h => rw [← h, AList.lookup_erase]
    · next h => rw [AList.lookup_erase_ne (Ne.symm h)]
  · split
    · next h => rw [← h, AList.lookup_insert]
    · next h => rw [AList.lookup_insert_ne (Ne.symm h)]

/-- What the statement makes of its row. -/
def write (stmt : Statement τ) (row : AList fun _ : String => Cell) :
    AList fun _ : String => Cell :=
  match stmt with
  | insert _ values => values.foldl setCell row
  | update _ set where_ => (where_ ++ set).foldl setCell row
  | increment _ column amount where_ =>
    let r := where_.foldl setCell row
    match row.lookup column with
    | some (.int i) => r.insert column (.int (i + amount))
    | _ => r.insert column (.int amount)

end Statement

/-- The rows of each table, by primary key. -/
def Database (τ : Type) : Type := τ → List Cell → Option (AList fun _ : String => Cell)

namespace Database

variable {τ : Type} [DecidableEq τ]

/-- A store with no rows. -/
def empty : Database τ := fun _ _ => none

/-- Replace one row. -/
def setRow (db : Database τ) (table : τ) (key : List Cell) (row : AList fun _ : String => Cell) :
    Database τ :=
  fun t k => if t = table ∧ k = key then some row else db t k

/-- Execute a statement; `none` when the store refuses it. -/
def execute (schema : τ → TableSchema) (db : Database τ) (stmt : Statement τ) :
    Option (Database τ) :=
  if stmt.accepted schema then
    ((schema stmt.table).keyOf stmt.bound).map fun key =>
      db.setRow stmt.table key (stmt.write ((db stmt.table key).getD ∅))
  else none

variable {schema : τ → TableSchema} {db db' : Database τ} {stmt : Statement τ}

theorem execute_eq_none (h : stmt.accepted schema = false) : db.execute schema stmt = none := by
  simp [execute, h]

/-- An accepted statement writes the row of its key. -/
theorem execute_eq_some :
    db.execute schema stmt = some db' ↔ stmt.accepted schema ∧
      ∃ key, (schema stmt.table).keyOf stmt.bound = some key ∧
        db.setRow stmt.table key (stmt.write ((db stmt.table key).getD ∅)) = db' := by
  rw [execute]
  split
  · next h => rw [Option.map_eq_some_iff, h]; simp
  · next h => simp [h]

theorem execute_isSome : (db.execute schema stmt).isSome = stmt.accepted schema := by
  cases h : stmt.accepted schema with
  | false => rw [execute_eq_none h]; rfl
  | true =>
    have hkey : ((schema stmt.table).keyOf stmt.bound).isSome := by
      simp only [Statement.accepted, Bool.and_eq_true] at h
      exact h.1.1
    simp [execute, h, hkey]

/-- **Frame.** A statement changes no row but its own. -/
theorem execute_of_ne (h : db.execute schema stmt = some db') {table : τ} {key : List Cell}
    (hne : ¬(table = stmt.table ∧ (schema stmt.table).keyOf stmt.bound = some key)) :
    db' table key = db table key := by
  obtain ⟨-, k, hk, rfl⟩ := execute_eq_some.mp h
  rw [setRow, if_neg]
  rintro ⟨rfl, rfl⟩
  exact hne ⟨rfl, hk⟩

/-- The row of the statement exists afterwards. -/
theorem execute_self (h : db.execute schema stmt = some db') {key : List Cell}
    (hkey : (schema stmt.table).keyOf stmt.bound = some key) :
    db' stmt.table key = some (stmt.write ((db stmt.table key).getD ∅)) := by
  obtain ⟨-, k, hk, rfl⟩ := execute_eq_some.mp h
  obtain rfl := Option.some.inj (hk.symm.trans hkey)
  simp [setRow]

end Database

/-! ### Repeated statements -/

section Overwrite

open Replay

theorem kerase_eq_filter {ν : Type} {l : List (Σ _ : String, ν)} (h : l.NodupKeys) (a : String) :
    l.kerase a = l.filter fun e => e.1 ≠ a := by
  induction l with
  | nil => rfl
  | cons e l ih =>
    rw [List.nodupKeys_cons] at h
    by_cases he : a = e.1
    · have hrest : (l.filter fun e => e.1 ≠ a) = l := List.filter_eq_self.mpr fun e' he' => by
        have hne : e'.1 ≠ a := fun heq => h.1 (he ▸ heq ▸ List.mem_keys_of_mem he')
        simpa using hne
      rw [List.kerase_cons_eq he, List.filter_cons_of_neg (by simp [he]), hrest]
    · rw [List.kerase_cons_ne he, List.filter_cons_of_pos (by simpa using Ne.symm he), ih h.2]

namespace Statement

theorem entries_setCell (row : AList fun _ : String => Cell) (c : String × Cell) :
    (setCell row c).entries = (if c.2 = .null then [] else [⟨c.1, c.2⟩]) ++
      row.entries.filter fun e => e.1 ≠ c.1 := by
  rw [setCell, ← kerase_eq_filter row.nodupKeys]
  split
  · rfl
  · rw [AList.entries_insert]; rfl

/-- The cells that are written come first, and the others keep their places. -/
theorem entries_setCells (cs : List (String × Cell)) (row : AList fun _ : String => Cell) :
    (cs.foldl setCell row).entries =
      (cs.foldl setCell ∅).entries ++ row.entries.filter fun e => e.1 ∉ cs.map Prod.fst := by
  induction cs using List.reverseRecOn with
  | nil => simp
  | append_singleton cs c ih =>
    rw [List.foldl_append, List.foldl_append, List.foldl_cons, List.foldl_nil, List.foldl_cons,
      List.foldl_nil, entries_setCell, ih, entries_setCell, List.filter_append, List.filter_filter,
      List.append_assoc]
    congr 2
    refine List.filter_congr fun e _ => ?_
    rw [← Bool.decide_and, decide_eq_decide, List.map_append, List.mem_append, not_or,
      List.map_singleton, List.mem_singleton, and_comm]

theorem lookup_setCells_of_notMem {cs : List (String × Cell)} {column : String}
    (h : column ∉ cs.map Prod.fst) (row : AList fun _ : String => Cell) :
    (cs.foldl setCell row).lookup column = row.lookup column := by
  induction cs generalizing row with
  | nil => rfl
  | cons c cs ih =>
    rw [List.map_cons, List.mem_cons, not_or] at h
    rw [List.foldl_cons, ih h.2, lookup_setCell, if_neg (Ne.symm h.1)]

/-- Writing the same cells twice is writing them once. -/
theorem setCells_setCells (cs : List (String × Cell)) (row : AList fun _ : String => Cell) :
    cs.foldl setCell (cs.foldl setCell row) = cs.foldl setCell row := by
  have hnone : (cs.foldl setCell ∅).entries.filter (fun e => e.1 ∉ cs.map Prod.fst) = [] := by
    rw [List.filter_eq_nil_iff]
    intro e he hnot
    have hsome : (AList.lookup e.1 (cs.foldl setCell ∅)).isSome :=
      AList.lookup_isSome.mpr (List.mem_keys_of_mem he)
    rw [lookup_setCells_of_notMem (of_decide_eq_true hnot), AList.lookup_empty] at hsome
    exact absurd hsome Bool.false_ne_true
  refine AList.ext ?_
  rw [entries_setCells cs (cs.foldl setCell row), entries_setCells cs row, List.filter_append,
    hnone, List.nil_append, List.filter_filter]
  congr 1
  exact List.filter_congr fun e _ => Bool.and_self _

/-- The statement writes cells and increments nothing, and names no column twice. -/
def Overwrites : Statement τ → Prop
  | insert _ values => (values.map Prod.fst).Nodup
  | update _ set where_ => ((where_ ++ set).map Prod.fst).Nodup
  | increment _ _ _ _ => False

theorem Overwrites.write_write {τ : Type} {stmt : Statement τ} (h : stmt.Overwrites)
    (row : AList fun _ : String => Cell) : stmt.write (stmt.write row) = stmt.write row := by
  cases stmt with
  | insert table values => exact setCells_setCells values row
  | update table set where_ => exact setCells_setCells (where_ ++ set) row
  | increment table column amount where_ => exact absurd h not_false

end Statement

namespace Database

variable {τ : Type} [DecidableEq τ]

/-- A statement that is refused has no effect. -/
def apply (schema : τ → TableSchema) (db : Database τ) (stmt : Statement τ) : Database τ :=
  (db.execute schema stmt).getD db

variable {schema : τ → TableSchema} {stmt : Statement τ}

theorem execute_eq_apply (h : stmt.accepted schema) (db : Database τ) :
    db.execute schema stmt = some (db.apply schema stmt) := by
  have hsome : (db.execute schema stmt).isSome := execute_isSome.trans h
  obtain ⟨db', hdb⟩ := Option.isSome_iff_exists.mp hsome
  rw [apply, hdb, Option.getD_some]

theorem apply_of_not_accepted (h : stmt.accepted schema = false) (db : Database τ) :
    db.apply schema stmt = db := by
  rw [apply, execute_eq_none h, Option.getD_none]

theorem apply_of_table_ne (db : Database τ) (stmt : Statement τ) {table : τ}
    (h : table ≠ stmt.table) (key : List Cell) : db.apply schema stmt table key = db table key := by
  cases hstmt : stmt.accepted schema with
  | false => rw [apply_of_not_accepted hstmt]
  | true => exact execute_of_ne (execute_eq_apply hstmt db) fun heq => h heq.1

/-- An accepted statement writes its row. -/
theorem apply_self (db : Database τ) {key : List Cell} (h : stmt.accepted schema)
    (hkey : (schema stmt.table).keyOf stmt.bound = some key) :
    db.apply schema stmt stmt.table key = some (stmt.write ((db stmt.table key).getD ∅)) :=
  execute_self (execute_eq_apply h db) hkey

theorem apply_of_key_ne {db : Database τ} {table : τ} {key key' : List Cell}
    (h : stmt.accepted schema) (hkey : (schema stmt.table).keyOf stmt.bound = some key')
    (hne : key ≠ key') : db.apply schema stmt table key = db table key := by
  refine execute_of_ne (execute_eq_apply h db) fun heq => hne ?_
  exact Option.some.inj (heq.2.symm.trans hkey)

/-- What an accepted statement makes of the store. -/
theorem apply_of_accepted (h : stmt.accepted schema) : ∃ key, ∀ db : Database τ,
    db.apply schema stmt =
      db.setRow stmt.table key (stmt.write ((db stmt.table key).getD ∅)) := by
  have hkey : ((schema stmt.table).keyOf stmt.bound).isSome := by
    simp only [Statement.accepted, Bool.and_eq_true] at h
    exact h.1.1
  obtain ⟨key, hkey⟩ := Option.isSome_iff_exists.mp hkey
  refine ⟨key, fun db => ?_⟩
  rw [apply, execute, if_pos h, hkey, Option.map_some, Option.getD_some]

/-- Statements on different tables commute. -/
theorem apply_comm {v w : Statement τ} (h : v.table ≠ w.table) :
    Commute (apply schema) v w := by
  intro db
  cases hv : v.accepted schema with
  | false => rw [apply_of_not_accepted hv, apply_of_not_accepted hv]
  | true =>
    cases hw : w.accepted schema with
    | false => rw [apply_of_not_accepted hw, apply_of_not_accepted hw]
    | true =>
      obtain ⟨k, hk⟩ := apply_of_accepted hv
      obtain ⟨l, hl⟩ := apply_of_accepted hw
      funext table key
      simp only [hk, hl, setRow]
      grind

/-- An overwrite may be repeated. -/
theorem apply_apply (h : stmt.Overwrites) : Idempotent (apply schema) stmt := by
  intro db
  cases hs : stmt.accepted schema with
  | false => rw [apply_of_not_accepted hs, apply_of_not_accepted hs]
  | true =>
    obtain ⟨key, hkey⟩ := apply_of_accepted hs
    funext table k
    simp only [hkey, setRow]
    grind [h.write_write]

end Database

end Overwrite

end WideColumn
