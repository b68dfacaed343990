import TitanChat.ConversationRow
import TitanChat.Internal.RowReplay
import TitanChat.RecordFit

/-!
# Records that are consumed again

Kafka commits the offsets of the persistence worker now and then. After a restart the worker
consumes again what it has consumed since the last commit: a suffix of the log. What it writes is
keyed by the record and holds cells of the record, so that the second time leaves the rows as the
first did, whatever they were in between. Only the unread counters are incremented, and they count
the suffix twice.

The database is assumed to accept the statements, which not every one of them deserves. So the
schema is a parameter here; under the schema of the repository the consumption of a record is that
of the worker.

## Main definitions

* `recordWrites`: the statements of a record that take effect
* `consumeLog`: a log that is consumed from its beginning
* `unread`, `change`: a counter, and what some records add to it

## Main results

* `db_consume`, `consumeLog_schema`: the worker does this
* `redelivered`: the exact statement
-/

namespace TitanChat

open WideColumn Handlers Replay

namespace Persistence

/-! ### The statements of a record -/

namespace Script

/-- The statements that take effect when no call fails. -/
def writesIn (S : Table → TableSchema) : Script → List (Statement Table)
  | done | fails => []
  | write stmt rest => if stmt.accepted S then stmt :: rest.writesIn S else []

/-- The handler returns when no call fails. -/
def completesIn (S : Table → TableSchema) : Script → Bool
  | done => true
  | fails => false
  | write stmt rest => stmt.accepted S && rest.completesIn S

theorem writesIn_schema (sc : Script) : sc.writesIn schema = sc.writes := by
  induction sc with
  | done | fails => rfl
  | write stmt rest ih => rw [writesIn, writes, ih]

theorem completesIn_schema (sc : Script) : sc.completesIn schema = sc.completes := by
  induction sc with
  | done | fails => rfl
  | write stmt rest ih => rw [completesIn, completes, ih]

theorem All.of_mem_writesIn {P : Statement Table → Prop} {S : Table → TableSchema} {sc : Script}
    (h : sc.All P) {stmt : Statement Table} (hmem : stmt ∈ sc.writesIn S) : P stmt := by
  induction h with
  | done | fails => exact absurd hmem List.not_mem_nil
  | @write st rest hst _ ih =>
    rw [writesIn] at hmem
    split at hmem
    · rcases List.mem_cons.mp hmem with rfl | hmem
      · exact hst
      · exact ih hmem
    · exact absurd hmem List.not_mem_nil

end Script

/-- The statements of a record that take effect. A handler that raises is called three times. -/
def recordWrites (S : Table → TableSchema) (value : Json) : List (Statement Table) :=
  match recordScript value with
  | none => []
  | some sc =>
    if sc.completesIn S then sc.writesIn S
    else (List.replicate MAX_RETRIES (sc.writesIn S)).flatten

/-- All statements of the record are accepted. -/
def Succeeds (S : Table → TableSchema) (v : Json) : Prop :=
  ∃ sc, recordScript v = some sc ∧ sc.completesIn S

theorem succeeds_iff {S : Table → TableSchema} {v : Json} :
    Succeeds S v ↔ (recordScript v).any (Script.completesIn S) := by
  cases h : recordScript v with
  | none => simp [Succeeds, h]
  | some sc => simp [Succeeds, h]

instance (S : Table → TableSchema) (v : Json) : Decidable (Succeeds S v) :=
  decidable_of_iff _ succeeds_iff.symm

/-- A log is consumed, and no call to the database fails. -/
def consumeLog (S : Table → TableSchema) (db : Database Table) (log : List Json) :
    Database Table :=
  perform (Database.apply S) db (log.flatMap (recordWrites S))

theorem consumeLog_append (S : Table → TableSchema) (db : Database Table) (log log' : List Json) :
    consumeLog S db (log ++ log') = consumeLog S (consumeLog S db log) log' := by
  rw [consumeLog, consumeLog, consumeLog, List.flatMap_append, perform_append]

/-! ### The worker -/

section Worker

variable {handler : Dict Json → Step Unit} {payload : Dict Json} {sc : Script}

/-- One attempt, when no call fails. -/
theorem run_handler (h : Follows (handler payload) sc) {s : Store} (hs : s.faults = []) :
    ∃ r, (handler payload).run s =
        (r, { s with db := perform (Database.apply schema) s.db sc.writes }) ∧
      r.isOk = sc.completes := by
  have hrun := h s
  rw [sc.run_of_faults_eq_nil hs, Prod.mk.injEq] at hrun
  exact ⟨_, Prod.ext rfl hrun.2, hrun.1⟩

/-- A record that completes is written once. -/
theorem db_attempt_of_completes (h : Follows (handler payload) sc) (hc : sc.completes) (n : ℕ)
    {s : Store} (hs : s.faults = []) : ((attempt handler payload (n + 1)).run s).2.db =
      perform (Database.apply schema) s.db sc.writes := by
  obtain ⟨r, hrun, hok⟩ := run_handler h hs
  cases r with
  | ok u => rw [run_attempt_of_ok hrun]
  | error e => exact absurd (hok.trans hc) Bool.false_ne_true

/-- One that does not is written in part, as often as it is tried. -/
theorem db_attempt_of_not_completes (h : Follows (handler payload) sc) (hc : sc.completes = false)
    (n : ℕ) {s : Store} (hs : s.faults = []) : ((attempt handler payload n).run s).2.db =
      perform (Database.apply schema) s.db (List.replicate n sc.writes).flatten := by
  induction n generalizing s with
  | zero => rw [attempt, WritePath.db_sendToDlq]; rfl
  | succ n ih =>
    obtain ⟨r, hrun, hok⟩ := run_handler h hs
    cases r with
    | ok u => exact absurd (hok.trans hc).symm Bool.false_ne_true
    | error e =>
      rw [run_attempt_of_error hrun, List.replicate_succ, List.flatten_cons, perform_append]
      exact ih hs

end Worker

/-- **The worker consumes a record so**, when no call to the database fails. -/
theorem db_consume (db : Database Table) (v : Json) :
    ((consume v).run (healthy db)).2.db =
      perform (Database.apply schema) db (recordWrites schema v) := by
  cases hpayload : v.dict? with
  | none => simp [consume, recordWrites, recordScript, hpayload, healthy]
  | some payload =>
    obtain ⟨hnone, hhandler⟩ | ⟨handler, sc, hhandler, hsc, hfollows⟩ :=
      WritePath.recordScript_cases hpayload
    · simp only [consume, hpayload, recordWrites, hnone, perform_nil]
      split
      · rfl
      · rfl
      · next handler h => exact absurd h (hhandler handler)
    · simp only [consume, hpayload, hhandler, recordWrites, hsc, executeWithRetry,
        Script.completesIn_schema, Script.writesIn_schema]
      cases hc : sc.completes with
      | true => exact db_attempt_of_completes hfollows hc _ rfl
      | false => exact db_attempt_of_not_completes hfollows hc _ rfl

/-- And so it consumes a log. -/
theorem consumeLog_schema (db : Database Table) (log : List Json) :
    consumeLog schema db log = log.foldl (fun db v => ((consume v).run (healthy db)).2.db) db := by
  induction log generalizing db with
  | nil => rfl
  | cons v log ih =>
    rw [List.foldl_cons, ← ih, db_consume, consumeLog, List.flatMap_cons, perform_append,
      consumeLog]

/-! ### Counters and the other tables -/

/-- Counters are incremented, and everything else is written. -/
def Kept (stmt : Statement Table) : Prop :=
  if stmt.table = .unreadCounters then stmt.Increments "count" else stmt.WritesCells

theorem WorkerWrite.kept {stmt : Statement Table} (h : WorkerWrite stmt) : Kept stmt := by
  cases h with
  | unread amount user_id conversation_id => exact rfl
  | _ => exact trivial

/-- The statements of a record are statements of the worker. -/
theorem workerWrite_of_mem {S : Table → TableSchema} {v : Json} {stmt : Statement Table}
    (h : stmt ∈ recordWrites S v) : WorkerWrite stmt := by
  rw [recordWrites] at h
  split at h
  · exact absurd h List.not_mem_nil
  · next sc hsc =>
    have hall := workerWrite_recordScript hsc
    split at h
    · exact hall.of_mem_writesIn h
    · obtain ⟨ws, hws, hmem⟩ := List.mem_flatten.mp h
      exact hall.of_mem_writesIn (List.eq_of_mem_replicate hws ▸ hmem)

/-- An unread counter; the key is the user and the conversation. -/
def unread (db : Database Table) (key : List Cell) : ℤ :=
  countOf "count" (db .unreadCounters key)

/-- The increments and decrements of a counter among the statements of some records. -/
def changes (S : Table → TableSchema) (key : List Cell) (records : List Json) :
    List (Statement Table) :=
  (records.flatMap (recordWrites S)).filter (Statement.hits S .unreadCounters key)

/-- What some records add to an unread counter. -/
def change (S : Table → TableSchema) (key : List Cell) (records : List Json) : ℤ :=
  ((changes S key records).map Statement.amount).sum

section Rows

variable {S : Table → TableSchema} {key : List Cell} {records : List Json}

theorem table_of_hits {table : Table} {stmt : Statement Table} (h : stmt.hits S table key) :
    stmt.table = table := by
  simp only [Statement.hits, Bool.and_eq_true, decide_eq_true_eq] at h
  exact h.1.2

theorem kept_of_mem {stmt : Statement Table} (h : stmt ∈ records.flatMap (recordWrites S)) :
    Kept stmt := by
  obtain ⟨v, -, hmem⟩ := List.mem_flatMap.mp h
  exact (workerWrite_of_mem hmem).kept

theorem increments_of_mem_changes : ∀ stmt ∈ changes S key records, stmt.Increments "count" := by
  intro stmt h
  obtain ⟨hmem, hhits⟩ := List.mem_filter.mp h
  have hkept := kept_of_mem hmem
  rwa [Kept, if_pos (table_of_hits hhits)] at hkept

theorem writesCells_of_mem {table : Table} (htable : table ≠ .unreadCounters) :
    ∀ stmt ∈ (records.flatMap (recordWrites S)).filter (Statement.hits S table key),
      stmt.WritesCells := by
  intro stmt h
  obtain ⟨hmem, hhits⟩ := List.mem_filter.mp h
  have hkept := kept_of_mem hmem
  rwa [Kept, if_neg (table_of_hits hhits ▸ htable)] at hkept

theorem counter_consumeLog (db : Database Table) :
    consumeLog S db records .unreadCounters key =
      rowAfter (changes S key records) (db .unreadCounters key) :=
  perform_row S db _ _ key

/-- A counter goes up by what the records add to it. -/
theorem unread_consumeLog (db : Database Table) :
    unread (consumeLog S db records) key = unread db key + change S key records := by
  rw [unread, counter_consumeLog, countOf_rowAfter increments_of_mem_changes, unread, change]

end Rows

/-- **What is consumed again.** After a restart, a suffix of the log is consumed a second time.
Every table is as it was, except for the unread counters: what the records of the suffix add is
counted twice. So nothing has changed exactly if they add nothing to any counter. -/
theorem redelivered (S : Table → TableSchema) (db : Database Table) (log suffix : List Json) :
    let once := consumeLog S db (log ++ suffix)
    let twice := consumeLog S once suffix
    (∀ table, table ≠ .unreadCounters → twice table = once table) ∧
      (∀ key, unread twice key = unread once key + change S key suffix) ∧
      (twice = once ↔ ∀ key, change S key suffix = 0) := by
  intro once twice
  have hother : ∀ table, table ≠ .unreadCounters → twice table = once table := by
    intro table htable
    funext key
    simp only [twice, once, consumeLog_append]
    rw [consumeLog, perform_row, consumeLog, perform_row, rowAfter_rowAfter
      (writesCells_of_mem htable)]
  refine ⟨hother, fun key => unread_consumeLog once, ?_⟩
  constructor
  · intro heq key
    have hcount : unread twice key = unread once key + change S key suffix := unread_consumeLog once
    rw [heq] at hcount
    omega
  · intro hzero
    funext table key
    by_cases htable : table = .unreadCounters
    · subst htable
      simp only [twice, once, consumeLog_append, counter_consumeLog]
      exact (rowAfter_rowAfter_iff increments_of_mem_changes _).mpr (hzero key)
    · rw [hother table htable]

/-- A chat message. -/
def hello : Json :=
  .obj [("_persist_type", .str "message"), ("conversation_id", .str "c"), ("message_id", .str "m"),
    ("message", .str "hello"), ("timestamp", .int 1748260800), ("unread_target", .str "agent")]

/-- **A message that is consumed again is counted again.** -/
theorem not_redelivered : ¬∀ (S : Table → TableSchema) (db : Database Table)
    (log suffix : List Json), (∀ v ∈ log ++ suffix, Succeeds S v) →
      consumeLog S (consumeLog S db (log ++ suffix)) suffix = consumeLog S db (log ++ suffix) := by
  intro h
  have hsucceeds : Succeeds schema hello := ⟨_, rfl, by decide⟩
  have heq := h schema .empty [] [hello] (by simpa using hsucceeds)
  have hcount := congrArg (unread · [.text "agent", .text "c"]) heq
  rw [unread_consumeLog] at hcount
  have hchange : change schema [.text "agent", .text "c"] [hello] = 1 := by decide
  omega

end Persistence

end TitanChat
