import TitanChat.Internal.WideColumn

/-!
# The Cassandra schema

The tables of `schema/titanchat.cql` that the consumer and the persistence worker write, and the
timestamps that they bind.

A `datetime` lies in the years 1 to 9999, so its milliseconds always fit a column. What can fail is
the conversion of a client's integer to a `datetime`.

## Main definitions

* `Table`, `schema`
* `DateTime`, `DateTime.ofMicros`, `DateTime.strftime`
* `Belongs`, `SameRows`: the rows of a conversation

## Main results

* `DateTime.fits`: a `datetime` fits a timestamp column
* `sameRows_of_execute`: a statement keeps the rows of every other conversation
-/

namespace TitanChat

open WideColumn

/-- The tables that are written. -/
inductive Table where
  | conversations
  | conversationsByUser
  | conversationsByBot
  | messages
  | messageAcks
  | unreadCounters
  | agentQueue
  | agentAssignments
  deriving DecidableEq

/-- `schema/titanchat.cql`. -/
def schema : Table → TableSchema
  | .conversations =>
    { partition := ["conversation_id"]
      clustering := []
      columns := [("conversation_id", .text), ("bot_id", .text), ("user_id", .text),
        ("agent_id", .text), ("server_id", .text), ("status", .text), ("channel", .text),
        ("subject", .text), ("started_at", .timestamp), ("ended_at", .timestamp),
        ("last_message_at", .timestamp), ("last_message_preview", .text), ("unread_user", .int),
        ("unread_agent", .int), ("metadata", .map)] }
  | .conversationsByUser =>
    { partition := ["user_id"]
      clustering := ["last_message_at", "conversation_id"]
      columns := [("user_id", .text), ("last_message_at", .timestamp), ("conversation_id", .text),
        ("agent_id", .text), ("status", .text), ("subject", .text), ("last_message_preview", .text),
        ("unread_count", .int)] }
  | .conversationsByBot =>
    { partition := ["bot_id"]
      clustering := ["started_at", "conversation_id"]
      columns := [("bot_id", .text), ("started_at", .timestamp), ("conversation_id", .text),
        ("user_id", .text), ("agent_id", .text), ("status", .text), ("subject", .text),
        ("last_message_preview", .text), ("last_message_at", .timestamp)] }
  | .messages =>
    { partition := ["conversation_id", "bucket"]
      clustering := ["created_at", "message_id"]
      columns := [("conversation_id", .text), ("bucket", .text), ("created_at", .timestamp),
        ("message_id", .text), ("sender_id", .text), ("sender_type", .text),
        ("content_type", .text), ("content", .text), ("reply_to_id", .text), ("seq", .int),
        ("status", .text), ("edited", .boolean), ("deleted", .boolean)] }
  | .messageAcks =>
    { partition := ["conversation_id", "bucket"]
      clustering := ["message_id", "ack_type"]
      columns := [("conversation_id", .text), ("bucket", .text), ("message_id", .text),
        ("ack_type", .text), ("acked_by", .text), ("acked_at", .timestamp)] }
  | .unreadCounters =>
    { partition := ["user_id"]
      clustering := ["conversation_id"]
      columns := [("user_id", .text), ("conversation_id", .text), ("count", .counter)] }
  | .agentQueue =>
    { partition := ["queue_id", "priority"]
      clustering := ["queued_at", "conversation_id"]
      columns := [("queue_id", .text), ("priority", .int), ("queued_at", .timestamp),
        ("conversation_id", .text), ("user_id", .text), ("subject", .text)] }
  | .agentAssignments =>
    { partition := ["conversation_id"]
      clustering := ["assigned_at"]
      columns := [("conversation_id", .text), ("assigned_at", .timestamp), ("agent_id", .text),
        ("assigned_by", .text), ("ended_at", .timestamp)] }

/-! ### Timestamps -/

/-- A `datetime` in UTC, in microseconds since 1970. It lies in the years 1 to 9999. -/
structure DateTime where
  micros : ℤ
  range : -62135596800 * 1000000 ≤ micros ∧ micros < 253402300800 * 1000000

namespace DateTime

/-- The `datetime` so many microseconds after 1970; `none` when there is none. -/
def ofMicros (micros : ℤ) : Option DateTime :=
  if h : -62135596800 * 1000000 ≤ micros ∧ micros < 253402300800 * 1000000 then
    some { micros, range := h }
  else none

/-- The seconds of a `datetime` lie in the years 1 to 9999. -/
def InRange (t : ℤ) : Prop := -62135596800 ≤ t ∧ t < 253402300800

instance (t : ℤ) : Decidable (InRange t) := inferInstanceAs (Decidable (_ ∧ _))

theorem ofMicros_isSome (t : ℤ) : (ofMicros (t * 1000000)).isSome = decide (InRange t) := by
  rw [ofMicros]
  split
  · next h => exact (decide_eq_true (by constructor <;> omega)).symm
  · next h => exact (decide_eq_false fun hr => h (by rw [InRange] at hr; omega)).symm

/-- What the driver binds to a timestamp column: the milliseconds, without the rest. It cuts towards
zero, which is the same from 1970 on, and for whole seconds before. Events have whole seconds, and
only the clock has fractions. -/
def cell (t : DateTime) : Cell := .timestamp (t.micros / 1000)

/-- A `datetime` fits a timestamp column. -/
@[simp] theorem fits (t : DateTime) : ColumnType.timestamp.fits t.cell := by
  have h := t.range
  simp only [ColumnType.fits, cell, Bool.and_eq_true, decide_eq_true_eq]
  omega

@[simp] theorem cell_ne_null (t : DateTime) : t.cell ≠ .null := nofun

/-- Pad with zeros on the left. -/
def padded (width : ℕ) (n : ℤ) : String :=
  let digits := toString n
  "".pushn '0' (width - digits.length) ++ digits

/-- `strftime("%Y%m%d")`: the civil date of a day number, with years that begin in March. -/
def strftime (t : DateTime) : String :=
  let z := t.micros / 86400000000 + 719468
  let era := z / 146097
  let dayOfEra := z % 146097
  let yearOfEra := (dayOfEra - dayOfEra / 1460 + dayOfEra / 36524 - dayOfEra / 146096) / 365
  let dayOfYear := dayOfEra - (365 * yearOfEra + yearOfEra / 4 - yearOfEra / 100)
  let monthIndex := (5 * dayOfYear + 2) / 153
  let day := dayOfYear - (153 * monthIndex + 2) / 5 + 1
  let month := if monthIndex < 10 then monthIndex + 3 else monthIndex - 9
  let year := yearOfEra + era * 400 + if month ≤ 2 then 1 else 0
  padded 4 year ++ padded 2 month ++ padded 2 day

/-- Noon on 26 May 2025. -/
def noon : DateTime := { micros := 1748260800000000, range := by decide }

example : noon.strftime = "20250526" := by decide

end DateTime

/-! ### Rows of a conversation -/

/-- The row of the key belongs to conversation `d`. -/
def Belongs (d : String) (table : Table) (key : List Cell) : Prop :=
  ((schema table).key.zip key).lookup "conversation_id" = some (.text d)

/-- No row of conversation `d` differs. -/
def SameRows (d : String) (db db' : Database Table) : Prop :=
  ∀ table key, Belongs d table key → db' table key = db table key

/-- Every table has the conversation in its key. -/
theorem conversation_id_mem_key (table : Table) : "conversation_id" ∈ (schema table).key := by
  cases table <;> decide

/-- **A statement keeps the rows of every other conversation.** -/
theorem sameRows_of_execute {d e : String} {db db' : Database Table} {stmt : Statement Table}
    (h : db.execute schema stmt = some db')
    (hbound : stmt.bound.lookup "conversation_id" = some (.text e)) (hne : d ≠ e) :
    SameRows d db db' := by
  intro table key hbelongs
  refine Database.execute_of_ne h ?_
  rintro ⟨rfl, hkey⟩
  rw [Belongs, TableSchema.lookup_zip_of_keyOf hkey (conversation_id_mem_key _), hbound] at hbelongs
  obtain rfl : e = d := by simpa [Option.filter] using hbelongs
  exact hne rfl

end TitanChat
