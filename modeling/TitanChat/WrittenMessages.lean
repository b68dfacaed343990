import TitanChat.HistoryOrder
import TitanChat.PersistenceScript

/-!
# The messages that are written

`_persist_message` takes any dictionary, and any of its calls to the database may fail. Of its three
statements the first is the message. So a call writes a message exactly if the record can be read up
to there, the statement is accepted and the first call to the database does not fail; what comes
afterwards may fail, as it always does for an outgoing message, and the message is there.

## Main definitions

* `MessageCall`, `persistCalls`: some calls of `_persist_message`, with the faults of each
* `MessageCall.Inserts`: the message is written
* `MessageAt`: where the message of a record is
* `MessageResponse.ofPayload`: how it is shown
* `WrittenBy`: the messages of a conversation are those of these calls

## Main results

* `exists_insert`: what is written, and where
* `WrittenBy.persistCalls`: the messages after any calls
-/

namespace TitanChat

open WideColumn Replay

namespace Persistence

/-- A call of `_persist_message`, and which of its calls to the database fail. -/
structure MessageCall where
  payload : Dict Json
  faults : List Bool

/-- The database after a call. -/
def MessageCall.run (call : MessageCall) (db : Database Table) : Database Table :=
  ((persistMessage call.payload).run ⟨db, call.faults, []⟩).2.db

/-- Some calls, one after another. -/
def persistCalls (db : Database Table) : List MessageCall → Database Table
  | [] => db
  | call :: calls => persistCalls (call.run db) calls

/-- The first statement of the call takes effect. -/
def MessageCall.Inserts (call : MessageCall) : Prop :=
  call.faults.head? ≠ some true ∧ (messageScript call.payload).writes ≠ []

/-- The message of the record is one of conversation `c`, under this bucket and this key. -/
def MessageAt (payload : Dict Json) (c bucket : String) (rest : List Cell) : Prop :=
  ∃ now id, timestampOf payload = some now ∧
    requiredCell payload "conversation_id" = some (.text c) ∧
    requiredCell payload "message_id" = some (.text id) ∧
    bucket = now.strftime ∧ rest = [now.cell, .text id]

end Persistence

open Persistence

/-- How the message of a record is shown. A null leaves the column without a value. -/
def MessageResponse.ofPayload (payload : Dict Json) : MessageResponse where
  message_id := requiredCell payload "message_id"
  conversation_id := requiredCell payload "conversation_id"
  sender_id := (optionalCell payload "sender_id" (.str "")).filter (· ≠ .null)
  sender_type := (optionalCell payload "sender_type" (.str "user")).filter (· ≠ .null)
  content := (optionalCell payload "message" (.str "")).filter (· ≠ .null)
  content_type := (optionalCell payload "content_type" (.str "text")).filter (· ≠ .null)
  created_at := (timestampOf payload).map DateTime.cell
  seq := (optionalCell payload "seq" (.int 0)).filter (· ≠ .null)
  status := some (.text "sent")

namespace Persistence

/-! ### The first statement -/

theorem Script.exists_of_writes_read {α : Type} {value : Option α} {rest : α → Script}
    (h : (Script.read value rest).writes ≠ []) : ∃ a, value = some a ∧ (rest a).writes ≠ [] := by
  cases value with
  | none => exact absurd rfl h
  | some a => exact ⟨a, rfl, h⟩

/-- The ids of a message that is accepted are texts. -/
theorem exists_text_of_accepted {now : DateTime} {conversation_id message_id sender_id sender_type
    content_type content seq : Cell} (h : (insertMessage now conversation_id message_id sender_id
      sender_type content_type content seq).accepted schema) :
    (∃ c, conversation_id = .text c) ∧ ∃ id, message_id = .text id := by
  simp only [Statement.accepted, insertMessage, Bool.and_eq_true, List.all_cons] at h
  obtain ⟨⟨hkey, -⟩, hc, -, -, hid, -⟩ := h
  constructor
  · cases conversation_id <;> simp [Statement.table, schema, TableSchema.fits, List.lookup_cons,
      ColumnType.fits, TableSchema.keyOf, TableSchema.key, Statement.bound,
      Option.filter_some] at hc hkey ⊢
  · cases message_id <;> simp [Statement.table, schema, TableSchema.fits, List.lookup_cons,
      ColumnType.fits, TableSchema.keyOf, TableSchema.key, Statement.bound,
      Option.filter_some] at hid hkey ⊢

/-- The row of a message is shown as its record says, whatever was there. -/
theorem ofRow_write_insertMessage (now : DateTime) (conversation_id message_id sender_id sender_type
    content_type content seq : Cell) (row : Row) :
    MessageResponse.ofRow ((insertMessage now conversation_id message_id sender_id sender_type
      content_type content seq).write row) =
        { message_id := (some message_id).filter (· ≠ .null)
          conversation_id := (some conversation_id).filter (· ≠ .null)
          sender_id := (some sender_id).filter (· ≠ .null)
          sender_type := (some sender_type).filter (· ≠ .null)
          content := (some content).filter (· ≠ .null)
          content_type := (some content_type).filter (· ≠ .null)
          created_at := some now.cell
          seq := (some seq).filter (· ≠ .null)
          status := some (.text "sent") } := by
  simp [MessageResponse.ofRow, insertMessage, Statement.write, Option.filter_some]

/-- What comes after the first statement. -/
def messageRest (payload : Dict Json) (now : DateTime) (conversation_id : Cell) : Script :=
  .read (previewOf payload) fun preview =>
  .write (updatePreview now preview conversation_id) <|
  .read (optionalCell payload "unread_target" (.str "agent")) fun recipient =>
  .write (updateUnread 1 recipient conversation_id) .done

theorem table_ne_of_mem_messageRest {payload : Dict Json} {now : DateTime} {conversation_id : Cell}
    {st : Statement Table} (h : st ∈ (messageRest payload now conversation_id).writes) :
    st.table ≠ .messages := by
  obtain ⟨preview, hpreview, -⟩ := Script.exists_of_writes_read (List.ne_nil_of_mem h)
  rw [messageRest, hpreview, Script.read, Script.writes] at h
  split at h
  · obtain rfl | h := List.mem_cons.mp h
    · exact Table.noConfusion
    · obtain ⟨recipient, hrecipient, -⟩ := Script.exists_of_writes_read (List.ne_nil_of_mem h)
      rw [hrecipient, Script.read, Script.writes] at h
      split at h
      · obtain rfl := List.mem_singleton.mp h
        exact Table.noConfusion
      · exact absurd h List.not_mem_nil
  · exact absurd h List.not_mem_nil

/-- The first statement of a call is the message of its record, and no other is about messages. -/
structure FirstInsert (payload : Dict Json) (c bucket : String) (rest : List Cell)
    (stmt : Statement Table) (script : Script) : Prop where
  place : MessageAt payload c bucket rest
  script_eq : messageScript payload = .write stmt script
  accepted : stmt.accepted schema
  table : stmt.table = .messages
  key : (schema .messages).keyOf stmt.bound = some (.text c :: .text bucket :: rest)
  shown : ∀ row, MessageResponse.ofRow (stmt.write row) = .ofPayload payload
  others : ∀ st ∈ script.writes, st.table ≠ .messages

/-- **What a call writes.** -/
theorem exists_insert {payload : Dict Json} (h : (messageScript payload).writes ≠ []) :
    ∃ c bucket rest stmt script, FirstInsert payload c bucket rest stmt script := by
  obtain ⟨now, hnow, h⟩ := Script.exists_of_writes_read h
  obtain ⟨conversation_id, hc, h⟩ := Script.exists_of_writes_read h
  obtain ⟨message_id, hid, h⟩ := Script.exists_of_writes_read h
  obtain ⟨sender_id, hsender, h⟩ := Script.exists_of_writes_read h
  obtain ⟨sender_type, htype, h⟩ := Script.exists_of_writes_read h
  obtain ⟨content_type, hcontent_type, h⟩ := Script.exists_of_writes_read h
  obtain ⟨content, hcontent, h⟩ := Script.exists_of_writes_read h
  obtain ⟨seq, hseq, h⟩ := Script.exists_of_writes_read h
  have haccepted : (insertMessage now conversation_id message_id sender_id sender_type content_type
      content seq).accepted schema := by
    by_contra hnot
    rw [Script.writes, if_neg hnot] at h
    exact h rfl
  obtain ⟨⟨c, rfl⟩, id, rfl⟩ := exists_text_of_accepted haccepted
  refine ⟨c, now.strftime, [now.cell, .text id], _, messageRest payload now (.text c),
    ⟨now, id, hnow, hc, hid, rfl, rfl⟩, ?_, haccepted, rfl, ?_, fun row => ?_,
    fun st => table_ne_of_mem_messageRest⟩
  · simp only [messageScript, Script.read, hnow, hc, hid, hsender, htype, hcontent_type, hcontent,
      hseq, messageRest]
  · simp [insertMessage, Statement.bound, TableSchema.keyOf, TableSchema.key, schema,
      List.lookup_cons, Option.filter_some]
  · rw [ofRow_write_insertMessage, MessageResponse.ofPayload, hnow, hc, hid, hsender, htype,
      hcontent_type, hcontent, hseq]
    rfl

/-! ### One call -/

section Call

variable {call : MessageCall} {db : Database Table}

theorem MessageCall.run_eq (call : MessageCall) (db : Database Table) :
    call.run db = ((messageScript call.payload).run ⟨db, call.faults, []⟩).2.db :=
  congrArg (fun r => r.2.db) (follows_persistMessage call.payload ⟨db, call.faults, []⟩)

theorem MessageCall.run_of_not_inserts (h : ¬call.Inserts) (db : Database Table) :
    call.run db = db := by
  rw [MessageCall.run_eq]
  by_cases hnone : (messageScript call.payload).writes = []
  · obtain ⟨ps, hps, hdb, -⟩ := (messageScript call.payload).run_cases ⟨db, call.faults, []⟩
    rw [hnone, List.prefix_nil] at hps
    rw [hdb, hps, perform_nil]
  · have hfault : call.faults.head? = some true := by
      by_contra hfault
      exact h ⟨hfault, hnone⟩
    obtain ⟨faults, hfaults⟩ := List.head?_eq_some_iff.mp hfault
    obtain ⟨c, bucket, rest, stmt, script, hinsert⟩ := exists_insert hnone
    rw [hinsert.script_eq, Script.run_of_fault stmt script hfaults]

/-- Statements on other tables keep the messages. -/
theorem messages_perform {stmts : List (Statement Table)} (h : ∀ st ∈ stmts, st.table ≠ .messages)
    (db : Database Table) (key : List Cell) :
    perform (Database.apply schema) db stmts .messages key = db .messages key := by
  induction stmts generalizing db with
  | nil => rfl
  | cons st stmts ih =>
    obtain ⟨hst, hstmts⟩ := List.forall_mem_cons.mp h
    rw [perform_cons, ih hstmts, Database.apply_of_table_ne db st hst.symm]

/-- A call that inserts executes its first statement, as far as messages are concerned. -/
theorem MessageCall.messages_run {c bucket : String} {rest : List Cell} {stmt : Statement Table}
    {script : Script} (hinsert : FirstInsert call.payload c bucket rest stmt script)
    (h : call.Inserts) (db : Database Table) (key : List Cell) :
    call.run db .messages key = db.apply schema stmt .messages key := by
  have hfaults : ∀ faults, call.faults ≠ true :: faults := fun faults heq =>
    h.1 (by rw [heq, List.head?_cons])
  rw [MessageCall.run_eq, hinsert.script_eq, Script.run_of_accepted hinsert.accepted script hfaults]
  obtain ⟨ps, hps, hdb, -⟩ :=
    script.run_cases ⟨db.apply schema stmt, call.faults.tail, []⟩
  rw [hdb, messages_perform fun st hst => hinsert.others st (hps.subset hst)]

end Call

/-! ### Some calls -/

/-- The messages of conversation `c` are those of these calls, as the last of them wrote it. -/
structure WrittenBy (db : Database Table) (c : String) (calls : List MessageCall) : Prop where
  rows : ∀ bucket rest, (messagePartition db c bucket rest).isSome ↔
    ∃ call ∈ calls, call.Inserts ∧ MessageAt call.payload c bucket rest
  row : ∀ bucket rest row, messagePartition db c bucket rest = some row →
    ∃ call ∈ calls, call.Inserts ∧ MessageAt call.payload c bucket rest ∧
      MessageResponse.ofRow row = .ofPayload call.payload

/-- The place of a message is determined. -/
theorem MessageAt.unique {payload : Dict Json} {c c' bucket bucket' : String}
    {rest rest' : List Cell} (h : MessageAt payload c bucket rest)
    (h' : MessageAt payload c' bucket' rest') : c = c' ∧ bucket = bucket' ∧ rest = rest' := by
  obtain ⟨now, id, hnow, hc, hid, rfl, rfl⟩ := h
  obtain ⟨now', id', hnow', hc', hid', rfl, rfl⟩ := h'
  obtain rfl := Option.some.inj (hnow.symm.trans hnow')
  obtain rfl := Cell.text.inj (Option.some.inj (hc.symm.trans hc'))
  obtain rfl := Cell.text.inj (Option.some.inj (hid.symm.trans hid'))
  exact ⟨rfl, rfl, rfl⟩

section Calls

variable {db : Database Table} {c : String} {done : List MessageCall}

theorem exists_mem_concat {P : MessageCall → Prop} {call : MessageCall} :
    (∃ call' ∈ done ++ [call], P call') ↔ (∃ call' ∈ done, P call') ∨ P call := by
  simp only [List.mem_append, List.mem_singleton, or_and_right, exists_or, exists_eq_left]

/-- A call without effect changes nothing. -/
theorem WrittenBy.call_of_not_inserts (hw : WrittenBy db c done) {call : MessageCall}
    (h : ¬call.Inserts) : WrittenBy (call.run db) c (done ++ [call]) := by
  rw [MessageCall.run_of_not_inserts h]
  constructor
  · intro bucket rest
    rw [hw.rows bucket rest, exists_mem_concat, or_iff_left fun hcall => h hcall.1]
  · intro bucket rest row hrow
    exact exists_mem_concat.mpr (Or.inl (hw.row bucket rest row hrow))

/-- A call that inserts has its row, and the other rows are as before. -/
theorem WrittenBy.call_of_inserts (hw : WrittenBy db c done) {call : MessageCall}
    (h : call.Inserts) : WrittenBy (call.run db) c (done ++ [call]) := by
  obtain ⟨d, b, r, stmt, script, hinsert⟩ := exists_insert h.2
  have hrun := MessageCall.messages_run hinsert h db
  have hkey : (schema stmt.table).keyOf stmt.bound = some (.text d :: .text b :: r) := by
    rw [hinsert.table]
    exact hinsert.key
  have hself : messagePartition (call.run db) d b r =
      some (stmt.write ((db .messages (.text d :: .text b :: r)).getD ∅)) := by
    rw [messagePartition, hrun, ← hinsert.table]
    exact Database.apply_self db hinsert.accepted hkey
  have hother : ∀ bucket rest, ¬MessageAt call.payload c bucket rest →
      messagePartition (call.run db) c bucket rest = messagePartition db c bucket rest := by
    intro bucket rest hne
    refine (hrun _).trans (Database.apply_of_key_ne hinsert.accepted hkey fun heq => hne ?_)
    simp only [List.cons.injEq, Cell.text.injEq] at heq
    obtain ⟨rfl, rfl, rfl⟩ := heq
    exact hinsert.place
  constructor
  · intro bucket rest
    by_cases hmine : MessageAt call.payload c bucket rest
    · obtain ⟨rfl, rfl, rfl⟩ := hinsert.place.unique hmine
      exact iff_of_true (Option.isSome_of_eq_some hself)
        (exists_mem_concat.mpr (Or.inr ⟨h, hmine⟩))
    · rw [hother bucket rest hmine, hw.rows bucket rest, exists_mem_concat,
        or_iff_left fun hcall => hmine hcall.2]
  · intro bucket rest row hrow
    by_cases hmine : MessageAt call.payload c bucket rest
    · obtain ⟨rfl, rfl, rfl⟩ := hinsert.place.unique hmine
      obtain rfl := Option.some.inj (hself.symm.trans hrow)
      exact exists_mem_concat.mpr (Or.inr ⟨h, hmine, hinsert.shown _⟩)
    · rw [hother bucket rest hmine] at hrow
      exact exists_mem_concat.mpr (Or.inl (hw.row bucket rest row hrow))

/-- **One call more.** -/
theorem WrittenBy.call (hw : WrittenBy db c done) (call : MessageCall) :
    WrittenBy (call.run db) c (done ++ [call]) := by
  by_cases h : call.Inserts
  · exact hw.call_of_inserts h
  · exact hw.call_of_not_inserts h

/-- **Some calls.** -/
theorem WrittenBy.persistCalls (hw : WrittenBy db c done) (calls : List MessageCall) :
    WrittenBy (Persistence.persistCalls db calls) c (done ++ calls) := by
  induction calls generalizing db done with
  | nil => rwa [List.append_nil]
  | cons call calls ih =>
    have hnext := ih (hw.call call)
    rwa [List.append_assoc] at hnext

theorem WrittenBy.empty (h : ∀ bucket rest, messagePartition db c bucket rest = none) :
    WrittenBy db c [] where
  rows bucket rest := by simp [h]
  row bucket rest row hrow := by
    rw [h] at hrow
    exact absurd hrow nofun

end Calls

end Persistence

end TitanChat
