import Mathlib.Data.Rat.Floor
import TitanChat.ConsumerEffects

/-!
# The persistence worker

`consumer/persistence_worker.py` reads the records of `chat-persist` and writes them to Cassandra.
It is written against the records that the handlers publish, but it takes any dictionary: keys that
are read with `[...]` must be there, and the others have defaults.

A handler that raises is called again, three times in all, and then the record goes to
`chat-persist-dlq`. Nothing is rolled back in between. Which calls to the database fail is part of
the state: `Store.faults` has one entry for each call to come, and a call that fails has no effect.

## Main definitions

* `Store`: the database, its faults to come and the dead letters
* `persistMessage`, `persistChatStart`, `persistChatEnd`, `persistAck`, `persistAssignment`
* `executeWithRetry`, `consume`
-/

namespace TitanChat

open WideColumn

namespace Persistence

/-- A record of `chat-persist-dlq`. -/
structure DeadLetter where
  key : String
  original_payload : Dict Json
  retries_exhausted : ℕ

/-- What the worker works on. -/
structure Store where
  db : Database Table
  /-- Which of the next calls to the database fail; those after the end of the list do not. -/
  faults : List Bool
  deadLetters : List DeadLetter

/-- A step of the worker. -/
abbrev Step (α : Type) : Type := Effect Failure Store α

/-- `db_execute`. -/
def dbExecute (stmt : Statement Table) : Step Unit :=
  .of fun s =>
    match s.faults with
    | true :: faults => (.error .unreachable, { s with faults := faults })
    | faults =>
      match s.db.execute schema stmt with
      | none => (.error .invalidStatement, { s with faults := faults.tail })
      | some db => (.ok (), { s with db := db, faults := faults.tail })

/-! ### Reading a record -/

/-- A value as a bind. No column here takes a float, a list or a dictionary. -/
def bind : Json → Step Cell
  | .null => pure .null
  | .bool b => pure (.boolean b)
  | .int i => pure (.int i)
  | .str s => pure (.text s)
  | .float _ | .arr _ | .obj _ => Effect.fail .invalidStatement

/-- `payload[name]`. -/
def required (payload : Dict Json) (name : String) : Step Json :=
  match payload.lookup name with
  | some v => pure v
  | none => Effect.fail .malformedRecord

/-- `payload.get(name, default)`. -/
def optional (payload : Dict Json) (name : String) (default : Json) : Json :=
  (payload.lookup name).getD default

/-- A rational number to the nearest integer, and to the even one if there are two. -/
def roundHalfEven (q : ℚ) : ℤ :=
  if 2 * Int.fract q = 1 ∧ ⌊q⌋ % 2 = 0 then ⌊q⌋ else round q

/-- What `datetime.fromtimestamp` takes, in microseconds. -/
def microsOf : Json → Option ℤ
  | .int i => some (i * 1000000)
  | .bool b => some (if b then 1000000 else 0)
  | .float (.finite q) => some (roundHalfEven (q * 1000000))
  | _ => none

/-- `datetime.fromtimestamp(payload["timestamp"], tz=timezone.utc)`. -/
def fromTimestamp (payload : Dict Json) : Step DateTime := do
  let t ← required payload "timestamp"
  match (microsOf t).bind DateTime.ofMicros with
  | some now => pure now
  | none => Effect.fail .malformedRecord

/-- `payload.get("message", "")[:100]`. A list has been refused as content before it is sliced. -/
def preview (payload : Dict Json) : Step Cell :=
  match optional payload "message" (.str "") with
  | .str s => pure (.text (String.ofList (s.toList.take 100)))
  | _ => Effect.fail .malformedRecord

/-! ### Statements -/

def insertMessage (now : DateTime) (conversation_id message_id sender_id sender_type content_type
    content seq : Cell) : Statement Table :=
  .insert .messages [("conversation_id", conversation_id), ("bucket", .text now.strftime),
    ("created_at", now.cell), ("message_id", message_id), ("sender_id", sender_id),
    ("sender_type", sender_type), ("content_type", content_type), ("content", content),
    ("seq", seq), ("status", .text "sent"), ("edited", .boolean false), ("deleted", .boolean false)]

def updatePreview (now : DateTime) (preview conversation_id : Cell) : Statement Table :=
  .update .conversations [("last_message_at", now.cell), ("last_message_preview", preview)]
    [("conversation_id", conversation_id)]

/-- `UPDATE unread_counters SET count = count + ...`. -/
def updateUnread (amount : ℤ) (user_id conversation_id : Cell) : Statement Table :=
  .increment .unreadCounters "count" amount
    [("user_id", user_id), ("conversation_id", conversation_id)]

def insertConversationByUser (now : DateTime) (user_id conversation_id : Cell) : Statement Table :=
  .insert .conversationsByUser [("user_id", user_id), ("last_message_at", now.cell),
    ("conversation_id", conversation_id), ("status", .text "active"), ("unread_count", .int 0)]

def insertQueueEntry (now : DateTime) (conversation_id user_id : Cell) : Statement Table :=
  .insert .agentQueue [("queue_id", .text "default"), ("queued_at", now.cell),
    ("conversation_id", conversation_id), ("user_id", user_id), ("priority", .int 3)]

def endConversation (now : DateTime) (conversation_id : Cell) : Statement Table :=
  .update .conversations [("status", .text "ended"), ("ended_at", now.cell)]
    [("conversation_id", conversation_id)]

def insertAck (now : DateTime) (conversation_id message_id ack_type acked_by : Cell) :
    Statement Table :=
  .insert .messageAcks [("conversation_id", conversation_id), ("message_id", message_id),
    ("ack_type", ack_type), ("acked_by", acked_by), ("acked_at", now.cell)]

def insertAssignment (now : DateTime) (conversation_id agent_id : Cell) : Statement Table :=
  .insert .agentAssignments [("conversation_id", conversation_id), ("assigned_at", now.cell),
    ("agent_id", agent_id), ("assigned_by", .text "system")]

/-! ### Persist handlers -/

/-- `_persist_message`. -/
def persistMessage (payload : Dict Json) : Step Unit := do
  let now ← fromTimestamp payload
  let conversation_id ← bind (← required payload "conversation_id")
  let message_id ← bind (← required payload "message_id")
  let sender_id ← bind (optional payload "sender_id" (.str ""))
  let sender_type ← bind (optional payload "sender_type" (.str "user"))
  let content_type ← bind (optional payload "content_type" (.str "text"))
  let content ← bind (optional payload "message" (.str ""))
  let seq ← bind (optional payload "seq" (.int 0))
  dbExecute (insertMessage now conversation_id message_id sender_id sender_type content_type content
    seq)
  let preview ← preview payload
  dbExecute (updatePreview now preview conversation_id)
  let recipient ← bind (optional payload "unread_target" (.str "agent"))
  dbExecute (updateUnread 1 recipient conversation_id)

/-- `_persist_chat_start`. -/
def persistChatStart (payload : Dict Json) : Step Unit := do
  let now ← fromTimestamp payload
  let user_id ← bind (← required payload "user_id")
  let conversation_id ← bind (← required payload "conversation_id")
  dbExecute (insertConversationByUser now user_id conversation_id)
  dbExecute (insertQueueEntry now conversation_id user_id)

/-- `_persist_chat_end`. -/
def persistChatEnd (payload : Dict Json) : Step Unit := do
  let now ← fromTimestamp payload
  let conversation_id ← bind (← required payload "conversation_id")
  dbExecute (endConversation now conversation_id)

/-- `_persist_ack`. -/
def persistAck (payload : Dict Json) : Step Unit := do
  let now ← fromTimestamp payload
  let conversation_id ← bind (← required payload "conversation_id")
  let message_id ← bind (← required payload "message_id")
  let ack_type ← required payload "ack_type"
  let from_user_id ← bind (optional payload "from_user_id" (.str ""))
  dbExecute (insertAck now conversation_id message_id (← bind ack_type) from_user_id)
  match ack_type with
  | .str "read" =>
    let reader := optional payload "from_user_id" .null
    let user_id ← bind (if reader.truthy then reader else .str "agent")
    dbExecute (updateUnread (-1) user_id conversation_id)
  | _ => pure ()

/-- `_persist_assignment`. -/
def persistAssignment (payload : Dict Json) : Step Unit := do
  let now ← fromTimestamp payload
  let conversation_id ← bind (← required payload "conversation_id")
  let agent_id ← bind (← required payload "agent_id")
  dbExecute (insertAssignment now conversation_id agent_id)

/-- The table `_PERSIST_HANDLERS`. -/
def persistHandlers : String → Option (Dict Json → Step Unit)
  | "message" => some persistMessage
  | "chat_start" => some persistChatStart
  | "chat_end" => some persistChatEnd
  | "ack" => some persistAck
  | "assignment" => some persistAssignment
  | _ => none

/-! ### Retry -/

/-- `_MAX_RETRIES`. -/
def MAX_RETRIES : ℕ := 3

/-- `_send_to_dlq`, whose errors are logged. The key must be a string, and the payload must not be
nested too deeply to be serialised again. -/
def sendToDlq (payload : Dict Json) : Step Unit :=
  match optional payload "conversation_id" (.str "unknown"),
    (Json.obj [("original_payload", .ofDict payload)]).transit with
  | .str key, some _ => Effect.modify fun s =>
      { s with deadLetters := s.deadLetters ++ [⟨key, payload, MAX_RETRIES⟩] }
  | _, _ => pure ()

/-- The attempts that are left. -/
def attempt (handler : Dict Json → Step Unit) (payload : Dict Json) : ℕ → Step Unit
  | 0 => sendToDlq payload
  | n + 1 => .of fun s =>
    match (handler payload).run s with
    | (.ok _, s') => (.ok (), s')
    | (.error _, s') => (attempt handler payload n).run s'

/-- `_execute_with_retry`. -/
def executeWithRetry (handler : Dict Json → Step Unit) (payload : Dict Json) : Step Unit :=
  attempt handler payload MAX_RETRIES

/-- The handler of a record; an error when its type cannot be looked up. -/
def recordHandler (payload : Dict Json) : Except Failure (Option (Dict Json → Step Unit)) :=
  match optional payload "_persist_type" (.str "") with
  | .str persist_type => .ok (persistHandlers persist_type)
  | v => if v.hashable then .ok none else .error .malformedRecord

/-- The handlers of a record. -/
theorem recordHandler_cases {payload : Dict Json} {handler : Dict Json → Step Unit}
    (h : recordHandler payload = .ok (some handler)) :
    handler = persistMessage ∨ handler = persistChatStart ∨ handler = persistChatEnd ∨
      handler = persistAck ∨ handler = persistAssignment := by
  have hsome : ∃ persist_type, persistHandlers persist_type = some handler := by
    rw [recordHandler] at h
    split at h
    · next persist_type _ => exact ⟨persist_type, Except.ok.inj h⟩
    · split at h <;> simp at h
  obtain ⟨persist_type, hhandler⟩ := hsome
  rw [persistHandlers.eq_def] at hhandler
  split at hhandler
  · exact Or.inl (Option.some.inj hhandler).symm
  · exact Or.inr (Or.inl (Option.some.inj hhandler).symm)
  · exact Or.inr (Or.inr (Or.inl (Option.some.inj hhandler).symm))
  · exact Or.inr (Or.inr (Or.inr (Or.inl (Option.some.inj hhandler).symm)))
  · exact Or.inr (Or.inr (Or.inr (Or.inr (Option.some.inj hhandler).symm)))
  · exact absurd hhandler (by simp)

/-- The body of `_consume_loop`, which logs every error. -/
def consume (value : Json) : Step Unit :=
  match value.dict? with
  | none => Effect.fail .malformedRecord
  | some payload =>
    match recordHandler payload with
    | .error e => Effect.fail e
    | .ok none => pure ()
    | .ok (some handler) => executeWithRetry handler payload

/-! ### Relations that the worker keeps

Reading a record changes nothing. A call to the database uses up a fault, and the rest is its
statement. -/

section Keeps

variable {R : Store → Store → Prop} {payload : Dict Json}

theorem keeps_dbExecute {stmt : Statement Table}
    (hskip : ∀ s, R s { s with faults := s.faults.tail })
    (hwrite : ∀ s db, s.db.execute schema stmt = some db →
      R s { s with db := db, faults := s.faults.tail }) :
    Effect.Keeps R (dbExecute stmt) := by
  intro s
  simp only [dbExecute]
  split
  · next faults hfaults =>
    have hs := hskip s
    rwa [hfaults] at hs
  · cases hdb : s.db.execute schema stmt with
    | none => exact hskip s
    | some db => exact hwrite s db hdb

/-- What an attempt keeps, all of them keep. -/
theorem keeps_attempt [IsTrans Store R] {handler : Dict Json → Step Unit}
    (hdlq : Effect.Keeps R (sendToDlq payload)) (h : Effect.Keeps R (handler payload)) (n : ℕ) :
    Effect.Keeps R (attempt handler payload n) := by
  induction n with
  | zero => exact hdlq
  | succ n ih =>
    intro s
    have hs := h s
    simp only [attempt]
    rcases hrun : (handler payload).run s with ⟨r, s'⟩
    rw [hrun] at hs
    cases r with
    | ok u => exact hs
    | error e => exact IsTrans.trans _ _ _ hs (ih s')

variable [Std.Refl R]

theorem keeps_bindCell (v : Json) : Effect.Keeps R (Persistence.bind v) := by
  cases v with
  | null | bool b | int i | str s => exact Effect.keeps_pure _
  | float x | arr xs | obj kvs => exact Effect.keeps_fail _

theorem keeps_required (name : String) : Effect.Keeps R (required payload name) := by
  rw [required]
  cases payload.lookup name with
  | none => exact Effect.keeps_fail _
  | some v => exact Effect.keeps_pure _

theorem keeps_preview : Effect.Keeps R (preview payload) := by
  rw [preview]
  split
  · exact Effect.keeps_pure _
  · exact Effect.keeps_fail _

theorem keeps_fromTimestamp [IsTrans Store R] : Effect.Keeps R (fromTimestamp payload) := by
  refine Effect.keeps_bind (keeps_required _) fun t => ?_
  cases (microsOf t).bind DateTime.ofMicros with
  | none => exact Effect.keeps_fail _
  | some now => exact Effect.keeps_pure _

end Keeps

end Persistence

end TitanChat
