import TitanChat.HandlerReports
import TitanChat.PersistenceWorker

/-!
# The records and the schema

A record of `chat-persist` is described three times: as the dictionary that a handler publishes, as
the keys that the worker reads, and as the tables that it writes. Here the three are put together.
The database is healthy: no call fails, and a statement is refused only if it does not fit the
schema. Then whether a record is stored depends on nothing but the record.

An acknowledgement is never stored: its statement does not bind the column `bucket`, a part of the
key of `message_acks`. Nor is an outgoing message, whose unread counter is for nobody: the empty
text is no partition key. The other records are stored when their integers fit the columns and the
ids in their keys are not empty.

## Main definitions

* `Completed`: stored by the first attempt, with no dead letter
* `Fits`: the condition on an event

## Main results

* `completed_incomingMessage_iff` and its siblings: which records are stored
* `records_fit_iff`: the exact statement
-/

namespace TitanChat

open WideColumn

namespace Persistence

open Handlers DateTime
open Json (Wide)

/-- The integer fits a column of type `INT`. -/
def Int32 (i : ℤ) : Prop := -2 ^ 31 ≤ i ∧ i < 2 ^ 31

instance (i : ℤ) : Decidable (Int32 i) := inferInstanceAs (Decidable (_ ∧ _))

/-! ### Which statements the database accepts -/

section Accepted

attribute [local simp] Statement.accepted Statement.table Statement.bound Statement.selectsKey
  schema TableSchema.keyOf TableSchema.key TableSchema.partitionNamed TableSchema.fits
  List.lookup_cons Option.filter_some

variable (now : DateTime) (c u : String)

theorem accepted_insertMessage (message_id sender_id sender_type content_type content : String)
    (seq : ℤ) : (insertMessage now (.text c) (.text message_id) (.text sender_id)
      (.text sender_type) (.text content_type) (.text content) (.int seq)).accepted schema ↔
        Int32 seq := by
  simp [insertMessage, Int32]

theorem accepted_updatePreview (preview : String) :
    (updatePreview now (.text preview) (.text c)).accepted schema ↔ c ≠ "" := by
  simp [updatePreview]

theorem accepted_updateUnread (amount : ℤ) :
    (updateUnread amount (.text u) (.text c)).accepted schema ↔ u ≠ "" := by
  simp [updateUnread]

theorem accepted_insertConversationByUser :
    (insertConversationByUser now (.text u) (.text c)).accepted schema ↔ u ≠ "" := by
  simp [insertConversationByUser]

theorem accepted_insertQueueEntry :
    (insertQueueEntry now (.text c) (.text u)).accepted schema := by
  simp [insertQueueEntry]

theorem accepted_endConversation :
    (endConversation now (.text c)).accepted schema ↔ c ≠ "" := by
  simp [endConversation]

/-- The bucket is not bound. -/
theorem not_accepted_insertAck (conversation_id message_id ack_type acked_by : Cell) :
    (insertAck now conversation_id message_id ack_type acked_by).accepted schema = false := by
  simp [insertAck]

theorem accepted_insertAssignment (a : String) :
    (insertAssignment now (.text c) (.text a)).accepted schema ↔ c ≠ "" := by
  simp [insertAssignment]

end Accepted

/-! ### A healthy database -/

/-- No call fails. -/
def Healthy (s : Store) : Prop := s.faults = []

/-- No call fails and nothing is dead. -/
def healthy (db : Database Table) : Store where
  db := db
  faults := []
  deadLetters := []

/-- The record is stored by the first attempt, and nothing is sent to `chat-persist-dlq`. -/
def Completed (db : Database Table) (value : Json) : Prop :=
  ∃ payload handler, value.dict? = some payload ∧ recordHandler payload = .ok (some handler) ∧
    ((handler payload).run (healthy db)).1 = .ok () ∧
    (executeWithRetry handler payload).run (healthy db) = (handler payload).run (healthy db) ∧
    ((executeWithRetry handler payload).run (healthy db)).2.deadLetters = []

/-- A healthy database stays healthy, and nothing is sent. -/
structure SameHealth (s s' : Store) : Prop where
  healthy : Healthy s → Healthy s'
  deadLetters : s'.deadLetters = s.deadLetters

instance : Std.Refl SameHealth := ⟨fun _ => ⟨id, rfl⟩⟩

instance : IsTrans Store SameHealth :=
  ⟨fun _ _ _ h h' => ⟨h'.1 ∘ h.1, h'.2.trans h.2⟩⟩

theorem run_dbExecute_of_healthy {stmt : Statement Table} {s : Store} (h : Healthy s) :
    (dbExecute stmt).run s =
      match s.db.execute schema stmt with
      | none => (.error .invalidStatement, s)
      | some db => (.ok (), { s with db := db }) := by
  obtain ⟨db, faults, deadLetters⟩ := s
  obtain rfl : faults = [] := h
  rfl

theorem sameHealth_dbExecute (stmt : Statement Table) :
    Effect.Keeps SameHealth (dbExecute stmt) := by
  have htail {faults : List Bool} (h : faults = []) : faults.tail = [] := by rw [h, List.tail_nil]
  exact keeps_dbExecute (fun _ => ⟨htail, rfl⟩) fun _ _ _ => ⟨htail, rfl⟩

theorem ok_dbExecute {stmt : Statement Table} {s : Store} (h : Healthy s) :
    ((dbExecute stmt).run s).1 = .ok () ↔ stmt.accepted schema := by
  have haccepted : (s.db.execute schema stmt).isSome = stmt.accepted schema :=
    Database.execute_isSome
  rw [← haccepted, run_dbExecute_of_healthy h]
  cases s.db.execute schema stmt <;> simp

/-- One statement after the other. -/
def writes : Statement Table → List (Statement Table) → Step Unit
  | stmt, [] => dbExecute stmt
  | stmt, next :: stmts => do
    dbExecute stmt
    writes next stmts

theorem sameHealth_writes (stmt : Statement Table) (stmts : List (Statement Table)) :
    Effect.Keeps SameHealth (writes stmt stmts) := by
  induction stmts generalizing stmt with
  | nil => exact sameHealth_dbExecute stmt
  | cons next stmts ih => exact Effect.keeps_bind (sameHealth_dbExecute stmt) fun _ => ih next

theorem ok_writes {stmt : Statement Table} {stmts : List (Statement Table)} {s : Store}
    (h : Healthy s) : ((writes stmt stmts).run s).1 = .ok () ↔
      ∀ st ∈ stmt :: stmts, st.accepted schema := by
  induction stmts generalizing stmt s with
  | nil => rw [writes, ok_dbExecute h, List.forall_mem_singleton]
  | cons next stmts ih =>
    rw [writes, Effect.ok_then, ok_dbExecute h, ih ((sameHealth_dbExecute stmt s).healthy h)]
    simp only [List.mem_cons, forall_eq_or_imp]

/-! ### A record is stored when its handler ends well -/

/-- `datetime.fromtimestamp` of an integer. -/
def stamp (t : ℤ) : Step DateTime :=
  match ofMicros (t * 1000000) with
  | some t => pure t
  | none => Effect.fail .malformedRecord

theorem keeps_stamp {R : Store → Store → Prop} [Std.Refl R] (t : ℤ) : Effect.Keeps R (stamp t) := by
  rw [stamp]
  cases ofMicros (t * 1000000) with
  | none => exact Effect.keeps_fail _
  | some now => exact Effect.keeps_pure _

/-- Statements with a timestamp. -/
theorem ok_stamp_writes {t : ℤ} {stmt : DateTime → Statement Table}
    {stmts : DateTime → List (Statement Table)} {P : Prop} {s : Store} (h : Healthy s)
    (hP : ∀ now, (∀ st ∈ stmt now :: stmts now, st.accepted schema) ↔ P) :
    ((stamp t >>= fun now => writes (stmt now) (stmts now)).run s).1 = .ok () ↔ InRange t ∧ P := by
  have hsome := ofMicros_isSome t
  rw [stamp]
  cases hnow : ofMicros (t * 1000000) with
  | none =>
    rw [hnow, Option.isSome_none, eq_comm, decide_eq_false_iff_not] at hsome
    rw [Effect.run_bind_of_error (Effect.run_fail ..)]
    simp [hsome]
  | some now =>
    rw [hnow, Option.isSome_some, eq_comm, decide_eq_true_eq] at hsome
    rw [Effect.pure_bind, ok_writes h, hP]
    simp [hsome]

theorem completed_iff {db : Database Table} {value : Json} {payload : Dict Json}
    {handler : Dict Json → Step Unit} (hpayload : value.dict? = some payload)
    (hhandler : recordHandler payload = .ok (some handler))
    (hkeeps : Effect.Keeps SameHealth (handler payload)) :
    Completed db value ↔ ((handler payload).run (healthy db)).1 = .ok () := by
  constructor
  · rintro ⟨payload', handler', hpayload', hhandler', hok, -⟩
    obtain rfl := Option.some.inj (hpayload.symm.trans hpayload')
    obtain rfl := Option.some.inj (Except.ok.inj (hhandler.symm.trans hhandler'))
    exact hok
  · intro hok
    have hretry : (executeWithRetry handler payload).run (healthy db) =
        (handler payload).run (healthy db) := by
      rcases hrun : (handler payload).run (healthy db) with ⟨r, s⟩
      obtain rfl : r = .ok () := by rwa [hrun] at hok
      simp only [executeWithRetry, MAX_RETRIES, attempt, hrun]
    refine ⟨payload, handler, hpayload, hhandler, hok, hretry, ?_⟩
    rw [hretry]
    exact (hkeeps _).deadLetters

/-! ### Which records are stored -/

section Records

variable {db : Database Table}

/-- The payload that the worker reads. -/
def dictOf (record : List (String × Json)) : Dict Json :=
  (record.reverse.map fun kv => ⟨kv.1, kv.2⟩).toAList

/-- A record whose handler stamps the time and writes. -/
theorem completed_writes_iff {record : List (String × Json)} {handler : Dict Json → Step Unit}
    (t : ℤ) (stmt : DateTime → Statement Table) (stmts : DateTime → List (Statement Table))
    {P : Prop} (hhandler : recordHandler (dictOf record) = .ok (some handler))
    (hrun : handler (dictOf record) = stamp t >>= fun now => writes (stmt now) (stmts now))
    (hP : ∀ now, (∀ st ∈ stmt now :: stmts now, st.accepted schema) ↔ P) :
    Completed db (.obj record) ↔ InRange t ∧ P := by
  have hkeeps : Effect.Keeps SameHealth (handler (dictOf record)) := by
    rw [hrun]
    exact Effect.keeps_bind (keeps_stamp t) fun now => sameHealth_writes _ _
  rw [completed_iff rfl hhandler hkeeps, hrun]
  exact ok_stamp_writes rfl hP

/-- The statements of a text message. -/
theorem accepted_message_iff (now : DateTime) (c message_id sender_id sender_type content recipient
    preview : String) (seq : ℤ) :
    (∀ st ∈ [insertMessage now (.text c) (.text message_id) (.text sender_id) (.text sender_type)
          (.text "text") (.text content) (.int seq),
        updatePreview now (.text preview) (.text c), updateUnread 1 (.text recipient) (.text c)],
      st.accepted schema) ↔ Int32 seq ∧ c ≠ "" ∧ recipient ≠ "" := by
  simp only [List.mem_cons, List.not_mem_nil, or_false, forall_eq_or_imp, forall_eq,
    accepted_insertMessage, accepted_updatePreview, accepted_updateUnread]

/-- The worker on an incoming message. -/
theorem persistMessage_incomingMessageRecord (event : IncomingMessageEvent) :
    persistMessage (dictOf (incomingMessageRecord event)) =
      stamp event.timestamp >>= fun now => writes
        (insertMessage now (.text event.conversation_id) (.text event.message_id)
          (.text event.user_id) (.text "user") (.text "text") (.text event.message)
          (.int event.seq))
        [updatePreview now (.text (String.ofList (event.message.toList.take 100)))
          (.text event.conversation_id), updateUnread 1 (.text "agent")
          (.text event.conversation_id)] := rfl

theorem completed_incomingMessage_iff (event : IncomingMessageEvent) :
    Completed db (.obj (incomingMessageRecord event)) ↔
      InRange event.timestamp ∧ Int32 event.seq ∧ event.conversation_id ≠ "" := by
  refine (completed_writes_iff event.timestamp _ _ rfl (persistMessage_incomingMessageRecord event)
    fun now => accepted_message_iff ..).trans ?_
  simp

/-- **An outgoing message is never stored**: its unread counter has no user. -/
theorem not_completed_outgoingMessage (event : OutgoingMessageEvent) :
    ¬Completed db (.obj (outgoingMessageRecord event)) := by
  intro h
  have hall := (completed_writes_iff event.timestamp
    (fun now => insertMessage now (.text event.conversation_id) (.text event.message_id)
      (.text event.agent_id) (.text "agent") (.text "text") (.text event.message) (.int event.seq))
    (fun now => [updatePreview now (.text (String.ofList (event.message.toList.take 100)))
      (.text event.conversation_id), updateUnread 1 (.text "") (.text event.conversation_id)])
    rfl rfl fun now => accepted_message_iff ..).mp h
  exact hall.2.2.2 rfl

theorem completed_chatStart_iff (event : ChatStartEvent) :
    Completed db (.obj (chatStartRecord event)) ↔ InRange event.timestamp ∧ event.user_id ≠ "" := by
  refine completed_writes_iff event.timestamp
    (fun now => insertConversationByUser now (.text event.user_id) (.text event.conversation_id))
    (fun now => [insertQueueEntry now (.text event.conversation_id) (.text event.user_id)])
    rfl rfl fun now => ?_
  simp [accepted_insertConversationByUser, accepted_insertQueueEntry]

theorem completed_assignment_iff (event : TransferToAgentEvent) (agent_id : String) :
    Completed db (.obj (assignmentRecord event agent_id)) ↔
      InRange event.timestamp ∧ event.conversation_id ≠ "" := by
  refine completed_writes_iff event.timestamp
    (fun now => insertAssignment now (.text event.conversation_id) (.text agent_id))
    (fun _ => []) rfl rfl fun now => ?_
  simp [accepted_insertAssignment]

theorem completed_chatEnd_iff (event : ChatEndEvent) :
    Completed db (.obj (chatEndRecord event)) ↔
      InRange event.timestamp ∧ event.conversation_id ≠ "" := by
  refine completed_writes_iff event.timestamp
    (fun now => endConversation now (.text event.conversation_id)) (fun _ => []) rfl rfl
    fun now => ?_
  simp [accepted_endConversation]

/-- **An acknowledgement is never stored**: its insert binds no bucket. -/
theorem not_completed_ack (event : AckEvent) : ¬Completed db (.obj (ackRecord event)) := by
  rintro ⟨payload, handler, hpayload, hhandler, hok, -⟩
  obtain rfl := Option.some.inj hpayload
  obtain rfl : persistAck = handler := Option.some.inj (Except.ok.inj hhandler)
  obtain ⟨rest, hrun⟩ : ∃ rest : Step Unit, persistAck (dictOf (ackRecord event)) =
      stamp event.timestamp >>= fun now => dbExecute (insertAck now (.text event.conversation_id)
        (.text event.message_id) (.text event.ack_type) (.text event.from_user_id)) >>= fun _ =>
          rest := ⟨_, rfl⟩
  obtain ⟨now, -, hnow⟩ := Effect.ok_bind.mp (hrun ▸ hok)
  have hstamp : Effect.Keeps SameHealth (stamp event.timestamp) := keeps_stamp event.timestamp
  have hhealthy : Healthy ((stamp event.timestamp).run (healthy db)).2 :=
    (hstamp (healthy db)).healthy rfl
  have hinsert := (ok_dbExecute hhealthy).mp (Effect.ok_then.mp hnow).1
  rw [not_accepted_insertAck] at hinsert
  exact absurd hinsert (by simp)

end Records

/-! ### Which records are published -/

variable {env : Env} {w : World} {key : String} {m : Message}

/-- A record that the run has published. -/
def Publishes (w : World) (m : Message) : Prop := m ∈ w.published ∧ m.topic = CHAT_PERSIST

/-- A record that is published last. -/
theorem publishes_last_iff {told : Act Unit} {record : List (String × Json)}
    (hscalar : ∀ kv ∈ record, kv.2.Scalar)
    (hnone : ∀ m ∈ (told.run w).2.published, m.topic ≠ CHAT_PERSIST) :
    Publishes ((told >>= fun _ => publishMessage CHAT_PERSIST key record).run w).2 m ↔
      (told.run w).1 = .ok () ∧ (∀ kv ∈ record, kv.2.Carried) ∧
        m = ⟨CHAT_PERSIST, key, .obj record⟩ := by
  rcases run_publish_last told hscalar key w with ⟨⟨hok, hcarried⟩, hlast⟩ | ⟨hsaid, hlast⟩
  · rw [hlast]
    constructor
    · rintro ⟨hm, htopic⟩
      obtain hm | hm := List.mem_append.mp hm
      · exact absurd htopic (hnone m hm)
      · exact ⟨hok, hcarried, List.mem_singleton.mp hm⟩
    · rintro ⟨-, -, rfl⟩
      exact ⟨List.mem_append_right _ (List.mem_singleton_self _), rfl⟩
  · rw [hlast]
    exact iff_of_false (fun h => hnone m h.1 h.2) fun h => hsaid ⟨h.1, h.2.1⟩

/-- The calls before the record end well. -/
def Told (env : Env) (w : World) (key : String) : Event → Prop
  | .chatStart event => Opens env event ∧ ¬PushRaises env w key
  | .incomingMessage event =>
    ¬PushRaises env w key ∧ Wide event.timestamp ∧ env.outcome .chatMessageReceived = .done
  | .outgoingMessage _ => ¬PushRaises env w key ∧ env.outcome .chatMessageReceived = .done
  | .transferToAgent _ => False
  | .chatEnd event => Closes env w event.conversation_id ∧ ¬PushRaises env w key
  | .ack _ => ¬PushRaises env w key

/-- The record of an event that is no transfer. -/
theorem publishes_iff {e : Event} (he : ∀ event, e ≠ .transferToAgent event) :
    Publishes ((e.on env key).run w.silent).2 m ↔
      Told env w key e ∧ (∀ kv ∈ e.record, kv.2.Carried) ∧
        m = ⟨CHAT_PERSIST, key, .obj e.record⟩ := by
  have hscalar := e.record_scalar
  cases e with
  | chatStart event =>
    obtain ⟨hnone, -, hok⟩ := told_of_sequence (w := w) (keeps_openChat event) _ rfl
    rw [Event.on, onChatStart, ← Effect.bind_assoc]
    refine (publishes_last_iff hscalar hnone).trans (and_congr_left' ?_)
    rw [hok, ok_openChat, Told]
  | incomingMessage event =>
    obtain ⟨hnone, -, hok⟩ := told_of_incoming (w := w) _ event rfl
    exact (publishes_last_iff hscalar hnone).trans (and_congr_left' hok)
  | outgoingMessage event =>
    obtain ⟨hnone, -, hok⟩ := told_of_outgoing (w := w) _ rfl
    exact (publishes_last_iff hscalar hnone).trans (and_congr_left' hok)
  | transferToAgent event => exact absurd rfl (he event)
  | chatEnd event =>
    obtain ⟨hnone, -, hok⟩ := told_of_sequence (w := w) (keeps_closeChat event) _ rfl
    rw [Event.on, onChatEnd, ← Effect.bind_assoc]
    refine (publishes_last_iff hscalar hnone).trans (and_congr_left' ?_)
    rw [hok, ok_closeChat]
    rfl
  | ack event =>
    refine (publishes_last_iff hscalar fun m hm => ?_).trans (and_congr_left' ok_push)
    rw [push_published] at hm
    exact absurd hm (by simp [World.silent])

/-- The assignment record of an agent that was found. -/
theorem publishes_recordAssignment_iff {event : TransferToAgentEvent} {a : String}
    (hw : w.published = []) :
    Publishes ((recordAssignment env key event a).run w).2 m ↔
      ((env.outcome .updateConversation = .done ∧ event.conversation_id ≠ "") ∧
        env.outcome .chatAssigned = .done) ∧ Wide event.timestamp ∧
          m = ⟨CHAT_PERSIST, key, .obj (assignmentRecord event a)⟩ := by
  have hkeeps : Effect.Keeps SameOutputs
      (env.dbExecute .updateConversation (assignConversation event.conversation_id a) >>=
        fun _ => chatAssigned env event.conversation_id a) :=
    Effect.keeps_bind (Env.keeps_dbExecute fun _ _ _ => ⟨rfl, rfl, rfl, rfl⟩) fun _ =>
      Env.keeps_track fun _ => ⟨rfl, rfl, rfl, rfl⟩
  have hscalar : ∀ kv ∈ assignmentRecord event a, kv.2.Scalar := by simp [assignmentRecord]
  have hcarried : (∀ kv ∈ assignmentRecord event a, kv.2.Carried) ↔ Wide event.timestamp := by
    simp [assignmentRecord]
  have hnone : ∀ m ∈ ((env.dbExecute .updateConversation
      (assignConversation event.conversation_id a) >>=
        fun _ => chatAssigned env event.conversation_id a).run w).2.published,
      m.topic ≠ CHAT_PERSIST := by
    rw [(hkeeps w).published, hw]
    simp
  rw [recordAssignment, ← Effect.bind_assoc, publishes_last_iff hscalar hnone, Effect.ok_then,
    Env.ok_dbExecute, accepted_assignConversation, decide_eq_true_eq, chatAssigned, Env.ok_track,
    hcarried]

/-- The push that follows publishes nothing. -/
theorem publishes_onTransferToAgent_iff {event : TransferToAgentEvent} {a : String} {w₁ : World}
    (hroute : (routeToAgent env event.conversation_id).run w = (.ok (some a), w₁)) :
    Publishes ((onTransferToAgent env key event).run w).2 m ↔
      Publishes ((recordAssignment env key event a).run w₁).2 m := by
  rw [onTransferToAgent, Effect.run_bind_of_ok hroute]
  rcases hrecord : (recordAssignment env key event a).run w₁ with ⟨r, w₂⟩
  cases r with
  | error e => rw [Effect.run_bind_of_error hrecord]
  | ok u => rw [Effect.run_bind_of_ok hrecord, Publishes, push_published, Publishes]

/-- A record of a transfer is an assignment, of a conversation that has a name. -/
theorem exists_agent_of_publishes {event : TransferToAgentEvent}
    (h : Publishes ((onTransferToAgent env key event).run w.silent).2 m) :
    Wide event.timestamp ∧ event.conversation_id ≠ "" ∧
      ∃ a, m = ⟨CHAT_PERSIST, key, .obj (assignmentRecord event a)⟩ := by
  have hsame : SameOutputs w.silent
      ((routeToAgent env event.conversation_id).run w.silent).2 :=
    keeps_routeToAgent (fun _ => ⟨rfl, rfl, rfl, rfl⟩) _
  rcases hroute : (routeToAgent env event.conversation_id).run w.silent with ⟨r, w₁⟩
  rw [hroute] at hsame
  have hempty : w₁.published = [] := hsame.published
  cases r with
  | error e =>
    rw [onTransferToAgent, Effect.run_bind_of_error hroute, Publishes, hempty] at h
    exact absurd h.1 (by simp)
  | ok agent_id =>
    cases agent_id with
    | none =>
      rw [onTransferToAgent, Effect.run_bind_of_ok hroute] at h
      have hpush := push_published _ _ ▸ h.1
      rw [hempty] at hpush
      exact absurd hpush (by simp)
    | some a =>
      rw [publishes_onTransferToAgent_iff hroute, publishes_recordAssignment_iff hempty] at h
      exact ⟨h.2.1, h.1.1.2, a, h.2.2⟩

/-! ### The condition -/

/-- When the record of an event, if it is published at all, is stored. -/
def Fits : Event → Prop
  | .chatStart event => Wide event.timestamp → event.conversation_id ≠ "" →
      InRange event.timestamp ∧ event.user_id ≠ ""
  | .incomingMessage event => Wide event.timestamp → Wide event.seq →
      InRange event.timestamp ∧ Int32 event.seq ∧ event.conversation_id ≠ ""
  | .outgoingMessage event => ¬(Wide event.timestamp ∧ Wide event.seq)
  | .transferToAgent event => Wide event.timestamp → event.conversation_id ≠ "" →
      InRange event.timestamp
  | .chatEnd event => Wide event.timestamp →
      InRange event.timestamp ∧ event.conversation_id ≠ ""
  | .ack event => ¬Wide event.timestamp

/-- The services are as they should be, nobody is connected, and one agent is available. -/
def staffed : World := { World.empty with router := Router.empty.agentGoOnline "agent-1" 5 [] }

/-- A healthy environment with a given validator. -/
def healthyEnv (p : Parsing) : Env := { Env.healthy .noon with parsing := p }

theorem not_pushRaises_staffed (p : Parsing) (key : String) :
    ¬PushRaises (healthyEnv p) staffed key := nofun

/-- A record that fits is stored. -/
theorem Fits.completed {e : Event} (h : Fits e) {db : Database Table}
    (hm : Publishes ((e.on env key).run w.silent).2 m) : Completed db m.payload := by
  cases e with
  | transferToAgent event =>
    obtain ⟨hwide, hnamed, a, rfl⟩ := exists_agent_of_publishes hm
    exact (completed_assignment_iff event a).mpr ⟨h hwide hnamed, hnamed⟩
  | chatStart event =>
    obtain ⟨htold, hcarried, rfl⟩ := (publishes_iff (by simp)).mp hm
    have hwide : Wide event.timestamp := by
      simpa [Event.record, chatStartRecord] using hcarried
    exact (completed_chatStart_iff event).mpr (h hwide htold.1.named)
  | incomingMessage event =>
    obtain ⟨-, hcarried, rfl⟩ := (publishes_iff (by simp)).mp hm
    have hwide : Wide event.seq ∧ Wide event.timestamp := by
      simpa [Event.record, incomingMessageRecord] using hcarried
    exact (completed_incomingMessage_iff event).mpr (h hwide.2 hwide.1)
  | outgoingMessage event =>
    obtain ⟨-, hcarried, rfl⟩ := (publishes_iff (by simp)).mp hm
    have hwide : Wide event.seq ∧ Wide event.timestamp := by
      simpa [Event.record, outgoingMessageRecord] using hcarried
    exact absurd hwide.symm h
  | chatEnd event =>
    obtain ⟨-, hcarried, rfl⟩ := (publishes_iff (by simp)).mp hm
    have hwide : Wide event.timestamp := by
      simpa [Event.record, chatEndRecord] using hcarried
    exact (completed_chatEnd_iff event).mpr (h hwide)
  | ack event =>
    obtain ⟨-, hcarried, rfl⟩ := (publishes_iff (by simp)).mp hm
    have hwide : Wide event.timestamp := by
      simpa [Event.record, ackRecord] using hcarried
    exact absurd hwide h

/-- The record of an event is published when nothing fails. -/
theorem publishes_healthy {p : Parsing} {e : Event} (he : ∀ event, e ≠ .transferToAgent event)
    (hopens : ∀ event, e = .chatStart event → event.conversation_id ≠ "")
    (hcarried : ∀ kv ∈ e.record, kv.2.Carried) :
    Publishes ((e.on (healthyEnv p) key).run staffed.silent).2
      ⟨CHAT_PERSIST, key, .obj e.record⟩ := by
  refine (publishes_iff he).mpr ⟨?_, hcarried, rfl⟩
  have hpush := not_pushRaises_staffed p key
  cases e with
  | chatStart event => exact ⟨⟨rfl, hopens event rfl, fun _ => rfl, rfl⟩, hpush⟩
  | incomingMessage event =>
    have hwide : Wide event.seq ∧ Wide event.timestamp := by
      simpa [Event.record, incomingMessageRecord] using hcarried
    exact ⟨hpush, hwide.2, rfl⟩
  | outgoingMessage event => exact ⟨hpush, rfl⟩
  | transferToAgent event => exact absurd rfl (he event)
  | chatEnd event => exact ⟨⟨⟨rfl, fun _ => rfl⟩, rfl, fun _ => rfl⟩, hpush⟩
  | ack event => exact hpush

/-- The assignment record is published when nothing fails. -/
theorem publishes_transfer_healthy {p : Parsing} {event : TransferToAgentEvent}
    (hnamed : event.conversation_id ≠ "") (hwide : Wide event.timestamp) :
    Publishes ((onTransferToAgent (healthyEnv p) key event).run staffed.silent).2
      ⟨CHAT_PERSIST, key, .obj (assignmentRecord event "agent-1")⟩ := by
  rw [publishes_onTransferToAgent_iff rfl, publishes_recordAssignment_iff rfl]
  exact ⟨⟨⟨rfl, hnamed⟩, rfl⟩, hwide, rfl⟩

/-- **Producer, worker and schema fit together.** For each valid event: whatever the services
contain, however the calls of the handler end and whatever is stored already, its record is stored
at the first attempt. -/
theorem records_fit_iff (p : Parsing) (raw : Dict Json) (k : EventType) (e : Event)
    (hvalid : Event.parse p raw k = some e) :
    (∀ (env : Env) (w : World) (db : Database Table) (key : String) (m : Message),
      env.parsing = p → Publishes ((handle env k key raw).run w.silent).2 m →
        Completed db m.payload) ↔ Fits e := by
  constructor
  · intro h
    have hhandle : handle (healthyEnv p) k "" raw = e.on (healthyEnv p) "" := handle_of_parse hvalid
    have hrun (m : Message) := h (healthyEnv p) staffed .empty "" m rfl
    rw [hhandle] at hrun
    cases e with
    | chatStart event =>
      intro hwide hnamed
      refine (completed_chatStart_iff event).mp (hrun _ (publishes_healthy (by simp) ?_ ?_))
      · rintro event ⟨rfl⟩
        exact hnamed
      · simpa [Event.record, chatStartRecord] using hwide
    | incomingMessage event =>
      intro hwide hseq
      refine (completed_incomingMessage_iff event).mp
        (hrun _ (publishes_healthy (by simp) (by simp) ?_))
      simpa [Event.record, incomingMessageRecord] using ⟨hseq, hwide⟩
    | outgoingMessage event =>
      rintro ⟨hwide, hseq⟩
      refine not_completed_outgoingMessage event (hrun _ (publishes_healthy (by simp) (by simp) ?_))
      simpa [Event.record, outgoingMessageRecord] using ⟨hseq, hwide⟩
    | transferToAgent event =>
      intro hwide hnamed
      exact ((completed_assignment_iff event "agent-1").mp
        (hrun _ (publishes_transfer_healthy hnamed hwide))).1
    | chatEnd event =>
      intro hwide
      refine (completed_chatEnd_iff event).mp (hrun _ (publishes_healthy (by simp) (by simp) ?_))
      simpa [Event.record, chatEndRecord] using hwide
    | ack event =>
      intro hwide
      refine not_completed_ack event (hrun _ (publishes_healthy (by simp) (by simp) ?_))
      simpa [Event.record, ackRecord] using hwide
  · rintro h env w db key m rfl hm
    rw [handle_of_parse hvalid] at hm
    exact h.completed hm

theorem records_fit_iff_hello :
    (∀ (env : Env) (w : World) (db : Database Table) (key : String) (m : Message),
      env.parsing = { intOfStr := String.toInt? } →
        Publishes ((handle env .incomingMessage key (hello "incoming_message")).run w.silent).2 m →
          Completed db m.payload) ↔ Fits (.incomingMessage helloEvent) :=
  records_fit_iff _ (hello "incoming_message") .incomingMessage _ rfl

/-- A read receipt. -/
def receipt : AckEvent where
  conversation_id := "conv-1"
  message_id := "msg-1"
  ack_type := "read"
  from_user_id := ""
  timestamp := 1748275200

/-- The read receipt of a message is not stored. -/
theorem not_records_fit :
    ¬ ∀ (env : Env) (w : World) (db : Database Table) (key : String) (k : EventType)
      (raw : Dict Json) (e : Event) (m : Message), Event.parse env.parsing raw k = some e →
        Publishes ((handle env k key raw).run w.silent).2 m → Completed db m.payload := by
  intro h
  have hcarried : ∀ kv ∈ ackRecord receipt, kv.2.Carried := by
    simp [ackRecord, receipt, Wide]
  have hpublishes : Publishes ((handle (.healthy .noon) .ack "conv-1" (hello "ack")).run
      staffed.silent).2 ⟨CHAT_PERSIST, "conv-1", .obj (ackRecord receipt)⟩ := by
    have hparse : Event.parse (Env.healthy .noon).parsing (hello "ack") .ack =
      some (.ack receipt) := rfl
    rw [handle_of_parse hparse]
    exact publishes_healthy (by simp) (by simp) hcarried
  have hcompleted := h _ _ .empty _ .ack (hello "ack") (.ack receipt) _ rfl hpublishes
  exact not_completed_ack receipt hcompleted

end Persistence

end TitanChat
