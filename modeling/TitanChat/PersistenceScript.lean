import TitanChat.PersistenceWorker

/-!
# What a persist handler writes

A persist handler reads its record and writes to the database, and what it reads depends on the
record alone. So a record determines a script: statements in order, and after them the end of the
handler or an error. A handler follows its script on every database and under every pattern of
faults.

## Main definitions

* `Script`, `Script.run`: statements one after another, until one fails
* `Script.writes`: the statements that take effect when no call fails
* `script`: the script of each entry of `_PERSIST_HANDLERS`

## Main results

* `follows_script`: a handler does what its script says
* `Script.run_of_faults_eq_nil`, `Script.run_cases`: how a script ends
-/

namespace TitanChat

open WideColumn Replay

namespace Persistence

/-- The statements of a handler. -/
inductive Script where
  | done
  /-- An error that is no call's: the record cannot be read. -/
  | fails
  | write (stmt : Statement Table) (rest : Script)

namespace Script

/-- Read a value; the script fails when there is none. -/
def read {α : Type} (value : Option α) (rest : α → Script) : Script :=
  match value with
  | none => fails
  | some a => rest a

/-- Execute the statements up to the first that fails. The flag says whether the handler returns. -/
def run : Script → Store → Bool × Store
  | done, s => (true, s)
  | fails, s => (false, s)
  | write stmt rest, s =>
    match s.faults with
    | true :: faults => (false, { s with faults := faults })
    | faults =>
      match s.db.execute schema stmt with
      | none => (false, { s with faults := faults.tail })
      | some db => rest.run { s with db := db, faults := faults.tail }

/-- The statements that take effect when no call fails. -/
def writes : Script → List (Statement Table)
  | done | fails => []
  | write stmt rest => if stmt.accepted schema then stmt :: rest.writes else []

/-- The handler returns when no call fails. -/
def completes : Script → Bool
  | done => true
  | fails => false
  | write stmt rest => stmt.accepted schema && rest.completes

theorem writes_of_accepted {stmt : Statement Table} (h : stmt.accepted schema) (rest : Script) :
    (write stmt rest).writes = stmt :: rest.writes := if_pos h

theorem run_of_fault (stmt : Statement Table) (rest : Script) {s : Store} {faults : List Bool}
    (h : s.faults = true :: faults) :
    (write stmt rest).run s = (false, { s with faults := faults }) := by
  rw [run, h]

theorem run_of_not_accepted {stmt : Statement Table} (h : stmt.accepted schema = false)
    (rest : Script) {s : Store} (hs : ∀ faults, s.faults ≠ true :: faults) :
    (write stmt rest).run s = (false, { s with faults := s.faults.tail }) := by
  rw [run, Database.execute_eq_none h]
  split
  · next faults hfaults => exact absurd hfaults (hs faults)
  · rfl

theorem run_of_accepted {stmt : Statement Table} (h : stmt.accepted schema) (rest : Script)
    {s : Store} (hs : ∀ faults, s.faults ≠ true :: faults) :
    (write stmt rest).run s =
      rest.run { s with db := s.db.apply schema stmt, faults := s.faults.tail } := by
  rw [run, Database.execute_eq_apply h]
  split
  · next faults hfaults => exact absurd hfaults (hs faults)
  · rfl

/-- **Without faults** the script writes all it can. -/
theorem run_of_faults_eq_nil (sc : Script) {s : Store} (h : s.faults = []) :
    sc.run s = (sc.completes, { s with db := perform (Database.apply schema) s.db sc.writes }) := by
  induction sc generalizing s with
  | done | fails => rfl
  | write stmt rest ih =>
    cases hstmt : stmt.accepted schema with
    | false =>
      rw [run_of_not_accepted hstmt rest (by simp [h])]
      simp [completes, writes, hstmt, h]
    | true =>
      rw [run_of_accepted hstmt rest (by simp [h]), ih (by simp [h])]
      simp [completes, writes, hstmt, h]

/-- **With any faults** it writes a part, and returns only when that is all of a script that
completes. -/
theorem run_cases (sc : Script) (s : Store) : ∃ ps, ps <+: sc.writes ∧
    (sc.run s).2.db = perform (Database.apply schema) s.db ps ∧
    (sc.run s).2.deadLetters = s.deadLetters ∧
    ((sc.run s).1 = true ↔ sc.completes ∧ ps = sc.writes) := by
  induction sc generalizing s with
  | done => exact ⟨[], List.prefix_refl _, rfl, rfl, by simp [run, completes, writes]⟩
  | fails => exact ⟨[], List.prefix_refl _, rfl, rfl, by simp [run, completes]⟩
  | write stmt rest ih =>
    cases hstmt : stmt.accepted schema with
    | false =>
      refine ⟨[], List.nil_prefix, ?_⟩
      by_cases hs : ∃ faults, s.faults = true :: faults
      · obtain ⟨faults, hs⟩ := hs
        simp [run_of_fault stmt rest hs, completes, hstmt]
      · rw [run_of_not_accepted hstmt rest (by simpa using hs)]
        simp [completes, hstmt]
    | true =>
      by_cases hs : ∃ faults, s.faults = true :: faults
      · obtain ⟨faults, hs⟩ := hs
        refine ⟨[], List.nil_prefix, ?_⟩
        simp [run_of_fault stmt rest hs, writes, hstmt]
      · rw [run_of_accepted hstmt rest (by simpa using hs)]
        obtain ⟨ps, hps, hdb, hdead, hok⟩ :=
          ih { s with db := s.db.apply schema stmt, faults := s.faults.tail }
        refine ⟨stmt :: ps, ?_, hdb, hdead, ?_⟩
        · rw [writes_of_accepted hstmt]
          exact List.prefix_cons_inj stmt |>.mpr hps
        · rw [hok, writes_of_accepted hstmt]
          simp [completes, hstmt]

end Script

/-! ### Following a script -/

/-- The step returns, raises and changes the store as the script does. -/
def Follows (m : Step Unit) (sc : Script) : Prop :=
  ∀ s, ((m.run s).1.isOk, (m.run s).2) = sc.run s

/-- The step finds the value, or raises, and changes nothing. -/
def Reads {α : Type} (m : Step α) (value : Option α) : Prop :=
  ∀ s, (∃ a, value = some a ∧ m.run s = (.ok a, s)) ∨
    value = none ∧ ∃ e, m.run s = (.error e, s)

theorem run_dbExecute_of_fault (stmt : Statement Table) {s : Store} {faults : List Bool}
    (h : s.faults = true :: faults) :
    (dbExecute stmt).run s = (.error .unreachable, { s with faults := faults }) := by
  simp only [dbExecute, h]

theorem run_dbExecute_of_not_accepted {stmt : Statement Table} (h : stmt.accepted schema = false)
    {s : Store} (hs : ∀ faults, s.faults ≠ true :: faults) :
    (dbExecute stmt).run s = (.error .invalidStatement, { s with faults := s.faults.tail }) := by
  simp only [dbExecute, Database.execute_eq_none h]

theorem run_dbExecute_of_accepted {stmt : Statement Table} (h : stmt.accepted schema) {s : Store}
    (hs : ∀ faults, s.faults ≠ true :: faults) :
    (dbExecute stmt).run s =
      (.ok (), { s with db := s.db.apply schema stmt, faults := s.faults.tail }) := by
  simp only [dbExecute, Database.execute_eq_apply h]

section Rules

variable {α β : Type}

theorem follows_pure : Follows (pure ()) .done := fun _ => rfl

theorem follows_dbExecute_then {stmt : Statement Table} {f : Unit → Step Unit} {rest : Script}
    (h : Follows (f ()) rest) : Follows (dbExecute stmt >>= f) (.write stmt rest) := by
  intro s
  rw [Effect.run_bind]
  by_cases hs : ∃ faults, s.faults = true :: faults
  · obtain ⟨faults, hs⟩ := hs
    rw [run_dbExecute_of_fault stmt hs, Script.run_of_fault stmt rest hs]
    rfl
  · have hs : ∀ faults, s.faults ≠ true :: faults := by simpa using hs
    cases hstmt : stmt.accepted schema with
    | false =>
      rw [run_dbExecute_of_not_accepted hstmt hs, Script.run_of_not_accepted hstmt rest hs]
      rfl
    | true =>
      rw [run_dbExecute_of_accepted hstmt hs, Script.run_of_accepted hstmt rest hs]
      exact h _

theorem follows_dbExecute (stmt : Statement Table) :
    Follows (dbExecute stmt) (.write stmt .done) := by
  have h : Follows (dbExecute stmt >>= pure) (.write stmt .done) :=
    follows_dbExecute_then follows_pure
  rwa [Effect.bind_pure] at h

theorem follows_read {m : Step α} {value : Option α} {f : α → Step Unit} {rest : α → Script}
    (hm : Reads m value) (h : ∀ a, Follows (f a) (rest a)) :
    Follows (m >>= f) (.read value rest) := by
  intro s
  rw [Effect.run_bind]
  obtain ⟨a, rfl, hrun⟩ | ⟨rfl, e, hrun⟩ := hm s
  · rw [hrun]; exact h a s
  · rw [hrun]; rfl

/-- Read a value and then another one that depends on it. -/
theorem follows_read_read {m : Step α} {value : Option α} {b : α → Step β} {next : α → Option β}
    {f : β → Step Unit} {rest : β → Script} (hm : Reads m value) (hb : ∀ a, Reads (b a) (next a))
    (h : ∀ v, Follows (f v) (rest v)) :
    Follows (m >>= fun a => b a >>= f) (.read (value.bind next) rest) := by
  intro s
  rw [Effect.run_bind]
  obtain ⟨a, rfl, hrun⟩ | ⟨rfl, e, hrun⟩ := hm s
  · rw [hrun]; exact follows_read (hb a) h s
  · rw [hrun]; rfl

theorem reads_some (a : α) : Reads (pure a : Step α) (some a) := fun _ => Or.inl ⟨a, rfl, rfl⟩

theorem reads_none (e : Failure) : Reads (Effect.fail e : Step α) none :=
  fun _ => Or.inr ⟨rfl, e, rfl⟩

end Rules

/-! ### What a handler reads -/

/-- A value as a bind. -/
def cellOf : Json → Option Cell
  | .null => some .null
  | .bool b => some (.boolean b)
  | .int i => some (.int i)
  | .str s => some (.text s)
  | .float _ | .arr _ | .obj _ => none

/-- `payload[name]` as a bind. -/
def requiredCell (payload : Dict Json) (name : String) : Option Cell :=
  (payload.lookup name).bind cellOf

/-- `payload.get(name, default)` as a bind. -/
def optionalCell (payload : Dict Json) (name : String) (default : Json) : Option Cell :=
  cellOf (optional payload name default)

/-- The timestamp of a record. -/
def timestampOf (payload : Dict Json) : Option DateTime :=
  (payload.lookup "timestamp").bind fun t => (microsOf t).bind DateTime.ofMicros

/-- The preview of a message. -/
def previewOf (payload : Dict Json) : Option Cell :=
  match optional payload "message" (.str "") with
  | .str s => some (.text (String.ofList (s.toList.take 100)))
  | _ => none

section Reads

variable (payload : Dict Json)

theorem reads_bind (v : Json) : Reads (Persistence.bind v) (cellOf v) := by
  cases v with
  | null | bool b | int i | str s => exact reads_some _
  | float x | arr xs | obj kvs => exact reads_none _

theorem reads_required (name : String) : Reads (required payload name) (payload.lookup name) := by
  rw [required]
  cases payload.lookup name with
  | none => exact reads_none _
  | some v => exact reads_some v

theorem reads_fromTimestamp : Reads (fromTimestamp payload) (timestampOf payload) := by
  intro s
  rw [fromTimestamp, timestampOf]
  obtain ⟨t, ht, hrun⟩ | ⟨ht, e, hrun⟩ := reads_required payload "timestamp" s
  · rw [Effect.run_bind_of_ok hrun, ht, Option.bind_some]
    cases (microsOf t).bind DateTime.ofMicros with
    | none => exact reads_none _ s
    | some now => exact reads_some now s
  · rw [Effect.run_bind_of_error hrun, ht]
    exact Or.inr ⟨rfl, e, rfl⟩

theorem reads_preview : Reads (preview payload) (previewOf payload) := by
  rw [preview, previewOf]
  cases optional payload "message" (.str "") with
  | str s => exact reads_some _
  | null | bool b | int i | float x | arr xs | obj kvs => exact reads_none _

end Reads

/-! ### The scripts -/

def messageScript (payload : Dict Json) : Script :=
  .read (timestampOf payload) fun now =>
  .read (requiredCell payload "conversation_id") fun conversation_id =>
  .read (requiredCell payload "message_id") fun message_id =>
  .read (optionalCell payload "sender_id" (.str "")) fun sender_id =>
  .read (optionalCell payload "sender_type" (.str "user")) fun sender_type =>
  .read (optionalCell payload "content_type" (.str "text")) fun content_type =>
  .read (optionalCell payload "message" (.str "")) fun content =>
  .read (optionalCell payload "seq" (.int 0)) fun seq =>
  .write (insertMessage now conversation_id message_id sender_id sender_type content_type content
    seq) <|
  .read (previewOf payload) fun preview =>
  .write (updatePreview now preview conversation_id) <|
  .read (optionalCell payload "unread_target" (.str "agent")) fun recipient =>
  .write (updateUnread 1 recipient conversation_id) .done

def chatStartScript (payload : Dict Json) : Script :=
  .read (timestampOf payload) fun now =>
  .read (requiredCell payload "user_id") fun user_id =>
  .read (requiredCell payload "conversation_id") fun conversation_id =>
  .write (insertConversationByUser now user_id conversation_id) <|
  .write (insertQueueEntry now conversation_id user_id) .done

def chatEndScript (payload : Dict Json) : Script :=
  .read (timestampOf payload) fun now =>
  .read (requiredCell payload "conversation_id") fun conversation_id =>
  .write (endConversation now conversation_id) .done

/-- The decrement at the end of `_persist_ack`. -/
def readerScript (payload : Dict Json) (ack_type : Json) (conversation_id : Cell) : Script :=
  match ack_type with
  | .str "read" =>
    let reader := optional payload "from_user_id" .null
    .read (cellOf (if reader.truthy then reader else .str "agent")) fun user_id =>
    .write (updateUnread (-1) user_id conversation_id) .done
  | _ => .done

def ackScript (payload : Dict Json) : Script :=
  .read (timestampOf payload) fun now =>
  .read (requiredCell payload "conversation_id") fun conversation_id =>
  .read (requiredCell payload "message_id") fun message_id =>
  .read (payload.lookup "ack_type") fun ack_type =>
  .read (optionalCell payload "from_user_id" (.str "")) fun from_user_id =>
  .read (cellOf ack_type) fun ack_type' =>
  .write (insertAck now conversation_id message_id ack_type' from_user_id) <|
  readerScript payload ack_type conversation_id

def assignmentScript (payload : Dict Json) : Script :=
  .read (timestampOf payload) fun now =>
  .read (requiredCell payload "conversation_id") fun conversation_id =>
  .read (requiredCell payload "agent_id") fun agent_id =>
  .write (insertAssignment now conversation_id agent_id) .done

/-- The scripts of `_PERSIST_HANDLERS`. -/
def script : String → Option (Dict Json → Script)
  | "message" => some messageScript
  | "chat_start" => some chatStartScript
  | "chat_end" => some chatEndScript
  | "ack" => some ackScript
  | "assignment" => some assignmentScript
  | _ => none

section Follows

variable (payload : Dict Json)

theorem follows_required {name : String} {f : Cell → Step Unit} {rest : Cell → Script}
    (h : ∀ c, Follows (f c) (rest c)) :
    Follows (required payload name >>= fun v => Persistence.bind v >>= f)
      (.read (requiredCell payload name) rest) :=
  follows_read_read (reads_required payload name) reads_bind h

theorem follows_persistMessage : Follows (persistMessage payload) (messageScript payload) := by
  refine follows_read (reads_fromTimestamp payload) fun now => ?_
  refine follows_required payload fun conversation_id => ?_
  refine follows_required payload fun message_id => ?_
  refine follows_read (reads_bind _) fun sender_id => ?_
  refine follows_read (reads_bind _) fun sender_type => ?_
  refine follows_read (reads_bind _) fun content_type => ?_
  refine follows_read (reads_bind _) fun content => ?_
  refine follows_read (reads_bind _) fun seq => ?_
  refine follows_dbExecute_then ?_
  refine follows_read (reads_preview payload) fun preview => ?_
  refine follows_dbExecute_then ?_
  refine follows_read (reads_bind _) fun recipient => ?_
  exact follows_dbExecute _

theorem follows_persistChatStart :
    Follows (persistChatStart payload) (chatStartScript payload) := by
  refine follows_read (reads_fromTimestamp payload) fun now => ?_
  refine follows_required payload fun user_id => ?_
  refine follows_required payload fun conversation_id => ?_
  exact follows_dbExecute_then (follows_dbExecute _)

theorem follows_persistChatEnd : Follows (persistChatEnd payload) (chatEndScript payload) := by
  refine follows_read (reads_fromTimestamp payload) fun now => ?_
  refine follows_required payload fun conversation_id => ?_
  exact follows_dbExecute _

theorem follows_persistAck : Follows (persistAck payload) (ackScript payload) := by
  refine follows_read (reads_fromTimestamp payload) fun now => ?_
  refine follows_required payload fun conversation_id => ?_
  refine follows_required payload fun message_id => ?_
  refine follows_read (reads_required payload "ack_type") fun ack_type => ?_
  refine follows_read (reads_bind _) fun from_user_id => ?_
  refine follows_read (reads_bind _) fun ack_type' => ?_
  refine follows_dbExecute_then ?_
  split
  · rw [readerScript]
    exact follows_read (reads_bind _) fun user_id => follows_dbExecute _
  · next hread =>
    rw [readerScript.eq_2 _ _ _ hread]
    exact follows_pure

theorem follows_persistAssignment :
    Follows (persistAssignment payload) (assignmentScript payload) := by
  refine follows_read (reads_fromTimestamp payload) fun now => ?_
  refine follows_required payload fun conversation_id => ?_
  refine follows_required payload fun agent_id => ?_
  exact follows_dbExecute _

/-- **A handler does what its script says.** -/
theorem follows_script {persist_type : String} {handler : Dict Json → Step Unit}
    (h : persistHandlers persist_type = some handler) :
    ∃ sc, script persist_type = some sc ∧ ∀ payload, Follows (handler payload) (sc payload) := by
  rw [persistHandlers.eq_def] at h
  split at h
  · obtain rfl := Option.some.inj h
    exact ⟨messageScript, rfl, follows_persistMessage⟩
  · obtain rfl := Option.some.inj h
    exact ⟨chatStartScript, rfl, follows_persistChatStart⟩
  · obtain rfl := Option.some.inj h
    exact ⟨chatEndScript, rfl, follows_persistChatEnd⟩
  · obtain rfl := Option.some.inj h
    exact ⟨ackScript, rfl, follows_persistAck⟩
  · obtain rfl := Option.some.inj h
    exact ⟨assignmentScript, rfl, follows_persistAssignment⟩
  · exact absurd h (by simp)

end Follows

end Persistence

end TitanChat
