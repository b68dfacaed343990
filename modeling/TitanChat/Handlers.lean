import TitanChat.ConsumerEffects
import TitanChat.KafkaConsumer

/-!
# The event handlers

The six modules of `consumer/handlers/`. A handler is called with the conversation of its worker,
which is the key of the Kafka record, and with the payload. The two name the same conversation only
if the payload was built that way; the handlers use one or the other.

## Main definitions

* `Handlers.chatStart`, `incomingMessage`, `outgoingMessage`, `transferToAgent`, `chatEnd`, `acks`
* `Handlers.handle`: the table `_HANDLERS`
* the record that each of them publishes to `chat-persist`
-/

namespace TitanChat

open WideColumn

namespace Handlers

/-- `Event(**raw)`. -/
def validate {α : Type} (event : Option α) : Act α :=
  match event with
  | some event => pure event
  | none => Effect.fail .validation

/-! ### `chat_start.py` -/

/-- The `INSERT INTO conversations`. -/
def insertConversation (env : Env) (event : ChatStartEvent) : Statement Table :=
  .insert .conversations [("conversation_id", .text event.conversation_id),
    ("bot_id", .text event.bot_id), ("user_id", .text event.user_id),
    ("server_id", .text env.serverId), ("status", .text "active"), ("channel", .text "web"),
    ("started_at", env.now.cell), ("last_message_at", env.now.cell)]

/-- The `INSERT INTO conversations_by_bot`. -/
def insertConversationByBot (env : Env) (event : ChatStartEvent) : Statement Table :=
  .insert .conversationsByBot [("bot_id", .text event.bot_id), ("started_at", env.now.cell),
    ("conversation_id", .text event.conversation_id), ("user_id", .text event.user_id),
    ("status", .text "active"), ("last_message_at", env.now.cell)]

def chatStartRecord (event : ChatStartEvent) : List (String × Json) :=
  [("_persist_type", .str "chat_start"), ("conversation_id", .str event.conversation_id),
    ("bot_id", .str event.bot_id), ("user_id", .str event.user_id),
    ("timestamp", .int event.timestamp)]

/-- The first calls of `chat_start.handle`: the database and the tracker. -/
def openChat (env : Env) (event : ChatStartEvent) : Act Unit := do
  env.dbExecute .insertConversation (insertConversation env event)
  if event.bot_id ≠ "" then
    env.dbExecute .insertConversationByBot (insertConversationByBot env event)
  chatOnline env event.conversation_id event.user_id env.serverId event.bot_id

/-- `chat_start.handle` after the validation. -/
def onChatStart (env : Env) (conversation_id : String) (event : ChatStartEvent) : Act Unit := do
  openChat env event
  push env conversation_id
    [("event_type", .str "chat_started"), ("conversation_id", .str event.conversation_id),
      ("timestamp", .int event.timestamp)]
  publishMessage CHAT_PERSIST conversation_id (chatStartRecord event)

def chatStart (env : Env) (conversation_id : String) (raw : Dict Json) : Act Unit := do
  let event ← validate (ChatStartEvent.parse env.parsing raw)
  onChatStart env conversation_id event

/-! ### `incoming_message.py` -/

def incomingMessageRecord (event : IncomingMessageEvent) : List (String × Json) :=
  [("_persist_type", .str "message"), ("conversation_id", .str event.conversation_id),
    ("bot_id", .str event.bot_id), ("message_id", .str event.message_id),
    ("sender_id", .str event.user_id), ("sender_type", .str "user"),
    ("content_type", .str "text"), ("message", .str event.message), ("seq", .int event.seq),
    ("timestamp", .int event.timestamp), ("unread_target", .str "agent")]

/-- The delivered ack of an incoming message. -/
def deliveredAck (event : IncomingMessageEvent) : List (String × Json) :=
  [("event_type", .str "ack"), ("ack_type", .str "delivered"),
    ("message_id", .str event.message_id), ("conversation_id", .str event.conversation_id),
    ("timestamp", .int event.timestamp)]

/-- `incoming_message.handle` after the validation. -/
def onIncomingMessage (env : Env) (conversation_id : String) (event : IncomingMessageEvent) :
    Act Unit := do
  Effect.gather
    [push env conversation_id
        [("event_type", .str "message_received"), ("message_id", .str event.message_id),
          ("conversation_id", .str event.conversation_id), ("message", .str event.message),
          ("timestamp", .int event.timestamp)],
      publishMessage CHAT_ACKS conversation_id (deliveredAck event),
      chatMessageReceived env conversation_id]
  publishMessage CHAT_PERSIST conversation_id (incomingMessageRecord event)

def incomingMessage (env : Env) (conversation_id : String) (raw : Dict Json) : Act Unit := do
  let event ← validate (IncomingMessageEvent.parse env.parsing raw)
  onIncomingMessage env conversation_id event

/-! ### `outgoing_message.py` -/

/-- The user is online and receives the message live, so nobody's unread counter is meant. -/
def outgoingMessageRecord (event : OutgoingMessageEvent) : List (String × Json) :=
  [("_persist_type", .str "message"), ("conversation_id", .str event.conversation_id),
    ("message_id", .str event.message_id), ("sender_id", .str event.agent_id),
    ("sender_type", .str "agent"), ("content_type", .str "text"), ("message", .str event.message),
    ("seq", .int event.seq), ("timestamp", .int event.timestamp), ("unread_target", .str "")]

/-- `outgoing_message.handle` after the validation. -/
def onOutgoingMessage (env : Env) (conversation_id : String) (event : OutgoingMessageEvent) :
    Act Unit := do
  Effect.gather
    [push env conversation_id
        [("event_type", .str "message_received"), ("message_id", .str event.message_id),
          ("conversation_id", .str event.conversation_id), ("message", .str event.message),
          ("sender_type", .str "agent"), ("agent_id", .str event.agent_id),
          ("timestamp", .int event.timestamp)],
      chatMessageReceived env conversation_id]
  publishMessage CHAT_PERSIST conversation_id (outgoingMessageRecord event)

def outgoingMessage (env : Env) (conversation_id : String) (raw : Dict Json) : Act Unit := do
  let event ← validate (OutgoingMessageEvent.parse env.parsing raw)
  onOutgoingMessage env conversation_id event

/-! ### `transfer_to_agent.py` -/

/-- The `UPDATE conversations` of an assignment. -/
def assignConversation (conversation_id agent_id : String) : Statement Table :=
  .update .conversations [("agent_id", .text agent_id), ("status", .text "active")]
    [("conversation_id", .text conversation_id)]

def assignmentRecord (event : TransferToAgentEvent) (agent_id : String) : List (String × Json) :=
  [("_persist_type", .str "assignment"), ("conversation_id", .str event.conversation_id),
    ("agent_id", .str agent_id), ("timestamp", .int event.timestamp)]

/-- The branch of `transfer_to_agent.handle` for an agent that was found. -/
def recordAssignment (env : Env) (conversation_id : String) (event : TransferToAgentEvent)
    (agent_id : String) : Act Unit := do
  env.dbExecute .updateConversation (assignConversation event.conversation_id agent_id)
  chatAssigned env event.conversation_id agent_id
  publishMessage CHAT_PERSIST conversation_id (assignmentRecord event agent_id)

/-- `transfer_to_agent.handle` after the validation. -/
def onTransferToAgent (env : Env) (conversation_id : String) (event : TransferToAgentEvent) :
    Act Unit := do
  let agent_id ← routeToAgent env event.conversation_id
  match agent_id with
  | some agent_id => recordAssignment env conversation_id event agent_id
  | none => pure ()
  push env conversation_id
    [("event_type", .str "transfer_initiated"), ("conversation_id", .str event.conversation_id),
      ("agent_id", .str (agent_id.getD "waiting")), ("reason", .str event.reason),
      ("timestamp", .int event.timestamp)]

def transferToAgent (env : Env) (conversation_id : String) (raw : Dict Json) : Act Unit := do
  let event ← validate (TransferToAgentEvent.parse env.parsing raw)
  onTransferToAgent env conversation_id event

/-! ### `chat_end.py` -/

def chatEndRecord (event : ChatEndEvent) : List (String × Json) :=
  [("_persist_type", .str "chat_end"), ("conversation_id", .str event.conversation_id),
    ("timestamp", .int event.timestamp)]

/-- The first calls of `chat_end.handle`: the router and the tracker. -/
def closeChat (env : Env) (event : ChatEndEvent) : Act Unit := do
  releaseAgentSlot env event.conversation_id
  chatOffline env event.conversation_id

/-- `chat_end.handle` after the validation. -/
def onChatEnd (env : Env) (conversation_id : String) (event : ChatEndEvent) : Act Unit := do
  closeChat env event
  push env conversation_id
    [("event_type", .str "chat_ended"), ("conversation_id", .str event.conversation_id),
      ("timestamp", .int event.timestamp)]
  publishMessage CHAT_PERSIST conversation_id (chatEndRecord event)

def chatEnd (env : Env) (conversation_id : String) (raw : Dict Json) : Act Unit := do
  let event ← validate (ChatEndEvent.parse env.parsing raw)
  onChatEnd env conversation_id event

/-! ### `acks.py` -/

def ackRecord (event : AckEvent) : List (String × Json) :=
  [("_persist_type", .str "ack"), ("conversation_id", .str event.conversation_id),
    ("message_id", .str event.message_id), ("ack_type", .str event.ack_type),
    ("from_user_id", .str event.from_user_id), ("timestamp", .int event.timestamp)]

/-- `acks.handle` after the validation. -/
def onAck (env : Env) (conversation_id : String) (event : AckEvent) : Act Unit := do
  push env conversation_id
    [("event_type", .str "ack"), ("ack_type", .str event.ack_type),
      ("message_id", .str event.message_id), ("timestamp", .int event.timestamp)]
  publishMessage CHAT_PERSIST conversation_id (ackRecord event)

def acks (env : Env) (conversation_id : String) (raw : Dict Json) : Act Unit := do
  let event ← validate (AckEvent.parse env.parsing raw)
  onAck env conversation_id event

/-! ### The table -/

/-- A valid event. -/
inductive Event where
  | chatStart (event : ChatStartEvent)
  | incomingMessage (event : IncomingMessageEvent)
  | outgoingMessage (event : OutgoingMessageEvent)
  | transferToAgent (event : TransferToAgentEvent)
  | chatEnd (event : ChatEndEvent)
  | ack (event : AckEvent)

/-- The conversation that an event names. -/
def Event.conversation_id : Event → String
  | .chatStart event => event.conversation_id
  | .incomingMessage event => event.conversation_id
  | .outgoingMessage event => event.conversation_id
  | .transferToAgent event => event.conversation_id
  | .chatEnd event => event.conversation_id
  | .ack event => event.conversation_id

/-- What the handler of an event type validates. -/
def Event.parse (p : Parsing) (raw : Dict Json) : EventType → Option Event
  | .chatStart => (ChatStartEvent.parse p raw).map .chatStart
  | .incomingMessage => (IncomingMessageEvent.parse p raw).map .incomingMessage
  | .outgoingMessage => (OutgoingMessageEvent.parse p raw).map .outgoingMessage
  | .transferToAgent => (TransferToAgentEvent.parse p raw).map .transferToAgent
  | .chatEnd => (ChatEndEvent.parse p raw).map .chatEnd
  | .ack => (AckEvent.parse p raw).map .ack

/-- What it does afterwards. -/
def Event.on (env : Env) (conversation_id : String) : Event → Act Unit
  | .chatStart event => onChatStart env conversation_id event
  | .incomingMessage event => onIncomingMessage env conversation_id event
  | .outgoingMessage event => onOutgoingMessage env conversation_id event
  | .transferToAgent event => onTransferToAgent env conversation_id event
  | .chatEnd event => onChatEnd env conversation_id event
  | .ack event => onAck env conversation_id event

/-- The table `_HANDLERS`. -/
def handle (env : Env) : EventType → String → Dict Json → Act Unit
  | .chatStart => chatStart env
  | .incomingMessage => incomingMessage env
  | .outgoingMessage => outgoingMessage env
  | .transferToAgent => transferToAgent env
  | .chatEnd => chatEnd env
  | .ack => acks env

/-! ### Which statements the database accepts -/

section Accepted

attribute [local simp] Statement.accepted Statement.table Statement.bound Statement.selectsKey
  schema TableSchema.keyOf TableSchema.key TableSchema.partitionNamed TableSchema.fits
  List.lookup_cons Option.filter_some

theorem accepted_insertConversation (env : Env) (event : ChatStartEvent) :
    (insertConversation env event).accepted schema = decide (event.conversation_id ≠ "") := by
  simp [insertConversation]

theorem accepted_insertConversationByBot (env : Env) (event : ChatStartEvent) :
    (insertConversationByBot env event).accepted schema = decide (event.bot_id ≠ "") := by
  simp [insertConversationByBot]

theorem accepted_assignConversation (conversation_id agent_id : String) :
    (assignConversation conversation_id agent_id).accepted schema =
      decide (conversation_id ≠ "") := by
  simp [assignConversation]

end Accepted

/-! ### Validation comes first -/

theorem validate_bind_of_some {α : Type} {parsed : Option α} {event : α} (h : parsed = some event)
    (f : α → Act Unit) : validate parsed >>= f = f event := by
  rw [h]
  rfl

theorem handle_of_parse {env : Env} {e : EventType} {conversation_id : String} {raw : Dict Json}
    {event : Event} (h : Event.parse env.parsing raw e = some event) :
    handle env e conversation_id raw = event.on env conversation_id := by
  cases e with
  | chatStart =>
    obtain ⟨event, hevent, rfl⟩ := Option.map_eq_some_iff.mp h
    exact validate_bind_of_some hevent (onChatStart env conversation_id)
  | incomingMessage =>
    obtain ⟨event, hevent, rfl⟩ := Option.map_eq_some_iff.mp h
    exact validate_bind_of_some hevent (onIncomingMessage env conversation_id)
  | outgoingMessage =>
    obtain ⟨event, hevent, rfl⟩ := Option.map_eq_some_iff.mp h
    exact validate_bind_of_some hevent (onOutgoingMessage env conversation_id)
  | transferToAgent =>
    obtain ⟨event, hevent, rfl⟩ := Option.map_eq_some_iff.mp h
    exact validate_bind_of_some hevent (onTransferToAgent env conversation_id)
  | chatEnd =>
    obtain ⟨event, hevent, rfl⟩ := Option.map_eq_some_iff.mp h
    exact validate_bind_of_some hevent (onChatEnd env conversation_id)
  | ack =>
    obtain ⟨event, hevent, rfl⟩ := Option.map_eq_some_iff.mp h
    exact validate_bind_of_some hevent (onAck env conversation_id)

theorem handle_of_invalid {env : Env} {e : EventType} {conversation_id : String} {raw : Dict Json}
    (h : Event.parse env.parsing raw e = none) (w : World) :
    (handle env e conversation_id raw).run w = (.error .validation, w) := by
  cases e
  all_goals
    have hx := Option.map_eq_none_iff.mp h
    refine Effect.run_bind_of_error ?_
    rw [hx]
    rfl

end Handlers

end TitanChat
