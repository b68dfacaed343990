import TitanChat.Internal.Json

/-!
# Event models

The models of `models/events.py` and what makes a payload a valid event. Keys that a model does not
name are ignored. A field with a default may be missing, but it may not be `null`.

Pydantic coerces in its lax mode: an integer may come as a boolean, as a float without fractional
part below `2 ^ 63` in size, or as a string. Which strings it reads as which integers is left open:
`Parsing` has the function, and nothing here depends on it. A string field takes strings only.

## Main definitions

* `ChatStartEvent`, `IncomingMessageEvent`, `TransferToAgentEvent`, `ChatEndEvent`, `AckEvent`,
  `OutgoingMessageEvent`, each with its `parse`
-/

namespace TitanChat

/-- How the validator reads a string as an integer; `none` when it refuses it. -/
structure Parsing where
  intOfStr : String → Option ℤ

/-! ### Fields -/

/-- A `str`. -/
def asStr : Json → Option String
  | .str s => some s
  | _ => none

/-- An `int`, in lax mode. -/
def Parsing.asInt (p : Parsing) : Json → Option ℤ
  | .int i => some i
  | .bool b => some (if b then 1 else 0)
  | .float (.finite q) => if q.den = 1 ∧ -2 ^ 63 < q.num ∧ q.num < 2 ^ 63 then some q.num else none
  | .str s => p.intOfStr s
  | _ => none

/-- A required field. -/
def field {α : Type} (read : Json → Option α) (raw : Dict Json) (name : String) : Option α :=
  (raw.lookup name).bind read

/-- A field with a default. -/
def fieldD {α : Type} (read : Json → Option α) (raw : Dict Json) (name : String) (default : α) :
    Option α :=
  match raw.lookup name with
  | none => some default
  | some v => read v

/-- A `Literal` field. -/
def literal (raw : Dict Json) (name : String) (values : List String) : Option String :=
  (field asStr raw name).filter (· ∈ values)

/-! ### Models -/

structure ChatStartEvent where
  conversation_id : String
  user_id : String
  bot_id : String
  timestamp : ℤ

structure IncomingMessageEvent where
  conversation_id : String
  message_id : String
  user_id : String
  bot_id : String
  message : String
  timestamp : ℤ
  seq : ℤ

structure TransferToAgentEvent where
  conversation_id : String
  bot_id : String
  reason : String
  timestamp : ℤ

structure ChatEndEvent where
  conversation_id : String
  bot_id : String
  timestamp : ℤ

structure AckEvent where
  conversation_id : String
  message_id : String
  ack_type : String
  from_user_id : String
  timestamp : ℤ

structure OutgoingMessageEvent where
  conversation_id : String
  message_id : String
  agent_id : String
  message : String
  timestamp : ℤ
  seq : ℤ

/-- `ChatStartEvent(**raw)`. -/
def ChatStartEvent.parse (p : Parsing) (raw : Dict Json) : Option ChatStartEvent := do
  let _ ← literal raw "event_type" ["chat_start"]
  let conversation_id ← field asStr raw "conversation_id"
  let user_id ← field asStr raw "user_id"
  let bot_id ← fieldD asStr raw "bot_id" ""
  let timestamp ← field p.asInt raw "timestamp"
  return { conversation_id, user_id, bot_id, timestamp }

/-- `IncomingMessageEvent(**raw)`. -/
def IncomingMessageEvent.parse (p : Parsing) (raw : Dict Json) : Option IncomingMessageEvent := do
  let _ ← literal raw "event_type" ["incoming_message"]
  let conversation_id ← field asStr raw "conversation_id"
  let message_id ← field asStr raw "message_id"
  let user_id ← fieldD asStr raw "user_id" ""
  let bot_id ← fieldD asStr raw "bot_id" ""
  let message ← field asStr raw "message"
  let timestamp ← field p.asInt raw "timestamp"
  let seq ← fieldD p.asInt raw "seq" 0
  return { conversation_id, message_id, user_id, bot_id, message, timestamp, seq }

/-- `TransferToAgentEvent(**raw)`. -/
def TransferToAgentEvent.parse (p : Parsing) (raw : Dict Json) : Option TransferToAgentEvent := do
  let _ ← literal raw "event_type" ["transfer_to_agent"]
  let conversation_id ← field asStr raw "conversation_id"
  let bot_id ← fieldD asStr raw "bot_id" ""
  let reason ← fieldD asStr raw "reason" ""
  let timestamp ← field p.asInt raw "timestamp"
  return { conversation_id, bot_id, reason, timestamp }

/-- `ChatEndEvent(**raw)`. -/
def ChatEndEvent.parse (p : Parsing) (raw : Dict Json) : Option ChatEndEvent := do
  let _ ← literal raw "event_type" ["chat_end"]
  let conversation_id ← field asStr raw "conversation_id"
  let bot_id ← fieldD asStr raw "bot_id" ""
  let timestamp ← field p.asInt raw "timestamp"
  return { conversation_id, bot_id, timestamp }

/-- `AckEvent(**raw)`. -/
def AckEvent.parse (p : Parsing) (raw : Dict Json) : Option AckEvent := do
  let _ ← literal raw "event_type" ["ack"]
  let conversation_id ← field asStr raw "conversation_id"
  let message_id ← field asStr raw "message_id"
  let ack_type ← literal raw "ack_type" ["delivered", "read"]
  let from_user_id ← fieldD asStr raw "from_user_id" ""
  let timestamp ← field p.asInt raw "timestamp"
  return { conversation_id, message_id, ack_type, from_user_id, timestamp }

/-- `OutgoingMessageEvent(**raw)`. -/
def OutgoingMessageEvent.parse (p : Parsing) (raw : Dict Json) : Option OutgoingMessageEvent := do
  let _ ← literal raw "event_type" ["outgoing_message"]
  let conversation_id ← field asStr raw "conversation_id"
  let message_id ← field asStr raw "message_id"
  let agent_id ← field asStr raw "agent_id"
  let message ← field asStr raw "message"
  let timestamp ← field p.asInt raw "timestamp"
  let seq ← fieldD p.asInt raw "seq" 0
  return { conversation_id, message_id, agent_id, message, timestamp, seq }

end TitanChat
