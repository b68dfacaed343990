import TitanChat.Handlers
import TitanChat.PersistenceWorker

/-!
# A frame from the socket to the database

`websocket_endpoint` in `gateway/main.py` makes an event of each JSON object that it receives and
publishes it under the conversation of its socket. From there the event goes through Kafka to a
handler, and the handler's records go through Kafka to the persistence worker.

Authentication, the rate limit and the replies to the client are left out: they decide whether a
frame is processed, not how. The frames here are those that pass.

## Main definitions

* `Frame`, `Frame.payload`: the event that is built from a frame
* `deliver`: the consumer, for one record
* `Frame.process`: a frame processed end to end

## Main results

* `Frame.conversation_id_of_payload`, `Frame.event_ne_outgoingMessage`: what a client can send
-/

namespace TitanChat

/-- `_VALID_EVENT_TYPES`. -/
def VALID_EVENT_TYPES : List String :=
  ["chat_start", "incoming_message", "transfer_to_agent", "chat_end", "ack"]

/-- A JSON object from an authenticated socket, with what the endpoint adds to it. -/
structure Frame where
  /-- The conversation of the socket. -/
  conversation_id : String
  user_id : String
  bot_id : String
  /-- `str(uuid.uuid4())`. -/
  uuid : String
  /-- `int(time.time())`. -/
  timestamp : ℤ
  data : Dict Json

namespace Frame

/-- What the endpoint takes from the client as it is. -/
def own (f : Frame) : Dict Json :=
  (((f.data.erase "event_type").erase "message_id").erase "user_id").erase "bot_id"

/-- The payload that the endpoint publishes; `none` when it does not accept the event type. The keys
of the client come last. -/
def payload (f : Frame) : Option (Dict Json) :=
  match (f.data.lookup "event_type").getD (.str "incoming_message") with
  | .str event_type =>
    if event_type ∈ VALID_EVENT_TYPES then
      some (f.own ∪ ([⟨"event_type", .str event_type⟩,
        ⟨"conversation_id", .str f.conversation_id⟩,
        ⟨"message_id", (f.data.lookup "message_id").getD (.str f.uuid)⟩,
        ⟨"user_id", .str f.user_id⟩, ⟨"bot_id", .str f.bot_id⟩,
        ⟨"timestamp", .int f.timestamp⟩] : List (Σ _ : String, Json)).toAList)
    else none
  | _ => none

/-- The record on `chat-inbound`, as it is decoded; `none` when nothing is published. -/
def arrives (f : Frame) : Option Json := f.payload.bind fun payload => (Json.ofDict payload).transit

end Frame

/-- `_consume_loop` and `_dispatch` for one record. A record without a key is skipped. -/
def deliver (env : Env) (conversation_id : String) (value : Json) : Act Unit :=
  if conversation_id = "" then pure ()
  else
    match value.dict? with
    | none => Effect.fail .validation
    | some payload =>
      match select payload with
      | .handler k => Handlers.handle env k conversation_id payload
      | .unknown => pure ()
      | .unhashable => Effect.fail .validation

/-- The persistence worker on the records among some messages. It logs the errors. -/
def persist (faults : List Bool) (messages : List Message) (db : WideColumn.Database Table) :
    WideColumn.Database Table :=
  ((Effect.gather ((messages.filter fun m => m.topic = CHAT_PERSIST).map fun m =>
    Persistence.consume m.payload)).run { db, faults, deadLetters := [] }).2.db

/-- A record on `chat-inbound`: its handler, and the records of this handler. -/
def endToEnd (env : Env) (faults : List Bool) (conversation_id : String) (value : Json)
    (w : World) : World :=
  let w' := ((deliver env conversation_id value).run w.silent).2
  { w' with db := persist faults w'.published w'.db }

namespace Frame

/-- A frame processed end to end. -/
def process (env : Env) (faults : List Bool) (f : Frame) (w : World) : World :=
  match f.arrives with
  | none => w
  | some value => endToEnd env faults f.conversation_id value w

/-! ### What a handler finds in the payload -/

theorem notMem_own {f : Frame} {name : String}
    (h : name ∈ ["event_type", "message_id", "user_id", "bot_id"]) : name ∉ f.own := by
  simp only [List.mem_cons, List.not_mem_nil, or_false] at h
  obtain rfl | rfl | rfl | rfl := h
  all_goals simp [own]

/-- The event type is one that the gateway accepts. -/
theorem event_type_of_payload {f : Frame} {payload : Dict Json} (h : f.payload = some payload) :
    ∃ event_type ∈ VALID_EVENT_TYPES, payload.lookup "event_type" = some (.str event_type) := by
  rw [Frame.payload] at h
  split at h
  · next event_type _ =>
    split at h
    · next hvalid =>
      refine ⟨event_type, hvalid, ?_⟩
      rw [← Option.some.inj h, AList.lookup_union_right (notMem_own (by simp))]
      rfl
    · exact absurd h (by simp)
  · exact absurd h (by simp)

/-- The conversation is the one of the socket, unless the client names one. -/
theorem conversation_id_of_payload {f : Frame} {payload : Dict Json}
    (h : f.payload = some payload) : payload.lookup "conversation_id" =
      some ((f.data.lookup "conversation_id").getD (.str f.conversation_id)) := by
  have hown : f.own.lookup "conversation_id" = f.data.lookup "conversation_id" := by
    simp [own, AList.lookup_erase_ne]
  rw [Frame.payload] at h
  split at h
  · split at h
    · rw [← Option.some.inj h]
      cases hdata : f.data.lookup "conversation_id" with
      | none =>
        rw [AList.lookup_union_right (by rw [← AList.lookup_eq_none, hown, hdata])]
        rfl
      | some v =>
        rw [AList.lookup_union_left (by rw [← AList.lookup_isSome, hown, hdata]; rfl), hown, hdata]
        rfl
    · exact absurd h (by simp)
  · exact absurd h (by simp)

/-- What `_dispatch` makes of a frame, if it is an event. -/
def event (p : Parsing) (f : Frame) : Option Handlers.Event := do
  let value ← f.arrives
  let payload ← value.dict?
  match select payload with
  | .handler k => Handlers.Event.parse p payload k
  | _ => none

theorem exists_of_arrives {f : Frame} {value : Json} (h : f.arrives = some value) :
    ∃ sent payload, f.payload = some sent ∧ value.dict? = some payload ∧
      ∀ name, payload.lookup name = (sent.lookup name).bind Json.carry := by
  obtain ⟨sent, hsent, htransit⟩ := Option.bind_eq_some_iff.mp h
  obtain ⟨payload, hpayload, hlookup⟩ := Json.lookup_of_transit htransit
  exact ⟨sent, payload, hsent, hpayload, hlookup⟩

/-- The handler of a frame is one of the five that a client can reach. -/
theorem event_ne_outgoingMessage {p : Parsing} {f : Frame} (event : OutgoingMessageEvent) :
    f.event p ≠ some (.outgoingMessage event) := by
  intro h
  obtain ⟨value, harrives, hvalue⟩ := Option.bind_eq_some_iff.mp h
  obtain ⟨sent, payload, hsent, hpayload, hlookup⟩ := exists_of_arrives harrives
  obtain ⟨event_type, hvalid, htype⟩ := event_type_of_payload hsent
  have hselect : payload.lookup "event_type" = some (.str event_type) := by
    rw [hlookup, htype]
    rfl
  rw [hpayload, Option.bind_eq_bind, Option.bind_some, select, hselect] at hvalue
  simp only [VALID_EVENT_TYPES, List.mem_cons, List.not_mem_nil, or_false] at hvalid
  obtain rfl | rfl | rfl | rfl | rfl := hvalid
  all_goals simp [handlers, Handlers.Event.parse] at hvalue

/-- A frame that is an event is handled and its records are persisted. -/
theorem process_of_event (env : Env) {f : Frame} {e : Handlers.Event}
    (hc : f.conversation_id ≠ "") (h : f.event env.parsing = some e) (faults : List Bool)
    (w : World) : f.process env faults w =
      let w' := ((e.on env f.conversation_id).run w.silent).2
      { w' with db := persist faults w'.published w'.db } := by
  obtain ⟨value, harrives, hvalue⟩ := Option.bind_eq_some_iff.mp h
  obtain ⟨payload, hpayload, hselect⟩ := Option.bind_eq_some_iff.mp hvalue
  cases hk : select payload with
  | unknown | unhashable => simp [hk] at hselect
  | handler k =>
    simp only [hk] at hselect
    simp only [process, harrives, endToEnd, deliver, if_neg hc, hpayload, hk,
      Handlers.handle_of_parse hselect]

/-- A frame that is none is dropped. -/
theorem process_of_event_eq_none {env : Env} {f : Frame} (h : f.event env.parsing = none)
    (faults : List Bool) (w : World) :
    f.process env faults w = w ∨ f.process env faults w = w.silent := by
  cases harrives : f.arrives with
  | none => exact Or.inl (by simp only [process, harrives])
  | some value =>
    have hdeliver : ((deliver env f.conversation_id value).run w.silent).2 = w.silent := by
      rw [deliver]
      split
      · rfl
      · cases hpayload : value.dict? with
        | none => rfl
        | some payload =>
          simp only [event, harrives, hpayload, Option.bind_eq_bind, Option.bind_some] at h
          cases hk : select payload with
          | unknown | unhashable => simp only [hk]; rfl
          | handler k =>
            simp only [hk] at h ⊢
            rw [Handlers.handle_of_invalid h]
    refine Or.inr ?_
    simp only [process, harrives, endToEnd, hdeliver]
    rfl

/-- So is every frame of a socket without a conversation, which has no key. -/
theorem process_of_conversation_id {env : Env} {f : Frame} (h : f.conversation_id = "")
    (faults : List Bool) (w : World) :
    f.process env faults w = w ∨ f.process env faults w = w.silent := by
  cases harrives : f.arrives with
  | none => exact Or.inl (by simp only [process, harrives])
  | some value =>
    refine Or.inr ?_
    simp only [process, harrives, endToEnd, deliver, if_pos h]
    rfl

end Frame

end TitanChat
