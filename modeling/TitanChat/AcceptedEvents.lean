import TitanChat.GatewayEndpoint

/-!
# Accepted events

The gateway replies `accepted` when it has published the payload. It looks at the event type and at
nothing else that the client sends; the models of `models/events.py` are for the consumer. So
whether the payload is an event is decided by what the client has put in the other fields: those
that the endpoint fills in are always readable.

Of these, a client can override two, `conversation_id` and `timestamp`. The frames here leave them
to the server.

## Main definitions

* `Sends`, `MaySend`: a field of the client that the consumer can read
* `Frame.Readable`: the fields that each event type needs

## Main results

* `Frame.event_isSome_iff`: an accepted frame is an event exactly if these fields are readable
-/

namespace TitanChat

/-! ### When a model accepts a payload -/

/-- A computation whose rest does not depend on what it has found. -/
theorem isSome_bind_iff {α β : Type} {P : Prop} {x : Option α} {f : α → Option β}
    (h : ∀ a, (f a).isSome ↔ P) : (x >>= f).isSome ↔ x.isSome ∧ P := by
  cases x with
  | none => simp
  | some a => simpa using h a

theorem field_isSome_iff {α : Type} {read : Json → Option α} {raw : Dict Json} {name : String} :
    (field read raw name).isSome ↔ ∃ v, raw.lookup name = some v ∧ (read v).isSome := by
  rw [field]
  cases raw.lookup name <;> simp

theorem fieldD_isSome_iff {α : Type} {read : Json → Option α} {raw : Dict Json} {name : String}
    {default : α} :
    (fieldD read raw name default).isSome ↔ ∀ v, raw.lookup name = some v → (read v).isSome := by
  rw [fieldD]
  cases raw.lookup name <;> simp

theorem literal_isSome_iff {raw : Dict Json} {name : String} {values : List String} :
    (literal raw name values).isSome ↔ ∃ s ∈ values, raw.lookup name = some (.str s) := by
  rw [literal, field]
  cases raw.lookup name with
  | none => simp
  | some v => cases v <;> simp [asStr, Option.filter]

section Models

variable (p : Parsing) (raw : Dict Json)

theorem chatStart_isSome_iff : (ChatStartEvent.parse p raw).isSome ↔
    (literal raw "event_type" ["chat_start"]).isSome ∧
      (field asStr raw "conversation_id").isSome ∧ (field asStr raw "user_id").isSome ∧
      (fieldD asStr raw "bot_id" "").isSome ∧ (field p.asInt raw "timestamp").isSome ∧ True :=
  isSome_bind_iff fun _ => isSome_bind_iff fun _ => isSome_bind_iff fun _ =>
    isSome_bind_iff fun _ => isSome_bind_iff fun _ => by simp

theorem incomingMessage_isSome_iff : (IncomingMessageEvent.parse p raw).isSome ↔
    (literal raw "event_type" ["incoming_message"]).isSome ∧
      (field asStr raw "conversation_id").isSome ∧ (field asStr raw "message_id").isSome ∧
      (fieldD asStr raw "user_id" "").isSome ∧ (fieldD asStr raw "bot_id" "").isSome ∧
      (field asStr raw "message").isSome ∧ (field p.asInt raw "timestamp").isSome ∧
      (fieldD p.asInt raw "seq" 0).isSome ∧ True :=
  isSome_bind_iff fun _ => isSome_bind_iff fun _ => isSome_bind_iff fun _ =>
    isSome_bind_iff fun _ => isSome_bind_iff fun _ => isSome_bind_iff fun _ =>
    isSome_bind_iff fun _ => isSome_bind_iff fun _ => by simp

theorem transferToAgent_isSome_iff : (TransferToAgentEvent.parse p raw).isSome ↔
    (literal raw "event_type" ["transfer_to_agent"]).isSome ∧
      (field asStr raw "conversation_id").isSome ∧ (fieldD asStr raw "bot_id" "").isSome ∧
      (fieldD asStr raw "reason" "").isSome ∧ (field p.asInt raw "timestamp").isSome ∧ True :=
  isSome_bind_iff fun _ => isSome_bind_iff fun _ => isSome_bind_iff fun _ =>
    isSome_bind_iff fun _ => isSome_bind_iff fun _ => by simp

theorem chatEnd_isSome_iff : (ChatEndEvent.parse p raw).isSome ↔
    (literal raw "event_type" ["chat_end"]).isSome ∧
      (field asStr raw "conversation_id").isSome ∧ (fieldD asStr raw "bot_id" "").isSome ∧
      (field p.asInt raw "timestamp").isSome ∧ True :=
  isSome_bind_iff fun _ => isSome_bind_iff fun _ => isSome_bind_iff fun _ =>
    isSome_bind_iff fun _ => by simp

theorem ack_isSome_iff : (AckEvent.parse p raw).isSome ↔
    (literal raw "event_type" ["ack"]).isSome ∧ (field asStr raw "conversation_id").isSome ∧
      (field asStr raw "message_id").isSome ∧
      (literal raw "ack_type" ["delivered", "read"]).isSome ∧
      (fieldD asStr raw "from_user_id" "").isSome ∧ (field p.asInt raw "timestamp").isSome ∧
      True :=
  isSome_bind_iff fun _ => isSome_bind_iff fun _ => isSome_bind_iff fun _ =>
    isSome_bind_iff fun _ => isSome_bind_iff fun _ => isSome_bind_iff fun _ => by simp

end Models

/-! ### What the client sends -/

/-- The client sends the field, and the consumer can read it. -/
def Sends {α : Type} (read : Json → Option α) (data : Dict Json) (name : String) : Prop :=
  ∃ v, data.lookup name = some v ∧ (v.carry.bind read).isSome

/-- If the client sends the field, the consumer can read it. -/
def MaySend {α : Type} (read : Json → Option α) (data : Dict Json) (name : String) : Prop :=
  ∀ v, data.lookup name = some v → (v.carry.bind read).isSome

/-- One of the values of `ack_type`. -/
def asAckType (v : Json) : Option String := (asStr v).filter (· ∈ ["delivered", "read"])

namespace Frame

/-- The fields that an event of this type needs from the client. -/
def Readable (p : Parsing) (data : Dict Json) : String → Prop
  | "incoming_message" =>
    MaySend asStr data "message_id" ∧ Sends asStr data "message" ∧ MaySend p.asInt data "seq"
  | "transfer_to_agent" => MaySend asStr data "reason"
  | "ack" =>
    MaySend asStr data "message_id" ∧ Sends asAckType data "ack_type" ∧
      MaySend asStr data "from_user_id"
  | _ => True

/-- `data.get("event_type", "incoming_message")`. -/
def eventType (f : Frame) : Json := (f.data.lookup "event_type").getD (.str "incoming_message")

/-- The client leaves the conversation and the time to the server. -/
structure Plain (f : Frame) : Prop where
  conversation_id : f.data.lookup "conversation_id" = none
  timestamp : f.data.lookup "timestamp" = none

/-- The payload that is built. -/
structure Builds (f : Frame) (event_type : String) (sent : Dict Json) : Prop where
  valid : event_type ∈ VALID_EVENT_TYPES
  eventType : f.eventType = .str event_type
  event_type : sent.lookup "event_type" = some (.str event_type)
  user_id : sent.lookup "user_id" = some (.str f.user_id)
  bot_id : sent.lookup "bot_id" = some (.str f.bot_id)
  message_id : sent.lookup "message_id" = some ((f.data.lookup "message_id").getD (.str f.uuid))
  timestamp : sent.lookup "timestamp" =
    some ((f.data.lookup "timestamp").getD (.int f.timestamp))
  other : ∀ name, name ∉ ["event_type", "conversation_id", "message_id", "user_id", "bot_id",
    "timestamp"] → sent.lookup name = f.data.lookup name

variable {f : Frame} {sent : Dict Json}

theorem lookup_own (f : Frame) {name : String}
    (h : name ∉ ["event_type", "message_id", "user_id", "bot_id"]) :
    f.own.lookup name = f.data.lookup name := by
  simp only [List.mem_cons, List.not_mem_nil, or_false, not_or] at h
  obtain ⟨h₁, h₂, h₃, h₄⟩ := h
  rw [own, AList.lookup_erase_ne h₄, AList.lookup_erase_ne h₃, AList.lookup_erase_ne h₂,
    AList.lookup_erase_ne h₁]

/-- The keys of the client come last. -/
theorem lookup_union_own (f : Frame) (server : Dict Json) {name : String}
    (h : name ∉ ["event_type", "message_id", "user_id", "bot_id"]) :
    (f.own ∪ server).lookup name = (f.data.lookup name).or (server.lookup name) := by
  cases hdata : f.data.lookup name with
  | none =>
    rw [AList.lookup_union_right (by rw [← AList.lookup_eq_none, lookup_own f h, hdata])]
    rfl
  | some v =>
    rw [AList.lookup_union_left (by rw [← AList.lookup_isSome, lookup_own f h, hdata]; rfl),
      lookup_own f h, hdata]
    rfl

theorem exists_builds (h : f.payload = some sent) : ∃ event_type, f.Builds event_type sent := by
  rw [payload] at h
  split at h
  · next event_type heventType =>
    split at h
    · next hvalid =>
      obtain rfl := Option.some.inj h
      refine ⟨event_type, hvalid, heventType, ?_, ?_, ?_, ?_, ?_, fun name hname => ?_⟩
      · rw [AList.lookup_union_right (notMem_own (by simp))]
        rfl
      · rw [AList.lookup_union_right (notMem_own (by simp))]
        rfl
      · rw [AList.lookup_union_right (notMem_own (by simp))]
        rfl
      · rw [AList.lookup_union_right (notMem_own (by simp))]
        rfl
      · rw [lookup_union_own f _ (by simp)]
        cases f.data.lookup "timestamp" <;> rfl
      · simp only [List.mem_cons, List.not_mem_nil, or_false, not_or] at hname
        rw [lookup_union_own f _ (by simp [hname])]
        have hserver : ([⟨"event_type", .str event_type⟩,
            ⟨"conversation_id", .str f.conversation_id⟩,
            ⟨"message_id", (f.data.lookup "message_id").getD (.str f.uuid)⟩,
            ⟨"user_id", .str f.user_id⟩, ⟨"bot_id", .str f.bot_id⟩,
            ⟨"timestamp", .int f.timestamp⟩] : List (Σ _ : String, Json)).toAList.lookup name =
              none := by
          rw [AList.lookup_to_alist]
          simp [List.dlookup_cons_ne, hname]
        rw [hserver, Option.or_none]
    · exact absurd h (by simp)
  · exact absurd h (by simp)

/-! ### What the consumer finds -/

/-- The payload as the consumer decodes it. -/
structure Received (f : Frame) (event_type : String) (raw : Dict Json) : Prop where
  valid : event_type ∈ VALID_EVENT_TYPES
  event_type : raw.lookup "event_type" = some (.str event_type)
  conversation_id : (field asStr raw "conversation_id").isSome
  user_id : raw.lookup "user_id" = some (.str f.user_id)
  bot_id : raw.lookup "bot_id" = some (.str f.bot_id)
  timestamp (p : Parsing) : (field p.asInt raw "timestamp").isSome
  message_id : (field asStr raw "message_id").isSome ↔ MaySend asStr f.data "message_id"
  /-- Any other field arrives if it is sent, and is decoded as it was encoded. -/
  other : ∀ name, name ∉ ["event_type", "conversation_id", "message_id", "user_id", "bot_id",
    "timestamp"] → raw.lookup name = (f.data.lookup name).bind Json.carry ∧
      ∀ v, f.data.lookup name = some v → v.carry.isSome

theorem Plain.received (hplain : f.Plain) {value : Json} (h : f.arrives = some value) :
    ∃ event_type raw, f.eventType = .str event_type ∧ value.dict? = some raw ∧
      f.Received event_type raw := by
  obtain ⟨sent, hsent, htransit⟩ := Option.bind_eq_some_iff.mp h
  obtain ⟨raw, hraw, hlookup⟩ := Json.lookup_of_transit htransit
  obtain ⟨event_type, hbuilds⟩ := exists_builds hsent
  have hcarried {name : String} {v : Json} (hv : sent.lookup name = some v) : v.carry.isSome :=
    Json.carry_isSome_of_transit htransit hv
  have hstr {name s : String} (hv : sent.lookup name = some (.str s)) :
      raw.lookup name = some (.str s) := by
    rw [hlookup, hv]
    rfl
  refine ⟨event_type, raw, hbuilds.eventType, hraw, hbuilds.valid, hstr hbuilds.event_type, ?_,
    hstr hbuilds.user_id, hstr hbuilds.bot_id, fun p => ?_, ?_, fun name hname => ⟨?_, ?_⟩⟩
  · have hconv : sent.lookup "conversation_id" = some (.str f.conversation_id) := by
      rw [conversation_id_of_payload hsent, hplain.conversation_id]
      rfl
    exact field_isSome_iff.mpr ⟨_, hstr hconv, rfl⟩
  · have htime : sent.lookup "timestamp" = some (.int f.timestamp) := by
      rw [hbuilds.timestamp, hplain.timestamp]
      rfl
    obtain ⟨v, hv⟩ := Option.isSome_iff_exists.mp (hcarried htime)
    obtain rfl := Option.some.inj (Option.ite_none_right_eq_some.mp hv).2
    exact field_isSome_iff.mpr ⟨.int f.timestamp, by rw [hlookup, htime, Option.bind_some, hv], rfl⟩
  · rw [field, hlookup, hbuilds.message_id]
    cases hdata : f.data.lookup "message_id" with
    | none => exact iff_of_true rfl (by simp [MaySend, hdata])
    | some v => simp [MaySend, hdata]
  · rw [hlookup, hbuilds.other name hname]
  · intro v hv
    exact hcarried ((hbuilds.other name hname).trans hv)

namespace Received

variable {event_type : String} {raw : Dict Json}

theorem sends_iff (h : f.Received event_type raw) {α : Type} (read : Json → Option α)
    (name : String) (hname : name ∉ ["event_type", "conversation_id", "message_id", "user_id",
      "bot_id", "timestamp"]) : (field read raw name).isSome ↔ Sends read f.data name := by
  rw [field, (h.other name hname).1, Sends]
  cases f.data.lookup name <;> simp

theorem maySend_iff (h : f.Received event_type raw) {α : Type} (read : Json → Option α)
    (name : String) {default : α} (hname : name ∉ ["event_type", "conversation_id", "message_id",
      "user_id", "bot_id", "timestamp"]) :
    (fieldD read raw name default).isSome ↔ MaySend read f.data name := by
  obtain ⟨hlookup, hcarried⟩ := h.other name hname
  rw [fieldD_isSome_iff, hlookup, MaySend]
  cases hdata : f.data.lookup name with
  | none => simp
  | some v =>
    obtain ⟨w, hw⟩ := Option.isSome_iff_exists.mp (hcarried v hdata)
    simp [hw]

theorem literal_isSome (h : f.Received event_type raw) :
    (literal raw "event_type" [event_type]).isSome :=
  literal_isSome_iff.mpr ⟨event_type, List.mem_singleton_self _, h.event_type⟩

theorem ack_type_iff (h : f.Received event_type raw) :
    (literal raw "ack_type" ["delivered", "read"]).isSome ↔ Sends asAckType f.data "ack_type" := by
  rw [← h.sends_iff asAckType "ack_type" (by simp), literal, field, field]
  cases raw.lookup "ack_type" <;> rfl

end Received

/-- **An accepted frame is an event** exactly if the fields that its type needs from the client are
readable. -/
theorem event_isSome_iff (p : Parsing) {f : Frame} (hplain : f.Plain) {event_type : String}
    (htype : f.eventType = .str event_type) (haccepted : f.arrives.isSome) :
    (f.event p).isSome ↔ Readable p f.data event_type := by
  obtain ⟨value, hvalue⟩ := Option.isSome_iff_exists.mp haccepted
  obtain ⟨e, raw, he, hraw, h⟩ := hplain.received hvalue
  obtain rfl : event_type = e := by
    rw [htype] at he
    exact Json.str.inj he
  have hevent {k : EventType} (hk : handlers event_type = some k) :
      f.event p = Handlers.Event.parse p raw k := by
    have hselect : select raw = .handler k := by
      simp only [select, h.event_type, hk, Option.elim_some]
    rw [event, hvalue]
    simp only [Option.bind_eq_bind, Option.bind_some, hraw, hselect]
  have huser : (field asStr raw "user_id").isSome := field_isSome_iff.mpr ⟨_, h.user_id, rfl⟩
  have huserD : (fieldD asStr raw "user_id" "").isSome :=
    fieldD_isSome_iff.mpr fun v hv => by
      rw [h.user_id] at hv
      rw [← Option.some.inj hv]
      rfl
  have hbot : (fieldD asStr raw "bot_id" "").isSome :=
    fieldD_isSome_iff.mpr fun v hv => by
      rw [h.bot_id] at hv
      rw [← Option.some.inj hv]
      rfl
  have hvalid := h.valid
  have hliteral := h.literal_isSome
  simp only [VALID_EVENT_TYPES, List.mem_cons, List.not_mem_nil, or_false] at hvalid
  obtain rfl | rfl | rfl | rfl | rfl := hvalid
  · rw [hevent rfl, Handlers.Event.parse, Option.isSome_map, chatStart_isSome_iff]
    exact iff_of_true ⟨hliteral, h.conversation_id, huser, hbot, h.timestamp p, trivial⟩ trivial
  · rw [hevent rfl, Handlers.Event.parse, Option.isSome_map, incomingMessage_isSome_iff,
      h.message_id, h.sends_iff asStr "message" (by simp), h.maySend_iff p.asInt "seq" (by simp)]
    simp [hliteral, h.conversation_id, huserD, hbot, h.timestamp p, Readable]
  · rw [hevent rfl, Handlers.Event.parse, Option.isSome_map, transferToAgent_isSome_iff,
      h.maySend_iff asStr "reason" (by simp)]
    simp [hliteral, h.conversation_id, hbot, h.timestamp p, Readable]
  · rw [hevent rfl, Handlers.Event.parse, Option.isSome_map, chatEnd_isSome_iff]
    exact iff_of_true ⟨hliteral, h.conversation_id, hbot, h.timestamp p, trivial⟩ trivial
  · rw [hevent rfl, Handlers.Event.parse, Option.isSome_map, ack_isSome_iff, h.message_id,
      h.ack_type_iff, h.maySend_iff asStr "from_user_id" (by simp)]
    simp [hliteral, h.conversation_id, h.timestamp p, Readable]

/-- A frame on the socket of `conv-1` with these entries. -/
def sample (data : Dict Json) : Frame where
  conversation_id := "conv-1"
  user_id := "customer:conv-1"
  bot_id := "bot-1"
  uuid := "uuid-1"
  timestamp := 1748275200
  data := data

theorem event_isSome_iff_hello :
    ((sample (AList.singleton "message" (.str "Hello"))).event ⟨fun _ => none⟩).isSome ↔
      Readable ⟨fun _ => none⟩ (AList.singleton "message" (.str "Hello")) "incoming_message" :=
  event_isSome_iff ⟨fun _ => none⟩ ⟨rfl, rfl⟩ rfl rfl

/-- A frame with nothing in it is accepted, and is no event. -/
theorem not_event_isSome :
    ¬ ∀ (p : Parsing) (f : Frame), f.arrives.isSome → (f.event p).isSome := by
  intro h
  exact Bool.false_ne_true (h ⟨fun _ => none⟩ (sample ∅) rfl)

end Frame

end TitanChat
