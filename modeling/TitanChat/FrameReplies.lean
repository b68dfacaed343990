import TitanChat.Internal.Transition
import TitanChat.Ownership

/-!
# The replies of the gateway

The loop of `websocket_endpoint` answers each frame before it receives the next. There are five ways
to the end of an iteration: a pong is not answered, a frame over the rate limit and an unknown event
type are refused, a failed publication is reported, and everything else is accepted. An exception
that none of them catches ends the loop, and with it the socket.

What is accepted is on `chat-inbound`, under the conversation of the socket. The reply and the
record have the same `message_id`, but they are written by two encoders. The one of the socket
writes an infinite float as `Infinity`, and the one of Kafka as `null`; a client gets one by sending
a number that no double can hold.

## Main definitions

* `Socket`, `Turn`: a socket, and a frame with what becomes of the calls
* `turn`: one iteration
* `Accounted`: the property
* `Faithful`: the condition on a frame

## Main results

* `turned_turn`: what an iteration can do
* `frames_accounted_iff`: the exact statement
-/

namespace TitanChat

open Transition

namespace FrameReplies

/-- An accepted socket. The route matches no empty conversation. -/
structure Socket extends Session where
  named : conversation_id ≠ ""

/-- How `send_and_wait` ends. If it is cancelled, the record may be stored. -/
inductive Publication where
  | returns
  | raises
  | cancelled (stored : Bool)

/-- A frame that is received, and what becomes of the calls. -/
structure Turn where
  data : Dict Json
  event_type : ∀ v, data.lookup "event_type" = some v → ∃ s, v = .str s
  /-- `str(uuid.uuid4())`. -/
  uuid : String
  /-- `int(time.time())`. -/
  timestamp : ℤ
  /-- `manager.heartbeat` returns. -/
  heartbeat : Bool
  /-- The verdict of `check_rate_limit`, which catches its exceptions; `none` if it is cancelled. -/
  allowed : Option Bool
  publication : Publication
  /-- The text of the exception, if the publication raises. -/
  exc : String
  /-- `send_json` returns. -/
  sends : Bool

namespace Turn

/-- `data.get("event_type", "incoming_message")`. -/
def eventType (t : Turn) : String :=
  match t.data.lookup "event_type" with
  | some (.str event_type) => event_type
  | _ => "incoming_message"

/-- `data.get("event_type") == "pong"`. -/
def isPong (t : Turn) : Bool := t.eventType = "pong"

/-- `data.get("message_id", str(uuid.uuid4()))`. -/
def messageId (t : Turn) : Json := (t.data.lookup "message_id").getD (.str t.uuid)

/-- The payload that is published; `none` for an unknown event type. -/
def payload (s : Socket) (t : Turn) : Option (Dict Json) :=
  (s.toSession.frame t.uuid t.timestamp t.data).payload

end Turn

/-- What `send_json` is called with: `{"status": "error", "detail": ..}` or
`{"status": "accepted", "message_id": ..}`. -/
inductive Reply where
  | error (detail : String)
  | accepted (message_id : Json)

/-- A record of `chat-inbound`, with the value as it is decoded. -/
structure Record where
  key : Option String
  value : Json

/-- The key serializer. -/
def keySerializer (k : String) : Option String := if k = "" then none else some k

/-- The frames of a socket, and the replies and records with the number of their frame. -/
structure Log where
  received : List Turn
  replies : List (ℕ × Reply)
  records : List (ℕ × Record)
  isOpen : Bool

namespace Log

def start : Log where
  received := []
  replies := []
  records := []
  isOpen := true

/-- The loop is left. -/
def close (log : Log) : Log := { log with isOpen := false }

/-- `await websocket.send_json(..)`. -/
def reply (log : Log) (i : ℕ) (t : Turn) (r : Reply) : Log :=
  if t.sends then { log with replies := log.replies ++ [(i, r)] } else log.close

/-- A record is stored. -/
def store (log : Log) (i : ℕ) (s : Socket) (value : Json) : Log :=
  { log with records := log.records ++ [(i, ⟨keySerializer s.conversation_id, value⟩)] }

end Log

/-- From `publish_message` on, with the record if it can be serialized. -/
def publish (s : Socket) (t : Turn) (i : ℕ) (value : Option Json) (log : Log) : Log :=
  match t.publication, value with
  | .cancelled true, some value => (log.store i s value).close
  | .cancelled _, _ => log.close
  | .returns, some value => (log.store i s value).reply i t (.accepted t.messageId)
  | _, _ => log.reply i t (.error ("Failed to publish: " ++ t.exc))

/-- One iteration of the loop. -/
def turn (s : Socket) (log : Log) (t : Turn) : Log :=
  let i := log.received.length
  let log := { log with received := log.received ++ [t] }
  if t.heartbeat = false then log.close
  else if t.isPong then log
  else match t.allowed with
    | none => log.close
    | some false => log.reply i t (.error "Rate limit exceeded")
    | some true =>
      match t.payload s with
      | none => log.reply i t (.error ("Unknown event_type: " ++ t.eventType))
      | some payload => publish s t i (Json.ofDict payload).transit log

def step (s : Socket) (log : Log) (t : Turn) : Option Log :=
  if log.isOpen then some (turn s log t) else none

/-! ### The property -/

/-- The numbers of the frames that are to be answered. -/
def answerable (received : List Turn) : List ℕ :=
  (List.range received.length).filter fun i => received[i]?.any fun t => !t.isPong

/-- The numbers of the frames that were answered with "accepted". -/
def accepted (replies : List (ℕ × Reply)) : List ℕ :=
  replies.filterMap fun
    | (i, .accepted _) => some i
    | (_, .error _) => none

/-- `message_id` of a record. -/
def Record.messageId (r : Record) : Option Json := r.value.dict?.bind (·.lookup "message_id")

/-- **Frame accounting.** -/
structure Accounted (s : Socket) (log : Log) : Prop where
  /-- Every frame other than a pong is answered once and in order, but for the last before the
  socket closes. The records are of the frames that were answered "accepted", in the same order, but
  for one whose reply could not be sent. -/
  answered : ∃ last extra, (last = [] ∨ log.isOpen = false ∧ last = [log.received.length - 1]) ∧
    answerable log.received = log.replies.map Prod.fst ++ last ∧
    (extra = [] ∨ extra = last) ∧ log.records.map Prod.fst = accepted log.replies ++ extra
  /-- Each is stored once. -/
  once : (log.records.map Prod.fst).Pairwise (· < ·)
  key : ∀ r ∈ log.records, r.2.key = some s.conversation_id
  /-- The record is that of the frame. -/
  frame : ∀ r ∈ log.records, ∃ t payload, log.received[r.1]? = some t ∧ t.payload s = some payload ∧
    (Json.ofDict payload).transit = some r.2.value
  message_id : ∀ i m r, (i, .accepted m) ∈ log.replies → (i, r) ∈ log.records →
    r.messageId = some m
  /-- A frame that is refused or fails leaves no record. -/
  refused : ∀ i detail, (i, .error detail) ∈ log.replies → i ∉ log.records.map Prod.fst

/-- The frame is accepted: nothing on the way refuses it or raises. -/
def Accepts (s : Socket) (t : Turn) : Prop :=
  t.heartbeat ∧ t.isPong = false ∧ t.allowed = some true ∧ t.sends ∧
    (match t.publication with
    | .returns => True
    | _ => False) ∧
    ∃ payload, t.payload s = some payload ∧ (Json.ofDict payload).transit.isSome

/-- **The condition.** If the frame is accepted, its `message_id` has no infinite or undefined
number. -/
def Faithful (s : Socket) (_ : Log) (t : Turn) : Prop := Accepts s t → t.messageId.finite

/-! ### One iteration -/

/-- What an iteration can do. -/
inductive Turned (s : Socket) (log : Log) (t : Turn) : Log → Prop
  | pong (h : t.isPong) : Turned s log t { log with received := log.received ++ [t] }
  /-- The loop is left, and the record may be stored. -/
  | left (records : List (ℕ × Record))
      (h : records = [] ∨ t.isPong = false ∧ ∃ payload value, t.payload s = some payload ∧
        (Json.ofDict payload).transit = some value ∧
        records = [(log.received.length, ⟨keySerializer s.conversation_id, value⟩)]) :
      Turned s log t
        { log with
          received := log.received ++ [t]
          records := log.records ++ records
          isOpen := false }
  | refused (detail : String) (h : t.isPong = false) :
      Turned s log t
        { log with
          received := log.received ++ [t]
          replies := log.replies ++ [(log.received.length, .error detail)] }
  | accepted (payload : Dict Json) (value : Json) (hpayload : t.payload s = some payload)
      (hvalue : (Json.ofDict payload).transit = some value) (h : Accepts s t) :
      Turned s log t
        { log with
          received := log.received ++ [t]
          replies := log.replies ++ [(log.received.length, .accepted t.messageId)]
          records := log.records ++
            [(log.received.length, ⟨keySerializer s.conversation_id, value⟩)] }

section Iteration

variable {s : Socket} {log : Log} {t : Turn}

theorem turned_close : Turned s log t (Log.close { log with received := log.received ++ [t] }) := by
  have h : Turned s log t
      { log with
        received := log.received ++ [t]
        records := log.records ++ []
        isOpen := false } := .left [] (Or.inl rfl)
  rwa [List.append_nil] at h

/-- A refusal, or its failure. -/
theorem turned_reply_error (h : t.isPong = false) (detail : String) :
    Turned s log t (Log.reply { log with received := log.received ++ [t] } log.received.length t
      (.error detail)) := by
  rw [Log.reply]
  split
  · exact .refused detail h
  · exact turned_close

theorem turned_publish (hheartbeat : t.heartbeat) (hpong : t.isPong = false)
    (hallowed : t.allowed = some true) {payload : Dict Json}
    (hpayload : t.payload s = some payload) :
    Turned s log t (publish s t log.received.length (Json.ofDict payload).transit
      { log with received := log.received ++ [t] }) := by
  cases hvalue : (Json.ofDict payload).transit with
  | none =>
    cases hp : t.publication with
    | cancelled stored =>
      cases stored with
      | true => simp only [publish, hp]; exact turned_close
      | false => simp only [publish, hp]; exact turned_close
    | returns | raises => simp only [publish, hp]; exact turned_reply_error hpong _
  | some value =>
    have hleft : Turned s log t
        { log with
          received := log.received ++ [t]
          records := log.records ++
            [(log.received.length, ⟨keySerializer s.conversation_id, value⟩)]
          isOpen := false } :=
      .left _ (Or.inr ⟨hpong, payload, value, hpayload, hvalue, rfl⟩)
    cases hp : t.publication with
    | cancelled stored =>
      cases stored with
      | true => simp only [publish, hp]; exact hleft
      | false => simp only [publish, hp]; exact turned_close
    | raises => simp only [publish, hp]; exact turned_reply_error hpong _
    | returns =>
      simp only [publish, hp, Log.reply, Log.store]
      split
      · next hsends =>
        refine .accepted payload value hpayload hvalue ⟨hheartbeat, hpong, hallowed, hsends, ?_,
          payload, hpayload, Option.isSome_of_eq_some hvalue⟩
        rw [hp]
        trivial
      · exact hleft

/-- **What an iteration can do.** -/
theorem turned_turn (s : Socket) (log : Log) (t : Turn) : Turned s log t (turn s log t) := by
  rw [turn]
  split
  · exact turned_close
  · next hheartbeat =>
    split
    · next hpong => exact .pong hpong
    · next hpong =>
      have hpong : t.isPong = false := by simpa using hpong
      split
      · exact turned_close
      · exact turned_reply_error hpong _
      · next hallowed =>
        split
        · exact turned_reply_error hpong _
        · next payload hpayload =>
          exact turned_publish (by simpa using hheartbeat) hpong hallowed hpayload

/-- A frame that is accepted. -/
theorem turn_of_accepts (h : Accepts s t) (log : Log) : ∃ payload value,
    t.payload s = some payload ∧ (Json.ofDict payload).transit = some value ∧
    turn s log t =
      { log with
        received := log.received ++ [t]
        replies := log.replies ++ [(log.received.length, .accepted t.messageId)]
        records := log.records ++
          [(log.received.length, ⟨keySerializer s.conversation_id, value⟩)] } := by
  obtain ⟨hheartbeat, hpong, hallowed, hsends, hp, payload, hpayload, hvalue⟩ := h
  obtain ⟨value, hvalue⟩ := Option.isSome_iff_exists.mp hvalue
  refine ⟨payload, value, hpayload, hvalue, ?_⟩
  cases hpublication : t.publication with
  | returns =>
    simp [turn, publish, Log.store, Log.reply, hheartbeat, hpong, hallowed, hsends, hpayload,
      hvalue, hpublication]
  | raises | cancelled => rw [hpublication] at hp; exact hp.elim

/-- What the record has for `message_id`. -/
theorem messageId_of_payload {payload : Dict Json} (h : t.payload s = some payload) :
    payload.lookup "message_id" = some t.messageId := by
  rw [Turn.payload, Frame.payload] at h
  split at h
  · split at h
    · rw [← Option.some.inj h, AList.lookup_union_right (Frame.notMem_own (by simp))]
      rfl
    · cases h
  · cases h

theorem messageId_of_transit {payload : Dict Json} {value : Json}
    (hpayload : t.payload s = some payload) (hvalue : (Json.ofDict payload).transit = some value)
    (key : Option String) :
    Record.messageId ⟨key, value⟩ = some t.messageId ↔ t.messageId.finite := by
  have hlookup := messageId_of_payload hpayload
  obtain ⟨d, hd, hfields⟩ := Json.lookup_of_transit hvalue
  obtain ⟨j, hj⟩ := Option.isSome_iff_exists.mp (Json.carry_isSome_of_transit hvalue hlookup)
  have hrecord : Record.messageId ⟨key, value⟩ = some j := by
    rw [Record.messageId, hd, Option.bind_some, hfields, hlookup, Option.bind_some, hj]
  rw [hrecord, Option.some.injEq, Json.eq_iff_of_carry hj]

end Iteration

/-! ### The property after one frame more -/

theorem answerable_append (received : List Turn) (t : Turn) :
    answerable (received ++ [t]) =
      answerable received ++ if t.isPong then [] else [received.length] := by
  have hbefore : (List.range received.length).filter
      (fun i => (received ++ [t])[i]?.any fun t => !t.isPong) = answerable received := by
    refine List.filter_congr fun i hi => ?_
    rw [List.getElem?_append_left (List.mem_range.mp hi)]
  rw [answerable, List.length_append, List.length_singleton, List.range_succ, List.filter_append,
    hbefore, List.filter_singleton, List.getElem?_concat_length]
  cases h : t.isPong <;> simp [h]

theorem lt_of_mem_answerable {received : List Turn} {i : ℕ} (h : i ∈ answerable received) :
    i < received.length :=
  List.mem_range.mp (List.mem_of_mem_filter h)

theorem accepted_append (replies replies' : List (ℕ × Reply)) :
    accepted (replies ++ replies') = accepted replies ++ accepted replies' :=
  List.filterMap_append

namespace Accounted

variable {s : Socket} {log : Log} {t : Turn}

/-- While the socket is open every frame is answered. -/
theorem of_open (h : Accounted s log) (hopen : log.isOpen) :
    answerable log.received = log.replies.map Prod.fst ∧
      log.records.map Prod.fst = accepted log.replies := by
  obtain ⟨last, extra, hlast, hanswered, hextra, hrecords⟩ := h.answered
  have hlast : last = [] := by
    obtain hlast | ⟨hclosed, -⟩ := hlast
    · exact hlast
    · rw [hopen] at hclosed; exact absurd hclosed (by decide)
  have hextra : extra = [] := by
    obtain hextra | hextra := hextra
    · exact hextra
    · rw [hextra, hlast]
  rw [hlast, List.append_nil] at hanswered
  rw [hextra, List.append_nil] at hrecords
  exact ⟨hanswered, hrecords⟩

theorem lt_of_mem_replies (h : Accounted s log) (hopen : log.isOpen) {r : ℕ × Reply}
    (hr : r ∈ log.replies) : r.1 < log.received.length := by
  refine lt_of_mem_answerable ?_
  rw [(h.of_open hopen).1]
  exact List.mem_map_of_mem hr

theorem lt_of_mem_records (h : Accounted s log) {r : ℕ × Record} (hr : r ∈ log.records) :
    r.1 < log.received.length := by
  obtain ⟨t, _, ht, -⟩ := h.frame r hr
  exact (List.getElem?_eq_some_iff.mp ht).1

section Extend

variable {replies : List (ℕ × Reply)} {records : List (ℕ × Record)} {isOpen : Bool}

/-- What the iteration of a frame adds to the log. -/
structure Adds (s : Socket) (log : Log) (t : Turn) (replies : List (ℕ × Reply))
    (records : List (ℕ × Record)) (isOpen : Bool) : Prop where
  answered : ∃ last extra,
    (last = [] ∨ isOpen = false ∧ last = [log.received.length]) ∧
    (if t.isPong then [] else [log.received.length]) = replies.map Prod.fst ++ last ∧
    (extra = [] ∨ extra = last) ∧ records.map Prod.fst = accepted replies ++ extra
  stored : records = [] ∨ ∃ payload value, t.payload s = some payload ∧
    (Json.ofDict payload).transit = some value ∧
    records = [(log.received.length, ⟨keySerializer s.conversation_id, value⟩)]
  replied : ∀ r ∈ replies, r.1 = log.received.length
  refused : ∀ detail, (log.received.length, .error detail) ∈ replies → records = []

theorem Adds.number (h : Adds s log t replies records isOpen) :
    ∀ r ∈ records, r.1 = log.received.length := by
  obtain rfl | ⟨_, _, -, -, rfl⟩ := h.stored
  · exact List.forall_mem_nil _
  · simp

theorem Adds.once (h : Adds s log t replies records isOpen) (hlog : Accounted s log) :
    ((log.records ++ records).map Prod.fst).Pairwise (· < ·) := by
  rw [List.map_append, List.pairwise_append]
  refine ⟨hlog.once, ?_, ?_⟩
  · obtain rfl | ⟨_, _, -, -, rfl⟩ := h.stored
    · exact List.Pairwise.nil
    · exact List.pairwise_singleton _ _
  · intro i hi j hj
    obtain ⟨r, hr, rfl⟩ := List.mem_map.mp hi
    obtain ⟨r', hr', rfl⟩ := List.mem_map.mp hj
    rw [h.number r' hr']
    exact hlog.lt_of_mem_records hr

theorem Adds.message_id (h : Adds s log t replies records isOpen) (hlog : Accounted s log)
    (hopen : log.isOpen)
    (hid : ∀ m r, (log.received.length, .accepted m) ∈ replies →
      (log.received.length, r) ∈ records → r.messageId = some m)
    (i : ℕ) (m : Json) (r : Record) (hm : (i, .accepted m) ∈ log.replies ++ replies)
    (hr : (i, r) ∈ log.records ++ records) : r.messageId = some m := by
  obtain hm | hm := List.mem_append.mp hm
  · obtain hr | hr := List.mem_append.mp hr
    · exact hlog.message_id i m r hm hr
    · exact absurd (h.number _ hr) (hlog.lt_of_mem_replies hopen hm).ne
  · obtain rfl := h.replied _ hm
    obtain hr | hr := List.mem_append.mp hr
    · exact absurd (hlog.lt_of_mem_records hr) (lt_irrefl _)
    · exact hid m r hm hr

theorem Adds.not_refused (h : Adds s log t replies records isOpen) (hlog : Accounted s log)
    (hopen : log.isOpen) (i : ℕ) (detail : String)
    (hm : (i, .error detail) ∈ log.replies ++ replies) :
    i ∉ (log.records ++ records).map Prod.fst := by
  intro hi
  rw [List.map_append, List.mem_append] at hi
  obtain hm | hm := List.mem_append.mp hm
  · obtain hi | hi := hi
    · exact hlog.refused i detail hm hi
    · obtain ⟨r, hr, rfl⟩ := List.mem_map.mp hi
      exact absurd (h.number r hr) (hlog.lt_of_mem_replies hopen hm).ne
  · obtain rfl := h.replied _ hm
    obtain hi | hi := hi
    · obtain ⟨r, hr, heq⟩ := List.mem_map.mp hi
      exact absurd heq (hlog.lt_of_mem_records hr).ne
    · rw [h.refused detail hm] at hi
      exact absurd hi List.not_mem_nil

/-- **One frame more.** The property holds after it if its reply and its record have the same
`message_id`. -/
theorem extend_iff (h : Accounted s log) (hopen : log.isOpen)
    (hadds : Adds s log t replies records isOpen) :
    Accounted s
        { received := log.received ++ [t]
          replies := log.replies ++ replies
          records := log.records ++ records
          isOpen := isOpen } ↔
      ∀ m r, (log.received.length, .accepted m) ∈ replies → (log.received.length, r) ∈ records →
        r.messageId = some m := by
  have hold := h.of_open hopen
  constructor
  · exact fun h' m r hm hr => h'.message_id _ m r (List.mem_append_right _ hm)
      (List.mem_append_right _ hr)
  · exact fun hid =>
      { answered := by
          obtain ⟨last, extra, hlast, hanswer, hextra, hrecord⟩ := hadds.answered
          refine ⟨last, extra, ?_, ?_, hextra, ?_⟩
          · simpa using hlast
          · rw [answerable_append, hanswer, hold.1, List.map_append, List.append_assoc]
          · rw [List.map_append, hold.2, hrecord, accepted_append, List.append_assoc]
        once := hadds.once h
        key := fun r hr => by
          obtain hr | hr := List.mem_append.mp hr
          · exact h.key r hr
          · obtain rfl | ⟨_, _, -, -, rfl⟩ := hadds.stored
            · exact absurd hr List.not_mem_nil
            · rw [List.mem_singleton.mp hr]
              exact if_neg s.named
        frame := fun r hr => by
          obtain hr | hr := List.mem_append.mp hr
          · obtain ⟨t', payload, ht', hpayload⟩ := h.frame r hr
            refine ⟨t', payload, ?_, hpayload⟩
            rwa [List.getElem?_append_left (h.lt_of_mem_records hr)]
          · obtain rfl | ⟨payload, value, hpayload, hvalue, rfl⟩ := hadds.stored
            · exact absurd hr List.not_mem_nil
            · rw [List.mem_singleton.mp hr]
              exact ⟨t, payload, List.getElem?_concat_length, hpayload, hvalue⟩
        message_id := hadds.message_id h hopen hid
        refused := hadds.not_refused h hopen }

end Extend

section Turn

variable {t : Turn}

theorem adds_pong (hpong : t.isPong = true) : Adds s log t [] [] log.isOpen where
  answered := ⟨[], [], Or.inl rfl, by rw [hpong]; rfl, Or.inl rfl, rfl⟩
  stored := Or.inl rfl
  replied := by simp
  refused := by simp

theorem adds_refused (hpong : t.isPong = false) (detail : String) :
    Adds s log t [(log.received.length, .error detail)] [] log.isOpen where
  answered := ⟨[], [], Or.inl rfl, by rw [hpong]; rfl, Or.inl rfl, rfl⟩
  stored := Or.inl rfl
  replied := by simp
  refused := fun _ _ => rfl

theorem adds_accepted (hpong : t.isPong = false) {payload : Dict Json} {value : Json}
    (hpayload : t.payload s = some payload) (hvalue : (Json.ofDict payload).transit = some value) :
    Adds s log t [(log.received.length, .accepted t.messageId)]
      [(log.received.length, ⟨keySerializer s.conversation_id, value⟩)] log.isOpen where
  answered := ⟨[], [], Or.inl rfl, by rw [hpong]; rfl, Or.inl rfl, rfl⟩
  stored := Or.inr ⟨payload, value, hpayload, hvalue, rfl⟩
  replied := by simp
  refused := by simp

/-- When the loop is left, the last frame has no answer. -/
theorem adds_left {records : List (ℕ × Record)}
    (h : records = [] ∨ t.isPong = false ∧ ∃ payload value, t.payload s = some payload ∧
      (Json.ofDict payload).transit = some value ∧
      records = [(log.received.length, ⟨keySerializer s.conversation_id, value⟩)]) :
    Adds s log t [] records false where
  answered := by
    cases hpong : t.isPong with
    | true =>
      obtain rfl | ⟨hno, -⟩ := h
      · exact ⟨[], [], Or.inl rfl, rfl, Or.inl rfl, rfl⟩
      · rw [hpong] at hno; exact absurd hno (by decide)
    | false =>
      obtain rfl | ⟨-, _, _, -, -, rfl⟩ := h
      · exact ⟨_, [], Or.inr ⟨rfl, rfl⟩, rfl, Or.inl rfl, rfl⟩
      · exact ⟨_, _, Or.inr ⟨rfl, rfl⟩, rfl, Or.inr rfl, rfl⟩
  stored := h.imp_right fun hr => hr.2
  replied := by simp
  refused := by simp

/-- A frame that is not accepted does no harm. -/
theorem turn_of_not_accepts (h : Accounted s log) (hopen : log.isOpen = true)
    (hno : ¬Accepts s t) : Accounted s (turn s log t) := by
  have hturned := turned_turn s log t
  generalize turn s log t = log' at hturned ⊢
  cases hturned with
  | accepted _ _ _ _ hyes => exact absurd hyes hno
  | pong hpong =>
    have hextend := h.extend_iff hopen (adds_pong hpong)
    rw [List.append_nil, List.append_nil] at hextend
    exact hextend.mpr (by simp)
  | refused detail hpong =>
    have hextend := h.extend_iff hopen (adds_refused hpong detail)
    rw [List.append_nil] at hextend
    exact hextend.mpr (by simp)
  | left records hrecords =>
    have hextend := h.extend_iff hopen (adds_left hrecords)
    rw [List.append_nil] at hextend
    exact hextend.mpr (by simp)

/-- A frame that is accepted must meet the condition. -/
theorem turn_iff_of_accepts (h : Accounted s log) (hopen : log.isOpen = true)
    (hyes : Accepts s t) : Accounted s (turn s log t) ↔ Faithful s log t := by
  obtain ⟨payload, value, hpayload, hvalue, heq⟩ := turn_of_accepts hyes log
  rw [heq, h.extend_iff hopen (adds_accepted hyes.2.1 hpayload hvalue), Faithful,
    imp_iff_right hyes, ← messageId_of_transit hpayload hvalue (keySerializer s.conversation_id)]
  simp

end Turn

/-- **A step keeps the property** precisely when the frame meets the condition. -/
theorem step_iff (h : Accounted s log) {log' : Log} (hstep : step s log t = some log') :
    Accounted s log' ↔ Faithful s log t := by
  rw [step] at hstep
  split at hstep
  · next hopen =>
    obtain rfl := Option.some.inj hstep
    by_cases haccepts : Accepts s t
    · exact h.turn_iff_of_accepts hopen haccepts
    · exact iff_of_true (h.turn_of_not_accepts hopen haccepts) fun hyes => absurd hyes haccepts
  · exact absurd hstep nofun

theorem start (s : Socket) : Accounted s Log.start where
  answered := ⟨[], [], Or.inl rfl, rfl, Or.inl rfl, rfl⟩
  once := List.Pairwise.nil
  key := List.forall_mem_nil _
  frame := List.forall_mem_nil _
  message_id _ _ _ h := absurd h List.not_mem_nil
  refused _ _ h := absurd h List.not_mem_nil

end Accounted

/-- **Frame accounting holds** throughout the life of a socket exactly if no accepted frame has an
infinite or undefined number in its `message_id`. -/
theorem frames_accounted_iff (s : Socket) (schedule : List Turn) :
    Always (step s) (Accounted s) Log.start schedule ↔
      Guarded (step s) (Faithful s) Log.start schedule :=
  always_iff_guarded (K := fun _ => True) (fun _ _ _ _ _ => trivial)
    (fun _ _ _ _ h hstep => h.step_iff hstep) trivial (.start s)

/-- `{"message_id": 1e999}`, with every call successful. -/
def infinite : Turn where
  data := AList.singleton "message_id" (.float .inf)
  event_type _ h :=
    have hnone : (AList.singleton (β := fun _ => Json) "message_id" (.float .inf)).lookup
      "event_type" = none := rfl
    nomatch hnone.symm.trans h
  uuid := "0"
  timestamp := 0
  heartbeat := true
  allowed := some true
  publication := .returns
  exc := ""
  sends := true

theorem accepts_infinite : Accepts ⟨⟨"c", "u", ""⟩, by decide⟩ infinite := by
  refine ⟨rfl, rfl, rfl, rfl, trivial, ?_⟩
  have hpayload : (infinite.payload ⟨⟨"c", "u", ""⟩, by decide⟩).isSome := rfl
  obtain ⟨payload, hpayload⟩ := Option.isSome_iff_exists.mp hpayload
  refine ⟨payload, hpayload, ?_⟩
  obtain rfl := Option.some.inj hpayload
  rfl

/-- **A reply need not have the id of its record**: the client sends a number that is too large for
a double. -/
theorem not_frames_accounted : ∃ (s : Socket) (schedule : List Turn),
    ¬Always (step s) (Accounted s) Log.start schedule := by
  refine ⟨⟨⟨"c", "u", ""⟩, by decide⟩, [infinite], fun h => ?_⟩
  have hfaithful := ((Accounted.start _).step_iff rfl).mp (h.2 _ rfl)
  exact absurd (hfaithful accepts_infinite) (by decide)

end FrameReplies

end TitanChat
