import TitanChat.HistoryOrder
import TitanChat.Internal.Transition
import TitanChat.Redelivery

/-!
# Unread counters

A message adds one to the counter of its `unread_target`, and a read ack takes one from the counter
of its reader. The target is "agent" for a message of a client, and the empty text for one of an
agent. The reader is `from_user_id`, which is the client's, or "agent" if that is missing. Nobody
checks that there is such a message, that it was unread, or that the reader is who the socket
belongs to.

So a counter says how many messages are unread as long as each read ack names exactly one message
that is unread, and comes from its target.

## Main definitions

* `Inbox`: the database and what has been persisted of one conversation
* `Inbox.step`: a frame of a socket or a message of an agent, persisted without failure
* `Meaningful`: the property
* `Sound`: the condition on a step

## Main results

* `change_chatRecord`: what an event adds to a counter
* `unread_iff`: the exact statement
-/

namespace TitanChat

open WideColumn Handlers

namespace Persistence

/-! ### What is persisted -/

/-- The record that the handler of a chat event publishes. -/
def chatRecord : Event → Option Json
  | .incomingMessage event => some (.obj (incomingMessageRecord event))
  | .outgoingMessage event => some (.obj (outgoingMessageRecord event))
  | .ack event => some (.obj (ackRecord event))
  | _ => none

/-- The unread target of a message, and its id. -/
def messageOf : Event → Option (String × String)
  | .incomingMessage event => some ("agent", event.message_id)
  | .outgoingMessage event => some ("", event.message_id)
  | _ => none

/-- The reader of an ack. -/
def readerOf (event : AckEvent) : String :=
  if event.from_user_id = "" then "agent" else event.from_user_id

/-- The reader of a read ack, and the message that it names. -/
def receiptOf : Event → Option (String × String)
  | .ack event => if event.ack_type = "read" then some (readerOf event, event.message_id) else none
  | _ => none

/-- One conversation. -/
structure Inbox where
  db : Database Table
  /-- The database before the last event. -/
  before : Database Table
  /-- Who sent the last event, as the gateway has authenticated it. -/
  user_id : String
  messages : List (String × String)
  receipts : List (String × String)

namespace Inbox

def start : Inbox where
  db := .empty
  before := .empty
  user_id := ""
  messages := []
  receipts := []

inductive Action where
  /-- A frame of a socket. -/
  | receive (session : Session) (sent : Sent)
  /-- A message of an agent. -/
  | reply (agent_id : String) (event : OutgoingMessageEvent)

/-- The event of a step, and who sent it. -/
def Action.event (p : Parsing) : Action → Option (String × Event)
  | .receive session sent =>
    ((session.frame sent.uuid sent.timestamp sent.data).event p).map fun e => (session.user_id, e)
  | .reply agent_id event => some (agent_id, .outgoingMessage event)

/-- The record of an event is consumed, and the database accepts its statements. -/
def persistEvent (S : Table → TableSchema) (s : Inbox) (user_id : String) (e : Event) :
    Option Inbox :=
  (chatRecord e).bind fun v =>
    if Succeeds S v then
      some {
        db := consumeLog S s.db [v]
        before := s.db
        user_id := user_id
        messages := (messageOf e).toList ++ s.messages
        receipts := (receiptOf e).toList ++ s.receipts }
    else none

def step (p : Parsing) (S : Table → TableSchema) (c : String) (s : Inbox) (a : Action) :
    Option Inbox :=
  (a.event p).bind fun (user_id, e) =>
    if e.conversation_id = c then s.persistEvent S user_id e else none

/-- The messages with this target that nobody has read under this name. -/
def unreadBy (s : Inbox) (u : String) : ℕ :=
  s.messages.countP fun m => m.1 = u ∧ m ∉ s.receipts

/-- **Unread counters mean what they say**, and only the authenticated reader's is lowered. -/
structure Meaningful (c : String) (s : Inbox) : Prop where
  count : ∀ u, unread s.db [.text u, .text c] = s.unreadBy u
  lowered : ∀ u, unread s.db [.text u, .text c] < unread s.before [.text u, .text c] →
    u = s.user_id

/-- **The condition.** No ack has come before its message; a read ack is the reader's own, it names
exactly one message with this target, and it is the first. -/
def Sound (p : Parsing) (s : Inbox) (a : Action) : Prop :=
  ∀ user_id e, a.event p = some (user_id, e) →
    (∀ m ∈ messageOf e, m ∉ s.receipts) ∧
      ∀ r ∈ receiptOf e, r.1 = user_id ∧ r ∉ s.receipts ∧ s.messages.count r = 1

end Inbox

/-! ### What an event adds to a counter -/

section Change

variable {S : Table → TableSchema} {c : String}

/-- What an event adds to the counter of a user. -/
def added (u : String) (e : Event) : ℤ :=
  (if (messageOf e).any (·.1 = u) then 1 else 0) - if (receiptOf e).any (·.1 = u) then 1 else 0

theorem Script.exists_of_completesIn_read {α : Type} {value : Option α} {rest : α → Script}
    (h : (Script.read value rest).completesIn S) :
    ∃ a, value = some a ∧ (rest a).completesIn S := by
  cases value with
  | none => exact absurd h Bool.false_ne_true
  | some a => exact ⟨a, rfl, h⟩

/-- What the statements of a script add to a counter. -/
def Script.total (S : Table → TableSchema) (key : List Cell) (sc : Script) : ℤ :=
  (((sc.writesIn S).filter (Statement.hits S .unreadCounters key)).map Statement.amount).sum

theorem Script.completesIn_write {stmt : Statement Table} {rest : Script} :
    (Script.write stmt rest).completesIn S ↔ stmt.accepted S ∧ rest.completesIn S := by
  rw [completesIn, Bool.and_eq_true]

theorem Script.total_write {stmt : Statement Table} (h : stmt.accepted S) (key : List Cell)
    (rest : Script) : (Script.write stmt rest).total S key =
      (if stmt.hits S .unreadCounters key then stmt.amount else 0) + rest.total S key := by
  rw [total, writesIn, if_pos h, List.filter_cons]
  split
  · rw [List.map_cons, List.sum_cons, total]
  · rw [zero_add, total]

/-- Statements on other tables do not count. -/
theorem Script.total_write_of_ne {stmt : Statement Table} (h : stmt.accepted S)
    (hne : stmt.table ≠ .unreadCounters) (key : List Cell) (rest : Script) :
    (Script.write stmt rest).total S key = rest.total S key := by
  rw [total_write h, if_neg fun hhits => hne (table_of_hits hhits), zero_add]

/-- The counter of an increment. -/
theorem Script.total_updateUnread
    (hkey : (S .unreadCounters).key = ["user_id", "conversation_id"]) {n : ℤ} {u' : String}
    (h : (updateUnread n (.text u') (.text c)).accepted S) (u : String) (rest : Script) :
    (Script.write (updateUnread n (.text u') (.text c)) rest).total S [.text u, .text c] =
      (if u' = u then n else 0) + rest.total S [.text u, .text c] := by
  have hhits : (updateUnread n (.text u') (.text c)).hits S .unreadCounters [.text u, .text c] =
      decide (u' = u) := by
    rw [Statement.hits, h, Bool.true_and]
    simp [updateUnread, Statement.table, Statement.bound, TableSchema.keyOf, hkey,
      List.lookup_cons, Option.filter_some]
  rw [total_write h, hhits, updateUnread, Statement.amount]
  simp only [decide_eq_true_eq]

@[simp] theorem Script.total_done (key : List Cell) : Script.done.total S key = 0 := rfl

/-- A record that completes adds what its script does. -/
theorem change_of_completes {v : Json} {sc : Script} (hsc : recordScript v = some sc)
    (hc : sc.completesIn S) (key : List Cell) : change S key [v] = sc.total S key := by
  rw [change, changes, List.flatMap_singleton, recordWrites, hsc]
  simp only [hc, if_true, Script.total]

/-- The script of a message. -/
def messageScriptOf (time : Option DateTime) (insert preview : DateTime → Statement Table)
    (target c : String) : Script :=
  .read time fun now => .write (insert now) <| .write (preview now) <|
    .write (updateUnread 1 (.text target) (.text c)) .done

theorem recordScript_incomingMessage (event : IncomingMessageEvent) :
    recordScript (.obj (incomingMessageRecord event)) =
      some (messageScriptOf (DateTime.ofMicros (event.timestamp * 1000000))
        (messageInsert · event) (messagePreview · event) "agent" event.conversation_id) :=
  rfl

theorem recordScript_outgoingMessage (event : OutgoingMessageEvent) :
    recordScript (.obj (outgoingMessageRecord event)) =
      some (messageScriptOf (DateTime.ofMicros (event.timestamp * 1000000))
        (fun now => insertMessage now (.text event.conversation_id) (.text event.message_id)
          (.text event.agent_id) (.text "agent") (.text "text") (.text event.message)
          (.int event.seq))
        (fun now => updatePreview now (.text (String.ofList (event.message.toList.take 100)))
          (.text event.conversation_id))
        "" event.conversation_id) :=
  rfl

theorem total_message (hkey : (S .unreadCounters).key = ["user_id", "conversation_id"])
    {insert preview : DateTime → Statement Table} {target : String} {time : Option DateTime}
    (hinsert : ∀ now, (insert now).table = .messages)
    (hpreview : ∀ now, (preview now).table = .conversations)
    (hc : (messageScriptOf time insert preview target c).completesIn S) (u : String) :
    (messageScriptOf time insert preview target c).total S [.text u, .text c] =
      if target = u then 1 else 0 := by
  obtain ⟨now, rfl, hc⟩ := Script.exists_of_completesIn_read hc
  obtain ⟨h, hc⟩ := Script.completesIn_write.mp hc
  obtain ⟨h', hc⟩ := Script.completesIn_write.mp hc
  obtain ⟨h'', -⟩ := Script.completesIn_write.mp hc
  have hne : (insert now).table ≠ .unreadCounters := by rw [hinsert]; nofun
  have hne' : (preview now).table ≠ .unreadCounters := by rw [hpreview]; nofun
  rw [messageScriptOf, Script.read, Script.total_write_of_ne h hne,
    Script.total_write_of_ne h' hne', Script.total_updateUnread hkey h'', Script.total_done,
    add_zero]

/-- The script of an ack. -/
theorem recordScript_ack (event : AckEvent) : recordScript (.obj (ackRecord event)) =
    some (.read (DateTime.ofMicros (event.timestamp * 1000000)) fun now =>
      .write (insertAck now (.text event.conversation_id) (.text event.message_id)
        (.text event.ack_type) (.text event.from_user_id)) <|
      readerScript (dictOf (ackRecord event)) (.str event.ack_type)
        (.text event.conversation_id)) :=
  rfl

theorem readerScript_read (event : AckEvent) :
    readerScript (dictOf (ackRecord event)) (.str "read") (.text event.conversation_id) =
      .write (updateUnread (-1) (.text (readerOf event)) (.text event.conversation_id)) .done := by
  have hreader : optional (dictOf (ackRecord event)) "from_user_id" .null =
      .str event.from_user_id := rfl
  have htruthy : (Json.str event.from_user_id).truthy = decide (event.from_user_id ≠ "") := rfl
  rw [readerScript, hreader, readerOf, htruthy]
  by_cases h : event.from_user_id = ""
  · simp [h, Script.read, cellOf]
  · simp [h, Script.read, cellOf]

theorem total_ack (hkey : (S .unreadCounters).key = ["user_id", "conversation_id"])
    {event : AckEvent} {sc : Script} (hsc : recordScript (.obj (ackRecord event)) = some sc)
    (hc : sc.completesIn S) (u : String) : sc.total S [.text u, .text event.conversation_id] =
      if event.ack_type = "read" ∧ readerOf event = u then -1 else 0 := by
  obtain rfl := Option.some.inj (hsc.symm.trans (recordScript_ack event))
  obtain ⟨now, hnow, hc⟩ := Script.exists_of_completesIn_read hc
  obtain ⟨h, hc⟩ := Script.completesIn_write.mp hc
  have hne : (insertAck now (.text event.conversation_id) (.text event.message_id)
      (.text event.ack_type) (.text event.from_user_id)).table ≠ .unreadCounters := nofun
  rw [hnow, Script.read, Script.total_write_of_ne h hne]
  by_cases hread : event.ack_type = "read"
  · rw [hread, readerScript_read] at hc ⊢
    obtain ⟨h', -⟩ := Script.completesIn_write.mp hc
    rw [Script.total_updateUnread hkey h', Script.total_done, add_zero]
    simp only [true_and]
  · rw [readerScript.eq_2 _ _ _ (by simpa using hread), Script.total_done, if_neg (by simp [hread])]

/-- **What an event adds to a counter.** -/
theorem change_chatRecord (hkey : (S .unreadCounters).key = ["user_id", "conversation_id"])
    {e : Event} {v : Json} (hv : chatRecord e = some v)
    (hs : Succeeds S v) (u : String) :
    change S [.text u, .text e.conversation_id] [v] = added u e := by
  obtain ⟨sc, hsc, hc⟩ := hs
  rw [change_of_completes hsc hc]
  cases e with
  | incomingMessage event =>
    obtain rfl := Option.some.inj hv
    obtain rfl := Option.some.inj (hsc.symm.trans (recordScript_incomingMessage event))
    rw [Event.conversation_id, total_message hkey (fun _ => rfl) (fun _ => rfl) hc, added]
    simp [messageOf, receiptOf]
  | outgoingMessage event =>
    obtain rfl := Option.some.inj hv
    obtain rfl := Option.some.inj (hsc.symm.trans (recordScript_outgoingMessage event))
    rw [Event.conversation_id, total_message hkey (fun _ => rfl) (fun _ => rfl) hc, added]
    simp [messageOf, receiptOf]
  | ack event =>
    obtain rfl := Option.some.inj hv
    rw [Event.conversation_id, total_ack hkey hsc hc]
    simp only [added, messageOf, receiptOf]
    by_cases hread : event.ack_type = "read"
    · simp [hread]
      split <;> rfl
    · simp [hread]
  | chatStart event | transferToAgent event | chatEnd event => exact absurd hv nofun

end Change

namespace Inbox

variable {p : Parsing} {S : Table → TableSchema} {c : String} {s s' : Inbox} {a : Action}

/-- What a step does. -/
theorem exists_of_step (h : step p S c s a = some s') : ∃ user_id e v,
    a.event p = some (user_id, e) ∧ e.conversation_id = c ∧ chatRecord e = some v ∧ Succeeds S v ∧
      s' = {
        db := consumeLog S s.db [v]
        before := s.db
        user_id := user_id
        messages := (messageOf e).toList ++ s.messages
        receipts := (receiptOf e).toList ++ s.receipts } := by
  obtain ⟨⟨user_id, e⟩, hevent, h⟩ := Option.bind_eq_some_iff.mp h
  dsimp only at h
  split at h
  · next hc =>
    obtain ⟨v, hv, h⟩ := Option.bind_eq_some_iff.mp h
    split at h
    · next hs => exact ⟨user_id, e, v, hevent, hc, hv, hs, (Option.some.inj h).symm⟩
    · exact absurd h nofun
  · exact absurd h nofun

/-- An event is a message, a read ack or neither. -/
theorem kind (e : Event) :
    (∃ m, messageOf e = some m ∧ receiptOf e = none) ∨
      (∃ r, messageOf e = none ∧ receiptOf e = some r) ∨
        messageOf e = none ∧ receiptOf e = none := by
  cases e with
  | incomingMessage event => exact Or.inl ⟨_, rfl, rfl⟩
  | outgoingMessage event => exact Or.inl ⟨_, rfl, rfl⟩
  | ack event =>
    cases hr : receiptOf (.ack event) with
    | none => exact Or.inr (Or.inr ⟨rfl, rfl⟩)
    | some r => exact Or.inr (Or.inl ⟨r, rfl, rfl⟩)
  | chatStart event | transferToAgent event | chatEnd event => exact Or.inr (Or.inr ⟨rfl, rfl⟩)

/-- A message is unread, unless it has been read before. -/
theorem unreadBy_message {m : String × String} (hm : s'.messages = m :: s.messages)
    (hr : s'.receipts = s.receipts) (u : String) :
    s'.unreadBy u = s.unreadBy u + if m.1 = u ∧ m ∉ s.receipts then 1 else 0 := by
  rw [unreadBy, unreadBy, hm, hr, List.countP_cons]
  simp only [decide_eq_true_eq]

/-- A receipt takes the messages that it names from the unread ones, if it is the first. -/
theorem unreadBy_receipt {r : String × String} (hm : s'.messages = s.messages)
    (hr : s'.receipts = r :: s.receipts) (u : String) :
    s'.unreadBy u + (if r.1 = u ∧ r ∉ s.receipts then s.messages.count r else 0) =
      s.unreadBy u := by
  rw [unreadBy, unreadBy, hm, hr]
  induction s.messages with
  | nil => simp
  | cons m messages ih =>
    rw [List.countP_cons, List.countP_cons, List.count_cons, ← ih]
    by_cases hm : m = r
    · subst hm
      by_cases h : m.1 = u ∧ m ∉ s.receipts
      · simp [h]
        omega
      · simp [h]
    · by_cases h : r.1 = u ∧ r ∉ s.receipts
      · simp [h, hm]
        omega
      · simp [h, hm]

/-- A state after which every counter is known. -/
theorem meaningful_iff_added {t : Inbox} (hs : Meaningful c s) (hbefore : t.before = s.db)
    {d : String → ℤ} (hd : ∀ u, unread t.db [.text u, .text c] = s.unreadBy u + d u) :
    Meaningful c t ↔
      (∀ u, (s.unreadBy u : ℤ) + d u = t.unreadBy u) ∧ ∀ u, d u < 0 → u = t.user_id := by
  have hlower : ∀ u, unread t.db [.text u, .text c] < unread t.before [.text u, .text c] ↔
      d u < 0 := by
    intro u
    rw [hd, hbefore, hs.count]
    omega
  constructor
  · rintro ⟨hcount, hlowered⟩
    exact ⟨fun u => (hd u).symm.trans (hcount u), fun u hu => hlowered u ((hlower u).mpr hu)⟩
  · rintro ⟨hcount, hlowered⟩
    exact ⟨fun u => (hd u).trans (hcount u), fun u hu => hlowered u ((hlower u).mp hu)⟩

/-- A message keeps the counters right if no ack has come before it. -/
theorem meaningful_message_iff (hs : Meaningful c s) (hbefore : s'.before = s.db)
    {m : String × String} (hm : s'.messages = m :: s.messages)
    (hr : s'.receipts = s.receipts) (hd : ∀ u, unread s'.db [.text u, .text c] =
      s.unreadBy u + if m.1 = u then 1 else 0) : Meaningful c s' ↔ m ∉ s.receipts := by
  rw [meaningful_iff_added hs hbefore hd]
  constructor
  · rintro ⟨hcount, -⟩ hmem
    have hu := hcount m.1
    rw [unreadBy_message hm hr, if_pos rfl, if_neg fun h => h.2 hmem] at hu
    omega
  · intro hmem
    refine ⟨fun u => ?_, fun u hu => absurd hu ?_⟩
    · rw [unreadBy_message hm hr]
      simp only [hmem, not_false_eq_true, and_true]
      push_cast
      rfl
    · split
      · exact nofun
      · exact lt_irrefl 0

/-- A receipt keeps them right if it is the first of one message, and the reader's own. -/
theorem meaningful_receipt_iff (hs : Meaningful c s) (hbefore : s'.before = s.db)
    {r : String × String} (hm : s'.messages = s.messages)
    (hr : s'.receipts = r :: s.receipts) (hd : ∀ u, unread s'.db [.text u, .text c] =
      s.unreadBy u + if r.1 = u then -1 else 0) :
    Meaningful c s' ↔ r.1 = s'.user_id ∧ r ∉ s.receipts ∧ s.messages.count r = 1 := by
  rw [meaningful_iff_added hs hbefore hd]
  have hcons := unreadBy_receipt hm hr
  constructor
  · rintro ⟨hcount, hlowered⟩
    refine ⟨hlowered r.1 (by simp), ?_⟩
    have hu := hcount r.1
    have hru := hcons r.1
    rw [if_pos rfl] at hu
    split at hru
    · next hmem => exact ⟨hmem.2, by omega⟩
    · omega
  · rintro ⟨huser, hmem, hone⟩
    refine ⟨fun u => ?_, fun u hu => ?_⟩
    · have hru := hcons u
      by_cases heq : r.1 = u
      · rw [if_pos ⟨heq, hmem⟩, hone] at hru
        rw [if_pos heq]
        omega
      · rw [if_neg fun h => heq h.1] at hru
        rw [if_neg heq]
        omega
    · split at hu
      · next heq => exact heq ▸ huser
      · exact absurd hu (lt_irrefl 0)

/-- Anything else keeps them right. -/
theorem meaningful_other (hs : Meaningful c s) (hbefore : s'.before = s.db)
    (hm : s'.messages = s.messages) (hr : s'.receipts = s.receipts)
    (hd : ∀ u, unread s'.db [.text u, .text c] = s.unreadBy u + 0) : Meaningful c s' := by
  rw [meaningful_iff_added hs hbefore hd]
  refine ⟨fun u => ?_, fun u hu => absurd hu (lt_irrefl 0)⟩
  rw [unreadBy, unreadBy, hm, hr, add_zero]

/-- **One step.** -/
theorem meaningful_iff (hkey : (S .unreadCounters).key = ["user_id", "conversation_id"])
    (hs : Meaningful c s) (h : step p S c s a = some s') : Meaningful c s' ↔ Sound p s a := by
  obtain ⟨user_id, e, v, hevent, rfl, hv, hsucceeds, hs'⟩ := exists_of_step h
  have hbefore : s'.before = s.db := by rw [hs']
  have huser : s'.user_id = user_id := by rw [hs']
  have hmessages : s'.messages = (messageOf e).toList ++ s.messages := by rw [hs']
  have hreceipts : s'.receipts = (receiptOf e).toList ++ s.receipts := by rw [hs']
  have hd : ∀ u, unread s'.db [.text u, .text e.conversation_id] = s.unreadBy u + added u e := by
    intro u
    rw [hs', unread_consumeLog, change_chatRecord hkey hv hsucceeds, hs.count]
  have hsound : Sound p s a ↔ (∀ m ∈ messageOf e, m ∉ s.receipts) ∧
      ∀ r ∈ receiptOf e, r.1 = user_id ∧ r ∉ s.receipts ∧ s.messages.count r = 1 := by
    simp [Sound, hevent]
  rw [hsound]
  obtain ⟨m, hm, hr⟩ | ⟨r, hm, hr⟩ | ⟨hm, hr⟩ := kind e
  · rw [meaningful_message_iff hs hbefore (by rw [hmessages, hm]; rfl) (by rw [hreceipts, hr]; rfl)
      (by simpa [added, hm, hr] using hd)]
    simp [hm, hr]
  · rw [meaningful_receipt_iff hs hbefore (by rw [hmessages, hm]; rfl)
      (by rw [hreceipts, hr]; rfl) (r := r), huser]
    · simp [hm, hr]
    · intro u
      rw [hd u, added, hm, hr]
      by_cases hu : r.1 = u
      · simp [hu]
      · simp [hu]
  · refine iff_of_true (meaningful_other hs hbefore (by rw [hmessages, hm]; rfl)
      (by rw [hreceipts, hr]; rfl) ?_) (by simp [hm, hr])
    intro u
    rw [hd u, added, hm, hr]
    rfl

theorem meaningful_start : Meaningful c start where
  count _ := rfl
  lowered _ h := absurd h (lt_irrefl _)

/-- **Unread counters mean what they say exactly if every read ack is the first of one unread
message by its authenticated target**, and no message comes after an ack that names it. In every run
of frames and replies, the counters agree throughout if and only if each step meets this. -/
theorem unread_iff (p : Parsing) (hkey : (S .unreadCounters).key = ["user_id", "conversation_id"])
    (c : String) (schedule : List Action) :
    Transition.Always (step p S c) (Meaningful c) start schedule ↔
      Transition.Guarded (step p S c) (Sound p) start schedule :=
  Transition.always_iff_guarded (K := fun _ => True) (fun _ _ _ _ _ => trivial)
    (fun _ _ _ _ hs h => meaningful_iff hkey hs h) trivial meaningful_start

/-! ### An ack of a message that was never sent -/

/-- A database that accepts what the worker executes: the key of an ack has no bucket, and an agent
may have no name. -/
def accepting : Table → TableSchema
  | .messageAcks => { schema .messageAcks with partition := ["conversation_id"] }
  | .unreadCounters =>
    { schema .unreadCounters with partition := ["user_id", "conversation_id"], clustering := [] }
  | table => schema table

/-- A read ack that names no reader. -/
def readAck (message_id : String) : Sent where
  uuid := "u"
  timestamp := 0
  data := ([⟨"event_type", .str "ack"⟩, ⟨"ack_type", .str "read"⟩,
    ⟨"message_id", .str message_id⟩] : List (Σ _ : String, Json)).toAList

/-- A message and its receipt, and the receipt once more. -/
theorem unread_iff_twice :
    Transition.Always (step ⟨fun _ => none⟩ accepting "c") (Meaningful "c") start
      [.receive ⟨"c", "u1", ""⟩ (sentMessage "m"), .receive ⟨"c", "agent", ""⟩ (readAck "m"),
        .receive ⟨"c", "agent", ""⟩ (readAck "m")] ↔
      Transition.Guarded (step ⟨fun _ => none⟩ accepting "c") (Sound ⟨fun _ => none⟩) start
        [.receive ⟨"c", "u1", ""⟩ (sentMessage "m"), .receive ⟨"c", "agent", ""⟩ (readAck "m"),
          .receive ⟨"c", "agent", ""⟩ (readAck "m")] :=
  unread_iff _ rfl _ _

/-- **A counter can be negative**: an ack names a message that does not exist. -/
theorem not_meaningful : ¬∀ (p : Parsing) (S : Table → TableSchema) (c : String)
    (schedule : List Action), (S .unreadCounters).key = ["user_id", "conversation_id"] →
      Transition.Always (step p S c) (Meaningful c) start schedule := by
  intro h
  have halways := h ⟨fun _ => none⟩ accepting "c" [.receive ⟨"c", "u1", ""⟩ (readAck "m")] rfl
  have hsome : (step ⟨fun _ => none⟩ accepting "c" start
    (.receive ⟨"c", "u1", ""⟩ (readAck "m"))).isSome := by decide
  obtain ⟨s', hs'⟩ := Option.isSome_iff_exists.mp hsome
  have hsound := (meaningful_iff rfl meaningful_start hs').mp (halways.2 s' hs')
  have hone := ((hsound _ _ rfl).2 ("agent", "m") rfl).2.2
  exact absurd hone (by decide)

end Inbox

end Persistence

end TitanChat
