import TitanChat.AcceptedEvents
import TitanChat.BotView
import TitanChat.LifecycleStatus
import TitanChat.Ownership
import TitanChat.UnreadCounters
import TitanChat.WrittenMessages

/-!
# Who the rows name

A payload has the user and the bot of its socket, whatever the client sends, and everything that
follows from it copies them: the handlers into statements and records, the worker from the records
into the tables. In between are queues, retries, repeated deliveries and errors. So where a row
names the sender of a message, or the customer and the bot of a conversation, they are those of one
socket whose frame was accepted, and both of the same frame.

Two names in the tables are not of this kind, the conversation and the `acked_by` of an ack, which
are the client's. And not every row names somebody: an `UPDATE` makes a row of a conversation that
nobody has started. But no row comes from nowhere, as each is of a conversation that an accepted
frame is about.

## Main definitions

* `Frame.Starts`, `shownAs`: what a frame says, once it is stored
* `Attributed`: every row names the socket of a frame
* `Traced`, `Caused`: where statements come from

## Main results

* `traced_of_executes`: every statement of a run comes from a frame
* `Caused.step`: one step keeps what is stored attributed
-/

namespace TitanChat

open WideColumn Handlers Persistence

/-! ### What is stored of a frame -/

/-- The event of the frame is about the conversation. -/
def Frame.About (f : Frame) (c : String) : Prop :=
  ∃ p e, f.event p = some e ∧ e.conversation_id = c

/-- The frame is a `chat_start` for the conversation. -/
def Frame.Starts (f : Frame) (c : String) : Prop :=
  ∃ p event, f.event p = some (.chatStart event) ∧ event.conversation_id = c

/-- The message of a frame, as the API shows it: the sender is the user of the socket. -/
def shownAs (f : Frame) (event : IncomingMessageEvent) : MessageResponse where
  message_id := some (.text event.message_id)
  conversation_id := some (.text event.conversation_id)
  sender_id := some (.text f.user_id)
  sender_type := some (.text "user")
  content := some (.text event.message)
  content_type := some (.text "text")
  created_at := some (.timestamp (event.timestamp * 1000))
  seq := some (.int event.seq)
  status := some (.text "sent")

/-- The row has the customer and the bot of a frame. -/
structure NamesSocket (f : Frame) (row : Row) : Prop where
  user_id : row.lookup "user_id" = some (.text f.user_id)
  bot_id : row.lookup "bot_id" = some (.text f.bot_id)

/-- **Every row names the socket of a frame** among those of `F`, as far as it names anybody, and is
of a conversation that a frame of `F` is about. A row of `conversations` that no `chat_start` has
written names neither a customer nor a bot. -/
structure Attributed (F : Frame → Prop) (db : Database Table) : Prop where
  about : ∀ table, EachRow table (fun key _ => ∃ f c, F f ∧ f.About c ∧ Belongs c table key) db
  messages : EachRow .messages (fun key row => ∃ f p event, F f ∧
    f.event p = some (.incomingMessage event) ∧ key.head? = some (.text event.conversation_id) ∧
      MessageResponse.ofRow row = shownAs f event) db
  conversations : EachRow .conversations (fun key row =>
    (row.lookup "user_id" = none ∧ row.lookup "bot_id" = none) ∨
      ∃ f c, F f ∧ f.Starts c ∧ key = [.text c] ∧ NamesSocket f row) db
  conversationsByBot : EachRow .conversationsByBot (fun key row => ∃ f c, F f ∧ f.Starts c ∧
    key.head? = some (.text f.bot_id) ∧ row.lookup "conversation_id" = some (.text c) ∧
      NamesSocket f row) db
  conversationsByUser : EachRow .conversationsByUser (fun key row => ∃ f c, F f ∧ f.Starts c ∧
    key.head? = some (.text f.user_id) ∧ row.lookup "conversation_id" = some (.text c)) db
  agentQueue : EachRow .agentQueue (fun _ row => ∃ f c, F f ∧ f.Starts c ∧
    row.lookup "user_id" = some (.text f.user_id) ∧
      row.lookup "conversation_id" = some (.text c)) db

/-! ### Where statements come from -/

/-- The statements that the frames of `F` lead to. Those that name nobody are known by their frame
and its conversation. -/
inductive Traced (F : Frame → Prop) : Statement Table → Prop
  | start {f : Frame} {env : Env} {event : ChatStartEvent} (hf : F f)
      (he : f.event env.parsing = some (.chatStart event)) : Traced F (insertConversation env event)
  | byBot {f : Frame} {env : Env} {event : ChatStartEvent} (hf : F f)
      (he : f.event env.parsing = some (.chatStart event)) :
      Traced F (insertConversationByBot env event)
  | byUser {f : Frame} {p : Parsing} {event : ChatStartEvent} (now : DateTime) (hf : F f)
      (he : f.event p = some (.chatStart event)) :
      Traced F (insertConversationByUser now (.text event.user_id) (.text event.conversation_id))
  | queue {f : Frame} {p : Parsing} {event : ChatStartEvent} (now : DateTime) (hf : F f)
      (he : f.event p = some (.chatStart event)) :
      Traced F (insertQueueEntry now (.text event.conversation_id) (.text event.user_id))
  | message {f : Frame} {p : Parsing} {event : IncomingMessageEvent} {now : DateTime} (hf : F f)
      (he : f.event p = some (.incomingMessage event))
      (hnow : DateTime.ofMicros (event.timestamp * 1000000) = some now) :
      Traced F (messageInsert now event)
  | update {f : Frame} {p : Parsing} {e : Event} {set where_ : List (String × Cell)} (hf : F f)
      (he : f.event p = some e) (hc : (Statement.update Table.conversations set where_).bound.lookup
        "conversation_id" = some (.text e.conversation_id))
      (h : ∀ column ∈ ["user_id", "bot_id"], column ∉ (where_ ++ set).map Prod.fst) :
      Traced F (.update .conversations set where_)
  | other {f : Frame} {p : Parsing} {e : Event} {stmt : Statement Table} (hf : F f)
      (he : f.event p = some e)
      (hc : stmt.bound.lookup "conversation_id" = some (.text e.conversation_id))
      (h : stmt.table ∈ [Table.messageAcks, .unreadCounters, .agentAssignments]) : Traced F stmt

/-- Every statement is about the conversation of a frame. -/
theorem Traced.about {F : Frame → Prop} {stmt : Statement Table} (h : Traced F stmt) :
    ∃ f c, F f ∧ f.About c ∧ stmt.bound.lookup "conversation_id" = some (.text c) := by
  cases h with
  | start hf he | byBot hf he | byUser _ hf he | queue _ hf he =>
    exact ⟨_, _, hf, ⟨_, _, he, rfl⟩, rfl⟩
  | message hf he => exact ⟨_, _, hf, ⟨_, _, he, rfl⟩, rfl⟩
  | update hf he hc | other hf he hc => exact ⟨_, _, hf, ⟨_, _, he, rfl⟩, hc⟩

/-! ### The events of a frame -/

section Events

variable {f : Frame} {p : Parsing}

/-- What the consumer decodes has the user and the bot of the socket. -/
theorem Frame.exists_of_event {e : Event} (h : f.event p = some e) :
    ∃ raw k, Event.parse p raw k = some e ∧ raw.lookup "user_id" = some (.str f.user_id) ∧
      raw.lookup "bot_id" = some (.str f.bot_id) := by
  obtain ⟨value, harrives, h⟩ := Option.bind_eq_some_iff.mp h
  obtain ⟨raw, hraw, h⟩ := Option.bind_eq_some_iff.mp h
  obtain ⟨sent, raw', hsent, hraw', hlookup⟩ := exists_of_arrives harrives
  obtain rfl := Option.some.inj (hraw.symm.trans hraw')
  obtain ⟨event_type, hbuilds⟩ := exists_builds hsent
  split at h
  · next k _ =>
    refine ⟨raw, k, h, ?_, ?_⟩
    · rw [hlookup, hbuilds.user_id]
      rfl
    · rw [hlookup, hbuilds.bot_id]
      rfl
  · exact absurd h nofun

theorem user_id_of_chatStart {event : ChatStartEvent} (h : f.event p = some (.chatStart event)) :
    event.user_id = f.user_id := by
  obtain ⟨raw, k, hparse, huser, -⟩ := Frame.exists_of_event h
  cases k with
  | chatStart =>
    obtain ⟨e, he, heq⟩ := Option.map_eq_some_iff.mp hparse
    obtain rfl := Event.chatStart.inj heq
    have hfield : field asStr raw "user_id" = some f.user_id := by
      rw [field, huser]
      rfl
    simp only [ChatStartEvent.parse, hfield, Option.bind_eq_bind, Option.bind_eq_some_iff,
      Option.bind_some] at he
    obtain ⟨_, -, _, -, _, -, _, -, he⟩ := he
    rw [← Option.some.inj he]
  | _ => simp [Event.parse] at hparse

theorem user_id_of_incomingMessage {event : IncomingMessageEvent}
    (h : f.event p = some (.incomingMessage event)) : event.user_id = f.user_id := by
  obtain ⟨raw, k, hparse, huser, -⟩ := Frame.exists_of_event h
  cases k with
  | incomingMessage =>
    obtain ⟨e, he, heq⟩ := Option.map_eq_some_iff.mp hparse
    obtain rfl := Event.incomingMessage.inj heq
    have hfield : fieldD asStr raw "user_id" "" = some f.user_id := by
      rw [fieldD, huser]
      rfl
    simp only [IncomingMessageEvent.parse, hfield, Option.bind_eq_bind, Option.bind_eq_some_iff,
      Option.bind_some] at he
    obtain ⟨_, -, _, -, _, -, _, -, _, -, _, -, _, -, he⟩ := he
    rw [← Option.some.inj he]
  | _ => simp [Event.parse] at hparse

end Events

/-! ### What the frames lead to -/

section Tracing

variable {F : Frame → Prop} {f : Frame} {env : Env} {agent_id : Option String} {e : Event}

/-- The statements of a handler. -/
theorem traced_of_execute (hf : F f) (he : f.event env.parsing = some e) {stmt : Statement Table}
    (h : .execute stmt ∈ e.ops env agent_id) : Traced F stmt := by
  obtain ⟨event, rfl, rfl | rfl⟩ | ⟨event, a, rfl, -, rfl⟩ := execute_mem_ops h
  · exact .start hf he
  · exact .byBot hf he
  · exact .update hf he rfl (by simp)

/-- A record that a client's event leads to, with the statements of its script. -/
theorem traced_of_publish (hf : F f) (he : f.event env.parsing = some e)
    {record : List (String × Json)} (h : .publish record ∈ e.ops env agent_id) {v : Json}
    (hv : (Json.obj record).transit = some v) {sc : Script} (hsc : recordScript v = some sc) :
    sc.All (Traced F) := by
  cases e with
  | chatStart event =>
    obtain rfl : record = chatStartRecord event := by
      rw [Event.ops, chatStartOps] at h
      by_cases hbot : event.bot_id ≠ "" <;> simpa [hbot] using h
    obtain rfl := WritePath.eq_of_transit (by simp [chatStartRecord]) hv
    obtain rfl := Option.some.inj hsc
    exact .read (fun now => .write (.byUser now hf he) (.write (.queue now hf he) .done)) _
  | incomingMessage event =>
    obtain rfl : record = incomingMessageRecord event := Op.publish.inj (List.mem_singleton.mp h)
    obtain rfl := WritePath.eq_of_transit (by simp [incomingMessageRecord]) hv
    obtain rfl := Option.some.inj ((recordScript_incomingMessage event).symm.trans hsc)
    rw [messageScriptOf]
    cases hnow : DateTime.ofMicros (event.timestamp * 1000000) with
    | none => exact .fails
    | some now =>
      exact .write (.message hf he hnow) (.write (.update hf he rfl (by simp)) (.write
        (.other hf he rfl (by simp [updateUnread, Statement.table])) .done))
  | outgoingMessage event => exact absurd he (Frame.event_ne_outgoingMessage event)
  | transferToAgent event =>
    cases agent_id with
    | none => simp [Event.ops, transferToAgentOps] at h
    | some a =>
      obtain rfl : record = assignmentRecord event a := by
        simpa [Event.ops, transferToAgentOps] using h
      obtain rfl := WritePath.eq_of_transit (by simp [assignmentRecord]) hv
      obtain rfl := Option.some.inj hsc
      exact .read
        (fun now => .write (.other hf he rfl (by simp [insertAssignment, Statement.table])) .done) _
  | chatEnd event =>
    obtain rfl : record = chatEndRecord event := Op.publish.inj (List.mem_singleton.mp h)
    obtain rfl := WritePath.eq_of_transit (by simp [chatEndRecord]) hv
    obtain rfl := Option.some.inj hsc
    exact .read (fun now => .write (.update hf he rfl (by simp)) .done) _
  | ack event =>
    obtain rfl : record = ackRecord event := Op.publish.inj (List.mem_singleton.mp h)
    obtain rfl := WritePath.eq_of_transit (by simp [ackRecord]) hv
    obtain rfl := Option.some.inj ((recordScript_ack event).symm.trans hsc)
    refine .read (fun now => .write (.other hf he rfl (by simp [insertAck, Statement.table])) ?_) _
    rw [readerScript.eq_def]
    split
    · exact .read (fun u => .write (.other hf he rfl (by simp [updateUnread, Statement.table]))
        .done) _
    · exact .done

end Tracing

/-! ### What a statement leaves -/

section Rows

variable {F : Frame → Prop} {db : Database Table} {stmt : Statement Table}

theorem attributed_empty : Attributed F .empty :=
  ⟨fun _ => eachRow_empty, eachRow_empty, eachRow_empty, eachRow_empty, eachRow_empty,
    eachRow_empty⟩

/-- A frame of `F` is one of `G`. -/
theorem Attributed.mono {G : Frame → Prop} (h : Attributed F db) (hFG : ∀ f, F f → G f) :
    Attributed G db where
  about table := (h.about table).imp fun _ _ ⟨f, c, hf, hrest⟩ => ⟨f, c, hFG f hf, hrest⟩
  messages := h.messages.imp fun _ _ ⟨f, p, event, hf, hrest⟩ => ⟨f, p, event, hFG f hf, hrest⟩
  conversations := h.conversations.imp fun _ _ hrow =>
    hrow.imp_right fun ⟨f, c, hf, hrest⟩ => ⟨f, c, hFG f hf, hrest⟩
  conversationsByBot := h.conversationsByBot.imp fun _ _ ⟨f, c, hf, hrest⟩ =>
    ⟨f, c, hFG f hf, hrest⟩
  conversationsByUser := h.conversationsByUser.imp fun _ _ ⟨f, c, hf, hrest⟩ =>
    ⟨f, c, hFG f hf, hrest⟩
  agentQueue := h.agentQueue.imp fun _ _ ⟨f, c, hf, hrest⟩ => ⟨f, c, hFG f hf, hrest⟩

theorem Traced.mono {G : Frame → Prop} (h : Traced F stmt) (hFG : ∀ f, F f → G f) :
    Traced G stmt := by
  cases h with
  | start hf he => exact .start (hFG _ hf) he
  | byBot hf he => exact .byBot (hFG _ hf) he
  | byUser now hf he => exact .byUser now (hFG _ hf) he
  | queue now hf he => exact .queue now (hFG _ hf) he
  | message hf he hnow => exact .message (hFG _ hf) he hnow
  | update hf he hc h => exact .update (hFG _ hf) he hc h
  | other hf he hc h => exact .other (hFG _ hf) he hc h

/-- A `chat_start` writes the customer and the bot together. -/
theorem namesSocket_insert {f : Frame} {p : Parsing} {event : ChatStartEvent}
    (he : f.event p = some (.chatStart event)) {row : Row}
    (huser : row.lookup "user_id" = some (.text event.user_id))
    (hbot : row.lookup "bot_id" = some (.text event.bot_id)) : NamesSocket f row where
  user_id := by rw [huser, user_id_of_chatStart he]
  bot_id := by rw [hbot, bot_id_of_event he]

/-- An `UPDATE` leaves both alone, and may find no row. -/
theorem names_write_update (row : Option Row) {set where_ : List (String × Cell)}
    (hcolumns : ∀ column ∈ ["user_id", "bot_id"], column ∉ (where_ ++ set).map Prod.fst)
    {column : String} (hcolumn : column ∈ ["user_id", "bot_id"]) :
    ((Statement.update Table.conversations set where_).write (row.getD ∅)).lookup column =
      row.bind (·.lookup column) := by
  rw [Statement.write, Statement.lookup_setCells_of_notMem (hcolumns column hcolumn)]
  cases row <;> rfl

theorem keyOf_insertConversation (env : Env) (event : ChatStartEvent) :
    (schema .conversations).keyOf (insertConversation env event).bound =
      some [.text event.conversation_id] := by
  simp [insertConversation, Statement.bound, TableSchema.keyOf, TableSchema.key, schema,
    List.lookup_cons, Option.filter_some]

theorem keyOf_insertConversationByUser (now : DateTime) (u c : String) :
    (schema .conversationsByUser).keyOf (insertConversationByUser now (.text u) (.text c)).bound =
      some [.text u, now.cell, .text c] := by
  simp [insertConversationByUser, Statement.bound, TableSchema.keyOf, TableSchema.key, schema,
    List.lookup_cons, Option.filter_some]

/-- What an `UPDATE` leaves of a conversation that may not be there. -/
theorem Attributed.names_update (h : Attributed F db) {set where_ : List (String × Cell)}
    (hcolumns : ∀ column ∈ ["user_id", "bot_id"], column ∉ (where_ ++ set).map Prod.fst)
    {key : List Cell} {row : Row} (hrow : row =
      (Statement.update Table.conversations set where_).write ((db .conversations key).getD ∅)) :
    (row.lookup "user_id" = none ∧ row.lookup "bot_id" = none) ∨
      ∃ f c, F f ∧ f.Starts c ∧ key = [.text c] ∧ NamesSocket f row := by
  have huser := names_write_update (db .conversations key) hcolumns List.mem_cons_self
  have hbot := names_write_update (db .conversations key) hcolumns
    (List.mem_cons_of_mem _ List.mem_cons_self)
  rw [← hrow] at huser hbot
  cases hold : db .conversations key with
  | none =>
    rw [hold] at huser hbot
    exact Or.inl ⟨huser, hbot⟩
  | some old =>
    rw [hold, Option.bind_some] at huser hbot
    obtain hnone | ⟨f, c, hf, hstarts, hc, hnames⟩ := h.conversations key old hold
    · exact Or.inl ⟨huser.trans hnone.1, hbot.trans hnone.2⟩
    · exact Or.inr ⟨f, c, hf, hstarts, hc, huser.trans hnames.user_id, hbot.trans hnames.bot_id⟩

/-- A statement on one table has to see to that table. -/
theorem Attributed.apply (h : Attributed F db) (hs : Traced F stmt) :
    Attributed F (db.apply schema stmt) where
  about table := by
    refine (h.about table).apply fun htable key hkey => ?_
    subst htable
    obtain ⟨f, c, hf, habout, hc⟩ := hs.about
    refine ⟨f, c, hf, habout, ?_⟩
    rw [Belongs, TableSchema.lookup_zip_of_keyOf hkey (conversation_id_mem_key _), hc]
    rfl
  messages := by
    refine h.messages.apply fun htable key hkey => ?_
    cases hs with
    | @message f p event now hf he hnow =>
      rw [keyOf_messageInsert hnow] at hkey
      obtain rfl := Option.some.inj hkey
      refine ⟨f, p, event, hf, he, rfl, ?_⟩
      rw [messageInsert, ofRow_write_insertMessage, shownAs, user_id_of_incomingMessage he,
        cell_of_ofMicros hnow]
      rfl
    | other _ _ _ hother => exact absurd (htable ▸ hother) (by decide)
    | start | byBot | byUser | queue | update => exact absurd htable Table.noConfusion
  conversations := by
    refine h.conversations.apply fun htable key hkey => ?_
    cases hs with
    | @start f env event hf he =>
      rw [keyOf_insertConversation] at hkey
      exact Or.inr ⟨f, event.conversation_id, hf, ⟨env.parsing, event, he, rfl⟩,
        (Option.some.inj hkey).symm, namesSocket_insert he
          (by simp [insertConversation, Statement.write])
          (by simp [insertConversation, Statement.write])⟩
    | update _ _ _ hcolumns => exact h.names_update hcolumns rfl
    | other _ _ _ hother => exact absurd (htable ▸ hother) (by decide)
    | message | byBot | byUser | queue => exact absurd htable Table.noConfusion
  conversationsByBot := by
    refine h.conversationsByBot.apply fun htable key hkey => ?_
    cases hs with
    | @byBot f env event hf he =>
      rw [BotView.keyOf_insertConversationByBot] at hkey
      obtain rfl := Option.some.inj hkey
      refine ⟨f, event.conversation_id, hf, ⟨env.parsing, event, he, rfl⟩, ?_, ?_, ?_⟩
      · rw [List.head?_cons, bot_id_of_event he]
      · simp [insertConversationByBot, Statement.write]
      · exact namesSocket_insert he (by simp [insertConversationByBot, Statement.write])
          (by simp [insertConversationByBot, Statement.write])
    | other _ _ _ hother => exact absurd (htable ▸ hother) (by decide)
    | start | message | byUser | queue | update => exact absurd htable Table.noConfusion
  conversationsByUser := by
    refine h.conversationsByUser.apply fun htable key hkey => ?_
    cases hs with
    | @byUser f p event now hf he =>
      rw [keyOf_insertConversationByUser] at hkey
      obtain rfl := Option.some.inj hkey
      refine ⟨f, event.conversation_id, hf, ⟨p, event, he, rfl⟩, ?_, ?_⟩
      · rw [List.head?_cons, user_id_of_chatStart he]
      · simp [insertConversationByUser, Statement.write]
    | other _ _ _ hother => exact absurd (htable ▸ hother) (by decide)
    | start | byBot | message | queue | update => exact absurd htable Table.noConfusion
  agentQueue := by
    refine h.agentQueue.apply fun htable key hkey => ?_
    cases hs with
    | @queue f p event now hf he =>
      refine ⟨f, event.conversation_id, hf, ⟨p, event, he, rfl⟩, ?_, ?_⟩
      · rw [← user_id_of_chatStart he]
        simp [insertQueueEntry, Statement.write]
      · simp [insertQueueEntry, Statement.write]
    | other _ _ _ hother => exact absurd (htable ▸ hother) (by decide)
    | start | byBot | byUser | message | update => exact absurd htable Table.noConfusion

end Rows

namespace WritePath

/-! ### Along a run -/

variable {F : Frame → Prop} {s s' : WritePath}

/-- An operation of the handler of a frame of `F`. -/
def OpOf (F : Frame → Prop) (op : Op) : Prop :=
  ∃ f env agent_id e, F f ∧ f.event env.parsing = some e ∧ op ∈ e.ops env agent_id

/-- **Everything comes from the frames of `F`**: what is stored, what is waiting, and what is about
to be written. -/
structure Caused (F : Frame → Prop) (s : WritePath) : Prop where
  handlers : ∀ key, ∀ op ∈ s.handlers key, OpOf F op
  records : ∀ v ∈ s.records, ∀ sc, recordScript v = some sc → sc.All (Traced F)
  worker : ∀ w, s.worker = some w → w.script.All (Traced F) ∧ w.rest.All (Traced F)
  rows : Attributed F s.db

theorem caused_start : Caused F start where
  handlers _ _ hop := absurd hop List.not_mem_nil
  records _ hv := absurd hv List.not_mem_nil
  worker _ hw := absurd hw nofun
  rows := attributed_empty

theorem Caused.mono {G : Frame → Prop} (h : Caused F s) (hFG : ∀ f, F f → G f) : Caused G s where
  handlers key op hop := by
    obtain ⟨f, env, agent_id, e, hf, hrest⟩ := h.handlers key op hop
    exact ⟨f, env, agent_id, e, hFG f hf, hrest⟩
  records v hv sc hsc := (h.records v hv sc hsc).imp fun _ hs => hs.mono hFG
  worker w hw := (h.worker w hw).imp (·.imp fun _ hs => hs.mono hFG)
    (·.imp fun _ hs => hs.mono hFG)
  rows := h.rows.mono hFG

/-- The frame that a step hands to its handler. -/
def Action.frame : Action → Option Frame
  | .dispatch f _ _ => some f
  | _ => none

/-- **Every statement of a run comes from a frame.** -/
theorem traced_of_executes (h : Caused F s) {a : Action} {stmt : Statement Table}
    (ha : s.executes a = some stmt) : Traced F stmt := by
  cases a with
  | hot key =>
    simp only [executes] at ha
    split at ha
    · next stmt' ops hops =>
      obtain rfl := Option.some.inj ha
      obtain ⟨f, env, agent_id, e, hf, he, hmem⟩ := h.handlers key (.execute stmt') (by simp [hops])
      exact traced_of_execute hf he hmem
    · cases ha
  | write =>
    simp only [executes] at ha
    split at ha
    · next script stmt' rest left hw =>
      obtain rfl := Option.some.inj ha
      cases (h.worker _ hw).2 with
      | write hs _ => exact hs
    · cases ha
  | dispatch | raise | take | fail => cases ha

/-- The record of an operation, if it is one. -/
theorem records_perform {op : Op} (hop : OpOf F op)
    (h : ∀ v ∈ s.records, ∀ sc, recordScript v = some sc → sc.All (Traced F)) :
    ∀ v ∈ ((s.toStored.perform op).getD s.toStored).records, ∀ sc, recordScript v = some sc →
      sc.All (Traced F) := by
  cases op with
  | execute stmt =>
    rw [perform_execute]
    exact h
  | publish record =>
    rw [perform_publish]
    intro v hv sc hsc
    obtain hv | hv := List.mem_append.mp hv
    · exact h v hv sc hsc
    · obtain ⟨f, env, agent_id, e, hf, he, hmem⟩ := hop
      exact traced_of_publish hf he hmem (Option.mem_toList.mp hv) hsc

/-- The handlers, when the operations of one are replaced. -/
theorem handlers_update {handlers : String → List Op} {key : String} {ops : List Op}
    (h : ∀ k, ∀ op ∈ handlers k, OpOf F op) (hops : ∀ op ∈ ops, OpOf F op) :
    ∀ k, ∀ op ∈ Function.update handlers key ops k, OpOf F op := by
  intro k
  by_cases hk : k = key
  · rw [hk, Function.update_self]
    exact hops
  · rw [Function.update_of_ne hk]
    exact h k

/-- **One step.** -/
theorem Caused.step (h : Caused F s) {a : Action} (ha : ∀ f, a.frame = some f → F f)
    (hs : step s a = some s') : Caused F s' := by
  have hrows : Attributed F s'.db := by
    cases hstmt : s.executes a with
    | none => exact db_of_executes_eq_none hs hstmt ▸ h.rows
    | some stmt => exact db_of_executes hs hstmt ▸ h.rows.apply (traced_of_executes h hstmt)
  cases stepped_of_step hs with
  | @dispatch f env agent_id e hkey hidle he =>
    exact ⟨handlers_update h.handlers fun op hop => ⟨f, env, agent_id, e, ha f rfl, he, hop⟩,
      h.records, h.worker, hrows⟩
  | @hot key op ops rest stored hops hstored hrest =>
    have hmem : ∀ o ∈ op :: ops, OpOf F o := fun o ho => h.handlers key o (hops ▸ ho)
    subst hstored
    exact ⟨handlers_update h.handlers fun o ho =>
        hmem o (List.mem_cons_of_mem _ (mem_of_mem_rest hrest ho)),
      records_perform (hmem op List.mem_cons_self) h.records, h.worker, hrows⟩
  | raise hbusy =>
    exact ⟨handlers_update h.handlers fun _ hop => absurd hop List.not_mem_nil, h.records,
      h.worker, hrows⟩
  | @take n again v hidle hv =>
    refine ⟨h.handlers, fun v' hv' => h.records v' ?_, fun w hw => ?_, hrows⟩
    · dsimp only at hv'
      split at hv'
      · exact hv'
      · exact List.mem_of_mem_eraseIdx hv'
    · obtain ⟨sc, hsc, rfl⟩ := Option.map_eq_some_iff.mp hw
      have hall := h.records v (List.mem_of_getElem? hv) sc hsc
      exact ⟨hall, hall⟩
  | write hw =>
    obtain ⟨hscript, hrest⟩ := h.worker _ hw
    exact ⟨by rw [handlers_work]; exact h.handlers, by rw [records_work]; exact h.records,
      fun w' => all_of_work hscript hrest, hrows⟩
  | fail hw =>
    refine ⟨h.handlers, h.records, fun w' hw' => ?_, hrows⟩
    obtain ⟨hscript, hrest⟩ := Attempt.retry_eq_some hw'
    rw [hscript, hrest]
    exact ⟨(h.worker _ hw).1, (h.worker _ hw).1⟩

end WritePath

end TitanChat
