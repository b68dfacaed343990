import TitanChat.GatewayEndpoint
import TitanChat.RecordFit
import TitanChat.RouterTracker

/-!
# Conversations and each other's data

A socket is authenticated for one conversation, and its frames should change nothing that belongs to
another. The endpoint protects `event_type`, `message_id`, `user_id` and `bot_id` from the client's
keys, but not `conversation_id`. So a client may name any conversation, and the handlers work on the
one that is named.

What is out of a client's reach all the same is the exception: an acknowledgement is refused by the
database, a chat cannot be started without a name, and a message is only stored for the named
conversation, which an integer out of range prevents.

## Main definitions

* `Untouched`: nothing that belongs to a conversation differs
* `Harmless`: the condition on an event

## Main results

* `untouched_on`: a handler touches the conversation of its key and the one of its event
* `keptRows_consume`: the worker touches the conversation of the record
* `isolated_iff`: the exact statement
-/

namespace TitanChat

open WideColumn Handlers DateTime Persistence
open Json (Wide)

/-! ### What belongs to a conversation -/

/-- The tracker's entries of conversation `d` are the same. -/
structure Tracker.Untouched (d : String) (t t' : Tracker) : Prop where
  chats : d ∈ t'.chats ↔ d ∈ t.chats
  byTime : t'.byTime.lookup d = t.byTime.lookup d
  ofUser : ∀ u, d ∈ t'.ofUser u ↔ d ∈ t.ofUser u
  ofAgent : ∀ a, d ∈ t'.ofAgent a ↔ d ∈ t.ofAgent a
  chat : t'.chat d = t.chat d

/-- The router's entries of conversation `d` are the same. -/
structure Router.Untouched (d : String) (r r' : Router) : Prop where
  active : r'.active d = r.active d
  chats : ∀ a, d ∈ r'.chats a ↔ d ∈ r.chats a

/-- Nothing that belongs to conversation `d` differs. -/
structure Untouched (d : String) (w w' : World) : Prop where
  tracker : w.tracker.Untouched d w'.tracker
  router : w.router.Untouched d w'.router
  rows : SameRows d w.db w'.db

theorem Tracker.Untouched.refl (d : String) (t : Tracker) : t.Untouched d t :=
  ⟨Iff.rfl, rfl, fun _ => Iff.rfl, fun _ => Iff.rfl, rfl⟩

theorem Tracker.Untouched.trans {d : String} {t t' t'' : Tracker} (h : t.Untouched d t')
    (h' : t'.Untouched d t'') : t.Untouched d t'' :=
  ⟨h'.1.trans h.1, h'.2.trans h.2, fun u => (h'.3 u).trans (h.3 u),
    fun a => (h'.4 a).trans (h.4 a), h'.5.trans h.5⟩

theorem Router.Untouched.refl (d : String) (r : Router) : r.Untouched d r :=
  ⟨rfl, fun _ => Iff.rfl⟩

theorem Router.Untouched.trans {d : String} {r r' r'' : Router} (h : r.Untouched d r')
    (h' : r'.Untouched d r'') : r.Untouched d r'' :=
  ⟨h'.1.trans h.1, fun a => (h'.2 a).trans (h.2 a)⟩

instance (d : String) : Std.Refl (Untouched d) :=
  ⟨fun _ => ⟨.refl .., .refl .., fun _ _ _ => rfl⟩⟩

instance (d : String) : IsTrans World (Untouched d) :=
  ⟨fun _ _ _ h h' => ⟨h.1.trans h'.1, h.2.trans h'.2,
    fun table key hb => (h'.3 table key hb).trans (h.3 table key hb)⟩⟩

/-! ### Tracker and router -/

section Keys

variable {c d : String}

theorem mem_update_insert_iff (hd : d ≠ c) (index : String → Finset String) (name u : String) :
    d ∈ Function.update index name (insert c (index name)) u ↔ d ∈ index u := by
  rw [Function.update_apply]
  split
  · next h => rw [Finset.mem_insert, or_iff_right hd, h]
  · rfl

theorem mem_update_erase_iff (hd : d ≠ c) (index : String → Finset String) (name u : String) :
    d ∈ Function.update index name ((index name).erase c) u ↔ d ∈ index u := by
  rw [Function.update_apply]
  split
  · next h => rw [Finset.mem_erase, and_iff_right hd, h]
  · rfl

theorem Tracker.mem_unindex_iff (hd : d ≠ c) (index : String → Finset String) (name u : String) :
    d ∈ Tracker.unindex index name c u ↔ d ∈ index u := by
  rw [Tracker.unindex]
  split
  · rfl
  · exact mem_update_erase_iff hd index name u

theorem Tracker.untouched_chatOnline (hd : d ≠ c) (t : Tracker) (user_id server_id bot_id : String)
    (now : ℤ) : t.Untouched d (t.chatOnline c user_id server_id bot_id now) where
  chats := by rw [Tracker.chatOnline, Finset.mem_insert, or_iff_right hd]
  byTime := AList.lookup_insert_ne hd
  ofUser := mem_update_insert_iff hd t.ofUser user_id
  ofAgent _ := Iff.rfl
  chat := Function.update_of_ne hd ..

theorem Tracker.untouched_chatAssigned (hd : d ≠ c) (t : Tracker) (agent_id : String) :
    t.Untouched d (t.chatAssigned c agent_id) where
  chats := Iff.rfl
  byTime := rfl
  ofUser _ := Iff.rfl
  ofAgent := mem_update_insert_iff hd t.ofAgent agent_id
  chat := Function.update_of_ne hd ..

theorem Tracker.untouched_chatMessageReceived (hd : d ≠ c) (t : Tracker) (now : ℤ) :
    t.Untouched d (t.chatMessageReceived c now) where
  chats := Iff.rfl
  byTime := rfl
  ofUser _ := Iff.rfl
  ofAgent _ := Iff.rfl
  chat := Function.update_of_ne hd ..

theorem Tracker.untouched_chatOfflineExec (hd : d ≠ c) (t : Tracker) (meta_ : Dict String) :
    t.Untouched d (t.chatOfflineExec c meta_) where
  chats := by rw [Tracker.chatOfflineExec, Finset.mem_erase, and_iff_right hd]
  byTime := AList.lookup_erase_ne hd
  ofUser := Tracker.mem_unindex_iff hd t.ofUser _
  ofAgent := Tracker.mem_unindex_iff hd t.ofAgent _
  chat := Function.update_of_ne hd ..

theorem Router.untouched_releaseExec (hd : d ≠ c) (r : Router) (agent_id : String) :
    r.Untouched d (r.releaseExec agent_id c) where
  active := Function.update_of_ne hd ..
  chats := mem_update_erase_iff hd r.chats agent_id

theorem Router.untouched_routeLua (hd : d ≠ c) (find : String → String → Option Bool)
    (r : Router) (required_skill : String) :
    r.Untouched d (r.routeLua find c required_skill).2 := by
  obtain ⟨agents, -, ⟨-, hr, -⟩ | ⟨a, n, -, -, -, -, -, hr⟩⟩ :=
    r.routeLua_cases find c required_skill
  · rw [hr]
    exact ⟨rfl, fun _ => Iff.rfl⟩
  · rw [hr]
    exact ⟨Function.update_of_ne hd .., mem_update_insert_iff hd r.chats a⟩

end Keys

/-! ### The handlers -/

section Handlers

variable {env : Env} {c d key : String}

theorem untouched_dbExecute (hd : d ≠ c) (k : Call) {stmt : Statement Table}
    (hbound : stmt.bound.lookup "conversation_id" = some (.text c)) :
    Effect.Keeps (Untouched d) (env.dbExecute k stmt) :=
  Env.keeps_dbExecute fun _ _ h => ⟨.refl .., .refl .., sameRows_of_execute h hbound hd⟩

theorem untouched_track (k : Call) {f : Tracker → Tracker} (h : ∀ t, Tracker.Untouched d t (f t)) :
    Effect.Keeps (Untouched d) (env.track k f) :=
  Env.keeps_track fun w => ⟨h w.tracker, .refl .., fun _ _ _ => rfl⟩

theorem untouched_push (payload : List (String × Json)) :
    Effect.Keeps (Untouched d) (push env key payload) :=
  keeps_push fun _ _ => ⟨.refl .., .refl .., fun _ _ _ => rfl⟩

theorem untouched_publishMessage (topic : String) (payload : List (String × Json)) :
    Effect.Keeps (Untouched d) (publishMessage topic key payload) :=
  keeps_publishMessage fun _ _ => ⟨.refl .., .refl .., fun _ _ _ => rfl⟩

theorem untouched_openChat {event : ChatStartEvent} (hd : d ≠ event.conversation_id) :
    Effect.Keeps (Untouched d) (openChat env event) := by
  have honline : Effect.Keeps (Untouched d) (chatOnline env event.conversation_id event.user_id
      env.serverId event.bot_id) :=
    untouched_track _ fun t => t.untouched_chatOnline hd ..
  refine Effect.keeps_bind (untouched_dbExecute hd _ rfl) fun _ => ?_
  by_cases hbot : event.bot_id ≠ ""
  · simp only [if_pos hbot]
    exact Effect.keeps_bind (untouched_dbExecute hd _ rfl) fun _ => honline
  · simp only [if_neg hbot]
    exact honline

theorem untouched_closeChat {event : ChatEndEvent} (hd : d ≠ event.conversation_id) :
    Effect.Keeps (Untouched d) (closeChat env event) :=
  Effect.keeps_bind (keeps_releaseAgentSlot fun w a =>
      ⟨.refl .., w.router.untouched_releaseExec hd a, fun _ _ _ => rfl⟩) fun _ =>
    keeps_chatOffline fun w meta_ =>
      ⟨w.tracker.untouched_chatOfflineExec hd meta_, .refl .., fun _ _ _ => rfl⟩

theorem untouched_chatMessageReceived (hd : d ≠ c) :
    Effect.Keeps (Untouched d) (chatMessageReceived env c) :=
  untouched_track _ fun t => t.untouched_chatMessageReceived hd _

theorem untouched_routeToAgent (hd : d ≠ c) :
    Effect.Keeps (Untouched d) (routeToAgent env c) :=
  keeps_routeToAgent fun w =>
    ⟨.refl .., w.router.untouched_routeLua hd env.find "", fun _ _ _ => rfl⟩

theorem untouched_recordAssignment {event : TransferToAgentEvent} (hd : d ≠ event.conversation_id)
    (a : String) : Effect.Keeps (Untouched d) (recordAssignment env key event a) :=
  Effect.keeps_bind (untouched_dbExecute hd _ rfl) fun _ =>
    Effect.keeps_bind (untouched_track _ fun t => t.untouched_chatAssigned hd a) fun _ =>
      untouched_publishMessage _ _

end Handlers

section On

variable {env : Env} {d key : String}

theorem untouched_onIncomingMessage (hkey : d ≠ key) (event : IncomingMessageEvent) :
    Effect.Keeps (Untouched d) (onIncomingMessage env key event) := by
  refine Effect.keeps_bind (Effect.keeps_gather fun m hm => ?_) fun _ =>
    untouched_publishMessage _ _
  simp only [List.mem_cons, List.not_mem_nil, or_false] at hm
  obtain rfl | rfl | rfl := hm
  · exact untouched_push _
  · exact untouched_publishMessage _ _
  · exact untouched_chatMessageReceived hkey

theorem untouched_onAck (event : AckEvent) :
    Effect.Keeps (Untouched d) (onAck env key event) :=
  Effect.keeps_bind (untouched_push _) fun _ => untouched_publishMessage _ _

/-- **A handler** touches the conversation of its key and the one that its event names. -/
theorem untouched_on {e : Event} (hkey : d ≠ key) (hd : d ≠ e.conversation_id) :
    Effect.Keeps (Untouched d) (e.on env key) := by
  cases e with
  | chatStart event =>
    exact Effect.keeps_bind (untouched_openChat hd) fun _ =>
      Effect.keeps_bind (untouched_push _) fun _ => untouched_publishMessage _ _
  | incomingMessage event => exact untouched_onIncomingMessage hkey event
  | outgoingMessage event =>
    refine Effect.keeps_bind (Effect.keeps_gather fun m hm => ?_) fun _ =>
      untouched_publishMessage _ _
    simp only [List.mem_cons, List.not_mem_nil, or_false] at hm
    obtain rfl | rfl := hm
    · exact untouched_push _
    · exact untouched_chatMessageReceived hkey
  | transferToAgent event =>
    refine Effect.keeps_bind (untouched_routeToAgent hd) fun agent_id => ?_
    cases agent_id with
    | none => exact untouched_push _
    | some a =>
      exact Effect.keeps_bind (untouched_recordAssignment hd a) fun _ => untouched_push _
  | chatEnd event =>
    exact Effect.keeps_bind (untouched_closeChat hd) fun _ =>
      Effect.keeps_bind (untouched_push _) fun _ => untouched_publishMessage _ _
  | ack event => exact untouched_onAck event

end On

/-! ### The worker -/

namespace Persistence

/-- The rows of conversation `d` are the same. -/
def KeptRows (d : String) (s s' : Store) : Prop := SameRows d s.db s'.db

instance (d : String) : Std.Refl (KeptRows d) := ⟨fun _ _ _ _ => rfl⟩

instance (d : String) : IsTrans Store (KeptRows d) :=
  ⟨fun _ _ _ h h' table key hb => (h' table key hb).trans (h table key hb)⟩

section Rows

variable {c d : String} {payload : Dict Json}

theorem keptRows_dbExecute (hd : d ≠ c) {stmt : Statement Table}
    (hbound : stmt.bound.lookup "conversation_id" = some (.text c)) :
    Effect.Keeps (KeptRows d) (dbExecute stmt) :=
  keeps_dbExecute (fun _ _ _ _ => rfl) fun _ _ h => sameRows_of_execute h hbound hd

theorem required_conversation_id (h : payload.lookup "conversation_id" = some (.str c))
    (f : Cell → Step Unit) :
    (required payload "conversation_id" >>= fun v => Persistence.bind v >>= f) = f (.text c) := by
  rw [required, h]
  rfl

theorem keptRows_persistMessage (hd : d ≠ c)
    (h : payload.lookup "conversation_id" = some (.str c)) :
    Effect.Keeps (KeptRows d) (persistMessage payload) := by
  refine Effect.keeps_bind keeps_fromTimestamp fun now => ?_
  rw [required_conversation_id h]
  refine Effect.keeps_bind (keeps_required _) fun _ => Effect.keeps_bind (keeps_bindCell _) fun _ =>
    Effect.keeps_bind (keeps_bindCell _) fun _ => Effect.keeps_bind (keeps_bindCell _) fun _ =>
    Effect.keeps_bind (keeps_bindCell _) fun _ => Effect.keeps_bind (keeps_bindCell _) fun _ =>
    Effect.keeps_bind (keeps_bindCell _) fun _ => ?_
  refine Effect.keeps_bind (keptRows_dbExecute hd rfl) fun _ =>
    Effect.keeps_bind keeps_preview fun _ => Effect.keeps_bind (keptRows_dbExecute hd rfl) fun _ =>
    Effect.keeps_bind (keeps_bindCell _) fun _ => keptRows_dbExecute hd rfl

theorem keptRows_persistChatStart (hd : d ≠ c)
    (h : payload.lookup "conversation_id" = some (.str c)) :
    Effect.Keeps (KeptRows d) (persistChatStart payload) := by
  refine Effect.keeps_bind keeps_fromTimestamp fun now => Effect.keeps_bind (keeps_required _)
    fun _ => Effect.keeps_bind (keeps_bindCell _) fun _ => ?_
  rw [required_conversation_id h]
  exact Effect.keeps_bind (keptRows_dbExecute hd rfl) fun _ => keptRows_dbExecute hd rfl

theorem keptRows_persistChatEnd (hd : d ≠ c)
    (h : payload.lookup "conversation_id" = some (.str c)) :
    Effect.Keeps (KeptRows d) (persistChatEnd payload) := by
  refine Effect.keeps_bind keeps_fromTimestamp fun now => ?_
  rw [required_conversation_id h]
  exact keptRows_dbExecute hd rfl

theorem keptRows_persistAssignment (hd : d ≠ c)
    (h : payload.lookup "conversation_id" = some (.str c)) :
    Effect.Keeps (KeptRows d) (persistAssignment payload) := by
  refine Effect.keeps_bind keeps_fromTimestamp fun now => ?_
  rw [required_conversation_id h]
  exact Effect.keeps_bind (keeps_required _) fun _ => Effect.keeps_bind (keeps_bindCell _) fun _ =>
    keptRows_dbExecute hd rfl

/-- A statement that the database refuses. -/
theorem dbExecute_of_not_accepted {stmt : Statement Table} (h : stmt.accepted schema = false) :
    Effect.Keeps (KeptRows d) (dbExecute stmt) ∧ ∀ s a, ((dbExecute stmt).run s).1 ≠ .ok a := by
  have hnone (db : Database Table) : db.execute schema stmt = none := Database.execute_eq_none h
  refine ⟨keeps_dbExecute (fun _ _ _ _ => rfl) fun s db hdb => ?_, fun s a => ?_⟩
  · rw [hnone] at hdb
    exact absurd hdb (by simp)
  · simp only [dbExecute, hnone]
    split <;> simp

/-- Nothing of an acknowledgement is stored, whatever it contains. -/
theorem keptRows_persistAck (payload : Dict Json) :
    Effect.Keeps (KeptRows d) (persistAck payload) := by
  refine Effect.keeps_bind keeps_fromTimestamp fun now => Effect.keeps_bind (keeps_required _)
    fun _ => Effect.keeps_bind (keeps_bindCell _) fun _ => Effect.keeps_bind (keeps_required _)
    fun _ => Effect.keeps_bind (keeps_bindCell _) fun _ => Effect.keeps_bind (keeps_required _)
    fun _ => Effect.keeps_bind (keeps_bindCell _) fun _ => Effect.keeps_bind (keeps_bindCell _)
    fun _ => ?_
  obtain ⟨hkeeps, herror⟩ := dbExecute_of_not_accepted (not_accepted_insertAck now _ _ _ _)
  exact Effect.keeps_bind_of_error hkeeps herror

theorem keptRows_sendToDlq (payload : Dict Json) :
    Effect.Keeps (KeptRows d) (sendToDlq payload) := by
  rw [sendToDlq]
  split
  · exact Effect.keeps_modify fun _ _ _ _ => rfl
  · exact Effect.keeps_pure _

theorem keptRows_executeWithRetry {handler : Dict Json → Step Unit}
    (h : Effect.Keeps (KeptRows d) (handler payload)) :
    Effect.Keeps (KeptRows d) (executeWithRetry handler payload) :=
  keeps_attempt (keptRows_sendToDlq payload) h MAX_RETRIES

/-- **The worker** touches the conversation of the record. -/
theorem keptRows_consume (hd : d ≠ c) {value : Json} (hpayload : value.dict? = some payload)
    (h : payload.lookup "conversation_id" = some (.str c)) :
    Effect.Keeps (KeptRows d) (consume value) := by
  simp only [consume, hpayload]
  cases hhandler : recordHandler payload with
  | error e => exact Effect.keeps_fail _
  | ok handler =>
    cases handler with
    | none => exact Effect.keeps_pure _
    | some handler =>
      refine keptRows_executeWithRetry ?_
      obtain rfl | rfl | rfl | rfl | rfl := recordHandler_cases hhandler
      · exact keptRows_persistMessage hd h
      · exact keptRows_persistChatStart hd h
      · exact keptRows_persistChatEnd hd h
      · exact keptRows_persistAck payload
      · exact keptRows_persistAssignment hd h

end Rows

end Persistence

/-! ### A harmless frame -/

section Harmless

variable {env : Env} {c d key : String} {w : World} {f : Frame} {e : Event}

/-- The worker, on the records among some messages. -/
theorem sameRows_persist {messages : List Message} (faults : List Bool) (db : Database Table)
    (h : ∀ m ∈ messages, m.topic = CHAT_PERSIST → Effect.Keeps (KeptRows d) (consume m.payload)) :
    SameRows d db (persist faults messages db) := by
  have hkeeps : Effect.Keeps (KeptRows d) (Effect.gather ((messages.filter fun m =>
      m.topic = CHAT_PERSIST).map fun m => consume m.payload)) := by
    refine Effect.keeps_gather fun step hstep => ?_
    obtain ⟨m, hm, rfl⟩ := List.mem_map.mp hstep
    obtain ⟨hm, htopic⟩ := List.mem_filter.mp hm
    exact h m hm (of_decide_eq_true htopic)
  exact hkeeps { db, faults, deadLetters := [] }

/-- Every record of an event names the event's conversation. -/
theorem keptRows_of_publishes (hd : d ≠ e.conversation_id) {m : Message}
    (hm : Publishes ((e.on env key).run w.silent).2 m) :
    Effect.Keeps (KeptRows d) (consume m.payload) := by
  cases e with
  | transferToAgent event =>
    obtain ⟨-, -, a, rfl⟩ := exists_agent_of_publishes hm
    exact keptRows_consume hd rfl rfl
  | chatStart event | incomingMessage event | outgoingMessage event | chatEnd event | ack event =>
    obtain ⟨-, -, rfl⟩ := (publishes_iff (by simp)).mp hm
    exact keptRows_consume hd rfl rfl

/-- The handler and the worker together. -/
theorem untouched_process (hc : f.conversation_id ≠ "") (he : f.event env.parsing = some e)
    (faults : List Bool) (hon : Effect.Keeps (Untouched d) (e.on env f.conversation_id))
    (hrecords : ∀ m, Publishes ((e.on env f.conversation_id).run w.silent).2 m →
      Effect.Keeps (KeptRows d) (consume m.payload)) :
    Untouched d w (f.process env faults w) := by
  have hw := hon w.silent
  rw [Frame.process_of_event env hc he]
  refine ⟨hw.tracker, hw.router, fun table key hb => ?_⟩
  exact (sameRows_persist faults _ (fun m hm htopic => hrecords m ⟨hm, htopic⟩) table key hb).trans
    (hw.rows table key hb)

/-- When an event of the socket of conversation `c` touches no other conversation. -/
def Handlers.Event.Harmless (c : String) : Event → Prop
  | .chatStart event => event.conversation_id = c ∨ event.conversation_id = ""
  | .incomingMessage event =>
    event.conversation_id = c ∨ ¬(InRange event.timestamp ∧ Int32 event.seq)
  | .transferToAgent event => event.conversation_id = c
  | .chatEnd event => event.conversation_id = c
  -- no client sends an outgoing message
  | .outgoingMessage _ | .ack _ => True

/-- The frame is harmless, if it is an event at all. -/
def Frame.Harmless (p : Parsing) (f : Frame) : Prop :=
  f.conversation_id ≠ "" → ∀ e, f.event p = some e → e.Harmless f.conversation_id

/-- A chat without a name is not opened. -/
theorem untouched_onChatStart_of_unnamed {event : ChatStartEvent} (h : event.conversation_id = "") :
    Effect.Keeps (Untouched d) (onChatStart env key event) := by
  have hrefused : (insertConversation env event).accepted schema = false := by
    rw [accepted_insertConversation, h]
    rfl
  have herror : ∀ w a, ((env.dbExecute .insertConversation
      (insertConversation env event)).run w).1 ≠ .ok a := by
    intro w a hok
    rw [Env.ok_dbExecute, hrefused] at hok
    exact absurd hok.2 (by simp)
  have hkeeps : Effect.Keeps (Untouched d) (env.dbExecute .insertConversation
      (insertConversation env event)) := by
    refine Env.keeps_call fun w => ?_
    simp only [Database.execute_eq_none hrefused]
    exact refl w
  rw [onChatStart, openChat, Effect.bind_assoc]
  exact Effect.keeps_bind_of_error hkeeps herror

/-- A message with an integer out of range is not stored. -/
theorem keptRows_incomingMessageRecord {event : IncomingMessageEvent}
    (h : ¬(InRange event.timestamp ∧ Int32 event.seq)) :
    Effect.Keeps (KeptRows d) (consume (.obj (incomingMessageRecord event))) := by
  have hhandler : Effect.Keeps (KeptRows d)
      (persistMessage (dictOf (incomingMessageRecord event))) := by
    have hstamp : Effect.Keeps (KeptRows d) (stamp event.timestamp) := keeps_stamp _
    rw [persistMessage_incomingMessageRecord]
    by_cases hseq : Int32 event.seq
    · have hsome := ofMicros_isSome event.timestamp
      rw [decide_eq_false fun hrange => h ⟨hrange, hseq⟩, Option.isSome_eq_false_iff,
        Option.isNone_iff_eq_none] at hsome
      refine Effect.keeps_bind_of_error hstamp fun s a => ?_
      rw [stamp, hsome]
      simp
    · refine Effect.keeps_bind hstamp fun now => ?_
      have hrefused : (insertMessage now (.text event.conversation_id) (.text event.message_id)
          (.text event.user_id) (.text "user") (.text "text") (.text event.message)
          (.int event.seq)).accepted schema = false := by
        rw [Bool.eq_false_iff, ne_eq, accepted_insertMessage]
        exact hseq
      obtain ⟨hkeeps, herror⟩ := dbExecute_of_not_accepted hrefused
      exact Effect.keeps_bind_of_error hkeeps herror
  exact keptRows_executeWithRetry hhandler

/-- **A harmless frame touches no other conversation.** -/
theorem untouched_of_harmless (h : f.Harmless env.parsing) (faults : List Bool) (w : World)
    (hd : d ≠ f.conversation_id) : Untouched d w (f.process env faults w) := by
  have hdrop : f.process env faults w = w ∨ f.process env faults w = w.silent →
      Untouched d w (f.process env faults w) := by
    rintro (heq | heq) <;> rw [heq]
    · exact refl w
    · exact ⟨.refl .., .refl .., fun _ _ _ => rfl⟩
  by_cases hc : f.conversation_id = ""
  · exact hdrop (Frame.process_of_conversation_id hc faults w)
  cases he : f.event env.parsing with
  | none => exact hdrop (Frame.process_of_event_eq_none he faults w)
  | some e =>
    have hharmless := h hc e he
    have hown (hname : e.conversation_id = f.conversation_id) :
        Untouched d w (f.process env faults w) :=
      untouched_process hc he faults (untouched_on hd (hname ▸ hd)) fun m =>
        keptRows_of_publishes (hname ▸ hd)
    cases e with
    | chatStart event =>
      obtain hname | hname := hharmless
      · exact hown hname
      · refine untouched_process hc he faults (untouched_onChatStart_of_unnamed hname) ?_
        intro m hm
        obtain ⟨htold, -⟩ := (publishes_iff (by simp)).mp hm
        exact absurd hname htold.1.named
    | incomingMessage event =>
      obtain hname | hrange := hharmless
      · exact hown hname
      · refine untouched_process hc he faults (untouched_onIncomingMessage hd event) fun m hm => ?_
        obtain ⟨-, -, rfl⟩ := (publishes_iff (by simp)).mp hm
        exact keptRows_incomingMessageRecord hrange
    | outgoingMessage event => exact absurd he (Frame.event_ne_outgoingMessage event)
    | transferToAgent event => exact hown hharmless
    | chatEnd event => exact hown hharmless
    | ack event =>
      refine untouched_process hc he faults (untouched_onAck event) fun m hm => ?_
      obtain ⟨-, -, rfl⟩ := (publishes_iff (by simp)).mp hm
      exact keptRows_executeWithRetry (keptRows_persistAck _)

end Harmless

/-! ### A frame that is not harmless -/

section Harmful

variable {p : Parsing} {f : Frame}

/-- A chat is started for another conversation: it shows as online. -/
theorem not_untouched_chatStart {event : ChatStartEvent} (hc : f.conversation_id ≠ "")
    (he : f.event p = some (.chatStart event)) (hnamed : event.conversation_id ≠ "") :
    ¬Untouched event.conversation_id .empty (f.process (healthyEnv p) [] .empty) := by
  intro h
  have hchats := h.tracker.chats
  rw [Frame.process_of_event (healthyEnv p) hc he] at hchats
  have hopens : ((openChat (healthyEnv p) event).run World.empty.silent).1 = .ok () :=
    ok_openChat.mpr ⟨rfl, hnamed, fun _ => rfl, rfl⟩
  rcases hrun : (openChat (healthyEnv p) event).run World.empty.silent with ⟨r, w₁⟩
  obtain rfl : r = .ok () := by rwa [hrun] at hopens
  have hsame : SameOwners w₁ ((onChatStart (healthyEnv p) f.conversation_id event).run
      World.empty.silent).2 := by
    rw [onChatStart, Effect.run_bind_of_ok hrun]
    exact Effect.keeps_bind (sameOwners_push _) (fun _ => sameOwners_publishMessage _ _) w₁
  rw [Event.on, hsame.tracker, (run_openChat hrun).2] at hchats
  exact absurd (hchats.mp (Finset.mem_insert_self _ _)) (Finset.notMem_empty _)

/-- Another conversation is online. -/
def online (c : String) : World :=
  { World.empty with tracker := Tracker.empty.chatOnline c "user-1" "gateway-1" "" 0 }

/-- Another conversation's chat is ended: it is off the tracker. -/
theorem not_untouched_chatEnd {event : ChatEndEvent} (hc : f.conversation_id ≠ "")
    (he : f.event p = some (.chatEnd event)) :
    ¬Untouched event.conversation_id (online event.conversation_id)
      (f.process (healthyEnv p) [] (online event.conversation_id)) := by
  intro h
  have hshown : Tracker.shownAgent _ event.conversation_id = Tracker.shownAgent _ _ :=
    congrArg (AList.lookup "agent_id") h.tracker.chat
  rw [Frame.process_of_event (healthyEnv p) hc he] at hshown
  have hcloses : ((closeChat (healthyEnv p) event).run (online event.conversation_id).silent).1 =
      .ok () := ok_closeChat.mpr ⟨⟨rfl, fun _ => rfl⟩, rfl, fun _ => rfl⟩
  rcases hrun : (closeChat (healthyEnv p) event).run (online event.conversation_id).silent with
    ⟨r, w₁⟩
  obtain rfl : r = .ok () := by rwa [hrun] at hcloses
  have hsame : SameOwners w₁ ((onChatEnd (healthyEnv p) f.conversation_id event).run
      (online event.conversation_id).silent).2 := by
    rw [onChatEnd, Effect.run_bind_of_ok hrun]
    exact Effect.keeps_bind (sameOwners_push _) (fun _ => sameOwners_publishMessage _ _) w₁
  obtain ⟨w₂, hrelease, hoffline⟩ := Effect.then_eq_ok.mp hrun
  rw [Event.on, hsame.tracker, (run_chatOffline hoffline).2, (run_releaseAgentSlot hrelease).2,
    Tracker.shownAgent_chatOffline] at hshown
  simp [online] at hshown

/-- The router is as before. -/
def SameRouter (w w' : World) : Prop := w'.router = w.router

instance : Std.Refl SameRouter := ⟨fun _ => rfl⟩

instance : IsTrans World SameRouter := ⟨fun _ _ _ h h' => Eq.trans h' h⟩

theorem sameRouter_track {env : Env} (k : Call) (f : Tracker → Tracker) :
    Effect.Keeps SameRouter (env.track k f) :=
  Env.keeps_track fun w => (rfl : w.router = w.router)

/-- Another conversation is routed: an agent holds it. -/
theorem not_untouched_transferToAgent {event : TransferToAgentEvent} (hc : f.conversation_id ≠ "")
    (he : f.event p = some (.transferToAgent event)) :
    ¬Untouched event.conversation_id staffed (f.process (healthyEnv p) [] staffed) := by
  intro h
  have hactive := h.router.active
  rw [Frame.process_of_event (healthyEnv p) hc he] at hactive
  obtain ⟨w₁, hroute, hassigned⟩ : ∃ w₁, (routeToAgent (healthyEnv p) event.conversation_id).run
      staffed.silent = (.ok (some "agent-1"), w₁) ∧
        w₁.router.active event.conversation_id = some ⟨"agent-1", "active"⟩ :=
    ⟨_, rfl, Function.update_self ..⟩
  have hrecord : Effect.Keeps SameRouter (recordAssignment (healthyEnv p) f.conversation_id event
      "agent-1") := by
    exact Effect.keeps_bind ((sameOwners_dbExecute _ _).mono fun _ _ h => h.router) fun _ =>
      Effect.keeps_bind (sameRouter_track _ _) fun _ =>
        (sameOwners_publishMessage _ _).mono fun _ _ h => h.router
  have hsame : SameRouter w₁ ((onTransferToAgent (healthyEnv p) f.conversation_id event).run
      staffed.silent).2 := by
    rw [onTransferToAgent, Effect.run_bind_of_ok hroute]
    exact Effect.keeps_bind hrecord (fun _ => (sameOwners_push _).mono fun _ _ h => h.router) w₁
  rw [Event.on, hsame, hassigned] at hactive
  exact Option.some_ne_none _ hactive

/-- No row is ever deleted. -/
def Grows (s s' : Store) : Prop := ∀ table key, s.db table key ≠ none → s'.db table key ≠ none

instance : Std.Refl Grows := ⟨fun _ _ _ => id⟩

instance : IsTrans Store Grows := ⟨fun _ _ _ h h' table key hs => h' table key (h table key hs)⟩

theorem grows_dbExecute (stmt : Statement Table) : Effect.Keeps Grows (dbExecute stmt) := by
  refine keeps_dbExecute (fun _ _ _ => id) fun s db hdb table key hrow => ?_
  obtain ⟨-, key', -, rfl⟩ := Database.execute_eq_some.mp hdb
  simp only [Database.setRow]
  split
  · simp
  · exact hrow

theorem grows_writes (stmt : Statement Table) (stmts : List (Statement Table)) :
    Effect.Keeps Grows (writes stmt stmts) := by
  induction stmts generalizing stmt with
  | nil => exact grows_dbExecute stmt
  | cons next stmts ih => exact Effect.keeps_bind (grows_dbExecute stmt) fun _ => ih next

/-- The first of several statements leaves its row, also if a later one is refused. -/
theorem row_of_writes {stmt : Statement Table} {stmts : List (Statement Table)} {s : Store}
    (hs : Healthy s) (haccepted : stmt.accepted schema) {key : List Cell}
    (hkey : (schema stmt.table).keyOf stmt.bound = some key) :
    ((writes stmt stmts).run s).2.db stmt.table key ≠ none := by
  obtain ⟨db, hdb⟩ := Option.isSome_iff_exists.mp (Database.execute_isSome.trans haccepted)
  have hrun : (dbExecute stmt).run s = (.ok (), { s with db := db }) := by
    rw [run_dbExecute_of_healthy hs, hdb]
  have hrow : db stmt.table key ≠ none := by
    rw [Database.execute_self hdb hkey]
    simp
  cases stmts with
  | nil =>
    rw [writes, hrun]
    exact hrow
  | cons next stmts =>
    rw [writes, Effect.run_bind_of_ok hrun]
    exact grows_writes next stmts _ stmt.table key hrow

/-- The row of a first attempt stays. -/
theorem row_of_attempt {handler : Dict Json → Step Unit} {payload : Dict Json} {s : Store}
    {table : Table} {key : List Cell} (hgrows : Effect.Keeps Grows (handler payload))
    (hrow : ((handler payload).run s).2.db table key ≠ none) (n : ℕ) :
    ((attempt handler payload (n + 1)).run s).2.db table key ≠ none := by
  have hdlq : Effect.Keeps Grows (sendToDlq payload) := by
    rw [sendToDlq]
    split
    · exact Effect.keeps_modify fun _ _ _ => id
    · exact Effect.keeps_pure _
  simp only [attempt]
  rcases hrun : (handler payload).run s with ⟨r, s'⟩
  rw [hrun] at hrow
  cases r with
  | ok u => exact hrow
  | error e => exact keeps_attempt hdlq hgrows n s' table key hrow

/-- The records of an incoming message, when nothing fails. -/
theorem run_onIncomingMessage_healthy (p : Parsing) (key : String) {event : IncomingMessageEvent}
    (hwide : Wide event.timestamp) (hseq : Wide event.seq) :
    ((onIncomingMessage (healthyEnv p) key event).run World.empty.silent).2.db = .empty ∧
      ((onIncomingMessage (healthyEnv p) key event).run World.empty.silent).2.published =
        [⟨CHAT_ACKS, key, .obj (deliveredAck event)⟩,
          ⟨CHAT_PERSIST, key, .obj (incomingMessageRecord event)⟩] := by
  have hpush (payload : List (String × Json)) :
      (push (healthyEnv p) key payload).run World.empty.silent = (.ok (), World.empty.silent) := by
    have hreach : ¬ReachesClient (healthyEnv p) World.empty.silent key := by
      rintro ⟨⟨url, hurl⟩, -⟩
      exact nomatch hurl
    refine Prod.ext (ok_push.mpr nofun) ?_
    rw [run_push_snd, afterPush_of_not_reaches hreach]
  have hack (w : World) : (publishMessage CHAT_ACKS key (deliveredAck event)).run w = _ :=
    run_publishMessage_of_carried (by simp [deliveredAck]) (by simp [deliveredAck, hwide]) w
  have hrecord (w : World) :
      (publishMessage CHAT_PERSIST key (incomingMessageRecord event)).run w = _ :=
    run_publishMessage_of_carried (by simp [incomingMessageRecord])
      (by simp [incomingMessageRecord, hwide, hseq]) w
  rw [onIncomingMessage, Effect.run_bind, Effect.run_gather_cons_of_ok (hpush _),
    Effect.run_gather_cons_of_ok (hack _), Effect.run_gather_cons_of_ok rfl, Effect.gather_nil,
    Effect.run_pure]
  simp only [hrecord]
  exact ⟨rfl, rfl⟩

theorem persist_incomingMessageRecord (key : String) (event : IncomingMessageEvent)
    (db : Database Table) :
    persist [] [⟨CHAT_ACKS, key, .obj (deliveredAck event)⟩,
      ⟨CHAT_PERSIST, key, .obj (incomingMessageRecord event)⟩] db =
        ((attempt persistMessage (dictOf (incomingMessageRecord event)) 3).run
          (healthy db)).2.db := by
  have hconsume : consume (.obj (incomingMessageRecord event)) =
      attempt persistMessage (dictOf (incomingMessageRecord event)) 3 := rfl
  have hfilter : [(⟨CHAT_ACKS, key, .obj (deliveredAck event)⟩ : Message),
      ⟨CHAT_PERSIST, key, .obj (incomingMessageRecord event)⟩].filter
        (fun m => m.topic = CHAT_PERSIST) =
          [⟨CHAT_PERSIST, key, .obj (incomingMessageRecord event)⟩] := rfl
  rw [persist, hfilter, List.map_singleton, Effect.run_gather_cons_snd, Effect.gather_nil,
    Effect.run_pure, hconsume]
  rfl

/-- A message is stored for another conversation: it has a row. -/
theorem not_untouched_incomingMessage {event : IncomingMessageEvent} (hc : f.conversation_id ≠ "")
    (he : f.event p = some (.incomingMessage event)) (hrange : InRange event.timestamp)
    (hseq : Persistence.Int32 event.seq) :
    ¬Untouched event.conversation_id .empty (f.process (healthyEnv p) [] .empty) := by
  intro h
  have hwide : Wide event.timestamp := by
    rw [InRange] at hrange
    rw [Wide]
    omega
  have hwide' : Wide event.seq := by
    rw [Persistence.Int32] at hseq
    rw [Wide]
    omega
  obtain ⟨hdb, hpublished⟩ := run_onIncomingMessage_healthy p f.conversation_id hwide hwide'
  have hsome := ofMicros_isSome event.timestamp
  rw [decide_eq_true hrange] at hsome
  obtain ⟨now, hnow⟩ := Option.isSome_iff_exists.mp hsome
  have hrun := persistMessage_incomingMessageRecord event
  simp only [stamp, hnow, Effect.pure_bind] at hrun
  have hrow := h.rows .messages [.text event.conversation_id, .text now.strftime, now.cell,
    .text event.message_id] rfl
  rw [Frame.process_of_event (healthyEnv p) hc he] at hrow
  simp only [Event.on, hdb, hpublished] at hrow
  rw [persist_incomingMessageRecord] at hrow
  have hgrows : Effect.Keeps Grows (persistMessage (dictOf (incomingMessageRecord event))) :=
    hrun ▸ grows_writes _ _
  refine row_of_attempt hgrows ?_ 2 hrow
  rw [hrun]
  have hhealthy : Healthy (healthy .empty) := rfl
  exact row_of_writes hhealthy ((accepted_insertMessage ..).mpr hseq) rfl

end Harmful

/-! ### The exact statement -/

theorem conversation_id_of_parse {p : Parsing} {raw : Dict Json} {k : EventType} {e : Event}
    (h : Event.parse p raw k = some e) :
    field asStr raw "conversation_id" = some e.conversation_id := by
  cases k
  all_goals
    obtain ⟨event, hevent, rfl⟩ := Option.map_eq_some_iff.mp h
    simp only [ChatStartEvent.parse, IncomingMessageEvent.parse, OutgoingMessageEvent.parse,
      TransferToAgentEvent.parse, ChatEndEvent.parse, AckEvent.parse, Option.bind_eq_bind,
      Option.bind_eq_some_iff, Option.pure_def, Option.some.injEq] at hevent
    obtain ⟨_, -, c, hc, hrest⟩ := hevent
    repeat obtain ⟨_, -, hrest⟩ := hrest
    exact hc

/-- A frame that does not name a conversation is harmless. -/
theorem Frame.harmless_of_unnamed (p : Parsing) {f : Frame}
    (h : f.data.lookup "conversation_id" = none) : f.Harmless p := by
  intro _ e he
  obtain ⟨value, harrives, hvalue⟩ := Option.bind_eq_some_iff.mp he
  obtain ⟨sent, payload, hsent, hpayload, hlookup⟩ := Frame.exists_of_arrives harrives
  have hname : payload.lookup "conversation_id" = some (.str f.conversation_id) := by
    rw [hlookup, Frame.conversation_id_of_payload hsent, h]
    rfl
  rw [hpayload, Option.bind_eq_bind, Option.bind_some] at hvalue
  have hown : e.conversation_id = f.conversation_id := by
    split at hvalue
    · have hfield := conversation_id_of_parse hvalue
      rw [field, hname] at hfield
      exact (Option.some.inj hfield).symm
    · exact absurd hvalue (by simp)
  cases e with
  | chatStart event | incomingMessage event => exact Or.inl hown
  | transferToAgent event | chatEnd event => exact hown
  | outgoingMessage event | ack event => exact trivial

/-- **Isolation.** Whatever the services contain and however their calls end, processing a frame
touches no conversation but the one of its socket; if and only if the frame is harmless. -/
theorem isolated_iff (p : Parsing) (f : Frame) :
    (∀ (env : Env) (faults : List Bool) (w : World) (d : String), env.parsing = p →
      d ≠ f.conversation_id → Untouched d w (f.process env faults w)) ↔ f.Harmless p := by
  constructor
  · intro h hc e he
    have hall (w : World) (d : String) (hd : d ≠ f.conversation_id) :
        Untouched d w (f.process (healthyEnv p) [] w) := h (healthyEnv p) [] w d rfl hd
    cases e with
    | chatStart event =>
      by_cases hname : event.conversation_id = f.conversation_id
      · exact Or.inl hname
      · refine Or.inr (by_contra fun hnamed => ?_)
        exact not_untouched_chatStart hc he hnamed (hall .empty _ hname)
    | incomingMessage event =>
      by_cases hname : event.conversation_id = f.conversation_id
      · exact Or.inl hname
      · refine Or.inr fun ⟨hrange, hseq⟩ => ?_
        exact not_untouched_incomingMessage hc he hrange hseq (hall .empty _ hname)
    | outgoingMessage event => exact trivial
    | transferToAgent event =>
      refine by_contra fun hname => ?_
      exact not_untouched_transferToAgent hc he (hall staffed _ hname)
    | chatEnd event =>
      refine by_contra fun hname => ?_
      exact not_untouched_chatEnd hc he (hall (online event.conversation_id) _ hname)
    | ack event => exact trivial
  · rintro h env faults w d rfl hd
    exact untouched_of_harmless h faults w hd

/-- A frame that names another conversation. -/
def forged : Frame where
  conversation_id := "conv-1"
  user_id := "customer:conv-1"
  bot_id := "bot-1"
  uuid := "5d0c6b1e-6a55-4b8e-9a35-6a4cf2a10b5e"
  timestamp := 1748260800
  data := ([⟨"event_type", .str "chat_end"⟩, ⟨"conversation_id", .str "conv-2"⟩] :
    List (Σ _ : String, Json)).toAList

/-- A client ends the chat of another conversation. -/
theorem not_isolated :
    ¬ ∀ (env : Env) (faults : List Bool) (f : Frame) (w : World) (d : String),
      d ≠ f.conversation_id → Untouched d w (f.process env faults w) := by
  intro h
  have hchat := (h (.healthy .noon) [] forged (online "conv-2") "conv-2" (by decide)).tracker.chats
  exact absurd (hchat.mpr (by decide)) (by decide)

end TitanChat
