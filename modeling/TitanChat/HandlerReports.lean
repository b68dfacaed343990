import TitanChat.Handlers

/-!
# What a client is told and what is stored

A handler tells the client about an event with a push, or with a delivered ack on `chat-acks`, and
hands the event's record to `chat-persist` afterwards. When a call in between raises, the client has
been told about something that is never stored.

Where this happens differs between the handlers. Those that push and publish one after the other
lose only records that cannot be serialised. Those that push concurrently with other calls lose the
record as soon as one of these raises: `asyncio.gather` lets the push go on, but the handler stops.

## Main definitions

* `Reported`, `Persisted`: what the log of a run says
* `Safe`: the condition, for each event

## Main results

* `reported_is_persisted_iff`: the exact statement
-/

namespace TitanChat

namespace Handlers

open Json (Wide)

/-- The client has been told: something was pushed to it, or a delivered ack was published. -/
def Reported (w : World) : Prop := w.pushed ≠ [] ∨ ∃ m ∈ w.published, m.topic = CHAT_ACKS

/-- The record was published to `chat-persist`. -/
def Persisted (key : String) (record : List (String × Json)) (w : World) : Prop :=
  ⟨CHAT_PERSIST, key, .obj record⟩ ∈ w.published

/-- Nothing is pushed or published, and pushes go where they went. -/
structure SameOutputs (w w' : World) : Prop where
  pushed : w'.pushed = w.pushed
  published : w'.published = w.published
  connections : w'.connections = w.connections
  gateways : w'.gateways = w.gateways

instance : Std.Refl SameOutputs := ⟨fun _ => ⟨rfl, rfl, rfl, rfl⟩⟩

instance : IsTrans World SameOutputs :=
  ⟨fun _ _ _ h h' => ⟨h'.1.trans h.1, h'.2.trans h.2, h'.3.trans h.3, h'.4.trans h.4⟩⟩

variable {env : Env} {w w' : World} {key : String}

theorem SameOutputs.pushTarget (h : SameOutputs w w') (key : String) :
    pushTarget env w' key = TitanChat.pushTarget env w key := by
  rw [TitanChat.pushTarget, TitanChat.pushTarget, h.connections, h.gateways]

/-! ### The calls that report nothing -/

theorem keeps_openChat (event : ChatStartEvent) :
    Effect.Keeps SameOutputs (openChat env event) := by
  have hdb (c : Call) (stmt : WideColumn.Statement Table) :
      Effect.Keeps SameOutputs (env.dbExecute c stmt) :=
    Env.keeps_dbExecute fun _ _ _ => ⟨rfl, rfl, rfl, rfl⟩
  have honline : Effect.Keeps SameOutputs (chatOnline env event.conversation_id event.user_id
      env.serverId event.bot_id) := Env.keeps_track fun _ => ⟨rfl, rfl, rfl, rfl⟩
  refine Effect.keeps_bind (hdb _ _) fun _ => ?_
  by_cases hbot : event.bot_id ≠ ""
  · simp only [if_pos hbot]
    exact Effect.keeps_bind (hdb _ _) fun _ => honline
  · simp only [if_neg hbot]
    exact honline

theorem keeps_closeChat (event : ChatEndEvent) :
    Effect.Keeps SameOutputs (closeChat env event) :=
  Effect.keeps_bind (keeps_releaseAgentSlot fun _ _ => ⟨rfl, rfl, rfl, rfl⟩) fun _ =>
    keeps_chatOffline fun _ _ => ⟨rfl, rfl, rfl, rfl⟩

theorem keeps_chatMessageReceived (conversation_id : String) :
    Effect.Keeps SameOutputs (chatMessageReceived env conversation_id) :=
  Env.keeps_track fun _ => ⟨rfl, rfl, rfl, rfl⟩

theorem push_published (payload : List (String × Json)) (w : World) :
    ((push env key payload).run w).2.published = w.published := by
  rw [run_push_snd]
  by_cases h : ReachesClient env w key
  · rw [afterPush_of_reaches h]
  · rw [afterPush_of_not_reaches h]

/-! ### A handler publishes its record last -/

theorem not_reported_silent (h : SameOutputs w.silent w') : ¬Reported w' := by
  rintro (hp | ⟨m, hm, -⟩)
  · exact hp h.pushed
  · rw [h.published] at hm
    exact absurd hm (by simp [World.silent])

/-- **The last call.** The record is published if nothing has raised before and it can be
serialised, and otherwise nothing is. -/
theorem run_publish_last (told : Act Unit) {record : List (String × Json)}
    (hscalar : ∀ kv ∈ record, kv.2.Scalar) (key : String) (w : World) :
    let w' := (told.run w).2
    let w₁ := ((told >>= fun _ => publishMessage CHAT_PERSIST key record).run w).2
    ((told.run w).1 = .ok () ∧ (∀ kv ∈ record, kv.2.Carried)) ∧
        w₁ = { w' with published := w'.published ++ [⟨CHAT_PERSIST, key, .obj record⟩] } ∨
      ¬((told.run w).1 = .ok () ∧ ∀ kv ∈ record, kv.2.Carried) ∧ w₁ = w' := by
  rcases hr : told.run w with ⟨r, w'⟩
  cases r with
  | error e =>
    rw [Effect.run_bind_of_error hr]
    exact Or.inr ⟨fun h => by simp at h, rfl⟩
  | ok u =>
    rw [Effect.run_bind_of_ok hr]
    by_cases hc : ∀ kv ∈ record, kv.2.Carried
    · rw [run_publishMessage_of_carried hscalar hc]
      exact Or.inl ⟨⟨rfl, hc⟩, rfl⟩
    · rw [run_publishMessage_of_not_carried hscalar hc]
      exact Or.inr ⟨fun h => hc h.2, rfl⟩

/-- What the client was told before the record was published has to be stored: nothing, or nothing
raises and the record can be serialised. -/
theorem publish_last_iff {told : Act Unit} {record : List (String × Json)}
    (hscalar : ∀ kv ∈ record, kv.2.Scalar)
    (hnone : ∀ m ∈ (told.run w).2.published, m.topic ≠ CHAT_PERSIST) {w₁ : World}
    (hrun : ((told >>= fun _ => publishMessage CHAT_PERSIST key record).run w).2 = w₁) :
    (Reported w₁ → Persisted key record w₁) ↔
      (Reported (told.run w).2 → (told.run w).1 = .ok () ∧ ∀ kv ∈ record, kv.2.Carried) := by
  subst hrun
  rcases run_publish_last told hscalar key w with ⟨hsaid, hlast⟩ | ⟨hsaid, hlast⟩
  · rw [hlast]
    exact iff_of_true (fun _ => List.mem_append_right _ (List.mem_singleton_self _))
      fun _ => hsaid
  · have hno : ¬Persisted key record (told.run w).2 := fun h => hnone _ h rfl
    rw [hlast]
    exact forall_congr' fun _ => iff_of_false hno hsaid

/-- A handler that makes some calls and then pushes. -/
theorem told_of_sequence {first : Act Unit} (hfirst : Effect.Keeps SameOutputs first)
    (payload : List (String × Json)) {told : Act Unit}
    (htold : told = first >>= fun _ => push env key payload) :
    (∀ m ∈ (told.run w.silent).2.published, m.topic ≠ CHAT_PERSIST) ∧
      (Reported (told.run w.silent).2 ↔
        (first.run w.silent).1 = .ok () ∧ ReachesClient env w key) ∧
      ((told.run w.silent).1 = .ok () ↔
        (first.run w.silent).1 = .ok () ∧ ¬PushRaises env w key) := by
  subst htold
  have hsame := hfirst w.silent
  rcases hr : first.run w.silent with ⟨r, w'⟩
  rw [hr] at hsame
  cases r with
  | error e =>
    rw [Effect.run_bind_of_error hr]
    refine ⟨fun m hm => ?_, iff_of_false (not_reported_silent hsame) (by simp), by simp⟩
    rw [hsame.published] at hm
    exact absurd hm (by simp [World.silent])
  | ok u =>
    have htarget : pushTarget env w' key = pushTarget env w key := hsame.pushTarget key
    rw [Effect.run_bind_of_ok hr]
    refine ⟨fun m hm => ?_, ?_, ?_⟩
    · rw [push_published, hsame.published] at hm
      exact absurd hm (by simp [World.silent])
    · rw [run_push_snd]
      by_cases hreach : ReachesClient env w' key
      · rw [afterPush_of_reaches hreach]
        exact iff_of_true (Or.inl (by simp)) ⟨rfl, by rwa [ReachesClient, ← htarget]⟩
      · rw [afterPush_of_not_reaches hreach]
        refine iff_of_false (not_reported_silent hsame) fun h => hreach ?_
        rw [ReachesClient, htarget]
        exact h.2
    · rw [ok_push, PushRaises, htarget, PushRaises]
      simp

/-- A push alone. -/
theorem reported_push_iff (payload : List (String × Json)) :
    Reported ((push env key payload).run w.silent).2 ↔ ReachesClient env w key := by
  rw [run_push_snd]
  by_cases hreach : ReachesClient env w.silent key
  · rw [afterPush_of_reaches hreach]
    exact iff_of_true (Or.inl (by simp)) hreach
  · rw [afterPush_of_not_reaches hreach]
    exact iff_of_false (not_reported_silent (refl _)) hreach

theorem reported_congr (hpushed : w'.pushed = w.pushed) (hpublished : w'.published = w.published) :
    Reported w' ↔ Reported w := by
  rw [Reported, Reported, hpushed, hpublished]

theorem chatMessageReceived_published (conversation_id : String) (w : World) :
    ((chatMessageReceived env conversation_id).run w).2.published = w.published :=
  (keeps_chatMessageReceived _ w).published

theorem reported_chatMessageReceived (conversation_id : String) :
    Reported ((chatMessageReceived env conversation_id).run w).2 ↔ Reported w := by
  have hsame : SameOutputs w ((chatMessageReceived env conversation_id).run w).2 :=
    keeps_chatMessageReceived conversation_id w
  exact reported_congr hsame.pushed hsame.published

theorem ok_chatMessageReceived {conversation_id : String} :
    ((chatMessageReceived env conversation_id).run w).1 = .ok () ↔
      env.outcome .chatMessageReceived = .done :=
  Env.ok_track

/-- A push beside an update of the tracker. -/
theorem told_of_outgoing (payload : List (String × Json)) {told : Act Unit}
    (htold : told = Effect.gather [push env key payload, chatMessageReceived env key]) :
    (∀ m ∈ (told.run w.silent).2.published, m.topic ≠ CHAT_PERSIST) ∧
      (Reported (told.run w.silent).2 ↔ ReachesClient env w key) ∧
      ((told.run w.silent).1 = .ok () ↔
        ¬PushRaises env w key ∧ env.outcome .chatMessageReceived = .done) := by
  subst htold
  refine ⟨fun m hm => ?_, ?_, ?_⟩
  · rw [Effect.run_gather_cons_snd, Effect.run_gather_cons_snd, Effect.gather_nil, Effect.run_pure,
      chatMessageReceived_published, push_published] at hm
    exact absurd hm (by simp [World.silent])
  · rw [Effect.run_gather_cons_snd, Effect.run_gather_cons_snd, Effect.gather_nil, Effect.run_pure,
      reported_chatMessageReceived, reported_push_iff]
  · rw [Effect.ok_gather_cons, Effect.ok_gather_cons, Effect.gather_nil, ok_push,
      ok_chatMessageReceived]
    exact ⟨fun h => ⟨h.1, h.2.1⟩, fun h => ⟨h.1, h.2, rfl⟩⟩

/-- A push beside a delivered ack and an update of the tracker. -/
theorem told_of_incoming (payload : List (String × Json)) (event : IncomingMessageEvent)
    {told : Act Unit}
    (htold : told = Effect.gather [push env key payload,
      publishMessage CHAT_ACKS key (deliveredAck event), chatMessageReceived env key]) :
    (∀ m ∈ (told.run w.silent).2.published, m.topic ≠ CHAT_PERSIST) ∧
      (Reported (told.run w.silent).2 ↔ ReachesClient env w key ∨ Wide event.timestamp) ∧
      ((told.run w.silent).1 = .ok () ↔ ¬PushRaises env w key ∧ Wide event.timestamp ∧
        env.outcome .chatMessageReceived = .done) := by
  subst htold
  have hscalar : ∀ kv ∈ deliveredAck event, kv.2.Scalar := by simp [deliveredAck]
  have hcarried : (∀ kv ∈ deliveredAck event, kv.2.Carried) ↔ Wide event.timestamp := by
    simp [deliveredAck]
  have hpublished : ((push env key payload).run w.silent).2.published = [] :=
    push_published payload w.silent
  have hlast : ((Effect.gather [push env key payload,
      publishMessage CHAT_ACKS key (deliveredAck event), chatMessageReceived env key]).run
        w.silent).2 = ((chatMessageReceived env key).run ((publishMessage CHAT_ACKS key
          (deliveredAck event)).run ((push env key payload).run w.silent).2).2).2 := by
    rw [Effect.run_gather_cons_snd, Effect.run_gather_cons_snd, Effect.run_gather_cons_snd,
      Effect.gather_nil, Effect.run_pure]
  rw [hlast, chatMessageReceived_published, reported_chatMessageReceived, Effect.ok_gather_cons,
    Effect.ok_gather_cons, Effect.ok_gather_cons, Effect.gather_nil, ok_push,
    ok_chatMessageReceived]
  by_cases hwide : Wide event.timestamp
  · rw [run_publishMessage_of_carried hscalar (hcarried.mpr hwide)]
    refine ⟨fun m hm => ?_, ?_, ?_⟩
    · rw [hpublished] at hm
      obtain rfl := List.mem_singleton.mp hm
      exact (by decide : CHAT_ACKS ≠ CHAT_PERSIST)
    · exact iff_of_true (Or.inr ⟨_, List.mem_append_right _ (List.mem_singleton_self _), rfl⟩)
        (Or.inr hwide)
    · exact ⟨fun h => ⟨h.1, hwide, h.2.2.1⟩, fun h => ⟨h.1, rfl, h.2.2, rfl⟩⟩
  · rw [run_publishMessage_of_not_carried hscalar (mt hcarried.mp hwide), hpublished,
      reported_push_iff]
    simp [hwide]

/-! ### The calls that come first -/

/-- The database and the tracker take a new chat. -/
structure Opens (env : Env) (event : ChatStartEvent) : Prop where
  insertConversation : env.outcome .insertConversation = .done
  named : event.conversation_id ≠ ""
  insertConversationByBot : event.bot_id ≠ "" → env.outcome .insertConversationByBot = .done
  chatOnline : env.outcome .chatOnline = .done

/-- The router and the tracker let go of a chat. A pipeline with nothing to undo is not called. -/
def Closes (env : Env) (w : World) (conversation_id : String) : Prop :=
  (env.outcome .releaseRead = .done ∧
      (w.router.releaseRead conversation_id ≠ none → env.outcome .releaseExec = .done)) ∧
    env.outcome .chatOfflineRead = .done ∧
      ((w.tracker.chat conversation_id).entries.isEmpty = false →
        env.outcome .chatOfflineExec = .done)

theorem ok_openChat {event : ChatStartEvent} :
    ((openChat env event).run w).1 = .ok () ↔ Opens env event := by
  have haccepted : (insertConversation env event).accepted schema ↔ event.conversation_id ≠ "" := by
    rw [accepted_insertConversation, decide_eq_true_eq]
  rw [openChat, Effect.ok_then, Env.ok_dbExecute, haccepted]
  by_cases hbot : event.bot_id ≠ ""
  · have hbybot : (insertConversationByBot env event).accepted schema := by
      rw [accepted_insertConversationByBot, decide_eq_true_eq]
      exact hbot
    simp only [if_pos hbot]
    rw [Effect.ok_then, Env.ok_dbExecute, chatOnline, Env.ok_track]
    exact ⟨fun ⟨⟨h₁, h₂⟩, h₃, h₄⟩ => ⟨h₁, h₂, fun _ => h₃.1, h₄⟩,
      fun h => ⟨⟨h.1, h.2⟩, ⟨h.3 hbot, hbybot⟩, h.4⟩⟩
  · simp only [if_neg hbot]
    rw [chatOnline]
    exact ⟨fun ⟨⟨h₁, h₂⟩, h₃⟩ => ⟨h₁, h₂, fun h => absurd h hbot, Env.ok_track.mp h₃⟩,
      fun h => ⟨⟨h.1, h.2⟩, Env.ok_track.mpr h.4⟩⟩

theorem releaseAgentSlot_tracker (conversation_id : String) :
    ((releaseAgentSlot env conversation_id).run w).2.tracker = w.tracker := by
  rw [releaseAgentSlot]
  by_cases hread : env.outcome .releaseRead = .done
  · rw [Effect.run_bind_of_ok (Env.run_get_of_done hread ..)]
    cases w.router.releaseRead conversation_id with
    | none => rfl
    | some agent_id =>
      simp only [Env.route, Env.call]
      cases env.outcome .releaseExec <;> rfl
  · rw [Effect.run_bind_of_error (Env.run_get_of_not_done hread ..)]

theorem ok_releaseAgentSlot {conversation_id : String} :
    ((releaseAgentSlot env conversation_id).run w).1 = .ok () ↔
      env.outcome .releaseRead = .done ∧
        (w.router.releaseRead conversation_id ≠ none → env.outcome .releaseExec = .done) := by
  rw [releaseAgentSlot]
  by_cases hread : env.outcome .releaseRead = .done
  · rw [Effect.run_bind_of_ok (Env.run_get_of_done hread ..)]
    cases hagent : w.router.releaseRead conversation_id with
    | none => simp [hread]
    | some agent_id => simp [Env.ok_route, hread]
  · rw [Effect.run_bind_of_error (Env.run_get_of_not_done hread ..)]
    simp [hread]

theorem ok_chatOffline {conversation_id : String} :
    ((chatOffline env conversation_id).run w).1 = .ok () ↔
      env.outcome .chatOfflineRead = .done ∧
        ((w.tracker.chat conversation_id).entries.isEmpty = false →
          env.outcome .chatOfflineExec = .done) := by
  rw [chatOffline]
  by_cases hread : env.outcome .chatOfflineRead = .done
  · rw [Effect.run_bind_of_ok (Env.run_get_of_done hread ..)]
    cases hempty : (w.tracker.chat conversation_id).entries.isEmpty with
    | true => simp [hread]
    | false => simp [Env.ok_track, hread]
  · rw [Effect.run_bind_of_error (Env.run_get_of_not_done hread ..)]
    simp [hread]

theorem ok_closeChat {event : ChatEndEvent} :
    ((closeChat env event).run w).1 = .ok () ↔ Closes env w event.conversation_id := by
  rw [closeChat, Effect.ok_then, ok_releaseAgentSlot, ok_chatOffline, releaseAgentSlot_tracker,
    Closes]

/-! ### The condition -/

/-- The record that the handler of an event publishes to `chat-persist`. A transfer has one only if
an agent is found, and is not among the events here. -/
def Event.record : Event → List (String × Json)
  | .chatStart event => chatStartRecord event
  | .incomingMessage event => incomingMessageRecord event
  | .outgoingMessage event => outgoingMessageRecord event
  | .transferToAgent _ => []
  | .chatEnd event => chatEndRecord event
  | .ack event => ackRecord event

/-- When a handler that has told the client something goes on to hand over the record. -/
def Safe (env : Env) (w : World) (key : String) : Event → Prop
  | .chatStart event => Opens env event ∧ ReachesClient env w key → Wide event.timestamp
  | .incomingMessage event => ReachesClient env w key ∨ Wide event.timestamp →
      ¬PushRaises env w key ∧ env.outcome .chatMessageReceived = .done ∧
        Wide event.timestamp ∧ Wide event.seq
  | .outgoingMessage event => ReachesClient env w key →
      env.outcome .chatMessageReceived = .done ∧ Wide event.timestamp ∧ Wide event.seq
  | .transferToAgent _ => True
  | .chatEnd event => Closes env w event.conversation_id ∧ ReachesClient env w key →
      Wide event.timestamp
  | .ack event => ReachesClient env w key → Wide event.timestamp

/-! ### Every handler -/

theorem Event.record_scalar (e : Event) : ∀ kv ∈ e.record, kv.2.Scalar := by
  cases e with
  | chatStart event => simp [Event.record, chatStartRecord]
  | incomingMessage event => simp [Event.record, incomingMessageRecord]
  | outgoingMessage event => simp [Event.record, outgoingMessageRecord]
  | transferToAgent event => simp [Event.record]
  | chatEnd event => simp [Event.record, chatEndRecord]
  | ack event => simp [Event.record, ackRecord]

/-- A handler of the form: first some calls, then a push, then the record. -/
theorem sequence_iff {first told : Act Unit} {record : List (String × Json)}
    (payload : List (String × Json)) (hfirst : Effect.Keeps SameOutputs first)
    (htold : told = first >>= fun _ => push env key payload)
    (hscalar : ∀ kv ∈ record, kv.2.Scalar) {w₁ : World}
    (hrun : ((told >>= fun _ => publishMessage CHAT_PERSIST key record).run w.silent).2 = w₁) :
    (Reported w₁ → Persisted key record w₁) ↔
      ((first.run w.silent).1 = .ok () ∧ ReachesClient env w key →
        ∀ kv ∈ record, kv.2.Carried) := by
  obtain ⟨hnone, hreported, hok⟩ := told_of_sequence hfirst payload htold
  rw [publish_last_iff hscalar hnone hrun, hreported, hok]
  exact ⟨fun h hreach => (h hreach).2, fun h hreach =>
    ⟨⟨hreach.1, hreach.2.not_raises⟩, h hreach⟩⟩

theorem EventType.eq_transferToAgent {p : Parsing} {raw : Dict Json} {k : EventType}
    {event : TransferToAgentEvent} (h : Event.parse p raw k = some (.transferToAgent event)) :
    k = .transferToAgent := by
  cases k with
  | transferToAgent => rfl
  | chatStart | incomingMessage | outgoingMessage | chatEnd | ack => simp [Event.parse] at h

/-- **What the client is told is handed to persistence.** For each valid event, however the calls of
its handler end and whatever the services contain. -/
theorem reported_is_persisted_iff (env : Env) (w : World) (key : String) (raw : Dict Json)
    (k : EventType) (e : Event) (hvalid : Event.parse env.parsing raw k = some e)
    (hk : k ≠ .transferToAgent) :
    let w' := ((handle env k key raw).run w.silent).2
    (Reported w' → Persisted key e.record w') ↔ Safe env w key e := by
  intro w'
  have hrun : ((e.on env key).run w.silent).2 = w' := by rw [← handle_of_parse hvalid]
  have hscalar := e.record_scalar
  cases e with
  | chatStart event =>
    rw [Event.on, onChatStart, ← Effect.bind_assoc] at hrun
    refine (sequence_iff _ (keeps_openChat event) rfl hscalar hrun).trans ?_
    rw [ok_openChat]
    simp [Safe, Event.record, chatStartRecord]
  | incomingMessage event =>
    obtain ⟨hnone, hreported, hok⟩ := told_of_incoming (w := w) _ event rfl
    refine (publish_last_iff hscalar hnone hrun).trans ?_
    have hcarried : (∀ kv ∈ (Event.incomingMessage event).record, kv.2.Carried) ↔
        Wide event.seq ∧ Wide event.timestamp := by
      simp [Event.record, incomingMessageRecord]
    rw [hreported, hok, hcarried]
    refine forall_congr' fun _ => ?_
    constructor
    · rintro ⟨⟨hpush, hwide, htracker⟩, hseq, -⟩
      exact ⟨hpush, htracker, hwide, hseq⟩
    · rintro ⟨hpush, htracker, hwide, hseq⟩
      exact ⟨⟨hpush, hwide, htracker⟩, hseq, hwide⟩
  | outgoingMessage event =>
    obtain ⟨hnone, hreported, hok⟩ := told_of_outgoing (w := w) _ rfl
    refine (publish_last_iff hscalar hnone hrun).trans ?_
    have hcarried : (∀ kv ∈ (Event.outgoingMessage event).record, kv.2.Carried) ↔
        Wide event.seq ∧ Wide event.timestamp := by
      simp [Event.record, outgoingMessageRecord]
    rw [hreported, hok, hcarried]
    refine forall_congr' fun hreach => ?_
    constructor
    · rintro ⟨⟨-, htracker⟩, hseq, hwide⟩
      exact ⟨htracker, hwide, hseq⟩
    · rintro ⟨htracker, hwide, hseq⟩
      exact ⟨⟨hreach.not_raises, htracker⟩, hseq, hwide⟩
  | transferToAgent event => exact absurd (EventType.eq_transferToAgent hvalid) hk
  | chatEnd event =>
    rw [Event.on, onChatEnd, ← Effect.bind_assoc] at hrun
    refine (sequence_iff _ (keeps_closeChat event) rfl hscalar hrun).trans ?_
    rw [ok_closeChat]
    simp [Safe, Event.record, chatEndRecord, Closes, World.silent]
  | ack event =>
    refine (sequence_iff _ (Effect.keeps_pure ()) rfl hscalar hrun).trans ?_
    simp [Safe, Event.record, ackRecord]

/-- A message to a conversation. -/
def hello (event_type : String) : Dict Json :=
  [⟨"event_type", .str event_type⟩, ⟨"conversation_id", .str "conv-1"⟩,
    ⟨"message_id", .str "msg-1"⟩, ⟨"user_id", .str "user-1"⟩, ⟨"message", .str "Hello"⟩,
    ⟨"ack_type", .str "read"⟩, ⟨"timestamp", .int 1748275200⟩].toAList

/-- The event that it is as an incoming message. -/
def helloEvent : IncomingMessageEvent where
  conversation_id := "conv-1"
  message_id := "msg-1"
  user_id := "user-1"
  bot_id := ""
  message := "Hello"
  timestamp := 1748275200
  seq := 0

/-- The tracker does not answer. -/
def trackerDown : Env :=
  { Env.healthy .noon with
    outcome := fun c => if c = .chatMessageReceived then .refused else .done }

theorem reported_is_persisted_iff_hello :
    let e := Event.incomingMessage helloEvent
    let w' := ((handle trackerDown .incomingMessage "conv-1" (hello "incoming_message")).run
      World.empty.silent).2
    (Reported w' → Persisted "conv-1" e.record w') ↔ Safe trackerDown .empty "conv-1" e :=
  reported_is_persisted_iff trackerDown .empty "conv-1" (hello "incoming_message")
    .incomingMessage _ rfl (by decide)

/-- The delivered ack of a message is published and the tracker does not answer, so the message is
never stored. -/
theorem not_reported_is_persisted :
    ¬ ∀ (env : Env) (w : World) (key : String) (raw : Dict Json) (k : EventType) (e : Event),
      Event.parse env.parsing raw k = some e → k ≠ .transferToAgent →
        let w' := ((handle env k key raw).run w.silent).2
        Reported w' → Persisted key e.record w' := by
  intro h
  have hstored := h trackerDown .empty "conv-1" (hello "incoming_message") .incomingMessage _ rfl
    (by decide) (Or.inr ⟨_, List.mem_singleton_self _, rfl⟩)
  have htopic : (CHAT_PERSIST : String) = CHAT_ACKS :=
    congrArg Message.topic (List.mem_singleton.mp hstored)
  exact absurd htopic (by decide)

end Handlers

end TitanChat
